import Routn.Foundation.Transition
import Routn.IoManager.Coherence

/-!
# Sequences of operations on the event table

`Consistent` ties the counter, the kernel, the masks and the event contexts together.  Every
operation keeps it when it is called as it should be; `delEvent` and `cancelEvent` of an event that
is not registered should answer `false` and change nothing.  They do so when no event of the
descriptor is registered: for `READ` because of the test `(!fd_ctx->events) & event`, for `WRITE`
because the kernel does not have the descriptor.  When the other event is registered, both of them
go on.
-/

namespace Routn

open Foundation

namespace FdContext

/-- The number of registered events. -/
def registered (ctx : FdContext) : Nat :=
  (if ctx.events &&& Event.READ.bit = 0 then 0 else 1) +
    (if ctx.events &&& Event.WRITE.bit = 0 then 0 else 1)

/-- The event context has a scheduler, and either a fiber or a callback. -/
def Filled (slot : EventContext) : Prop :=
  slot.scheduler.isSome = true ∧ slot.fiber.isSome = !slot.callback.isSome

/-- The event context is filled if the bit is set, and else it is empty. -/
def Slot (ctx : FdContext) (event : Event) : Prop :=
  if ctx.events &&& event.bit = 0 then ctx.getContext event = ⟨none, none, none⟩
  else Filled (ctx.getContext event)

variable {fd : Nat} {waits : Event → Option Waiter} {event : Event}

theorem registered_of :
    (of fd waits).registered = (waits .READ).isSome.toNat + (waits .WRITE).isSome.toNat := by
  have hbit : ∀ event, (if mask waits &&& event.bit = 0 then 0 else 1) =
      (waits event).isSome.toNat := by
    intro event
    cases hwaits : waits event with
    | none => rw [if_pos (mask_and_bit_eq_zero.mpr hwaits)]; rfl
    | some waiter =>
        have hset : ¬ mask waits &&& event.bit = 0 := by
          rw [mask_and_bit_eq_zero, hwaits]
          exact Option.some_ne_none waiter
        rw [if_neg hset]; rfl
  rw [registered, of_events, hbit, hbit]

theorem slot_of (fd : Nat) (waits : Event → Option Waiter) (event : Event) :
    (of fd waits).Slot event := by
  rw [Slot, of_events, getContext_of]
  split
  · next hclear => rw [mask_and_bit_eq_zero.mp hclear, EventContext.of_none]
  · next hset =>
      rw [mask_and_bit_eq_zero] at hset
      obtain ⟨waiter, hwaiter⟩ := Option.ne_none_iff_exists'.mp hset
      rw [hwaiter]
      rcases waiter with ⟨scheduler, fiber | callback⟩ <;> exact ⟨rfl, rfl⟩

theorem registered_none (fd : Nat) : (of fd fun _ => none).registered = 0 := by
  rw [registered_of]
  rfl

theorem registered_update (fd : Nat) (waits : Event → Option Waiter) (waiter : Option Waiter)
    (event : Event) :
    (of fd (Function.update waits event waiter)).registered + (waits event).isSome.toNat =
      (of fd waits).registered + waiter.isSome.toNat := by
  rw [registered_of, registered_of]
  cases event with
  | READ =>
      have hread : Function.update waits .READ waiter .READ = waiter := Function.update_self ..
      have hwrite : Function.update waits .READ waiter .WRITE = waits .WRITE := rfl
      rw [hread, hwrite]
      omega
  | WRITE =>
      have hread : Function.update waits .WRITE waiter .READ = waits .READ := rfl
      have hwrite : Function.update waits .WRITE waiter .WRITE = waiter := Function.update_self ..
      rw [hread, hwrite]
      omega

theorem length_woken : (IOManager.woken fd waits).length = (of fd waits).registered := by
  rw [registered_of, IOManager.woken]
  cases waits .READ <;> cases waits .WRITE <;> rfl

end FdContext

namespace IOManager

open FdContext

inductive Op
  | addEvent (fd : Nat) (event : Event) (cb : Option Nat) (scheduler fiber : Nat)
  | delEvent (fd : Nat) (event : Event)
  | cancelEvent (fd : Nat) (event : Event)
  | cancelAll (fd : Nat)
deriving DecidableEq, Repr

/-- The answer to `addEvent` is whether it has returned 0. -/
def call (m : IOManager) : Op → Option (Bool × IOManager)
  | .addEvent fd event cb scheduler fiber =>
      (m.addEvent fd event cb scheduler fiber).map fun answer => (answer.1 == 0, answer.2)
  | .delEvent fd event => m.delEvent fd event
  | .cancelEvent fd event => m.cancelEvent fd event
  | .cancelAll fd => m.cancelAll fd

/-- `addEvent` is called for events that are not registered. -/
def Legal (m : IOManager) : Op → Prop
  | .addEvent fd event _ _ _ => m.events fd &&& event.bit = 0
  | _ => True

/-- What `delEvent` and `cancelEvent` promise for an event that is not registered. -/
def Right (m : IOManager) (op : Op) (answer : Bool) (m' : IOManager) : Prop :=
  match op with
  | .delEvent fd event => m.events fd &&& event.bit = 0 → answer = false ∧ m' = m
  | .cancelEvent fd event => m.events fd &&& event.bit = 0 → answer = false ∧ m' = m
  | _ => True

/-- The event that `delEvent` or `cancelEvent` is called for is registered, or no event of the
descriptor is. -/
def NotTheOther (m : IOManager) : Op → Prop
  | .delEvent fd event => m.events fd = 0 ∨ m.events fd &&& event.bit ≠ 0
  | .cancelEvent fd event => m.events fd = 0 ∨ m.events fd &&& event.bit ≠ 0
  | _ => True

/-- The number of registered events of all descriptors. -/
def registered (m : IOManager) : Nat := total FdContext.registered m.fdContexts

structure Consistent (m : IOManager) : Prop where
  count : m.pendingEventCount = UInt64.ofNat m.registered
  kernel : ∀ fd, m.epoll fd = interest (m.events fd)
  slots : ∀ ctx ∈ m.fdContexts, ∀ event, ctx.Slot event

/-- The invariant behind `Consistent`. -/
def Sound (m : IOManager) : Prop :=
  m.Coherent ∧ m.pendingEventCount = UInt64.ofNat m.registered

variable {m : IOManager} {fd : Nat} {waits waits' : Event → Option Waiter} {event : Event}

theorem Sound.consistent (h : m.Sound) : m.Consistent where
  count := h.2
  kernel := h.1.kernel
  slots ctx hctx event := by
    obtain ⟨fd, hfd⟩ := List.getElem?_of_mem hctx
    obtain ⟨waits, rfl⟩ := h.1.contexts fd ctx hfd
    exact slot_of fd waits event

theorem new_getElem? (fd : Nat) (ctx : FdContext) (h : new.fdContexts[fd]? = some ctx) :
    ctx = FdContext.new fd := by
  simp only [new, contextResize_getElem?, List.getElem?_nil, Option.getD_none,
    Option.ite_none_right_eq_some, Option.some.injEq] at h
  exact h.2.symm

theorem sound_new : new.Sound := by
  have hctx := new_getElem?
  refine ⟨⟨by decide, fun fd ctx h => ⟨fun _ => none, hctx fd ctx h⟩, fun fd => ?_⟩, by decide⟩
  rw [events]
  split
  · rfl
  · next ctx h =>
      rw [hctx fd ctx h]
      rfl

/-- The counter moves with the number of waiters. -/
theorem Sound.put (h : m.Sound) (hfd : m.fdContexts[fd]? = some (.of fd waits))
    {count : UInt64} (triggered : List Triggered)
    (hcount : count + UInt64.ofNat (FdContext.of fd waits).registered =
      m.pendingEventCount + UInt64.ofNat (FdContext.of fd waits').registered) :
    (m.put fd waits' count triggered).Sound := by
  refine ⟨h.1.put hfd, ?_⟩
  have hset : (m.put fd waits' count triggered).registered + (FdContext.of fd waits).registered =
      m.registered + (FdContext.of fd waits').registered := total_set hfd
  have hset64 := congrArg UInt64.ofNat hset
  rw [UInt64.ofNat_add, UInt64.ofNat_add, ← h.2, ← hcount] at hset64
  exact ((UInt64.add_left_inj _).mp hset64).symm

theorem Sound.grow (h : m.Sound) (fd : Nat) : (m.grow fd).Sound := by
  refine ⟨h.1.grow fd, ?_⟩
  rw [IOManager.grow]
  split
  · exact h.2
  · -- Nobody waits for the new descriptors.
    next hlt =>
      have hsize := h.1.size
      have hnew : ∀ ctx ∈ (List.range' m.fdContexts.length
          (fd * 3 / 2 - m.fdContexts.length)).map FdContext.new, ctx.registered = 0 := by
        intro ctx hctx
        obtain ⟨fd', -, rfl⟩ := List.mem_map.mp hctx
        exact registered_none fd'
      have hall : m.fdContexts.take (fd * 3 / 2) = m.fdContexts :=
        List.take_of_length_le (by omega)
      rw [registered, contextResize, total_append, total_eq_zero hnew, hall, Nat.add_zero]
      exact h.2

/-- The descriptor of an operation is in the table, with its waiters, or it has no events. -/
theorem Coherent.lookup (hm : m.Coherent) (fd : Nat) : m.fdContexts[fd]? = none ∨
    ∃ waits, m.fdContexts[fd]? = some (.of fd waits) ∧ m.events fd = mask waits := by
  cases hctx : m.fdContexts[fd]? with
  | none => exact .inl rfl
  | some ctx =>
      obtain ⟨waits, rfl⟩ := hm.contexts fd ctx hctx
      exact .inr ⟨waits, rfl, events_of_getElem? hctx⟩

/-- One waiter has gone, and the counter has been decremented. -/
theorem Sound.remove (h : m.Sound) (hfd : m.fdContexts[fd]? = some (.of fd waits))
    {waiter : Waiter} (hwaits : waits event = some waiter) (triggered : List Triggered) :
    (m.put fd (Function.update waits event none) (m.pendingEventCount - 1) triggered).Sound := by
  refine h.put hfd triggered ?_
  have hone := registered_update fd waits none event
  rw [hwaits] at hone
  rw [← show (FdContext.of fd (Function.update waits event none)).registered + 1 =
    (FdContext.of fd waits).registered from hone, UInt64.ofNat_add]
  grind

/-! ## Each operation -/

theorem delEvent_good (h : m.Sound) (hok : m.NotTheOther (.delEvent fd event)) :
    ∃ answer m', m.delEvent fd event = some (answer, m') ∧
      m.Right (.delEvent fd event) answer m' ∧ m'.Sound := by
  rcases h.1.lookup fd with hnone | ⟨waits, hfd, hevents⟩
  · exact ⟨false, m, by rw [delEvent, hnone], fun _ => ⟨rfl, rfl⟩, h⟩
  · have hspec := delEvent_spec h.1 hfd event
    by_cases hempty : mask waits = 0
    · rw [if_pos hempty] at hspec
      exact ⟨false, m, hspec, fun _ => ⟨rfl, rfl⟩, h⟩
    · rw [if_neg hempty] at hspec
      have hset : m.events fd &&& event.bit ≠ 0 := hok.resolve_left (hevents ▸ hempty)
      obtain ⟨waiter, hwaits⟩ : ∃ waiter, waits event = some waiter := by
        rw [hevents, Ne, mask_and_bit_eq_zero] at hset
        exact Option.ne_none_iff_exists'.mp hset
      exact ⟨true, _, hspec, fun hclear => absurd hclear hset, h.remove hfd hwaits _⟩

theorem cancelEvent_good (h : m.Sound) (hok : m.NotTheOther (.cancelEvent fd event)) :
    ∃ answer m', m.cancelEvent fd event = some (answer, m') ∧
      m.Right (.cancelEvent fd event) answer m' ∧ m'.Sound := by
  rcases h.1.lookup fd with hnone | ⟨waits, hfd, hevents⟩
  · exact ⟨false, m, by rw [cancelEvent, hnone], fun _ => ⟨rfl, rfl⟩, h⟩
  · have hspec := cancelEvent_spec h.1 hfd event
    by_cases hempty : mask waits = 0
    · rw [if_pos hempty] at hspec
      exact ⟨false, m, hspec, fun _ => ⟨rfl, rfl⟩, h⟩
    · rw [if_neg hempty] at hspec
      have hset : m.events fd &&& event.bit ≠ 0 := hok.resolve_left (hevents ▸ hempty)
      obtain ⟨waiter, hwaits⟩ : ∃ waiter, waits event = some waiter := by
        rw [hevents, Ne, mask_and_bit_eq_zero] at hset
        exact Option.ne_none_iff_exists'.mp hset
      rw [hwaits] at hspec
      exact ⟨true, _, hspec, fun hclear => absurd hclear hset, h.remove hfd hwaits _⟩

/-- When only the other event is registered, `delEvent` answers `true` and `cancelEvent` fails. -/
theorem other_bad (h : m.Sound) (hempty : m.events fd ≠ 0)
    (hclear : m.events fd &&& event.bit = 0) :
    (∃ m', m.delEvent fd event = some (true, m')) ∧ m.cancelEvent fd event = none := by
  rcases h.1.lookup fd with hnone | ⟨waits, hfd, hevents⟩
  · rw [events, hnone] at hempty
    exact absurd rfl hempty
  · rw [hevents] at hempty hclear
    have hdel := delEvent_spec h.1 hfd event
    have hcancel := cancelEvent_spec h.1 hfd event
    rw [if_neg hempty] at hdel hcancel
    rw [mask_and_bit_eq_zero.mp hclear, Option.map_none] at hcancel
    exact ⟨⟨_, hdel⟩, hcancel⟩

theorem cancelAll_good (h : m.Sound) (fd : Nat) :
    ∃ answer m', m.cancelAll fd = some (answer, m') ∧ m'.Sound := by
  rcases h.1.lookup fd with hnone | ⟨waits, hfd, -⟩
  · exact ⟨false, m, by rw [cancelAll, hnone], h⟩
  · have hspec := cancelAll_spec h.1 hfd
    by_cases hempty : mask waits = 0
    · rw [if_pos hempty] at hspec
      exact ⟨false, m, hspec, h⟩
    · rw [if_neg hempty] at hspec
      refine ⟨true, _, hspec, h.put hfd _ ?_⟩
      rw [length_woken, UInt64.sub_add_cancel]
      rw [registered_none]
      exact (UInt64.add_zero _).symm

theorem addEvent_good (h : m.Sound) (hfree : m.events fd &&& event.bit = 0) (cb : Option Nat)
    (scheduler fiber : Nat) :
    ∃ m', m.addEvent fd event cb scheduler fiber = some (0, m') ∧ m'.Sound := by
  obtain ⟨waits, hfd, hnone, hspec⟩ := addEvent_spec h.1 hfree cb scheduler fiber
  refine ⟨_, hspec, (h.grow fd).put hfd _ ?_⟩
  have hone := registered_update fd waits
    (some ⟨scheduler, cb.elim (.fiber fiber) .callback⟩) event
  rw [hnone] at hone
  have hone' := congrArg UInt64.ofNat hone
  rw [UInt64.ofNat_add, UInt64.ofNat_add] at hone'
  simp only [Option.isSome_none, Option.isSome_some, Bool.toNat_false, Bool.toNat_true] at hone'
  grind

theorem call_good {op : Op} (h : m.Sound) (hlegal : m.Legal op) (hok : m.NotTheOther op) :
    ∃ answer m', m.call op = some (answer, m') ∧ m.Right op answer m' ∧ m'.Sound := by
  cases op with
  | addEvent fd event cb scheduler fiber =>
      obtain ⟨m', hcall, hsound⟩ := addEvent_good h hlegal cb scheduler fiber
      exact ⟨true, m', by rw [call, hcall]; rfl, trivial, hsound⟩
  | delEvent fd event => exact delEvent_good h hok
  | cancelEvent fd event => exact cancelEvent_good h hok
  | cancelAll fd =>
      obtain ⟨answer, m', hcall, hsound⟩ := cancelAll_good h fd
      exact ⟨answer, m', hcall, trivial, hsound⟩

theorem call_bad {op : Op} {answer : Bool} {m' : IOManager} (h : m.Sound)
    (hbad : ¬ m.NotTheOther op) (hcall : m.call op = some (answer, m')) :
    ¬ m.Right op answer m' := by
  cases op with
  | addEvent fd event cb scheduler fiber => exact absurd trivial hbad
  | cancelAll fd => exact absurd trivial hbad
  | delEvent fd event =>
      obtain ⟨hempty, hclear⟩ := not_or.mp hbad
      obtain ⟨⟨m'', hdel⟩, -⟩ := other_bad h hempty (not_not.mp hclear)
      intro hright
      obtain ⟨rfl, -⟩ := hright (not_not.mp hclear)
      cases (Prod.mk.inj (Option.some.inj (hcall.symm.trans hdel))).1
  | cancelEvent fd event =>
      obtain ⟨hempty, hclear⟩ := not_or.mp hbad
      obtain ⟨-, hcancel⟩ := other_bad h hempty (not_not.mp hclear)
      cases hcall.symm.trans hcancel

/-- **The event table** stays consistent, no assertion fails, and `delEvent` and `cancelEvent` leave
events alone that are not registered, exactly if neither of them is ever called for an event that is
not registered while the other event of the descriptor is. -/
theorem eventTable_iff (ops : List Op) :
    runKeeps call Legal Consistent Right ops new ↔ runObserves call Legal NotTheOther ops new :=
  runKeeps_iff (fun h => h.consistent) (fun h hlegal hok => call_good h hlegal hok)
    (fun h _ hbad hcall => call_bad h hbad hcall) ops sound_new

/-- A fiber waits until it can write; then the registration for reading, which does not exist, is
deleted. -/
def deleteTheOther : List Op := [.addEvent 5 .WRITE none 1 7, .delEvent 5 .READ]

theorem not_runKeeps_deleteTheOther :
    ¬ ∀ ops, runKeeps call Legal Consistent Right ops new := by
  intro hall
  have hrun := hall deleteTheOther
  obtain ⟨m, hadd, hevents, hdel⟩ : ∃ m, new.call (.addEvent 5 .WRITE none 1 7) = some (true, m) ∧
      m.events 5 = Event.WRITE.bit ∧ ∃ m', m.call (.delEvent 5 .READ) = some (true, m') :=
    ⟨_, rfl, by decide, _, rfl⟩
  obtain ⟨m', hdel⟩ := hdel
  have hlegal : new.Legal (.addEvent 5 .WRITE none 1 7) := by
    show new.events 5 &&& Event.WRITE.bit = 0
    decide
  obtain ⟨-, hrest⟩ := runKeeps_tail hrun hlegal hadd
  obtain ⟨hright, -⟩ := runKeeps_tail hrest trivial hdel
  have hclear : m.events 5 &&& Event.READ.bit = 0 := by
    rw [hevents]
    decide
  exact Bool.noConfusion (hright hclear).1

end IOManager
end Routn
