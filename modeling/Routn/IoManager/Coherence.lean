import Mathlib.Tactic
import Routn.IoManager.Basic

/-!
# The table as a map from descriptors and events to waiters

A context is determined by who waits for which event: `FdContext.of` is the context that belongs to
given waiters, and `Coherent` says that every context of the table is of this form and that the
kernel has the masks of the contexts.  For each operation there is one lemma that says what it does
in terms of waiters.  All of them keep `Coherent`, also where they do something else than they
should.
-/

namespace Routn

open Foundation

/-- What an event context is filled with. -/
structure Waiter where
  scheduler : Nat
  task : Task
deriving DecidableEq, Repr

namespace EventContext

def of : Option Waiter → EventContext
  | none => ⟨none, none, none⟩
  | some ⟨scheduler, .fiber fiber⟩ => ⟨some scheduler, some fiber, none⟩
  | some ⟨scheduler, .callback callback⟩ => ⟨some scheduler, none, some callback⟩

theorem of_none : of none = ⟨none, none, none⟩ := rfl

@[simp] theorem of_eq_empty {waiter : Option Waiter} : of waiter = ⟨none, none, none⟩ ↔
    waiter = none := by
  rcases waiter with - | ⟨scheduler, fiber | callback⟩ <;> simp [of]

theorem of_injective : Function.Injective of := by
  rintro (- | ⟨scheduler, fiber | callback⟩) (- | ⟨scheduler', fiber' | callback'⟩) h <;>
    simp_all [of]

end EventContext

namespace FdContext

/-- The mask of some events. -/
def maskOf (read write : Bool) : UInt32 :=
  (if read then Event.READ.bit else 0) ||| (if write then Event.WRITE.bit else 0)

/-- The mask of the events that somebody waits for. -/
def mask (waits : Event → Option Waiter) : UInt32 :=
  maskOf (waits .READ).isSome (waits .WRITE).isSome

def of (fd : Nat) (waits : Event → Option Waiter) : FdContext :=
  ⟨fd, .of (waits .READ), .of (waits .WRITE), mask waits⟩

theorem of_injective (fd : Nat) : Function.Injective (of fd) := by
  intro waits waits' h
  have hslots := FdContext.mk.inj h
  funext event
  cases event with
  | READ => exact EventContext.of_injective hslots.2.1
  | WRITE => exact EventContext.of_injective hslots.2.2.1

/-! ### Masks -/

theorem maskOf_eq_zero : ∀ read write, maskOf read write = 0 ↔ read = false ∧ write = false := by
  decide

theorem maskOf_and_read : ∀ read write,
    maskOf read write &&& Event.READ.bit = 0 ↔ read = false := by
  decide

theorem maskOf_and_write : ∀ read write,
    maskOf read write &&& Event.WRITE.bit = 0 ↔ write = false := by
  decide

theorem maskOf_or_read : ∀ read write,
    maskOf read write ||| Event.READ.bit = maskOf true write := by
  decide

theorem maskOf_or_write : ∀ read write,
    maskOf read write ||| Event.WRITE.bit = maskOf read true := by
  decide

theorem maskOf_and_not : ∀ read write read' write', maskOf read write &&& ~~~maskOf read' write' =
    maskOf (read && !read') (write && !write') := by
  decide

theorem maskOf_and : ∀ read write read' write', maskOf read write &&& maskOf read' write' =
    maskOf (read && read') (write && write') := by
  decide

variable {fd : Nat} {waits waits' : Event → Option Waiter} {event : Event} {waiter : Option Waiter}

@[simp] theorem of_events (fd : Nat) : (of fd waits).events = mask waits := rfl

theorem mask_eq_zero : mask waits = 0 ↔ ∀ event, waits event = none := by
  rw [mask, maskOf_eq_zero, Option.isSome_eq_false_iff, Option.isSome_eq_false_iff,
    Option.isNone_iff_eq_none, Option.isNone_iff_eq_none]
  constructor
  · rintro ⟨hread, hwrite⟩ (- | -)
    · exact hread
    · exact hwrite
  · exact fun h => ⟨h .READ, h .WRITE⟩

theorem mask_and_bit_eq_zero : mask waits &&& event.bit = 0 ↔ waits event = none := by
  cases event with
  | READ => rw [mask, maskOf_and_read, Option.isSome_eq_false_iff, Option.isNone_iff_eq_none]
  | WRITE => rw [mask, maskOf_and_write, Option.isSome_eq_false_iff, Option.isNone_iff_eq_none]

theorem mask_or_bit (waiter : Waiter) :
    mask waits ||| event.bit = mask (Function.update waits event (some waiter)) := by
  cases event with
  | READ => exact maskOf_or_read ..
  | WRITE => exact maskOf_or_write ..

theorem mask_and_not_bit :
    mask waits &&& ~~~event.bit = mask (Function.update waits event none) := by
  cases event with
  | READ =>
      have hnot := maskOf_and_not (waits .READ).isSome (waits .WRITE).isSome true false
      rw [Bool.not_true, Bool.and_false, Bool.not_false, Bool.and_true] at hnot
      exact hnot
  | WRITE =>
      have hnot := maskOf_and_not (waits .READ).isSome (waits .WRITE).isSome false true
      rw [Bool.not_true, Bool.and_false, Bool.not_false, Bool.and_true] at hnot
      exact hnot

/-! ### Contexts -/

@[simp] theorem getContext_of : (of fd waits).getContext event = .of (waits event) := by
  cases event <;> rfl

theorem setContext_of (waiter : Option Waiter) :
    ({ of fd waits with events := mask (Function.update waits event waiter) }).setContext event
      (.of waiter) = of fd (Function.update waits event waiter) := by
  cases event <;> rfl

theorem triggerEvent_of : (of fd waits).triggerEvent event = (waits event).map fun waiter =>
    ((waiter.scheduler, waiter.task), of fd (Function.update waits event none)) := by
  rw [triggerEvent, of_events]
  cases hwaits : waits event with
  | none => rw [if_pos (mask_and_bit_eq_zero.mpr hwaits), Option.map_none]
  | some waiter =>
      have hset : mask waits &&& event.bit ≠ 0 := by
        rw [Ne, mask_and_bit_eq_zero, hwaits]
        exact Option.some_ne_none waiter
      rw [if_neg hset, mask_and_not_bit]
      have hslot : ({ of fd waits with
          events := mask (Function.update waits event none) }).getContext event =
          .of (some waiter) := by
        rw [← hwaits]
        cases event <;> rfl
      simp only [hslot]
      rcases waiter with ⟨scheduler, fiber | callback⟩ <;> cases event <;> rfl

end FdContext

/-- The record of a waiter that is woken. -/
def Triggered.of (fd : Nat) (event : Event) (waiter : Waiter) : Triggered :=
  ⟨fd, event, waiter.scheduler, waiter.task⟩

namespace IOManager

open FdContext

/-- The kernel's mask for a descriptor with these events. -/
def interest (events : UInt32) : Option UInt32 :=
  if events = 0 then none else some (EPOLLET ||| events)

structure Coherent (m : IOManager) : Prop where
  size : 32 ≤ m.fdContexts.length
  contexts : ∀ fd ctx, m.fdContexts[fd]? = some ctx → ∃ waits, ctx = FdContext.of fd waits
  kernel : ∀ fd, m.epoll fd = interest (m.events fd)

/-- The manager after the waiters of one descriptor have changed. -/
def put (m : IOManager) (fd : Nat) (waits : Event → Option Waiter) (pendingEventCount : UInt64)
    (triggered : List Triggered) : IOManager where
  fdContexts := m.fdContexts.set fd (.of fd waits)
  epoll := Function.update m.epoll fd (interest (mask waits))
  pendingEventCount := pendingEventCount
  triggered := triggered

variable {m m' : IOManager} {fd : Nat} {waits waits' : Event → Option Waiter} {event : Event}
  {waiter : Waiter} {count : UInt64} {triggered : List Triggered}

theorem lt_length_of_getElem? {ctx : FdContext} (hfd : m.fdContexts[fd]? = some ctx) :
    fd < m.fdContexts.length :=
  (List.getElem?_eq_some_iff.mp hfd).choose

theorem events_of_getElem? {ctx : FdContext} (hfd : m.fdContexts[fd]? = some ctx) :
    m.events fd = ctx.events := by
  rw [events, hfd]

theorem put_getElem? (hfd : m.fdContexts[fd]? = some (.of fd waits)) :
    (m.put fd waits' count triggered).fdContexts[fd]? = some (.of fd waits') :=
  List.getElem?_set_self (lt_length_of_getElem? hfd)

theorem put_getElem?_ne {fd' : Nat} (hne : fd' ≠ fd) :
    (m.put fd waits' count triggered).fdContexts[fd']? = m.fdContexts[fd']? :=
  List.getElem?_set_ne (Ne.symm hne)

theorem Coherent.put (hm : m.Coherent) (hfd : m.fdContexts[fd]? = some (.of fd waits)) :
    (m.put fd waits' count triggered).Coherent where
  size := by
    show 32 ≤ (m.fdContexts.set fd _).length
    rw [List.length_set]
    exact hm.size
  contexts fd' ctx hctx := by
    by_cases heq : fd' = fd
    · subst heq
      rw [put_getElem? hfd] at hctx
      exact ⟨waits', (Option.some.inj hctx).symm⟩
    · rw [put_getElem?_ne heq] at hctx
      exact hm.contexts fd' ctx hctx
  kernel fd' := by
    by_cases heq : fd' = fd
    · subst heq
      rw [events_of_getElem? (put_getElem? hfd)]
      exact Function.update_self ..
    · rw [events, put_getElem?_ne heq]
      exact (Function.update_of_ne heq ..).trans (hm.kernel fd')

/-! ### The kernel -/

theorem epoll_ctl_del (hset : m.epoll fd ≠ none) (events : UInt32) :
    m.epoll_ctl .DEL fd events = some { m with epoll := Function.update m.epoll fd none } := by
  obtain ⟨old, hold⟩ := Option.ne_none_iff_exists'.mp hset
  simp only [epoll_ctl, hold]

theorem epoll_ctl_mod (hset : m.epoll fd ≠ none) (events : UInt32) :
    m.epoll_ctl .MOD fd events =
      some { m with epoll := Function.update m.epoll fd (some events) } := by
  obtain ⟨old, hold⟩ := Option.ne_none_iff_exists'.mp hset
  simp only [epoll_ctl, hold]

theorem interest_ne_none {events : UInt32} (h : events ≠ 0) : interest events ≠ none := by
  rw [interest, if_neg h]
  exact Option.some_ne_none _

/-- The kernel forgets a descriptor that it has, or keeps it with other events. -/
theorem removeFromEpoll_spec (hm : m.Coherent) (fd : Nat) (events : UInt32) :
    m.removeFromEpoll fd events = if m.events fd = 0 then none
      else some { m with epoll := Function.update m.epoll fd (interest events) } := by
  have hkernel := hm.kernel fd
  rw [removeFromEpoll]
  by_cases hnone : m.events fd = 0
  · rw [interest, if_pos hnone] at hkernel
    rw [if_pos hnone]
    split <;> simp only [epoll_ctl, hkernel]
  · have hset : m.epoll fd ≠ none := hkernel ▸ interest_ne_none hnone
    rw [if_neg hnone]
    by_cases hevents : events = 0
    · rw [if_neg (not_not.mpr hevents), epoll_ctl_del hset, interest, if_pos hevents]
    · rw [if_pos hevents, epoll_ctl_mod hset, interest, if_neg hevents]

/-- The kernel gets to know a descriptor, or one more event of it. -/
theorem addToEpoll_spec (hm : m.Coherent) (fd : Nat) {events : UInt32} (hevents : events ≠ 0) :
    m.epoll_ctl (if m.events fd ≠ 0 then .MOD else .ADD) fd (EPOLLET ||| events) =
      some { m with epoll := Function.update m.epoll fd (interest events) } := by
  have hkernel := hm.kernel fd
  rw [interest, if_neg hevents]
  by_cases hnone : m.events fd = 0
  · rw [interest, if_pos hnone] at hkernel
    rw [if_neg (not_not.mpr hnone)]
    simp only [epoll_ctl, hkernel]
  · have hset : m.epoll fd ≠ none := hkernel ▸ interest_ne_none hnone
    rw [if_pos hnone, epoll_ctl_mod hset]

/-! ### Operations -/

/-- The manager after `triggerEvent` has been called for a waiter. -/
def wake (m : IOManager) (fd : Nat) (waits : Event → Option Waiter) (event : Event)
    (waiter : Waiter) : IOManager :=
  { m with
    fdContexts := m.fdContexts.set fd (.of fd (Function.update waits event none))
    pendingEventCount := m.pendingEventCount - 1
    triggered := .of fd event waiter :: m.triggered }

theorem wake_getElem? (hfd : m.fdContexts[fd]? = some (.of fd waits)) (event : Event)
    (waiter : Waiter) : (m.wake fd waits event waiter).fdContexts[fd]? =
      some (.of fd (Function.update waits event none)) :=
  List.getElem?_set_self (lt_length_of_getElem? hfd)

theorem trigger_spec (hfd : m.fdContexts[fd]? = some (.of fd waits)) (event : Event) :
    m.trigger fd event = (waits event).map (m.wake fd waits event) := by
  rw [trigger, hfd]
  simp only [Option.bind_eq_bind, Option.bind_some, triggerEvent_of]
  cases waits event <;> rfl

theorem triggerIf_spec (hfd : m.fdContexts[fd]? = some (.of fd waits)) (mask : UInt32)
    (event : Event) : m.triggerIf fd mask event =
      if mask &&& event.bit = 0 then some m else (waits event).map (m.wake fd waits event) := by
  rw [triggerIf, trigger_spec hfd]
  by_cases hbit : mask &&& event.bit = 0
  · rw [if_neg (not_not.mpr hbit), if_pos hbit]
  · rw [if_pos hbit, if_neg hbit]

theorem delEvent_spec (hm : m.Coherent) (hfd : m.fdContexts[fd]? = some (.of fd waits))
    (event : Event) :
    m.delEvent fd event = if mask waits = 0 then some (false, m)
      else some (true, m.put fd (Function.update waits event none) (m.pendingEventCount - 1)
        m.triggered) := by
  have hremove := removeFromEpoll_spec hm fd (mask waits &&& ~~~event.bit)
  rw [events_of_getElem? hfd, of_events] at hremove
  simp only [delEvent, hfd, of_events, notRegistered, hremove]
  by_cases hnone : mask waits = 0
  · simp only [hnone, if_true]
    split <;> rfl
  · simp only [hnone, if_false, UInt32.zero_and, bne_self_eq_false]
    rw [mask_and_not_bit]
    refine congrArg some (congrArg (Prod.mk true) ?_)
    rw [resetContext, ← EventContext.of_none, setContext_of]
    rfl

theorem cancelEvent_spec (hm : m.Coherent) (hfd : m.fdContexts[fd]? = some (.of fd waits))
    (event : Event) :
    m.cancelEvent fd event = if mask waits = 0 then some (false, m)
      else (waits event).map fun waiter =>
        (true, m.put fd (Function.update waits event none) (m.pendingEventCount - 1)
          (.of fd event waiter :: m.triggered)) := by
  have hremove := removeFromEpoll_spec hm fd (mask waits &&& ~~~event.bit)
  rw [events_of_getElem? hfd, of_events] at hremove
  simp only [cancelEvent, hfd, of_events, notRegistered, hremove]
  by_cases hnone : mask waits = 0
  · simp only [hnone, if_true]
    split <;> rfl
  · simp only [hnone, if_false, UInt32.zero_and, bne_self_eq_false]
    rw [mask_and_not_bit]
    have htrigger := trigger_spec (m := { m with
      epoll := Function.update m.epoll fd
        (interest (mask (Function.update waits event none))) }) hfd event
    rw [if_neg Bool.false_ne_true, htrigger]
    cases waits event <;> rfl

/-! ### Waking the waiters of several events -/

/-- The waiters of the chosen events. -/
def chosen (waits : Event → Option Waiter) (read write : Bool) : Event → Option Waiter
  | .READ => if read then waits .READ else none
  | .WRITE => if write then waits .WRITE else none

/-- The waiters of the other events. -/
def others (waits : Event → Option Waiter) (read write : Bool) : Event → Option Waiter
  | .READ => if read then none else waits .READ
  | .WRITE => if write then none else waits .WRITE

/-- The record of the waiters that are woken, the last one first. -/
def woken (fd : Nat) (waits : Event → Option Waiter) : List Triggered :=
  ((waits .WRITE).map (Triggered.of fd .WRITE)).toList ++
    ((waits .READ).map (Triggered.of fd .READ)).toList

theorem triggerIf_chosen (hfd : m.fdContexts[fd]? = some (.of fd waits)) {mask : UInt32}
    (hmask : mask &&& event.bit ≠ 0) (hwaits : waits event = some waiter) :
    m.triggerIf fd mask event = some (m.wake fd waits event waiter) := by
  rw [triggerIf_spec hfd, if_neg hmask, hwaits, Option.map_some]

theorem triggerIf_other {mask : UInt32} (hmask : mask &&& event.bit = 0) :
    m.triggerIf fd mask event = some m := by
  rw [triggerIf, if_neg (not_not.mpr hmask)]

/-- `triggerEvent` for `READ` and then for `WRITE`, each when it is chosen.  The masks are those
that the two tests see. -/
theorem triggerIf_both (hfd : m.fdContexts[fd]? = some (.of fd waits)) {read write : Bool}
    (first : UInt32) (second : IOManager → UInt32) (hany : read = true ∨ write = true)
    (hfirst : first &&& Event.READ.bit = 0 ↔ read = false)
    (hsecond : ∀ m', m'.fdContexts[fd]? = some (.of fd (others waits read false)) →
      (second m' &&& Event.WRITE.bit = 0 ↔ write = false))
    (hread : read = true → (waits .READ).isSome = true)
    (hwrite : write = true → (waits .WRITE).isSome = true) :
    ((m.triggerIf fd first .READ).bind fun m' => m'.triggerIf fd (second m') .WRITE) =
      some { m with
        fdContexts := m.fdContexts.set fd (.of fd (others waits read write))
        pendingEventCount :=
          m.pendingEventCount - UInt64.ofNat (woken fd (chosen waits read write)).length
        triggered := woken fd (chosen waits read write) ++ m.triggered } := by
  cases read with
  | false =>
      obtain rfl : write = true := by simpa using hany
      obtain ⟨writer, hwriter⟩ := Option.isSome_iff_exists.mp (hwrite rfl)
      have hsame : others waits false false = waits := by
        funext event
        cases event <;> rfl
      have htest : second m &&& Event.WRITE.bit ≠ 0 :=
        fun h => Bool.noConfusion ((hsecond m (hsame ▸ hfd)).mp h)
      have hleft : others waits false true = Function.update waits .WRITE none := by
        funext event
        cases event <;> rfl
      rw [triggerIf_other (hfirst.mpr rfl), Option.bind_some, triggerIf_chosen hfd htest hwriter,
        hleft]
      simp [wake, woken, chosen, hwriter]
  | true =>
      obtain ⟨reader, hreader⟩ := Option.isSome_iff_exists.mp (hread rfl)
      have htest : first &&& Event.READ.bit ≠ 0 := fun h => Bool.noConfusion (hfirst.mp h)
      have hleft : others waits true false = Function.update waits .READ none := by
        funext event
        cases event <;> rfl
      have hwoken := wake_getElem? hfd .READ reader
      rw [triggerIf_chosen hfd htest hreader, Option.bind_some]
      have hrest := hsecond (m.wake fd waits .READ reader) (hleft ▸ hwoken)
      cases write with
      | false =>
          rw [triggerIf_other (hrest.mpr rfl), hleft]
          simp [wake, woken, chosen, hreader]
      | true =>
          obtain ⟨writer, hwriter⟩ := Option.isSome_iff_exists.mp (hwrite rfl)
          have hwriter' : Function.update waits .READ none .WRITE = some writer := hwriter
          have hall : others waits true true =
              Function.update (Function.update waits .READ none) .WRITE none := by
            funext event
            cases event <;> rfl
          rw [triggerIf_chosen hwoken (fun h => Bool.noConfusion (hrest.mp h)) hwriter', hall]
          have htwo : m.pendingEventCount - 1 - 1 = m.pendingEventCount - 2 := by grind
          simp [wake, woken, chosen, hreader, hwriter, htwo]

theorem cancelAll_spec (hm : m.Coherent) (hfd : m.fdContexts[fd]? = some (.of fd waits)) :
    m.cancelAll fd = if mask waits = 0 then some (false, m)
      else some (true, m.put fd (fun _ => none)
        (m.pendingEventCount - UInt64.ofNat (woken fd waits).length)
        (woken fd waits ++ m.triggered)) := by
  simp only [cancelAll, hfd, of_events]
  by_cases hnone : mask waits = 0
  · simp only [hnone, if_true]
  · have hset : m.epoll fd ≠ none := by
      rw [hm.kernel fd, events_of_getElem? hfd]
      exact interest_ne_none hnone
    have hany : (waits .READ).isSome = true ∨ (waits .WRITE).isSome = true := by
      rw [← Bool.or_eq_true, ← Bool.not_eq_false]
      intro hor
      obtain ⟨hread, hwrite⟩ := Bool.or_eq_false_iff.mp hor
      exact hnone ((maskOf_eq_zero _ _).mpr ⟨hread, hwrite⟩)
    have hboth := triggerIf_both (m := { m with epoll := Function.update m.epoll fd none }) hfd
      (m.events fd) (fun m' => m'.events fd) hany
      (by rw [events_of_getElem? hfd]; exact maskOf_and_read _ _)
      (fun m' hfd' => by rw [events_of_getElem? hfd']; exact maskOf_and_write _ _) id id
    have hothers : others waits (waits .READ).isSome (waits .WRITE).isSome = fun _ => none := by
      funext event
      cases event with
      | READ => cases hread : waits .READ <;> simp [others, hread]
      | WRITE => cases hwrite : waits .WRITE <;> simp [others, hwrite]
    have hchosen : chosen waits (waits .READ).isSome (waits .WRITE).isSome = waits := by
      funext event
      cases event with
      | READ => cases hread : waits .READ <;> simp [chosen, hread]
      | WRITE => cases hwrite : waits .WRITE <;> simp [chosen, hwrite]
    rw [hothers, hchosen] at hboth
    simp only [hnone, if_false, epoll_ctl_del hset, Option.bind_eq_bind, ← Option.bind_assoc]
    have hevents : IOManager.events { m with epoll := Function.update m.epoll fd none } fd =
        m.events fd := rfl
    rw [hevents, hboth, Option.bind_some, if_pos]
    · rfl
    · have hlt := lt_length_of_getElem? hfd
      rw [events, List.getElem?_set_self hlt]
      rfl

/-! ### Adding an event -/

theorem contextResize_getElem? {α : Type} (make : Nat → α) (size : Nat) (fdContexts : List α)
    (i : Nat) : (contextResize make size fdContexts)[i]? =
      if i < size then some (fdContexts[i]?.getD (make i)) else none := by
  rw [contextResize, List.getElem?_append, List.length_take, List.getElem?_take, List.getElem?_map]
  by_cases hold : i < min size fdContexts.length
  · have hlt : i < fdContexts.length := by omega
    rw [if_pos hold, if_pos (by omega), if_pos (by omega), List.getElem?_eq_getElem hlt,
      Option.getD_some]
  · rw [if_neg hold]
    by_cases hsize : i < size
    · have hge : fdContexts.length ≤ i := by omega
      rw [if_pos hsize, List.getElem?_eq_none hge, Option.getD_none,
        List.getElem?_range' (by omega)]
      simp only [Option.map_some]
      congr 2
      omega
    · rw [if_neg hsize, List.getElem?_eq_none (by rw [List.length_range']; omega), Option.map_none]

/-- A descriptor is in the table that has grown for it, and nobody waits for one that was not in the
table before. -/
theorem grow_getElem? (hm : m.Coherent) (fd fd' : Nat) :
    (m.grow fd).fdContexts[fd']? = m.fdContexts[fd']? ∨
      m.fdContexts[fd']? = none ∧ (m.grow fd).fdContexts[fd']? = some (.new fd') := by
  rw [grow]
  split
  · exact .inl rfl
  · next hlt =>
      have hsize := hm.size
      simp only [contextResize_getElem?]
      by_cases hold : fd' < m.fdContexts.length
      · left
        rw [if_pos (by omega), List.getElem?_eq_getElem hold, Option.getD_some]
      · rw [List.getElem?_eq_none (Nat.le_of_not_lt hold)]
        split
        · exact .inr ⟨rfl, rfl⟩
        · exact .inl rfl

theorem grow_events (hm : m.Coherent) (fd fd' : Nat) :
    (m.grow fd).events fd' = m.events fd' := by
  rcases grow_getElem? hm fd fd' with hsame | ⟨hnone, hnew⟩
  · rw [events, hsame, events]
  · rw [events, hnew, events, hnone]
    rfl

theorem grow_triggered (m : IOManager) (fd : Nat) : (m.grow fd).triggered = m.triggered := by
  rw [grow]
  split <;> rfl

theorem lt_length_grow (hm : m.Coherent) (fd : Nat) : fd < (m.grow fd).fdContexts.length := by
  have hsize := hm.size
  rw [grow]
  split
  · next hlt => exact hlt
  · rw [contextResize, List.length_append, List.length_take, List.length_map, List.length_range']
    omega

theorem Coherent.grow (hm : m.Coherent) (fd : Nat) : (m.grow fd).Coherent where
  size := by
    have hsize := hm.size
    rw [IOManager.grow]
    split
    · exact hsize
    · rw [contextResize, List.length_append, List.length_take, List.length_map, List.length_range']
      omega
  contexts fd' ctx hctx := by
    rcases grow_getElem? hm fd fd' with hsame | ⟨-, hnew⟩
    · exact hm.contexts fd' ctx (hsame ▸ hctx)
    · rw [hnew] at hctx
      exact ⟨fun _ => none, (Option.some.inj hctx).symm⟩
  kernel fd' := by
    have hkernel : (m.grow fd).epoll = m.epoll := by
      rw [IOManager.grow]
      split <;> rfl
    rw [hkernel, grow_events hm]
    exact hm.kernel fd'

/-- `addEvent` for an event that nobody waits for. -/
theorem addEvent_spec (hm : m.Coherent) (hfree : m.events fd &&& event.bit = 0) (cb : Option Nat)
    (scheduler fiber : Nat) :
    ∃ waits, (m.grow fd).fdContexts[fd]? = some (.of fd waits) ∧ waits event = none ∧
      m.addEvent fd event cb scheduler fiber = some (0, (m.grow fd).put fd
        (Function.update waits event
          (some ⟨scheduler, cb.elim (.fiber fiber) .callback⟩))
        ((m.grow fd).pendingEventCount + 1) (m.grow fd).triggered) := by
  have hgrown := hm.grow fd
  have hctx := List.getElem?_eq_getElem (lt_length_grow hm fd)
  obtain ⟨waits, hwaits⟩ := hgrown.contexts fd _ hctx
  rw [hwaits] at hctx
  have hevents : m.events fd = mask waits := by
    rw [← grow_events hm fd fd, events_of_getElem? hctx, of_events]
  have hclear : mask waits &&& event.bit = 0 := hevents ▸ hfree
  have hnone : waits event = none := mask_and_bit_eq_zero.mp hclear
  refine ⟨waits, hctx, hnone, ?_⟩
  have hset : mask waits ||| event.bit ≠ 0 := by
    intro hzero
    rw [mask_or_bit ⟨scheduler, .fiber fiber⟩, mask_eq_zero] at hzero
    have hself := hzero event
    rw [Function.update_self] at hself
    cases hself
  have hadd := addToEpoll_spec hgrown fd hset
  rw [events_of_getElem? hctx, ← of_events fd, ← UInt32.or_assoc] at hadd
  have htest : ¬ (of fd waits).events &&& event.bit ≠ 0 := not_not.mpr hclear
  simp only [addEvent, hctx]
  rw [if_neg htest, hadd, getContext_of, hnone]
  simp only [EventContext.of_none, ne_eq, not_true_eq_false, if_false]
  refine congrArg some (congrArg (Prod.mk 0) ?_)
  rw [of_events, mask_or_bit ⟨scheduler, cb.elim (.fiber fiber) .callback⟩]
  cases cb with
  | none =>
      rw [put, ← setContext_of]
      rfl
  | some callback =>
      rw [put, ← setContext_of]
      rfl

end IOManager
end Routn
