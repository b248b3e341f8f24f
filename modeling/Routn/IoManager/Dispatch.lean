import Routn.IoManager.EventTable

/-!
# Dispatching what `epoll_wait` has reported

Between `epoll_wait` and the lock of the context another thread may have changed the registered
events, so a report may name events that nobody waits for any more.  `idle` leaves the descriptor
alone when none of the events is registered.  When some are and some are not, it calls
`triggerEvent` for all of them.
-/

namespace Routn

open Foundation

namespace IOManager

open FdContext

/-! ## Interleavings -/

/-- A call of one of the operations, or the dispatch of one reported event. -/
inductive Action
  | call (op : Op)
  | dispatch (fd : Nat) (reported : UInt32)
deriving DecidableEq, Repr

instance (m : IOManager) : ∀ op, Decidable (m.Legal op)
  | .addEvent .. => inferInstanceAs (Decidable (_ = _))
  | .delEvent .. => inferInstanceAs (Decidable True)
  | .cancelEvent .. => inferInstanceAs (Decidable True)
  | .cancelAll _ => inferInstanceAs (Decidable True)

/-- One section under the lock of a context.  A thread may do any of them at any time. -/
def step (m : IOManager) : Action → Option IOManager
  | .call op => if m.Legal op then (m.call op).map Prod.snd else none
  | .dispatch fd reported => m.dispatch fd reported

/-! ## What should happen -/

/-- `epoll_wait` has reported the event, by itself or through an error or a hang-up. -/
def Reports (reported : UInt32) (event : Event) : Prop :=
  reported &&& event.bit ≠ 0 ∨ reported &&& (EPOLLERR ||| EPOLLHUP) ≠ 0

instance (reported : UInt32) (event : Event) : Decidable (Reports reported event) :=
  inferInstanceAs (Decidable (_ ∨ _))

/-- The reported events that are registered, in the reverse of the order in which they are
triggered. -/
def due (m : IOManager) (fd : Nat) (reported : UInt32) : List Event :=
  [Event.WRITE, Event.READ].filter fun event =>
    m.events fd &&& event.bit ≠ 0 ∧ Reports reported event

/-- The bits of some events. -/
def bits (events : List Event) : UInt32 := events.foldr (fun event bits => event.bit ||| bits) 0

/-- Exactly the reported events that are registered are triggered; the kernel gets the events that
remain; the counter goes down by one for each of them; other descriptors are left alone. -/
structure Dispatched (m : IOManager) (fd : Nat) (reported : UInt32) (m' : IOManager) : Prop where
  triggered : ∃ ts, m'.triggered = ts ++ m.triggered ∧
    ts.map (fun t => (t.fd, t.event)) = (m.due fd reported).map fun event => (fd, event)
  count : m'.pendingEventCount = m.pendingEventCount - UInt64.ofNat (m.due fd reported).length
  events : m'.events fd = m.events fd &&& ~~~bits (m.due fd reported)
  kernel : m'.epoll fd = interest (m'.events fd)
  other : ∀ fd', fd' ≠ fd → m'.events fd' = m.events fd' ∧ m'.epoll fd' = m.epoll fd'

/-- The events that `idle` makes of the report are all registered, or none of them is. -/
def AllOrNone (registered reported : UInt32) : Prop :=
  registered &&& realEvents registered reported = 0 ∨
    realEvents registered reported &&& ~~~registered = 0

instance (registered reported : UInt32) : Decidable (AllOrNone registered reported) :=
  inferInstanceAs (Decidable (_ ∨ _))

/-! ## What `idle` makes of the report -/

variable {m m' : IOManager} {fd : Nat} {waits : Event → Option Waiter} {reported : UInt32}

/-- `idle` sees the event. -/
def sees (registered reported : UInt32) (event : Event) : Bool :=
  reported &&& event.bit != 0 ||
    (reported &&& (EPOLLERR ||| EPOLLHUP) != 0 && registered &&& event.bit != 0)

theorem and_or_distrib_right (a b c : UInt32) : (a ||| b) &&& c = a &&& c ||| b &&& c :=
  UInt32.toBitVec_inj.mp BitVec.and_or_distrib_right

theorem realEvents_eq (registered reported : UInt32) : realEvents registered reported =
    maskOf (sees registered reported .READ) (sees registered reported .WRITE) := by
  have hbit : ∀ event : Event, ((if reported &&& (EPOLLERR ||| EPOLLHUP) ≠ 0 then
      reported ||| ((EPOLLIN ||| EPOLLOUT) &&& registered) else reported) &&& event.bit ≠ 0) ↔
      sees registered reported event = true := by
    intro event
    have hboth : (EPOLLIN ||| EPOLLOUT) &&& registered &&& event.bit =
        registered &&& event.bit := by
      rw [UInt32.and_comm (EPOLLIN ||| EPOLLOUT), UInt32.and_assoc]
      cases event <;> rfl
    by_cases hwide : reported &&& (EPOLLERR ||| EPOLLHUP) ≠ 0
    · rw [if_pos hwide, and_or_distrib_right, hboth, Ne, UInt32.or_eq_zero_iff]
      simp [sees, hwide]
      tauto
    · rw [if_neg hwide]
      simp [sees, not_not.mp hwide]
  have hread := hbit .READ
  have hwrite := hbit .WRITE
  rw [maskOf, ← if_congr hread rfl rfl, ← if_congr hwrite rfl rfl]
  rfl

theorem forall_event {P : Event → Prop} : (∀ event, P event) ↔ P .READ ∧ P .WRITE := by
  constructor
  · exact fun h => ⟨h .READ, h .WRITE⟩
  · rintro ⟨hread, hwrite⟩ (- | -)
    · exact hread
    · exact hwrite

/-- Nobody waits for an event that is seen. -/
theorem mask_and_seen (waits : Event → Option Waiter) (seen : Event → Bool) :
    mask waits &&& maskOf (seen .READ) (seen .WRITE) = 0 ↔
      ∀ event, seen event = true → waits event = none := by
  rw [mask, maskOf_and, maskOf_eq_zero, forall_event]
  cases waits .READ <;> cases waits .WRITE <;> simp

/-- Somebody waits for every event that is seen. -/
theorem seen_and_not_mask (waits : Event → Option Waiter) (seen : Event → Bool) :
    maskOf (seen .READ) (seen .WRITE) &&& ~~~mask waits = 0 ↔
      ∀ event, seen event = true → (waits event).isSome = true := by
  rw [mask, maskOf_and_not, maskOf_eq_zero, forall_event]
  cases waits .READ <;> cases waits .WRITE <;> simp

/-- The events that remain registered. -/
theorem mask_and_not_seen (waits : Event → Option Waiter) (seen : Event → Bool) :
    mask waits &&& ~~~maskOf (seen .READ) (seen .WRITE) =
      mask (others waits (seen .READ) (seen .WRITE)) := by
  rw [mask, maskOf_and_not, mask, others, others]
  cases seen .READ <;> cases seen .WRITE <;> simp

/-- `triggerEvent` is called for all events that are seen, and its assertion fails for one that
nobody waits for. -/
theorem triggerIf_unregistered (hfd : m.fdContexts[fd]? = some (.of fd waits))
    {seen : Event → Bool} {event : Event} (hseen : seen event = true) (hfree : waits event = none)
    {epoll : Nat → Option UInt32} :
    (({ m with epoll := epoll } : IOManager).triggerIf fd
        (maskOf (seen .READ) (seen .WRITE)) .READ).bind
      (fun m' => m'.triggerIf fd (maskOf (seen .READ) (seen .WRITE)) .WRITE) = none := by
  have hread : maskOf (seen .READ) (seen .WRITE) &&& Event.READ.bit = 0 ↔ seen .READ = false :=
    maskOf_and_read _ _
  have hwrite : maskOf (seen .READ) (seen .WRITE) &&& Event.WRITE.bit = 0 ↔ seen .WRITE = false :=
    maskOf_and_write _ _
  have hfd' : ({ m with epoll := epoll } : IOManager).fdContexts[fd]? = some (.of fd waits) := hfd
  rw [triggerIf_spec hfd']
  cases event with
  | READ => rw [if_neg (by rw [hread, hseen]; exact Bool.noConfusion), hfree]; rfl
  | WRITE =>
      have htest : ¬ maskOf (seen .READ) (seen .WRITE) &&& Event.WRITE.bit = 0 := by
        rw [hwrite, hseen]
        exact Bool.noConfusion
      split
      · rw [Option.bind_some, triggerIf_spec hfd', if_neg htest, hfree, Option.map_none]
      · cases hreader : waits .READ with
        | none => rfl
        | some reader =>
            have hwoken := wake_getElem? hfd' .READ reader
            have hfree' : Function.update waits .READ none .WRITE = none := hfree
            rw [Option.map_some, Option.bind_some, triggerIf_spec hwoken, if_neg htest, hfree',
              Option.map_none]

/-- Every way through the dispatch of one report. -/
theorem dispatch_spec (hm : m.Coherent) (hfd : m.fdContexts[fd]? = some (.of fd waits))
    {seen : Event → Bool} (hseen : seen = sees (mask waits) reported) :
    ((∀ event, seen event = true → waits event = none) ∧ m.dispatch fd reported = some m) ∨
      (∃ event, seen event = true ∧ (waits event).isSome = true) ∧
        ((∀ event, seen event = true → (waits event).isSome = true) ∧
          m.dispatch fd reported = some (m.put fd (others waits (seen .READ) (seen .WRITE))
            (m.pendingEventCount -
              UInt64.ofNat (woken fd (chosen waits (seen .READ) (seen .WRITE))).length)
            (woken fd (chosen waits (seen .READ) (seen .WRITE)) ++ m.triggered)) ∨
        (∃ event, seen event = true ∧ waits event = none) ∧ m.dispatch fd reported = none) := by
  have hreal := realEvents_eq (mask waits) reported
  rw [← hseen] at hreal
  simp only [dispatch, hfd, of_events, hreal]
  by_cases hnone : ∀ event, seen event = true → waits event = none
  · rw [if_pos ((mask_and_seen waits seen).mpr hnone)]
    exact .inl ⟨hnone, rfl⟩
  · right
    have hsome := hnone
    push Not at hsome
    obtain ⟨event, hevent, hwaits⟩ := hsome
    refine ⟨⟨event, hevent, Option.isSome_iff_ne_none.mpr hwaits⟩, ?_⟩
    have hregistered : m.events fd ≠ 0 := by
      rw [events_of_getElem? hfd, of_events, Ne, mask_eq_zero]
      exact fun h => hwaits (h event)
    rw [if_neg ((mask_and_seen waits seen).not.mpr hnone), removeFromEpoll_spec hm fd,
      if_neg hregistered, mask_and_not_seen]
    simp only [Option.bind_eq_bind]
    by_cases hall : ∀ event, seen event = true → (waits event).isSome = true
    · left
      refine ⟨hall, ?_⟩
      have hany : seen .READ = true ∨ seen .WRITE = true := by
        cases event with
        | READ => exact .inl hevent
        | WRITE => exact .inr hevent
      exact triggerIf_both (m := ⟨m.fdContexts,
          Function.update m.epoll fd (interest (mask (others waits (seen .READ) (seen .WRITE)))),
          m.pendingEventCount, m.triggered⟩) hfd
        (maskOf (seen .READ) (seen .WRITE)) (fun _ => maskOf (seen .READ) (seen .WRITE)) hany
        (maskOf_and_read _ _) (fun _ _ => maskOf_and_write _ _) (hall .READ) (hall .WRITE)
    · right
      push Not at hall
      obtain ⟨other, hother, hunset⟩ := hall
      have hfree : waits other = none := by simpa using hunset
      exact ⟨⟨other, hother, hfree⟩, triggerIf_unregistered hfd hother hfree⟩

/-! ## The report and the waiters -/

/-- The waiters that are chosen are those of the events that are due. -/
theorem due_eq (hfd : m.fdContexts[fd]? = some (.of fd waits)) {seen : Event → Bool}
    (hseen : seen = sees (mask waits) reported) : m.due fd reported =
      [Event.WRITE, Event.READ].filter fun event =>
        (chosen waits (seen .READ) (seen .WRITE) event).isSome := by
  refine List.filter_congr fun event _ => ?_
  rw [events_of_getElem? hfd, of_events]
  have hchosen : chosen waits (seen .READ) (seen .WRITE) event =
      if seen event then waits event else none := by
    cases event <;> rfl
  rw [hchosen, hseen]
  cases hwaits : waits event with
  | none => simp [mask_and_bit_eq_zero.mpr hwaits]
  | some waiter =>
      have hset : mask waits &&& event.bit ≠ 0 := by
        rw [Ne, mask_and_bit_eq_zero, hwaits]
        exact Option.some_ne_none waiter
      have hreports : sees (mask waits) reported event = decide (Reports reported event) := by
        rw [sees, bne_iff_ne.mpr hset, Bool.and_true, Bool.eq_iff_iff, decide_eq_true_eq, Reports]
        simp
      rw [hreports]
      by_cases hreport : Reports reported event <;> simp [hset, hreport]

theorem map_woken (fd : Nat) (waits : Event → Option Waiter) :
    (woken fd waits).map (fun t => (t.fd, t.event)) =
      ([Event.WRITE, Event.READ].filter fun event => (waits event).isSome).map
        fun event => (fd, event) := by
  cases hread : waits .READ <;> cases hwrite : waits .WRITE <;>
    simp [woken, hread, hwrite, Triggered.of]

theorem bits_filter (seen : Event → Bool) :
    bits ([Event.WRITE, Event.READ].filter seen) = maskOf (seen .READ) (seen .WRITE) := by
  cases hread : seen .READ <;> cases hwrite : seen .WRITE <;> simp [bits, hread, hwrite] <;> rfl

/-- The waiters that are not chosen remain. -/
theorem mask_others (waits : Event → Option Waiter) (seen : Event → Bool) :
    mask waits &&& ~~~bits ([Event.WRITE, Event.READ].filter fun event =>
        (chosen waits (seen .READ) (seen .WRITE) event).isSome) =
      mask (others waits (seen .READ) (seen .WRITE)) := by
  rw [bits_filter fun event => (chosen waits (seen .READ) (seen .WRITE) event).isSome,
    mask_and_not_seen waits fun event => (chosen waits (seen .READ) (seen .WRITE) event).isSome]
  congr 1
  funext event
  cases event with
  | READ => cases hread : waits .READ <;> cases seen .READ <;> simp [others, chosen, hread]
  | WRITE => cases hwrite : waits .WRITE <;> cases seen .WRITE <;> simp [others, chosen, hwrite]

/-- Waking the waiters that are chosen is what should happen. -/
theorem dispatched_put (hfd : m.fdContexts[fd]? = some (.of fd waits)) {seen : Event → Bool}
    (hseen : seen = sees (mask waits) reported) :
    m.Dispatched fd reported (m.put fd (others waits (seen .READ) (seen .WRITE))
      (m.pendingEventCount -
        UInt64.ofNat (woken fd (chosen waits (seen .READ) (seen .WRITE))).length)
      (woken fd (chosen waits (seen .READ) (seen .WRITE)) ++ m.triggered)) where
  triggered := ⟨_, rfl, by rw [map_woken, due_eq hfd hseen]⟩
  count := by
    have hlength := congrArg List.length (map_woken fd (chosen waits (seen .READ) (seen .WRITE)))
    rw [List.length_map, List.length_map, ← due_eq hfd hseen] at hlength
    rw [← hlength]
    rfl
  events := by
    rw [events_of_getElem? (put_getElem? hfd), events_of_getElem? hfd, of_events, of_events,
      due_eq hfd hseen, mask_others]
  kernel := by
    rw [events_of_getElem? (put_getElem? hfd), of_events]
    exact Function.update_self ..
  other fd' hne := by
    rw [events, put_getElem?_ne hne, events]
    exact ⟨rfl, Function.update_of_ne hne ..⟩

/-- Nothing needs to happen when nobody waits for the events that are seen. -/
theorem dispatched_self (hm : m.Coherent) (hfd : m.fdContexts[fd]? = some (.of fd waits))
    (hnone : ∀ event, sees (mask waits) reported event = true → waits event = none) :
    m.Dispatched fd reported m := by
  have hdue : m.due fd reported = [] := by
    rw [due_eq hfd rfl, List.filter_eq_nil_iff]
    rintro (- | -) -
    all_goals
      simp only [chosen]
      split
      · next hsees => simp [hnone _ hsees]
      · simp
  refine ⟨⟨[], rfl, by rw [hdue]; rfl⟩, ?_, ?_, hm.kernel fd, fun fd' _ => ⟨rfl, rfl⟩⟩
  · rw [hdue]
    exact (UInt64.sub_zero _).symm
  · rw [hdue]
    exact (UInt32.and_neg_one).symm

/-- **One dispatch** does what it should exactly if the events that `idle` makes of the report are
all registered or none of them is. -/
theorem dispatched_iff (hm : m.Coherent) (hfd : m.fdContexts[fd]? = some (.of fd waits))
    (reported : UInt32) : (∃ m', m.dispatch fd reported = some m' ∧ m.Dispatched fd reported m') ↔
      AllOrNone (m.events fd) reported := by
  rw [events_of_getElem? hfd, of_events, AllOrNone, realEvents_eq, mask_and_seen,
    seen_and_not_mask]
  rcases dispatch_spec hm hfd rfl with ⟨hnone, hdispatch⟩ |
    ⟨⟨event, hevent, hwaits⟩, ⟨hall, hdispatch⟩ | ⟨⟨other, hother, hfree⟩, hdispatch⟩⟩
  · exact iff_of_true ⟨m, hdispatch, dispatched_self hm hfd hnone⟩ (.inl hnone)
  · exact iff_of_true ⟨_, hdispatch, dispatched_put hfd rfl⟩ (.inr hall)
  · refine iff_of_false ?_ ?_
    · rintro ⟨m', hsome, -⟩
      rw [hdispatch] at hsome
      cases hsome
    · rintro (hnone | hall)
      · rw [hnone event hevent] at hwaits
        cases hwaits
      · have hset := hall other hother
        rw [hfree] at hset
        cases hset

/-! ## Runs -/

theorem coherent_of_step {a : Action} (hm : m.Coherent) (hstep : m.step a = some m') :
    m'.Coherent := by
  cases a with
  | call op =>
      simp only [step, Option.ite_none_right_eq_some, Option.map_eq_some_iff] at hstep
      obtain ⟨hlegal, ⟨answer, m''⟩, hcall, rfl⟩ := hstep
      cases op with
      | addEvent fd event cb scheduler fiber =>
          obtain ⟨waits, hfd, -, hspec⟩ := addEvent_spec hm hlegal cb scheduler fiber
          rw [call, hspec] at hcall
          obtain ⟨-, rfl⟩ := Prod.mk.inj (Option.some.inj hcall)
          exact (hm.grow fd).put hfd
      | delEvent fd event =>
          rcases hm.lookup fd with hnone | ⟨waits, hfd, -⟩
          · rw [call, delEvent, hnone] at hcall
            obtain ⟨-, rfl⟩ := Prod.mk.inj (Option.some.inj hcall)
            exact hm
          · rw [call, delEvent_spec hm hfd] at hcall
            split at hcall
            all_goals obtain ⟨-, rfl⟩ := Prod.mk.inj (Option.some.inj hcall)
            · exact hm
            · exact hm.put hfd
      | cancelEvent fd event =>
          rcases hm.lookup fd with hnone | ⟨waits, hfd, -⟩
          · rw [call, cancelEvent, hnone] at hcall
            obtain ⟨-, rfl⟩ := Prod.mk.inj (Option.some.inj hcall)
            exact hm
          · rw [call, cancelEvent_spec hm hfd] at hcall
            split at hcall
            · obtain ⟨-, rfl⟩ := Prod.mk.inj (Option.some.inj hcall)
              exact hm
            · obtain ⟨waiter, -, hput⟩ := Option.map_eq_some_iff.mp hcall
              obtain ⟨-, rfl⟩ := Prod.mk.inj hput
              exact hm.put hfd
      | cancelAll fd =>
          rcases hm.lookup fd with hnone | ⟨waits, hfd, -⟩
          · rw [call, cancelAll, hnone] at hcall
            obtain ⟨-, rfl⟩ := Prod.mk.inj (Option.some.inj hcall)
            exact hm
          · rw [call, cancelAll_spec hm hfd] at hcall
            split at hcall
            all_goals obtain ⟨-, rfl⟩ := Prod.mk.inj (Option.some.inj hcall)
            · exact hm
            · exact hm.put hfd
  | dispatch fd reported =>
      rcases hm.lookup fd with hnone | ⟨waits, hfd, -⟩
      · rw [step, dispatch, hnone] at hstep
        cases hstep
      · rw [step] at hstep
        rcases dispatch_spec hm hfd rfl with ⟨-, hdispatch⟩ |
          ⟨-, ⟨-, hdispatch⟩ | ⟨-, hdispatch⟩⟩
        all_goals rw [hdispatch] at hstep
        · obtain rfl := Option.some.inj hstep
          exact hm
        · obtain rfl := Option.some.inj hstep
          exact hm.put hfd
        · cases hstep

/-- **Dispatch against the event table.**  After any interleaving of operations and dispatches, a
report is dispatched as it should be exactly if the events that `idle` makes of it are all
registered or none of them is. -/
theorem dispatched_iff_of_run (actions : List Action) {m : IOManager}
    (hrun : runActions step actions new = some m) {fd : Nat} (hfd : fd < m.fdContexts.length)
    (reported : UInt32) : (∃ m', m.dispatch fd reported = some m' ∧ m.Dispatched fd reported m') ↔
      AllOrNone (m.events fd) reported := by
  have hm : m.Coherent := invariant_of_runActions (fun hm hstep => coherent_of_step hm hstep)
    actions sound_new.1 hrun
  have hctx := List.getElem?_eq_getElem hfd
  obtain ⟨waits, hwaits⟩ := hm.contexts fd _ hctx
  exact dispatched_iff hm (hwaits ▸ hctx) reported

/-- A fiber waits for reading, and a callback for writing. -/
def bothRegistered : List Action :=
  [.call (.addEvent 5 .READ none 1 7), .call (.addEvent 5 .WRITE (some 3) 1 8)]

theorem dispatched_hangUp : ∃ m, runActions step bothRegistered new = some m ∧
    5 < m.fdContexts.length ∧ ∃ m', m.dispatch 5 EPOLLHUP = some m' ∧ m.Dispatched 5 EPOLLHUP m' :=
  ⟨_, rfl, by decide, (dispatched_iff_of_run bothRegistered rfl (by decide) EPOLLHUP).mpr
    (by decide)⟩

/-- Both events are reported, and then the registration for reading is deleted before the dispatch
takes the lock. -/
def staleReport : List Action := bothRegistered ++ [.call (.delEvent 5 .READ)]

theorem not_dispatched_staleReport :
    ¬ ∀ (actions : List Action) (m : IOManager), runActions step actions new = some m →
      ∀ fd < m.fdContexts.length, ∀ reported,
        ∃ m', m.dispatch fd reported = some m' ∧ m.Dispatched fd reported m' := by
  intro hall
  obtain ⟨m, hrun, hlt, hdispatch⟩ : ∃ m, runActions step staleReport new = some m ∧
      5 < m.fdContexts.length ∧ m.dispatch 5 (EPOLLIN ||| EPOLLOUT) = none :=
    ⟨_, rfl, by decide, rfl⟩
  obtain ⟨m', hsome, -⟩ := hall staleReport m hrun 5 hlt (EPOLLIN ||| EPOLLOUT)
  rw [hdispatch] at hsome
  cases hsome

end IOManager
end Routn
