import Routn.IoManager.Dispatch

/-!
# Two fibers in `do_io` on one descriptor

`do_io` of `Hook.cpp` for a fiber that reads and a fiber that writes the same descriptor.  A call
owns a `timer_info`; each round that would block adds a condition timer, registers the event, holds,
and cancels the timer when it comes back.  The callback of a timer that has expired is handed to the
scheduler and runs later, in steps of its own: it locks its weak pointer, tests and sets
`cancelled`, and calls `cancelEvent`.  Between any two steps another thread may dispatch what
`epoll_wait` has reported, or close the descriptor.

`triggered` of the event table is the record of what was put in the scheduler.
-/

namespace Routn

open Foundation

namespace DoIo

open IOManager FdContext

/-! ## The program -/

/-- Where a fiber is. -/
inductive Phase
  | outside
  /-- In `do_io`, before the system call. -/
  | retry
  /-- The system call has answered `EAGAIN`, and the timer is added if there is a timeout. -/
  | armed
  /-- `addEvent` has returned zero: the fiber holds. -/
  | holding
deriving DecidableEq, Repr

/-- One of the two fibers, with the timers of its calls.  A `timer_info` is the number of the call
that owns it. -/
structure Side where
  phase : Phase := .outside
  /-- `timeout != (uint64_t)-1`. -/
  timed : Bool := false
  tinfo : Nat := 0
  cancelled : Nat → Bool := fun _ => false
  /-- The timer of this round is in the `TimerManager`. -/
  timer : Bool := false
  /-- The callbacks in the scheduler, by the `timer_info` they point to. -/
  callbacks : List Nat := []
  /-- The callbacks that have locked it. -/
  locked : List Nat := []
  /-- The number of callbacks that are about to call `cancelEvent`. -/
  firing : Nat := 0
  /-- How often the fiber has held, and come back. -/
  holds : Nat := 0
  resumed : Nat := 0

/-- The descriptor is `fd`; `fiber` and `scheduler` are those of the two callers. -/
structure Callers where
  fd : Nat
  fiber : Event → Nat
  scheduler : Event → Nat

structure State where
  table : IOManager
  side : Event → Side

def init : State := ⟨.new, fun _ => {}⟩

inductive Act
  /-- The fiber calls `do_io`, with a timeout or without. -/
  | enter (event : Event) (timed : Bool)
  /-- The system call answers something other than `EAGAIN`, and `do_io` returns it. -/
  | leave (event : Event)
  /-- The system call answers `EAGAIN`, and `addConditionTimer` is called if there is a timeout. -/
  | arm (event : Event)
  /-- `addEvent`, and `YieldToHold` when it has returned zero. -/
  | register (event : Event)
  /-- `idle` takes the callback of the expired timer out of the `TimerManager` and schedules it. -/
  | expire (event : Event)
  /-- The callback locks its weak pointer. -/
  | lock (event : Event) (tinfo : Nat)
  /-- It tests `cancelled`, and sets it. -/
  | check (event : Event) (tinfo : Nat)
  /-- It calls `cancelEvent`. -/
  | fire (event : Event)
  /-- The fiber comes back: it cancels the timer, and looks at `cancelled`. -/
  | resume (event : Event)
  | dispatch (reported : UInt32)
  /-- `cancelAll`, called by `close`. -/
  | close
deriving DecidableEq, Repr

/-- The number of times that the event of the descriptor was triggered. -/
def puts (fd : Nat) (m : IOManager) (event : Event) : Nat :=
  m.triggered.countP fun t => t.fd == fd && t.event == event

variable (c : Callers)

def State.setSide (s : State) (event : Event) (side : Side) : State :=
  { s with side := Function.update s.side event side }

/-- What may happen next. -/
def Legal (s : State) : Act → Prop
  | .enter event _ => (s.side event).phase = .outside
  | .leave event => (s.side event).phase = .retry
  | .arm event => (s.side event).phase = .retry
  | .register event => (s.side event).phase = .armed
  | .expire event => (s.side event).timer = true
  | .lock event tinfo => tinfo ∈ (s.side event).callbacks
  | .check event tinfo => tinfo ∈ (s.side event).locked
  | .fire event => 0 < (s.side event).firing
  | .resume event => (s.side event).phase = .holding ∧
      (s.side event).resumed < puts c.fd s.table event
  | .dispatch _ => c.fd < s.table.fdContexts.length
  | .close => True

instance (s : State) : ∀ a, Decidable (Legal c s a)
  | .enter .. | .leave _ | .arm _ | .register _ => inferInstanceAs (Decidable (_ = _))
  | .expire _ => inferInstanceAs (Decidable (_ = _))
  | .lock .. | .check .. => inferInstanceAs (Decidable (_ ∈ _))
  | .fire _ | .dispatch _ => inferInstanceAs (Decidable (_ < _))
  | .resume _ => inferInstanceAs (Decidable (_ ∧ _))
  | .close => inferInstanceAs (Decidable True)

/-- One step; `none` is an assertion that fails. -/
def step (s : State) : Act → Option (Unit × State)
  | .enter event timed =>
      let side := s.side event
      some ((), s.setSide event
        { side with phase := .retry, timed := timed, tinfo := side.tinfo + 1 })
  | .leave event => some ((), s.setSide event { s.side event with phase := .outside })
  | .arm event =>
      let side := s.side event
      some ((), s.setSide event { side with phase := .armed, timer := side.timed })
  | .register event =>
      let side := s.side event
      match s.table.addEvent c.fd event none (c.scheduler event) (c.fiber event) with
      | none => none
      | some (ret, table) =>
          if ret ≠ 0 then
            some ((), { s with table := table }.setSide event
              { side with phase := .outside, timer := false })
          else
            some ((), { s with table := table }.setSide event
              { side with phase := .holding, holds := side.holds + 1 })
  | .expire event =>
      let side := s.side event
      some ((), s.setSide event
        { side with timer := false, callbacks := side.tinfo :: side.callbacks })
  | .lock event tinfo =>
      let side := s.side event
      let side := { side with callbacks := side.callbacks.erase tinfo }
      -- The `timer_info` of a call is there until the call returns.
      if side.tinfo = tinfo ∧ side.phase ≠ .outside then
        some ((), s.setSide event { side with locked := tinfo :: side.locked })
      else some ((), s.setSide event side)
  | .check event tinfo =>
      let side := s.side event
      let side := { side with locked := side.locked.erase tinfo }
      if side.cancelled tinfo then some ((), s.setSide event side)
      else
        some ((), s.setSide event { side with
          cancelled := Function.update side.cancelled tinfo true
          firing := side.firing + 1 })
  | .fire event =>
      let side := s.side event
      (s.table.cancelEvent c.fd event).map fun answer =>
        ((), { s with table := answer.2 }.setSide event { side with firing := side.firing - 1 })
  | .resume event =>
      let side := s.side event
      some ((), s.setSide event { side with
        timer := false
        resumed := side.resumed + 1
        phase := if side.cancelled side.tinfo then .outside else .retry })
  | .dispatch reported =>
      (s.table.dispatch c.fd reported).map fun table => ((), { s with table := table })
  | .close => (s.table.cancelAll c.fd).map fun answer => ((), { s with table := answer.2 })

/-! ## What should happen -/

/-- The event is registered. -/
def Registered (m : IOManager) (event : Event) : Prop := m.events c.fd &&& event.bit ≠ 0

instance (m : IOManager) (event : Event) : Decidable (Registered c m event) :=
  inferInstanceAs (Decidable (_ ≠ _))

/-- A fiber has been put in the scheduler as often as it has held, but for the current time while
its event is registered; and it has come back as often as it has held, but for the current time
while it holds. -/
structure Counted (m : IOManager) (event : Event) (side : Side) : Prop where
  put : puts c.fd m event + (if Registered c m event then 1 else 0) = side.holds
  resumed : side.resumed + (if side.phase = .holding then 1 else 0) = side.holds
  holding : Registered c m event → side.phase = .holding

/-- **Once for each time it holds,** for both fibers; and what was put is the fiber itself. -/
structure OncePerHold (s : State) : Prop where
  counted : ∀ event, Counted c s.table event (s.side event)
  task : ∀ t ∈ s.table.triggered, t.fd = c.fd →
    t.scheduler = c.scheduler t.event ∧ t.task = .fiber (c.fiber t.event)

/-- A timeout of one direction neither triggers nor unregisters the other, and leaves the table
alone when its own event is not registered. -/
def TimeoutRight (s : State) : Act → Unit → State → Prop
  | .fire event, _, s' =>
      (∀ other, other ≠ event →
        (Registered c s'.table other ↔ Registered c s.table other) ∧
        puts c.fd s'.table other = puts c.fd s.table other) ∧
      (¬ Registered c s.table event → s'.table = s.table)
  | _, _, _ => True

/-- A callback calls `cancelEvent` only while its event is registered or none is; and a report is
dispatched only while the events that `idle` makes of it are all registered or none of them is. -/
def Timely (s : State) : Act → Prop
  | .fire event => s.table.NotTheOther (.cancelEvent c.fd event)
  | .dispatch reported => AllOrNone (s.table.events c.fd) reported
  | _ => True

/-! ## The invariant -/

variable {c} {s : State} {m : IOManager} {event : Event} {waits waits' : Event → Option Waiter}

/-- The waiters are the two fibers. -/
def Mine (c : Callers) (waits : Event → Option Waiter) : Prop :=
  ∀ event waiter, waits event = some waiter →
    waiter = ⟨c.scheduler event, .fiber (c.fiber event)⟩

/-- The event table is coherent, and the two fibers are the waiters of the descriptor. -/
structure Inv (c : Callers) (s : State) : Prop where
  coherent : s.table.Coherent
  waiters : s.table.fdContexts[c.fd]? = none ∨
    ∃ waits, s.table.fdContexts[c.fd]? = some (.of c.fd waits) ∧ Mine c waits
  once : OncePerHold c s

theorem registered_iff (hfd : m.fdContexts[c.fd]? = some (.of c.fd waits)) :
    Registered c m event ↔ (waits event).isSome = true := by
  rw [Registered, events_of_getElem? hfd, of_events, Ne, mask_and_bit_eq_zero,
    Option.isSome_iff_ne_none]

theorem not_registered (hnone : m.fdContexts[c.fd]? = none) : ¬ Registered c m event := by
  rw [Registered, IOManager.events, hnone]
  exact fun h => h UInt32.zero_and

theorem ite_registered (hfd : m.fdContexts[c.fd]? = some (.of c.fd waits)) (event : Event) :
    (if Registered c m event then 1 else 0) = (waits event).isSome.toNat := by
  rw [if_congr (registered_iff hfd) rfl rfl]
  cases (waits event).isSome <;> rfl

theorem puts_append (fd : Nat) (waits : Event → Option Waiter) (new : List Triggered)
    (count : UInt64) (event : Event) :
    puts fd (m.put fd waits count (new ++ m.triggered)) event =
      (new.countP fun t => t.fd == fd && t.event == event) + puts fd m event :=
  List.countP_append

/-- What is put in the scheduler by `triggerEvent` for these waiters. -/
theorem countP_woken (fd : Nat) (waits : Event → Option Waiter) (event : Event) :
    ((woken fd waits).countP fun t => t.fd == fd && t.event == event) =
      (waits event).isSome.toNat := by
  cases event <;> cases hread : waits .READ <;> cases hwrite : waits .WRITE <;>
    simp [woken, hread, hwrite, Triggered.of]

theorem mem_woken {fd : Nat} {t : Triggered} (ht : t ∈ woken fd waits) :
    waits t.event = some ⟨t.scheduler, t.task⟩ := by
  rw [woken, List.mem_append, Option.mem_toList, Option.mem_toList, Option.map_eq_some_iff,
    Option.map_eq_some_iff] at ht
  rcases ht with ⟨waiter, hwaiter, rfl⟩ | ⟨waiter, hwaiter, rfl⟩
  · exact hwaiter
  · exact hwaiter

/-- A step of one fiber that leaves the table alone. -/
theorem Inv.setSide (h : Inv c s) {side : Side} (hcounted : Counted c s.table event side) :
    Inv c (s.setSide event side) := by
  refine ⟨h.coherent, h.waiters, fun other => ?_, h.once.task⟩
  by_cases heq : other = event
  · subst heq
    show Counted c s.table other (Function.update s.side other side other)
    rwa [Function.update_self]
  · show Counted c s.table other (Function.update s.side event side other)
    rw [Function.update_of_ne heq]
    exact h.once.counted other

/-- **Waiters are put in the scheduler:** those that are no longer there are, once, and the others
stay. -/
theorem Inv.wake (h : Inv c s) (hfd : s.table.fdContexts[c.fd]? = some (.of c.fd waits))
    (hmine : Mine c waits) {count : UInt64} (new : List Triggered)
    (hstay : ∀ event, waits' event = none ∨ waits' event = waits event)
    (hnew : ∀ event, (new.countP fun t => t.fd == c.fd && t.event == event) +
      (waits' event).isSome.toNat = (waits event).isSome.toNat)
    (htask : ∀ t ∈ new, waits t.event = some ⟨t.scheduler, t.task⟩) :
    Inv c { s with table := s.table.put c.fd waits' count (new ++ s.table.triggered) } := by
  have hfd' : (s.table.put c.fd waits' count (new ++ s.table.triggered)).fdContexts[c.fd]? =
      some (.of c.fd waits') := put_getElem? hfd
  refine ⟨h.coherent.put hfd, .inr ⟨waits', hfd', ?_⟩, ?_, ?_⟩
  · intro event waiter hwaiter
    rcases hstay event with hnone | hsame
    · rw [hnone] at hwaiter
      cases hwaiter
    · exact hmine event waiter (hsame ▸ hwaiter)
  · intro event
    have hcounted := h.once.counted event
    have hput := hcounted.put
    rw [ite_registered hfd] at hput
    refine ⟨?_, hcounted.resumed, ?_⟩
    · have := hnew event
      rw [puts_append, ite_registered hfd']
      show _ = (s.side event).holds
      omega
    · rw [registered_iff hfd']
      intro hsome
      refine hcounted.holding ((registered_iff hfd).mpr ?_)
      rcases hstay event with hnone | hsame
      · rw [hnone] at hsome
        cases hsome
      · rwa [← hsame]
  · intro t ht htfd
    rcases List.mem_append.mp ht with hmem | hmem
    · exact Waiter.mk.inj (hmine _ _ (htask t hmem))
    · exact h.once.task t hmem htfd

/-! ## Each kind of step -/

theorem isSome_update_none (waits : Event → Option Waiter) (event other : Event) :
    Function.update waits event none other = none ∨
      Function.update waits event none other = waits other := by
  by_cases heq : other = event
  · rw [heq, Function.update_self]
    exact .inl rfl
  · rw [Function.update_of_ne heq]
    exact .inr rfl

/-- **`cancelEvent` of a callback** that is timely. -/
theorem fire_good (h : Inv c s) (hok : s.table.NotTheOther (.cancelEvent c.fd event)) :
    ∃ answer, s.table.cancelEvent c.fd event = some answer ∧
      Inv c { s with table := answer.2 } ∧
      (∀ other, other ≠ event →
        (Registered c answer.2 other ↔ Registered c s.table other) ∧
        puts c.fd answer.2 other = puts c.fd s.table other) ∧
      (¬ Registered c s.table event → answer.2 = s.table) := by
  rcases h.waiters with hnone | ⟨waits, hfd, hmine⟩
  · exact ⟨(false, s.table), by rw [cancelEvent, hnone], h, fun _ _ => ⟨.rfl, rfl⟩, fun _ => rfl⟩
  · have hspec := cancelEvent_spec h.coherent hfd event
    have hevents : s.table.events c.fd = mask waits := events_of_getElem? hfd
    by_cases hempty : mask waits = 0
    · rw [if_pos hempty] at hspec
      exact ⟨(false, s.table), hspec, h, fun _ _ => ⟨.rfl, rfl⟩, fun _ => rfl⟩
    · rw [if_neg hempty] at hspec
      have hset : Registered c s.table event := hok.resolve_left (hevents ▸ hempty)
      obtain ⟨waiter, hwaits⟩ := Option.isSome_iff_exists.mp ((registered_iff hfd).mp hset)
      rw [hwaits, Option.map_some] at hspec
      have hcount : ∀ other, ([Triggered.of c.fd event waiter].countP
          fun t => t.fd == c.fd && t.event == other) = if other = event then 1 else 0 := by
        intro other
        cases event <;> cases other <;> simp [Triggered.of]
      refine ⟨_, hspec, ?_, ?_, fun hfree => absurd hset hfree⟩
      · refine h.wake hfd hmine [.of c.fd event waiter] (isSome_update_none waits event) ?_ ?_
        · intro other
          rw [hcount]
          by_cases heq : other = event
          · rw [if_pos heq, heq, Function.update_self, hwaits]
            rfl
          · rw [if_neg heq, Function.update_of_ne heq, Nat.zero_add]
        · intro t ht
          rw [List.mem_singleton.mp ht]
          exact hwaits
      · intro other hne
        have hput := puts_append c.fd (Function.update waits event none) (m := s.table)
          [.of c.fd event waiter] (s.table.pendingEventCount - 1) other
        rw [hcount, if_neg hne, Nat.zero_add] at hput
        refine ⟨?_, hput⟩
        rw [registered_iff (put_getElem? hfd), registered_iff hfd, Function.update_of_ne hne]

/-- `cancelEvent` that is not timely fails. -/
theorem fire_bad (h : Inv c s) (hbad : ¬ s.table.NotTheOther (.cancelEvent c.fd event)) :
    s.table.cancelEvent c.fd event = none := by
  obtain ⟨hempty, hclear⟩ := not_or.mp hbad
  have hfree : ¬ Registered c s.table event := hclear
  rcases h.waiters with hnone | ⟨waits, hfd, -⟩
  · rw [IOManager.events, hnone] at hempty
    exact absurd rfl hempty
  · have hspec := cancelEvent_spec h.coherent hfd event
    rw [events_of_getElem? hfd, of_events] at hempty
    rw [registered_iff hfd, Bool.not_eq_true, Option.isSome_eq_false_iff,
      Option.isNone_iff_eq_none] at hfree
    rwa [if_neg hempty, hfree, Option.map_none] at hspec

/-- **`cancelAll`** puts whoever holds. -/
theorem close_good (h : Inv c s) :
    ∃ answer, s.table.cancelAll c.fd = some answer ∧ Inv c { s with table := answer.2 } := by
  rcases h.waiters with hnone | ⟨waits, hfd, hmine⟩
  · exact ⟨(false, s.table), by rw [cancelAll, hnone], h⟩
  · have hspec := cancelAll_spec h.coherent hfd
    by_cases hempty : mask waits = 0
    · rw [if_pos hempty] at hspec
      exact ⟨(false, s.table), hspec, h⟩
    · rw [if_neg hempty] at hspec
      exact ⟨_, hspec, h.wake hfd hmine _ (fun _ => .inl rfl)
        (fun event => by rw [countP_woken]; rfl) (fun _ ht => mem_woken ht)⟩

/-- A report that is timely names events that are all registered, or none that is. -/
theorem allOrNone_iff (waits : Event → Option Waiter) (reported : UInt32) :
    AllOrNone (mask waits) reported ↔
      (∀ event, sees (mask waits) reported event = true → waits event = none) ∨
        ∀ event, sees (mask waits) reported event = true → (waits event).isSome = true := by
  rw [AllOrNone, realEvents_eq, mask_and_seen, seen_and_not_mask]

theorem lookup_of_lt (h : Inv c s) (hlt : c.fd < s.table.fdContexts.length) :
    ∃ waits, s.table.fdContexts[c.fd]? = some (.of c.fd waits) ∧ Mine c waits := by
  refine h.waiters.resolve_left fun hnone => ?_
  rw [List.getElem?_eq_none_iff] at hnone
  omega

/-- **The dispatch of a report** that is timely. -/
theorem dispatch_good (h : Inv c s) {reported : UInt32}
    (hlt : c.fd < s.table.fdContexts.length) (hok : AllOrNone (s.table.events c.fd) reported) :
    ∃ table, s.table.dispatch c.fd reported = some table ∧ Inv c { s with table := table } := by
  obtain ⟨waits, hfd, hmine⟩ := lookup_of_lt h hlt
  rw [events_of_getElem? hfd, of_events, allOrNone_iff] at hok
  rcases dispatch_spec h.coherent hfd rfl with ⟨-, hdispatch⟩ |
    ⟨⟨event, hevent, hwaits⟩, ⟨-, hdispatch⟩ | ⟨⟨other, hother, hfree⟩, -⟩⟩
  · exact ⟨s.table, hdispatch, h⟩
  · refine ⟨_, hdispatch, h.wake hfd hmine _ ?_ ?_ ?_⟩
    · rintro (- | -)
      all_goals
        simp only [others]
        split <;> simp
    · intro event
      rw [countP_woken]
      cases event
      all_goals
        simp only [others, chosen]
        split <;> simp
    · intro t ht
      have hchosen := mem_woken ht
      revert hchosen
      cases t.event
      all_goals
        simp only [chosen]
        split <;> simp
  · rcases hok with hnone | hall
    · rw [hnone event hevent] at hwaits
      cases hwaits
    · have hset := hall other hother
      rw [hfree] at hset
      cases hset

/-- A report that is not timely makes an assertion fail. -/
theorem dispatch_bad (h : Inv c s) {reported : UInt32}
    (hlt : c.fd < s.table.fdContexts.length) (hbad : ¬ AllOrNone (s.table.events c.fd) reported) :
    s.table.dispatch c.fd reported = none := by
  obtain ⟨waits, hfd, hmine⟩ := lookup_of_lt h hlt
  rw [events_of_getElem? hfd, of_events, allOrNone_iff, not_or] at hbad
  rcases dispatch_spec h.coherent hfd rfl with ⟨hnone, -⟩ | ⟨-, ⟨hall, -⟩ | ⟨-, hdispatch⟩⟩
  · exact absurd hnone hbad.1
  · exact absurd hall hbad.2
  · exact hdispatch

/-- The table may grow. -/
theorem Inv.grow (h : Inv c s) : Inv c { s with table := s.table.grow c.fd } := by
  have hregistered : ∀ event, Registered c (s.table.grow c.fd) event ↔
      Registered c s.table event := by
    intro event
    rw [Registered, grow_events h.coherent, Registered]
  refine ⟨h.coherent.grow c.fd, ?_, fun event => ?_, ?_⟩
  · rcases grow_getElem? h.coherent c.fd c.fd with hsame | ⟨-, hnew⟩
    · rcases h.waiters with hnone | hsome
      · exact .inl (hsame.trans hnone)
      · exact .inr (hsame ▸ hsome)
    · exact .inr ⟨fun _ => none, hnew, fun event waiter hwaiter => by cases hwaiter⟩
  · obtain ⟨hput, hresumed, hholding⟩ := h.once.counted event
    refine ⟨?_, hresumed, fun hset => hholding ((hregistered event).mp hset)⟩
    show puts c.fd (s.table.grow c.fd) event + _ = _
    rw [puts, grow_triggered, if_congr (hregistered event) rfl rfl]
    exact hput
  · show ∀ t ∈ (s.table.grow c.fd).triggered, _
    rw [grow_triggered]
    exact h.once.task

/-- **`addEvent` of a fiber** that is armed: its event is not registered, and it holds. -/
theorem register_good (h : Inv c s) (harmed : (s.side event).phase = .armed) :
    ∃ table, s.table.addEvent c.fd event none (c.scheduler event) (c.fiber event) =
        some (0, table) ∧
      Inv c (({ s with table := table } : State).setSide event
        { s.side event with phase := .holding, holds := (s.side event).holds + 1 }) := by
  have hfree : ¬ Registered c s.table event := by
    intro hset
    have hholding := (h.once.counted event).holding hset
    rw [harmed] at hholding
    cases hholding
  obtain ⟨waits, hfd, hnone, hspec⟩ := addEvent_spec h.coherent (not_not.mp hfree) none
    (c.scheduler event) (c.fiber event)
  have hgrown := h.grow
  have hmine : Mine c waits := by
    rcases hgrown.waiters with hmissing | ⟨waits', hfd', hmine⟩
    · exact absurd (hfd.symm.trans hmissing) (Option.some_ne_none _)
    · rwa [FdContext.of_injective c.fd (Option.some.inj (hfd.symm.trans hfd'))]
  let table := (s.table.grow c.fd).put c.fd
    (Function.update waits event (some ⟨c.scheduler event, .fiber (c.fiber event)⟩))
    ((s.table.grow c.fd).pendingEventCount + 1) (s.table.grow c.fd).triggered
  have hfd' : table.fdContexts[c.fd]? = some (.of c.fd (Function.update waits event
      (some ⟨c.scheduler event, .fiber (c.fiber event)⟩))) := put_getElem? hfd
  refine ⟨table, hspec, hgrown.coherent.put hfd, .inr ⟨_, hfd', ?_⟩, ?_, hgrown.once.task⟩
  · intro other waiter hwaiter
    by_cases heq : other = event
    · subst heq
      rw [Function.update_self] at hwaiter
      exact (Option.some.inj hwaiter).symm
    · rw [Function.update_of_ne heq] at hwaiter
      exact hmine other waiter hwaiter
  · intro other
    obtain ⟨hput, hresumed, hholding⟩ := hgrown.once.counted other
    rw [ite_registered hfd] at hput
    by_cases heq : other = event
    · subst heq
      show Counted c table other (Function.update s.side other _ other)
      rw [hnone] at hput
      rw [harmed, if_neg (by decide)] at hresumed
      rw [Function.update_self]
      refine ⟨?_, congrArg (· + 1) hresumed, fun _ => rfl⟩
      rw [ite_registered hfd', Function.update_self]
      exact congrArg (· + 1) hput
    · show Counted c table other (Function.update s.side event _ other)
      rw [Function.update_of_ne heq]
      refine ⟨?_, hresumed, ?_⟩
      · rw [ite_registered hfd', Function.update_of_ne heq]
        exact hput
      · rw [registered_iff hfd', Function.update_of_ne heq, ← registered_iff hfd]
        exact hholding

/-! ## Every step -/

/-- What does not concern the counts: a fiber that does not hold, before and after. -/
theorem Counted.change {side side' : Side} (h : Counted c m event side)
    (hphase : side.phase ≠ .holding) (hphase' : side'.phase ≠ .holding)
    (hholds : side'.holds = side.holds) (hresumed : side'.resumed = side.resumed) :
    Counted c m event side' where
  put := by rw [hholds, h.put]
  resumed := by rw [if_neg hphase', hholds, hresumed, ← h.resumed, if_neg hphase]
  holding hset := absurd (h.holding hset) hphase

/-- Neither do the timers. -/
theorem Counted.timers {side side' : Side} (h : Counted c m event side)
    (hphase : side'.phase = side.phase) (hholds : side'.holds = side.holds)
    (hresumed : side'.resumed = side.resumed) : Counted c m event side' where
  put := by rw [hholds, h.put]
  resumed := by rw [hphase, hholds, hresumed, h.resumed]
  holding hset := hphase ▸ h.holding hset

/-- A fiber that comes back has been put in the scheduler, and its event is not registered. -/
theorem Counted.resume {side side' : Side} (h : Counted c m event side)
    (hphase : side.phase = .holding) (hput : side.resumed < puts c.fd m event)
    (hphase' : side'.phase ≠ .holding) (hholds : side'.holds = side.holds)
    (hresumed : side'.resumed = side.resumed + 1) : Counted c m event side' := by
  have hcount := h.resumed
  have hputs := h.put
  rw [if_pos hphase] at hcount
  have hfree : ¬ Registered c m event := by
    intro hset
    rw [if_pos hset] at hputs
    omega
  exact ⟨by rw [hholds, h.put], by rw [if_neg hphase', hholds, hresumed]; omega,
    fun hset => absurd hset hfree⟩

theorem step_good {a : Act} (h : Inv c s) (hlegal : Legal c s a) (hok : Timely c s a) :
    ∃ o s', step c s a = some (o, s') ∧ TimeoutRight c s a o s' ∧ Inv c s' := by
  have hother : ∀ {phase : Phase}, phase ≠ .holding → ∀ {event}, (s.side event).phase = phase →
      (s.side event).phase ≠ .holding := fun hne _ heq => heq ▸ hne
  cases a with
  | enter event timed =>
      exact ⟨(), _, rfl, trivial, h.setSide ((h.once.counted event).change
        (hother (by decide) hlegal) (by simp) rfl rfl)⟩
  | leave event =>
      exact ⟨(), _, rfl, trivial, h.setSide ((h.once.counted event).change
        (hother (by decide) hlegal) (by simp) rfl rfl)⟩
  | arm event =>
      exact ⟨(), _, rfl, trivial, h.setSide ((h.once.counted event).change
        (hother (by decide) hlegal) (by simp) rfl rfl)⟩
  | register event =>
      obtain ⟨table, hadd, hinv⟩ := register_good h hlegal
      refine ⟨(), _, ?_, trivial, hinv⟩
      simp only [step, hadd]
      rfl
  | expire event =>
      exact ⟨(), _, rfl, trivial, h.setSide ((h.once.counted event).timers rfl rfl rfl)⟩
  | lock event tinfo =>
      simp only [step]
      split
      · exact ⟨(), _, rfl, trivial, h.setSide ((h.once.counted event).timers rfl rfl rfl)⟩
      · exact ⟨(), _, rfl, trivial, h.setSide ((h.once.counted event).timers rfl rfl rfl)⟩
  | check event tinfo =>
      simp only [step]
      split
      · exact ⟨(), _, rfl, trivial, h.setSide ((h.once.counted event).timers rfl rfl rfl)⟩
      · exact ⟨(), _, rfl, trivial, h.setSide ((h.once.counted event).timers rfl rfl rfl)⟩
  | fire event =>
      obtain ⟨answer, hcancel, hinv, hright⟩ := fire_good h hok
      refine ⟨(), ({ s with table := answer.2 } : State).setSide event
        { s.side event with firing := (s.side event).firing - 1 }, ?_, hright,
        hinv.setSide ((hinv.once.counted event).timers rfl rfl rfl)⟩
      simp only [step, hcancel]
      rfl
  | resume event =>
      obtain ⟨hphase, hput⟩ := hlegal
      refine ⟨(), _, rfl, trivial, h.setSide ((h.once.counted event).resume hphase hput ?_ rfl rfl)⟩
      show (if _ then Phase.outside else Phase.retry) ≠ .holding
      split <;> simp
  | dispatch reported =>
      obtain ⟨table, hdispatch, hinv⟩ := dispatch_good h hlegal hok
      exact ⟨(), _, by simp only [step, hdispatch]; rfl, trivial, hinv⟩
  | close =>
      obtain ⟨answer, hcancel, hinv⟩ := close_good h
      exact ⟨(), _, by simp only [step, hcancel]; rfl, trivial, hinv⟩

/-- A step that is not timely makes an assertion fail. -/
theorem step_bad {a : Act} (h : Inv c s) (hlegal : Legal c s a) (hbad : ¬ Timely c s a) :
    step c s a = none := by
  cases a with
  | fire event =>
      simp only [step, fire_bad h hbad]
      rfl
  | dispatch reported =>
      simp only [step, dispatch_bad h hlegal hbad]
      rfl
  | enter | leave | arm | register | expire | lock | check | resume | close =>
      exact absurd trivial hbad

theorem inv_init (c : Callers) : Inv c init := by
  have hwaiters : new.fdContexts[c.fd]? = none ∨
      ∃ waits, new.fdContexts[c.fd]? = some (.of c.fd waits) ∧ ∀ event, waits event = none := by
    cases hctx : new.fdContexts[c.fd]? with
    | none => exact .inl rfl
    | some ctx =>
        exact .inr ⟨fun _ => none, congrArg some (new_getElem? c.fd ctx hctx), fun _ => rfl⟩
  have hfree : ∀ event, ¬ Registered c new event := by
    intro event
    rcases hwaiters with hnone | ⟨waits, hfd, hnone⟩
    · exact not_registered hnone
    · rw [registered_iff hfd, hnone]
      exact Bool.false_ne_true
  refine ⟨sound_new.1, ?_, fun event => ?_, fun t ht => by cases ht⟩
  · rcases hwaiters with hnone | ⟨waits, hfd, hnone⟩
    · exact .inl hnone
    · exact .inr ⟨waits, hfd, fun event waiter hwaiter => by rw [hnone] at hwaiter; cases hwaiter⟩
  · have hput : puts c.fd new event + (if Registered c new event then 1 else 0) = 0 := by
      rw [if_neg (hfree event)]
      rfl
    exact ⟨hput, rfl, fun hset => absurd hset (hfree event)⟩

/-- **Two fibers on one descriptor.**  In a run, every fiber is put in the scheduler once for each
time it holds, no timeout touches the other direction or an event that was dispatched before, and
no assertion fails, exactly if all steps of the run are timely. -/
theorem doIo_iff (c : Callers) (acts : List Act) :
    runKeeps (step c) (Legal c) (OncePerHold c) (TimeoutRight c) acts init ↔
      runObserves (step c) (Legal c) (Timely c) acts init :=
  runKeeps_iff (fun h => h.once) (fun h hlegal hok => step_good h hlegal hok)
    (fun h hlegal hbad hstep => by rw [step_bad h hlegal hbad] at hstep; cases hstep)
    acts (inv_init c)

/-- Fiber 7 reads descriptor 5 and fiber 8 writes it, under scheduler 1. -/
def readerAndWriter : Callers where
  fd := 5
  fiber
    | .READ => 7
    | .WRITE => 8
  scheduler _ := 1

/-- Both fibers hold.  The timer of the reader expires, its event is dispatched at the same time,
and the callback runs before the reader comes back. -/
def lateTimeout : List Act :=
  [.enter .READ true, .arm .READ, .register .READ, .enter .WRITE false, .arm .WRITE,
    .register .WRITE, .expire .READ, .dispatch EPOLLIN, .lock .READ 1, .check .READ 1]

/-- The callback finds the writer registered, and an assertion fails. -/
theorem not_runKeeps_lateTimeout :
    ¬ ∀ acts, runKeeps (step readerAndWriter) (Legal readerAndWriter)
      (OncePerHold readerAndWriter) (TimeoutRight readerAndWriter) acts init := by
  intro hall
  have hrun := hall (lateTimeout ++ [.fire .READ])
  obtain ⟨s, hlate, hlegal, hfails⟩ : ∃ s, runActions (fun s a =>
      if Legal readerAndWriter s a then (step readerAndWriter s a).map Prod.snd else none)
        lateTimeout init = some s ∧
      Legal readerAndWriter s (.fire .READ) ∧ step readerAndWriter s (.fire .READ) = none :=
    ⟨_, rfl, by decide, rfl⟩
  obtain ⟨o, s', hstep, -⟩ := (runKeeps_after _ hrun hlate).2 hlegal
  rw [hfails] at hstep
  cases hstep

end DoIo
end Routn
