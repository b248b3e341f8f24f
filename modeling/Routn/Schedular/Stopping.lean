import Routn.Schedular.Dispatch

/-!
# What is left when `stopping` is true

`stopping` looks at the two flags, the queue and `_active_thread_cnt`.  The counter counts the
workers that have a task, so none has one when it is zero.  A `READY` fiber is in the queue, or with
a worker until it has been put back (`Tracked`).  What is left are the workers between
`--_active_thread_cnt` and `schedule`: the counter has let go of their fibers, and the queue does
not have them yet.

`stopsRight_iff`: no state of a run answers `stopping` wrongly exactly if no step of the run makes
the answer true, by a flag or by the counter, while such a worker holds a fiber.
-/

namespace Routn
namespace Schedular

open Foundation

/-- The worker has a task, or a fiber that it is going to put back in the queue. -/
def Pc.hasWork : Pc → Bool
  | .taken _ => true
  | .swapIn .. => true
  | .run .. => true
  | .swapOut .. => true
  | .returned .. => true
  | .schedule _ => true
  | _ => false

/-- The worker has decremented the counter for a `READY` fiber and has not put it back. -/
def Pc.holdsReady (fibers : Nat → Fiber) : Pc → Bool
  | .look f _ => (fibers f).status == .ready
  | .schedule _ => true
  | _ => false

variable (s : Schedular)

def WorkLeft : Prop :=
  s.queue ≠ [] ∨ (∃ k ∈ s.workers, k.pc.hasWork = true) ∨ ∃ f, (s.fibers f).status = .ready

def StopsRight : Prop := s.stopping = true → ¬ s.WorkLeft

def holdsReady : Bool := s.workers.any fun k => k.pc.holdsReady s.fibers

/-- The worker is about to decrement the counter, and lets go of a `READY` fiber if `ready`. -/
def Pc.letsGo (fibers : Nat → Fiber) : Pc → Option Bool
  | .returned f _ => some ((fibers f).status == .ready)
  | .drop => some false
  | _ => none

/-- With an empty queue, the last step to a true answer of `stopping` is not taken while a worker
holds a `READY` fiber, nor does it let go of one. -/
def LeavesNoReady : Action → Prop
  | .autostop => s.stoppingFlag = true → s.queue = [] → s.active = 0 → s.holdsReady = false
  | .stop => s.autostopFlag = true → s.queue = [] → s.active = 0 → s.holdsReady = false
  | .work w _ =>
      ∀ ready ∈ s.workers[w]?.bind fun k => k.pc.letsGo s.fibers,
        s.autostopFlag = true → s.stoppingFlag = true → s.queue = [] → s.active = 1 →
          ready = false ∧ s.holdsReady = false
  | _ => True

instance : ∀ a, Decidable (s.LeavesNoReady a)
  | .autostop => inferInstanceAs (Decidable (_ = true → s.queue = [] → _ = 0 → _ = false))
  | .stop => inferInstanceAs (Decidable (_ = true → s.queue = [] → _ = 0 → _ = false))
  | .work w _ => Option.decidableForallMem (s.workers[w]?.bind fun k => k.pc.letsGo s.fibers)
  | .schedule .. => inferInstanceAs (Decidable True)
  | .scheduleAll _ => inferInstanceAs (Decidable True)
  | .newFiber => inferInstanceAs (Decidable True)

/-! ## `READY` fibers -/

/-- The fiber a worker has between the queue and the queue. -/
def Pc.carried : Pc → Option Nat
  | .taken task => match task.job with
    | .fiber f => some f
    | .callback => none
  | .swapIn _ f _ => some f
  | .run f _ => some f
  | .swapOut f _ => some f
  | .returned f _ => some f
  | .look f _ => some f
  | .schedule f => some f
  | _ => none

/-- A `READY` fiber is in the queue or with a worker. -/
def Tracked : Prop :=
  ∀ f, (s.fibers f).status = .ready →
    (∃ task ∈ s.queue, task.job = .fiber f) ∨ ∃ k ∈ s.workers, k.pc.carried = some f

variable {s} {s' : Schedular} {w : Nat} {k k' : Worker}

namespace Tracked

/-- A step of a worker that does not touch the queue. -/
theorem goto (h : s.Tracked) (hw : s.workers[w]? = some k) (hqueue : s'.queue = s.queue)
    (hworkers : s'.workers = s.workers.set w k')
    (hnew : ∀ f, (s'.fibers f).status = .ready → (s.fibers f).status = .ready ∨
      k'.pc.carried = some f)
    (hkeeps : ∀ f, k.pc.carried = some f → (s'.fibers f).status = .ready →
      k'.pc.carried = some f) : s'.Tracked := by
  intro f hready
  obtain ⟨hlt, -⟩ := List.getElem?_eq_some_iff.mp hw
  have hk' : k' ∈ s'.workers := by
    rw [hworkers]
    exact List.mem_set hlt k'
  rcases hnew f hready with hbefore | hcarried
  · rcases h f hbefore with htask | ⟨v, hv, hcarried⟩
    · rw [hqueue]
      exact .inl htask
    · -- The worker that goes on, or another one.
      rcases mem_set_of_mem (b := k') hw hv with rfl | hv
      · exact .inr ⟨k', hk', hkeeps f hcarried hready⟩
      · rw [← hworkers] at hv
        exact .inr ⟨v, hv, hcarried⟩
  · exact .inr ⟨k', hk', hcarried⟩

/-- Writing a status that is not `READY`. -/
theorem setFiber_ready {f g : Nat} {fiber : Fiber} (hne : fiber.status ≠ .ready)
    (hready : ((s.setFiber f fiber).fibers g).status = .ready) :
    g ≠ f ∧ (s.fibers g).status = .ready := by
  by_cases heq : g = f
  · subst heq
    simp only [setFiber, Function.update_self] at hready
    exact absurd hready hne
  · simp only [setFiber, Function.update_of_ne heq] at hready
    exact ⟨heq, hready⟩

theorem schedule (h : s.Tracked) (fcs : List (Option Job)) (thread : Option Nat) :
    (s.schedule fcs thread).Tracked := by
  obtain ⟨tasks, tickles, heq, -⟩ := schedule_spec s fcs thread
  rw [heq]
  intro f hready
  rcases h f hready with ⟨task, htask, hjob⟩ | hworker
  · exact .inl ⟨task, List.mem_append_left _ htask, hjob⟩
  · exact .inr hworker

/-- A task is taken out of the queue. -/
theorem take (h : s.Tracked) {cb_fiber : Option Nat} {idleTerm tickle_me : Bool}
    {task : FiberAndThread} {left : List FiberAndThread}
    (hw : s.workers[w]? = some ⟨.pick, cb_fiber, idleTerm⟩)
    (hscan : scan w s.fibers s.queue = (tickle_me, some task, left))
    (hworkers : s'.workers = s.workers.set w ⟨.taken task, cb_fiber, idleTerm⟩)
    (hqueue : s'.queue = left) (hfibers : s'.fibers = s.fibers) : s'.Tracked := by
  obtain ⟨-, skipped, rest, hbefore, rfl⟩ := scan_some hscan
  obtain ⟨hlt, -⟩ := List.getElem?_eq_some_iff.mp hw
  intro f hready
  rw [hfibers] at hready
  rw [hqueue, hworkers]
  rcases h f hready with ⟨t, ht, hjob⟩ | ⟨v, hv, hcarried⟩
  · rw [hbefore, List.mem_append, List.mem_cons] at ht
    rcases ht with ht | rfl | ht
    · exact .inl ⟨t, List.mem_append_left _ ht, hjob⟩
    · refine .inr ⟨_, List.mem_set hlt _, ?_⟩
      simp only [Pc.carried, hjob]
    · exact .inl ⟨t, List.mem_append_right _ ht, hjob⟩
  · rcases mem_set_of_mem hw hv with rfl | hv
    · cases hcarried
    · exact .inr ⟨v, hv, hcarried⟩

/-- A fiber is put back in the queue. -/
theorem requeue (h : s.Tracked) {cb_fiber : Option Nat} {idleTerm : Bool} {f : Nat}
    (hw : s.workers[w]? = some ⟨.schedule f, cb_fiber, idleTerm⟩) :
    ((s.schedule [some (.fiber f)] none).goto w ⟨.pick, cb_fiber, idleTerm⟩).Tracked := by
  intro g hready
  by_cases heq : g = f
  · subst heq
    exact .inl ⟨⟨s.pushed, .fiber g, none⟩, List.mem_append_right _ List.mem_cons_self, rfl⟩
  · rcases h g hready with ⟨t, ht, hjob⟩ | ⟨v, hv, hcarried⟩
    · exact .inl ⟨t, List.mem_append_left _ ht, hjob⟩
    · rcases mem_set_of_mem hw hv with rfl | hv
      · exact absurd (Option.some.inj hcarried).symm heq
      · exact .inr ⟨v, hv, hcarried⟩

theorem step (h : s.Tracked) {a : Action} (hmoves : s.Moves a s') : s'.Tracked := by
  cases hmoves with
  | schedule => exact h.schedule _ _
  | scheduleAll => exact h.schedule _ _
  | newFiber => exact fun f hready => h f (setFiber_ready (by simp [Fiber.new]) hready).2
  | autostop => exact h
  | stop => exact h
  | fail => exact h
  | take hw hscan => exact h.take hw hscan rfl rfl rfl
  | nothing hw => exact h.goto hw rfl rfl (fun _ => .inl) (by simp [Pc.carried])
  | refuse hw hjob hended =>
      refine h.goto hw rfl rfl (fun _ => .inl) fun g hcarried hready => ?_
      simp only [Pc.carried, hjob, Option.some.injEq] at hcarried
      subst hcarried
      replace hready : (s.fibers _).status = .ready := hready
      rw [hready] at hended
      cases hended
  | accept hw hjob =>
      refine h.goto hw rfl rfl (fun _ => .inl) fun g hcarried _ => ?_
      simpa only [Pc.carried, hjob] using hcarried
  | reuse hw hjob =>
      refine h.goto hw rfl rfl
        (fun g hready => .inl (setFiber_ready (by simp [Fiber.new]) hready).2) ?_
      simp [Pc.carried, hjob]
  | create hw hjob =>
      refine h.goto hw rfl rfl
        (fun g hready => .inl (setFiber_ready (by simp [Fiber.new]) hready).2) ?_
      simp [Pc.carried, hjob]
  | swapIn hw =>
      exact h.goto hw rfl rfl (fun g hready => .inl (setFiber_ready (by simp) hready).2)
        fun _ hcarried _ => hcarried
  | @yield w ch cb_fiber idleTerm f cb fiber hw =>
      refine h.goto hw rfl rfl (fun g hready => ?_) fun _ hcarried _ => hcarried
      by_cases heq : g = f
      · exact .inr (congrArg some heq.symm)
      · simp only [Schedular.goto, setFiber, Function.update_of_ne heq] at hready
        exact .inl hready
  | @swapOut w ch cb_fiber idleTerm f cb hw =>
      refine h.goto hw rfl rfl (fun g hready => ?_) fun _ hcarried _ => hcarried
      by_cases heq : g = f
      · subst heq
        simp only [Schedular.goto, setFiber, Function.update_self] at hready
        exact .inl hready
      · simp only [Schedular.goto, setFiber, Function.update_of_ne heq] at hready
        exact .inl hready
  | returned hw => exact h.goto hw rfl rfl (fun _ => .inl) fun _ hcarried _ => hcarried
  | ready hw => exact h.goto hw rfl rfl (fun _ => .inl) fun _ hcarried _ => hcarried
  | ended hw hended =>
      refine h.goto hw rfl rfl (fun _ => .inl) fun g hcarried hready => ?_
      obtain rfl := Option.some.inj hcarried
      replace hready : (s.fibers _).status = .ready := hready
      rw [hready] at hended
      cases hended
  | held hw hstatus =>
      refine h.goto hw rfl rfl (fun _ => .inl) fun g hcarried hready => ?_
      obtain rfl := Option.some.inj hcarried
      exact absurd hready hstatus.1
  | requeue hw => exact h.requeue hw
  | reset hw =>
      exact h.goto hw rfl rfl
        (fun g hready => .inl (setFiber_ready (by simp [Fiber.new]) hready).2)
        (by simp [Pc.carried])
  | hold hw =>
      exact h.goto hw rfl rfl (fun g hready => .inl (setFiber_ready (by simp) hready).2)
        (by simp [Pc.carried])
  | drop hw => exact h.goto hw rfl rfl (fun _ => .inl) (by simp [Pc.carried])
  | idle hw => exact h.goto hw rfl rfl (fun _ => .inl) (by simp [Pc.carried])

end Tracked

/-! ## The answer of `stopping` -/

theorem stopping_iff : s.stopping = true ↔
    s.autostopFlag = true ∧ s.stoppingFlag = true ∧ s.queue = [] ∧ s.active = 0 := by
  simp [stopping, and_assoc]

theorem holdsReady_iff : s.holdsReady = true ↔
    ∃ (i : Nat) (k : Worker), s.workers[i]? = some k ∧ k.pc.holdsReady s.fibers = true := by
  rw [holdsReady, List.any_eq_true]
  constructor
  · rintro ⟨k, hk, hholds⟩
    obtain ⟨i, hi⟩ := List.mem_iff_getElem?.mp hk
    exact ⟨i, k, hi, hholds⟩
  · rintro ⟨i, k, hi, hholds⟩
    exact ⟨k, List.mem_of_getElem? hi, hholds⟩

/-- When the counter is zero, no worker has a task. -/
theorem Dispatched.not_active (h : s.Dispatched) (hzero : s.active = 0)
    (hk : k ∈ s.workers) : k.active = 0 := by
  obtain ⟨i, hi⟩ := List.mem_iff_getElem?.mp hk
  have hle : k.active ≤ s.activeWorkers := le_total (f := Worker.active) hi
  have hactive := h.active
  omega

/-- A worker with work is counted, or is past its decrement. -/
theorem active_or_holdsReady {fibers : Nat → Fiber} (h : k.pc.hasWork = true) :
    k.active = 1 ∨ k.pc.holdsReady fibers = true := by
  obtain ⟨pc, cb_fiber, idleTerm⟩ := k
  cases pc with
  | schedule f => exact .inr rfl
  | pick => cases h
  | look => cases h
  | reset => cases h
  | hold => cases h
  | drop => cases h
  | idle => cases h
  | exited => cases h
  | _ => exact .inl rfl

theorem active_or_holdsReady_of_carried {fibers : Nat → Fiber} {f : Nat}
    (hcarried : k.pc.carried = some f) (hready : (fibers f).status = .ready) :
    k.active = 1 ∨ k.pc.holdsReady fibers = true := by
  obtain ⟨pc, cb_fiber, idleTerm⟩ := k
  cases pc with
  | look g cb =>
      obtain rfl := Option.some.inj hcarried
      exact .inr (beq_iff_eq.mpr hready)
  | schedule g => exact .inr rfl
  | pick => cases hcarried
  | reset => cases hcarried
  | hold => cases hcarried
  | drop => cases hcarried
  | idle => cases hcarried
  | exited => cases hcarried
  | _ => exact .inl rfl

/-- When `stopping` is true, the work that is left is held between the counter and the queue. -/
theorem workLeft_iff (hd : s.Dispatched) (ht : s.Tracked) (hstop : s.stopping = true) :
    s.WorkLeft ↔ s.holdsReady = true := by
  obtain ⟨-, -, hqueue, hzero⟩ := stopping_iff.mp hstop
  rw [holdsReady, List.any_eq_true]
  -- No worker is counted.
  have hholds : ∀ k ∈ s.workers, (k.active = 1 ∨ k.pc.holdsReady s.fibers = true) →
      ∃ k ∈ s.workers, k.pc.holdsReady s.fibers = true := by
    rintro k hk (hactive | hholds)
    · rw [hd.not_active hzero hk] at hactive
      cases hactive
    · exact ⟨k, hk, hholds⟩
  constructor
  · rintro (hne | ⟨k, hk, hwork⟩ | ⟨f, hready⟩)
    · exact absurd hqueue hne
    · exact hholds k hk (active_or_holdsReady hwork)
    · rcases ht f hready with ⟨task, htask, -⟩ | ⟨k, hk, hcarried⟩
      · rw [hqueue] at htask
        cases htask
      · exact hholds k hk (active_or_holdsReady_of_carried hcarried hready)
  · rintro ⟨k, hk, hholds⟩
    obtain ⟨pc, cb_fiber, idleTerm⟩ := k
    cases pc with
    | look f cb => exact .inr (.inr ⟨f, beq_iff_eq.mp hholds⟩)
    | schedule f => exact .inr (.inl ⟨_, hk, rfl⟩)
    | _ => cases hholds

theorem stopsRight_iff_holdsReady (hd : s.Dispatched) (ht : s.Tracked) :
    s.StopsRight ↔ (s.stopping = true → s.holdsReady = false) := by
  constructor
  · intro h hstop
    rw [Bool.eq_false_iff]
    exact fun hholds => h hstop ((workLeft_iff hd ht hstop).mpr hholds)
  · intro h hstop hwork
    rw [workLeft_iff hd ht hstop, h hstop] at hwork
    cases hwork

theorem Pc.holdsReady_mono {pc : Pc} {fibers fibers' : Nat → Fiber}
    (hfibers : ∀ f, (fibers' f).status = .ready → (fibers f).status = .ready)
    (h : pc.holdsReady fibers' = true) : pc.holdsReady fibers = true := by
  cases pc with
  | look f cb => exact beq_iff_eq.mpr (hfibers f (beq_iff_eq.mp h))
  | schedule f => rfl
  | _ => cases h

/-- A step of a worker by which nobody comes to hold a `READY` fiber. -/
theorem holdsReady_mono (hw : s.workers[w]? = some k)
    (hworkers : s'.workers = s.workers.set w k')
    (hfibers : ∀ f, (s'.fibers f).status = .ready → (s.fibers f).status = .ready)
    (hk : k'.pc.holdsReady s'.fibers = true → k.pc.holdsReady s.fibers = true)
    (h : s'.holdsReady = true) : s.holdsReady = true := by
  obtain ⟨i, l, hi, hholds⟩ := holdsReady_iff.mp h
  rw [hworkers] at hi
  rcases getElem?_of_set hi with ⟨rfl, rfl⟩ | ⟨-, hi⟩
  · exact holdsReady_iff.mpr ⟨i, k, hw, hk hholds⟩
  · exact holdsReady_iff.mpr ⟨i, l, hi, Pc.holdsReady_mono hfibers hholds⟩

/-- A worker that is counted keeps `stopping` false. -/
theorem not_stopping (hd : s.Dispatched) (hk : k ∈ s.workers) (hactive : k.active = 1) :
    ¬ s.stopping = true := by
  intro hstop
  rw [hd.not_active (stopping_iff.mp hstop).2.2.2 hk] at hactive
  cases hactive

theorem leavesNoReady_of_letsGo {ch : Choice} (hw : s.workers[w]? = some k)
    (hpc : k.pc.letsGo s.fibers = none) : s.LeavesNoReady (.work w ch) := by
  intro ready hready
  rw [hw, Option.bind_some, hpc] at hready
  cases hready

section Step

variable {a : Action} {ch : Choice}

/-- A step that makes no answer true and lets nobody come to hold a `READY` fiber. -/
theorem stops_of_mono (h : s.stopping = true → s.holdsReady = false)
    (hstop : s'.stopping = true → s.stopping = true)
    (hholds : s'.holdsReady = true → s.holdsReady = true) :
    s'.stopping = true → s'.holdsReady = false := by
  intro hstop'
  rw [Bool.eq_false_iff]
  intro hholds'
  rw [h (hstop hstop')] at hholds
  cases hholds hholds'

theorem stops_of_schedule (h : s.stopping = true → s.holdsReady = false) (fcs : List (Option Job))
    (thread : Option Nat) :
    (s.schedule fcs thread).stopping = true → (s.schedule fcs thread).holdsReady = false := by
  obtain ⟨tasks, tickles, heq, -⟩ := schedule_spec s fcs thread
  rw [heq]
  refine stops_of_mono h (fun hstop => ?_) id
  obtain ⟨hautostop, hstopping, hqueue, hzero⟩ := stopping_iff.mp hstop
  exact stopping_iff.mpr ⟨hautostop, hstopping, (List.append_eq_nil_iff.mp hqueue).1, hzero⟩

/-- The counter goes down. -/
theorem stops_iff_of_letsGo (hd : s.Dispatched) {ready : Bool} (hw : s.workers[w]? = some k)
    (hactive : k.active = 1) (hquiet : k.pc.holdsReady s.fibers = false)
    (hlets : k.pc.letsGo s.fibers = some ready) (hready : k'.pc.holdsReady s.fibers = ready) :
    (({ s.goto w k' with active := s.active - 1 } : Schedular).stopping = true →
        ({ s.goto w k' with active := s.active - 1 } : Schedular).holdsReady = false) ↔
      s.LeavesNoReady (.work w ch) := by
  obtain ⟨hlt, -⟩ := List.getElem?_eq_some_iff.mp hw
  have hpos : 1 ≤ s.active := by
    rw [hd.active, ← hactive]
    exact le_total (f := Worker.active) hw
  have hstop : ({ s.goto w k' with active := s.active - 1 } : Schedular).stopping = true ↔
      s.autostopFlag = true ∧ s.stoppingFlag = true ∧ s.queue = [] ∧ s.active = 1 := by
    rw [stopping_iff]
    show _ ∧ _ ∧ _ ∧ s.active - 1 = 0 ↔ _
    rw [show s.active - 1 = 0 ↔ s.active = 1 by omega]
    rfl
  -- Who holds a fiber now is the worker that has let go of one, or held one before.
  have hholds : ({ s.goto w k' with active := s.active - 1 } : Schedular).holdsReady = true ↔
      ready = true ∨ s.holdsReady = true := by
    rw [holdsReady_iff, holdsReady_iff]
    constructor
    · rintro ⟨i, l, hi, hl⟩
      replace hi : (s.workers.set w k')[i]? = some l := hi
      rcases getElem?_of_set hi with ⟨-, rfl⟩ | ⟨-, hi⟩
      · exact .inl (hready.symm.trans hl)
      · exact .inr ⟨i, l, hi, hl⟩
    · rintro (rfl | ⟨i, l, hi, hl⟩)
      · exact ⟨w, k', List.getElem?_set_self hlt, hready⟩
      · have hne : w ≠ i := by
          rintro rfl
          obtain rfl := Option.some.inj (hw.symm.trans hi)
          rw [hquiet] at hl
          cases hl
        exact ⟨i, l, (List.getElem?_set_ne hne).trans hi, hl⟩
  rw [hstop, Bool.eq_false_iff, Ne, hholds, LeavesNoReady, hw]
  simp only [Option.bind_some, hlets, Option.mem_def, Option.some.injEq, forall_eq', not_or,
    Bool.not_eq_true, and_imp]

theorem stopsRight_step (hd : s.Dispatched) (ht : s.Tracked) (hd' : s'.Dispatched)
    (ht' : s'.Tracked) (h : s.StopsRight) (hmoves : s.Moves a s') :
    s'.StopsRight ↔ s.LeavesNoReady a := by
  rw [stopsRight_iff_holdsReady hd ht] at h
  rw [stopsRight_iff_holdsReady hd' ht']
  -- A worker that is counted after the step.
  have hbusy : ∀ {w k k'}, s.workers[w]? = some k → s'.workers = s.workers.set w k' →
      k'.active = 1 → s'.stopping = true → s'.holdsReady = false := by
    intro w k k' hw hworkers hactive hstop
    obtain ⟨hlt, -⟩ := List.getElem?_eq_some_iff.mp hw
    have hk' : k' ∈ s'.workers := by
      rw [hworkers]
      exact List.mem_set hlt k'
    exact absurd hstop (not_stopping hd' hk' hactive)
  cases hmoves with
  | schedule => exact iff_of_true (stops_of_schedule h _ _) trivial
  | scheduleAll => exact iff_of_true (stops_of_schedule h _ _) trivial
  | newFiber =>
      refine iff_of_true (stops_of_mono h id fun hholds => ?_) trivial
      obtain ⟨i, l, hi, hl⟩ := holdsReady_iff.mp hholds
      refine holdsReady_iff.mpr ⟨i, l, hi, Pc.holdsReady_mono (fun f hready => ?_) hl⟩
      exact (Tracked.setFiber_ready (by simp [Fiber.new]) hready).2
  | autostop =>
      rw [stopping_iff, LeavesNoReady]
      exact ⟨fun hstops hflag hqueue hzero => hstops ⟨rfl, hflag, hqueue, hzero⟩,
        fun hleaves ⟨_, hflag, hqueue, hzero⟩ => hleaves hflag hqueue hzero⟩
  | stop =>
      rw [stopping_iff, LeavesNoReady]
      exact ⟨fun hstops hflag hqueue hzero => hstops ⟨hflag, rfl, hqueue, hzero⟩,
        fun hleaves ⟨hflag, _, hqueue, hzero⟩ => hleaves hflag hqueue hzero⟩
  | take hw => exact iff_of_true (hbusy hw rfl rfl) (leavesNoReady_of_letsGo hw rfl)
  | @nothing w ch cb_fiber idleTerm tickle_me left hw hscan =>
      refine iff_of_true (stops_of_mono h id (holdsReady_mono hw rfl (fun _ => id) ?_))
        (leavesNoReady_of_letsGo hw rfl)
      cases idleTerm <;> exact id
  | refuse hw => exact iff_of_true (hbusy hw rfl rfl) (leavesNoReady_of_letsGo hw rfl)
  | accept hw => exact iff_of_true (hbusy hw rfl rfl) (leavesNoReady_of_letsGo hw rfl)
  | reuse hw => exact iff_of_true (hbusy hw rfl rfl) (leavesNoReady_of_letsGo hw rfl)
  | create hw => exact iff_of_true (hbusy hw rfl rfl) (leavesNoReady_of_letsGo hw rfl)
  | swapIn hw => exact iff_of_true (hbusy hw rfl rfl) (leavesNoReady_of_letsGo hw rfl)
  | yield hw => exact iff_of_true (hbusy hw rfl rfl) (leavesNoReady_of_letsGo hw rfl)
  | swapOut hw => exact iff_of_true (hbusy hw rfl rfl) (leavesNoReady_of_letsGo hw rfl)
  | returned hw => exact stops_iff_of_letsGo hd hw rfl rfl rfl rfl
  | ready hw hstatus =>
      refine iff_of_true (stops_of_mono h id (holdsReady_mono hw rfl (fun _ => id) fun _ => ?_))
        (leavesNoReady_of_letsGo hw rfl)
      exact beq_iff_eq.mpr hstatus
  | @ended w ch cb_fiber idleTerm f cb hw =>
      refine iff_of_true (stops_of_mono h id (holdsReady_mono hw rfl (fun _ => id) ?_))
        (leavesNoReady_of_letsGo hw rfl)
      cases cb <;> exact fun hholds => absurd hholds Bool.false_ne_true
  | held hw =>
      refine iff_of_true (stops_of_mono h id (holdsReady_mono hw rfl (fun _ => id) ?_))
        (leavesNoReady_of_letsGo hw rfl)
      exact fun hholds => absurd hholds Bool.false_ne_true
  | requeue hw =>
      refine iff_of_true (fun hstop => ?_) (leavesNoReady_of_letsGo hw rfl)
      have hqueue := (stopping_iff.mp hstop).2.2.1
      exact absurd hqueue (List.append_ne_nil_of_right_ne_nil _ (List.cons_ne_nil _ _))
  | reset hw =>
      refine iff_of_true (stops_of_mono h id (holdsReady_mono hw rfl ?_ id))
        (leavesNoReady_of_letsGo hw rfl)
      exact fun g hready => (Tracked.setFiber_ready (by simp [Fiber.new]) hready).2
  | hold hw =>
      refine iff_of_true (stops_of_mono h id (holdsReady_mono hw rfl ?_ id))
        (leavesNoReady_of_letsGo hw rfl)
      exact fun g hready => (Tracked.setFiber_ready (by simp) hready).2
  | drop hw => exact stops_iff_of_letsGo hd hw rfl rfl rfl rfl
  | idle hw =>
      exact iff_of_true (stops_of_mono h id (holdsReady_mono hw rfl (fun _ => id) id))
        (leavesNoReady_of_letsGo hw rfl)
  | fail hw hfails =>
      refine iff_of_true (stops_of_mono h id id) (leavesNoReady_of_letsGo hw ?_)
      cases hfails <;> rfl

end Step

theorem tracked_init (threads : Nat) : (init threads).Tracked :=
  fun _ hready => absurd hready (by simp [init, Fiber.new])

theorem Reachable.tracked {threads : Nat} (h : Reachable threads s) : s.Tracked :=
  Reach.invariant (tracked_init threads) (fun _ hs _ hstep => hs.step (moves_of_step hstep)) h

/-- **No work is left when `stopping` is true**: this holds after every step of a run exactly if no
step of the run makes the answer true while a worker holds a `READY` fiber that is neither counted
nor in the queue. -/
theorem stopsRight_iff (threads : Nat) (actions : List Action) {s : Schedular}
    (hrun : runActions step actions (init threads) = some s) :
    runMeets step (fun s a => ∀ s', s.step a = some s' → s'.StopsRight) actions (init threads) ↔
      runMeets step LeavesNoReady actions (init threads) := by
  have hinit : Reachable threads (init threads) ∧ (init threads).StopsRight :=
    ⟨.init, fun hstop => absurd hstop (by simp [init, stopping])⟩
  have hiff : ∀ {s s' : Schedular} {a : Action}, (Reachable threads s ∧ s.StopsRight) →
      s.step a = some s' → (s'.StopsRight ↔ s.LeavesNoReady a) := by
    rintro s s' a ⟨hreach, hright⟩ hstep
    have hreach' : Reachable threads s' := .step hreach trivial hstep
    exact stopsRight_step hreach.dispatched hreach.tracked hreach'.dispatched hreach'.tracked hright
      (moves_of_step hstep)
  constructor
  · exact runMeets_mono (I := fun s => Reachable threads s ∧ s.StopsRight)
      (fun h hok hstep => ⟨.step h.1 trivial hstep, hok _ hstep⟩)
      (fun h hok hstep => (hiff h hstep).mp (hok _ hstep)) actions hinit hrun
  · refine runMeets_mono (I := fun s => Reachable threads s ∧ s.StopsRight)
      (fun h hok hstep => ⟨.step h.1 trivial hstep, (hiff h hstep).mpr hok⟩)
      (fun h hok hstep s' hstep' => ?_) actions hinit hrun
    obtain rfl := Option.some.inj (hstep.symm.trans hstep')
    exact (hiff h hstep).mpr hok

/-- A fiber that yields is put back in the queue before the scheduler is stopped. -/
def yieldThenStop : List Action :=
  [.newFiber, .schedule (some (.fiber 0)) none, .work 0 .yieldToReady, .work 0 .yieldToReady,
    .work 0 .yieldToReady, .work 0 .yieldToReady, .work 0 .yieldToReady, .work 0 .yieldToReady,
    .work 0 .yieldToReady, .work 0 .yieldToReady, .autostop, .stop]

theorem stopsRight_yieldThenStop : (runActions step yieldThenStop (init 1)).isSome = true ∧
    runMeets step (fun s a => ∀ s', s.step a = some s' → s'.StopsRight) yieldThenStop (init 1) := by
  have hsome : (runActions step yieldThenStop (init 1)).isSome = true := by decide
  obtain ⟨s, hs⟩ := Option.isSome_iff_exists.mp hsome
  exact ⟨hsome, (stopsRight_iff 1 yieldThenStop hs).mpr (by decide)⟩

/-- The same, but `stop` is called between `--_active_thread_cnt` and `schedule`. -/
def stopInBetween : List Action :=
  [.newFiber, .schedule (some (.fiber 0)) none, .work 0 .yieldToReady, .work 0 .yieldToReady,
    .work 0 .yieldToReady, .work 0 .yieldToReady, .work 0 .yieldToReady, .work 0 .yieldToReady,
    .autostop, .stop]

theorem not_stopsRight_stopInBetween :
    ¬ ∀ (threads : Nat) (s : Schedular), Reachable threads s → s.StopsRight := by
  intro hall
  have hrun : (runActions step stopInBetween (init 1)).map
      (fun s => (s.stopping, (s.fibers 0).status)) = some (true, .ready) := by
    decide
  obtain ⟨s, hs, heq⟩ := Option.map_eq_some_iff.mp hrun
  obtain ⟨hstop, hready⟩ := Prod.mk.inj heq
  have hreach : Reachable 1 s := reach_of_runActions stopInBetween hs (by decide)
  exact hall 1 s hreach hstop (.inr (.inr ⟨0, hready⟩))

end Schedular
end Routn
