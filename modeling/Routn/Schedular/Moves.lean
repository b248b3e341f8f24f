import Routn.Schedular.Basic

/-!
# What a step of the scheduler can do

`Moves` has one case for each way a step can go, with the state before the `if` of the source
resolved; every proof about runs splits on it.
-/

namespace Routn
namespace Schedular

/-- How a running fiber leaves its status to the worker. -/
inductive Yields (fiber : Fiber) : Fiber → Prop
  | yieldToReady (hcallback : fiber.callback = true) : Yields fiber { fiber with status := .ready }
  | yieldToHold (hcallback : fiber.callback = true) (hexec : fiber.status = .exec) :
      Yields fiber fiber
  | returns (hcallback : fiber.callback = true) :
      Yields fiber { fiber with status := .term, callback := false }
  | throws : Yields fiber { fiber with status := .except }

/-- The assertions a worker may fail. -/
inductive Fails (s : Schedular) (w : Nat) (cb_fiber : Option Nat) : Pc → Fault → Prop
  | swapIn {task : FiberAndThread} {f : Nat} {status : Status}
      (hexec : (s.fibers f).status = .exec) :
      Fails s w cb_fiber (.swapIn task f status) (.swapIn w f)
  | reuse {task : FiberAndThread} {f : Nat} (hjob : task.job = .callback)
      (hcb : cb_fiber = some f) (hreset : s.resettable f = false) :
      Fails s w cb_fiber (.taken task) (.reset w f)
  | reset {f : Nat} (hreset : s.resettable f = false) : Fails s w cb_fiber (.reset f) (.reset w f)
  | yieldToHold {f : Nat} {cb : Bool} (hexec : (s.fibers f).status ≠ .exec) :
      Fails s w cb_fiber (.run f cb) (.yieldToHold w f)

/-- The ways in which a step can go. -/
inductive Moves (s : Schedular) : Action → Schedular → Prop
  | schedule {fc : Option Job} {thread : Option Nat} (hpass : s.mayPass fc = true) :
      Moves s (.schedule fc thread) (s.schedule [fc] thread)
  | scheduleAll {fcs : List (Option Job)} (hpass : ∀ fc ∈ fcs, s.mayPass fc = true) :
      Moves s (.scheduleAll fcs) (s.schedule fcs none)
  | newFiber :
      Moves s .newFiber { s.setFiber s.fiberCount (.new true) with fiberCount := s.fiberCount + 1 }
  | autostop : Moves s .autostop { s with autostopFlag := true }
  | stop : Moves s .stop { s with stoppingFlag := true }
  | take {w : Nat} {ch : Choice} {cb_fiber : Option Nat} {idleTerm tickle_me : Bool}
      {task : FiberAndThread} {left : List FiberAndThread}
      (hw : s.workers[w]? = some ⟨.pick, cb_fiber, idleTerm⟩)
      (hscan : scan w s.fibers s.queue = (tickle_me, some task, left)) :
      Moves s (.work w ch) { s.goto w ⟨.taken task, cb_fiber, idleTerm⟩ with
        queue := left
        active := s.active + 1
        tickles := s.tickles + tickle_me.toNat
        takes := s.takes ++ [⟨task, w, task.status s.fibers⟩] }
  | nothing {w : Nat} {ch : Choice} {cb_fiber : Option Nat} {idleTerm tickle_me : Bool}
      {left : List FiberAndThread} (hw : s.workers[w]? = some ⟨.pick, cb_fiber, idleTerm⟩)
      (hscan : scan w s.fibers s.queue = (tickle_me, none, left)) :
      Moves s (.work w ch)
        { s.goto w ⟨if idleTerm then .exited else .idle, if idleTerm then none else cb_fiber,
            idleTerm⟩ with
          tickles := s.tickles + tickle_me.toNat }
  | refuse {w : Nat} {ch : Choice} {cb_fiber : Option Nat} {idleTerm : Bool}
      {task : FiberAndThread} {f : Nat}
      (hw : s.workers[w]? = some ⟨.taken task, cb_fiber, idleTerm⟩) (hjob : task.job = .fiber f)
      (hended : (s.fibers f).status.ended = true) :
      Moves s (.work w ch) { s.goto w ⟨.drop, cb_fiber, idleTerm⟩ with
        drops := s.drops ++ [⟨task, (s.fibers f).status⟩] }
  | accept {w : Nat} {ch : Choice} {cb_fiber : Option Nat} {idleTerm : Bool}
      {task : FiberAndThread} {f : Nat}
      (hw : s.workers[w]? = some ⟨.taken task, cb_fiber, idleTerm⟩) (hjob : task.job = .fiber f)
      (hended : (s.fibers f).status.ended = false) :
      Moves s (.work w ch) (s.goto w ⟨.swapIn task f (s.fibers f).status, cb_fiber, idleTerm⟩)
  | reuse {w : Nat} {ch : Choice} {idleTerm : Bool} {task : FiberAndThread} {f : Nat}
      (hw : s.workers[w]? = some ⟨.taken task, some f, idleTerm⟩) (hjob : task.job = .callback)
      (hreset : s.resettable f = true) :
      Moves s (.work w ch)
        ((s.write w f (.new true)).goto w ⟨.swapIn task f .init, some f, idleTerm⟩)
  | create {w : Nat} {ch : Choice} {idleTerm : Bool} {task : FiberAndThread}
      (hw : s.workers[w]? = some ⟨.taken task, none, idleTerm⟩) (hjob : task.job = .callback) :
      Moves s (.work w ch)
        { (s.setFiber s.fiberCount (.new true)).goto w
            ⟨.swapIn task s.fiberCount .init, some s.fiberCount, idleTerm⟩ with
          fiberCount := s.fiberCount + 1 }
  | swapIn {w : Nat} {ch : Choice} {cb_fiber : Option Nat} {idleTerm : Bool}
      {task : FiberAndThread} {f : Nat} {status : Status}
      (hw : s.workers[w]? = some ⟨.swapIn task f status, cb_fiber, idleTerm⟩)
      (hexec : (s.fibers f).status ≠ .exec) :
      Moves s (.work w ch)
        { (s.write w f { s.fibers f with status := .exec, saved := false }).goto w
            ⟨.run f (task.job == .callback), cb_fiber, idleTerm⟩ with
          resumes := s.resumes ++ [⟨task, status⟩]
          faults :=
            let s' := s.write w f { s.fibers f with status := .exec, saved := false }
            if (s.fibers f).saved then s'.faults else s'.faults ++ [.resumed w f] }
  | yield {w : Nat} {ch : Choice} {cb_fiber : Option Nat} {idleTerm : Bool} {f : Nat} {cb : Bool}
      {fiber : Fiber} (hw : s.workers[w]? = some ⟨.run f cb, cb_fiber, idleTerm⟩)
      (hyields : Yields (s.fibers f) fiber) :
      Moves s (.work w ch) ((s.setFiber f fiber).goto w ⟨.swapOut f cb, cb_fiber, idleTerm⟩)
  | swapOut {w : Nat} {ch : Choice} {cb_fiber : Option Nat} {idleTerm : Bool} {f : Nat} {cb : Bool}
      (hw : s.workers[w]? = some ⟨.swapOut f cb, cb_fiber, idleTerm⟩) :
      Moves s (.work w ch) ((s.setFiber f { s.fibers f with saved := true }).goto w
        ⟨.returned f cb, cb_fiber, idleTerm⟩)
  | returned {w : Nat} {ch : Choice} {cb_fiber : Option Nat} {idleTerm : Bool} {f : Nat} {cb : Bool}
      (hw : s.workers[w]? = some ⟨.returned f cb, cb_fiber, idleTerm⟩) :
      Moves s (.work w ch)
        { s.goto w ⟨.look f cb, cb_fiber, idleTerm⟩ with active := s.active - 1 }
  | ready {w : Nat} {ch : Choice} {cb_fiber : Option Nat} {idleTerm : Bool} {f : Nat} {cb : Bool}
      (hw : s.workers[w]? = some ⟨.look f cb, cb_fiber, idleTerm⟩)
      (hstatus : (s.fibers f).status = .ready) :
      Moves s (.work w ch) (s.goto w ⟨.schedule f, if cb then none else cb_fiber, idleTerm⟩)
  | ended {w : Nat} {ch : Choice} {cb_fiber : Option Nat} {idleTerm : Bool} {f : Nat} {cb : Bool}
      (hw : s.workers[w]? = some ⟨.look f cb, cb_fiber, idleTerm⟩)
      (hstatus : (s.fibers f).status.ended = true) :
      Moves s (.work w ch) (s.goto w ⟨if cb then .reset f else .pick, cb_fiber, idleTerm⟩)
  | held {w : Nat} {ch : Choice} {cb_fiber : Option Nat} {idleTerm : Bool} {f : Nat} {cb : Bool}
      (hw : s.workers[w]? = some ⟨.look f cb, cb_fiber, idleTerm⟩)
      (hstatus : (s.fibers f).status ≠ .ready ∧ (s.fibers f).status.ended = false) :
      Moves s (.work w ch) (s.goto w ⟨.hold f cb, cb_fiber, idleTerm⟩)
  | requeue {w : Nat} {ch : Choice} {cb_fiber : Option Nat} {idleTerm : Bool} {f : Nat}
      (hw : s.workers[w]? = some ⟨.schedule f, cb_fiber, idleTerm⟩) :
      Moves s (.work w ch)
        ((s.schedule [some (.fiber f)] none).goto w ⟨.pick, cb_fiber, idleTerm⟩)
  | reset {w : Nat} {ch : Choice} {cb_fiber : Option Nat} {idleTerm : Bool} {f : Nat}
      (hw : s.workers[w]? = some ⟨.reset f, cb_fiber, idleTerm⟩) (hreset : s.resettable f = true) :
      Moves s (.work w ch) ((s.write w f (.new false)).goto w ⟨.pick, cb_fiber, idleTerm⟩)
  | hold {w : Nat} {ch : Choice} {cb_fiber : Option Nat} {idleTerm : Bool} {f : Nat} {cb : Bool}
      (hw : s.workers[w]? = some ⟨.hold f cb, cb_fiber, idleTerm⟩) :
      Moves s (.work w ch) ((s.write w f { s.fibers f with status := .hold }).goto w
        ⟨.pick, if cb then none else cb_fiber, idleTerm⟩)
  | drop {w : Nat} {ch : Choice} {cb_fiber : Option Nat} {idleTerm : Bool}
      (hw : s.workers[w]? = some ⟨.drop, cb_fiber, idleTerm⟩) :
      Moves s (.work w ch) { s.goto w ⟨.pick, cb_fiber, idleTerm⟩ with active := s.active - 1 }
  | idle {w : Nat} {ch : Choice} {cb_fiber : Option Nat} {idleTerm : Bool}
      (hw : s.workers[w]? = some ⟨.idle, cb_fiber, idleTerm⟩) :
      Moves s (.work w ch) (s.goto w ⟨.pick, cb_fiber, s.stopping⟩)
  | fail {w : Nat} {ch : Choice} {pc : Pc} {cb_fiber : Option Nat} {idleTerm : Bool} {fault : Fault}
      (hw : s.workers[w]? = some ⟨pc, cb_fiber, idleTerm⟩) (hfails : s.Fails w cb_fiber pc fault) :
      Moves s (.work w ch) (s.fail fault)

section Schedule

/-- What the loop of `schedule` puts behind the queue. -/
theorem scheduleLoop_spec (thread : Option Nat) (fcs : List (Option Job)) (s : Schedular) :
    ∃ tasks : List FiberAndThread,
      (scheduleLoop thread fcs s).2 =
          { s with queue := s.queue ++ tasks, pushed := s.pushed + tasks.length } ∧
        tasks.map (·.number) = List.range' s.pushed tasks.length ∧
        tasks.map (fun task => some task.job) = fcs.filter (·.isSome) ∧
        ∀ task ∈ tasks, task.thread_id = thread := by
  induction fcs generalizing s with
  | nil => exact ⟨[], by simp [scheduleLoop], rfl, rfl, by simp⟩
  | cons fc fcs ih =>
      cases fc with
      | none =>
          obtain ⟨tasks, hloop, hnumbers, hjobs, hthread⟩ := ih s
          exact ⟨tasks, hloop, hnumbers, hjobs, hthread⟩
      | some job =>
          obtain ⟨tasks, hloop, hnumbers, hjobs, hthread⟩ := ih
            { s with queue := s.queue ++ [⟨s.pushed, job, thread⟩], pushed := s.pushed + 1 }
          refine ⟨⟨s.pushed, job, thread⟩ :: tasks, hloop.trans ?_, ?_, ?_, ?_⟩
          · simp [Nat.add_comm, Nat.add_left_comm]
          · simp [hnumbers, List.range'_succ]
          · simp [hjobs]
          · simpa using hthread

/-- `schedule` numbers the tasks that are not empty and puts them in order behind the queue. -/
theorem schedule_spec (s : Schedular) (fcs : List (Option Job)) (thread : Option Nat) :
    ∃ tasks tickles, s.schedule fcs thread =
        { s with
          queue := s.queue ++ tasks
          pushed := s.pushed + tasks.length
          tickles := tickles } ∧
      tasks.map (·.number) = List.range' s.pushed tasks.length ∧
      tasks.map (fun task => some task.job) = fcs.filter (·.isSome) ∧
      ∀ task ∈ tasks, task.thread_id = thread := by
  obtain ⟨tasks, hloop, hrest⟩ := scheduleLoop_spec thread fcs s
  refine ⟨tasks, s.tickles + (scheduleLoop thread fcs s).1.toNat, ?_, hrest⟩
  simp only [schedule, hloop]

end Schedule

section Steps

variable {s s' : Schedular} {w : Nat} {ch : Choice}

theorem moves_of_runFiber {cb_fiber : Option Nat} {idleTerm : Bool} {f : Nat} {cb : Bool}
    (hw : s.workers[w]? = some ⟨.run f cb, cb_fiber, idleTerm⟩)
    (h : s.runFiber w ⟨.run f cb, cb_fiber, idleTerm⟩ f cb ch = some s') :
    s.Moves (.work w ch) s' := by
  simp only [runFiber] at h
  split at h
  · cases h
  · next hcall =>
      -- Only a fiber with a function can do anything but throw.
      have hcallback : ch ≠ .throws → (s.fibers f).callback = true := by
        intro hne
        by_contra hnone
        exact hcall ⟨Bool.eq_false_iff.mpr hnone, hne⟩
      cases ch with
      | yieldToReady =>
          obtain rfl := Option.some.inj h
          exact .yield hw (.yieldToReady (hcallback (by decide)))
      | yieldToHold =>
          by_cases hexec : (s.fibers f).status = .exec
          · simp only [hexec, if_true] at h
            obtain rfl := Option.some.inj h
            have hsame : s.setFiber f (s.fibers f) = s := by
              rw [setFiber, Function.update_eq_self]
            have hmoves : s.Moves (.work w .yieldToHold) ((s.setFiber f (s.fibers f)).goto w _) :=
              .yield hw (.yieldToHold (hcallback (by decide)) hexec)
            rwa [hsame] at hmoves
          · simp only [hexec, if_false] at h
            obtain rfl := Option.some.inj h
            exact .fail hw (.yieldToHold hexec)
      | returns =>
          obtain rfl := Option.some.inj h
          exact .yield hw (.returns (hcallback (by decide)))
      | throws =>
          obtain rfl := Option.some.inj h
          exact .yield hw .throws

theorem moves_of_work {k : Worker} (hw : s.workers[w]? = some k) (h : s.work w k ch = some s') :
    s.Moves (.work w ch) s' := by
  obtain ⟨pc, cb_fiber, idleTerm⟩ := k
  cases pc with
  | pick =>
      rcases hscan : scan w s.fibers s.queue with ⟨tickle_me, found, left⟩
      cases found with
      | some task =>
          simp only [work, hscan] at h
          obtain rfl := Option.some.inj h
          exact .take hw hscan
      | none =>
          simp only [work, hscan] at h
          obtain rfl := Option.some.inj h
          exact .nothing hw hscan
  | taken task =>
      cases hjob : task.job with
      | fiber f =>
          by_cases hended : (s.fibers f).status.ended = true
          · simp only [work, hjob, hended, if_true] at h
            obtain rfl := Option.some.inj h
            exact .refuse hw hjob hended
          · simp only [work, hjob, hended] at h
            obtain rfl := Option.some.inj h
            exact .accept hw hjob (Bool.eq_false_iff.mpr hended)
      | callback =>
          cases cb_fiber with
          | none =>
              simp only [work, hjob] at h
              obtain rfl := Option.some.inj h
              exact .create hw hjob
          | some f =>
              by_cases hreset : s.resettable f = true
              · simp only [work, hjob, hreset, if_true] at h
                obtain rfl := Option.some.inj h
                exact .reuse hw hjob hreset
              · simp only [work, hjob, hreset] at h
                obtain rfl := Option.some.inj h
                exact .fail hw (.reuse hjob rfl (Bool.eq_false_iff.mpr hreset))
  | swapIn task f status =>
      by_cases hexec : (s.fibers f).status = .exec
      · simp only [work, hexec, if_true] at h
        obtain rfl := Option.some.inj h
        exact .fail hw (.swapIn hexec)
      · simp only [work, hexec, if_false] at h
        obtain rfl := Option.some.inj h
        exact .swapIn hw hexec
  | run f cb => exact moves_of_runFiber hw h
  | swapOut f cb =>
      obtain rfl := Option.some.inj h
      exact .swapOut hw
  | returned f cb =>
      obtain rfl := Option.some.inj h
      exact .returned hw
  | look f cb =>
      by_cases hready : (s.fibers f).status = .ready
      · simp only [work, hready, if_true] at h
        obtain rfl := Option.some.inj h
        exact .ready hw hready
      · by_cases hended : (s.fibers f).status.ended = true
        · simp only [work, hready, hended, if_false, if_true] at h
          obtain rfl := Option.some.inj h
          exact .ended hw hended
        · simp only [work, hready, hended, if_false] at h
          obtain rfl := Option.some.inj h
          exact .held hw ⟨hready, Bool.eq_false_iff.mpr hended⟩
  | schedule f =>
      obtain rfl := Option.some.inj h
      exact .requeue hw
  | reset f =>
      by_cases hreset : s.resettable f = true
      · simp only [work, hreset, if_true] at h
        obtain rfl := Option.some.inj h
        exact .reset hw hreset
      · simp only [work, hreset] at h
        obtain rfl := Option.some.inj h
        exact .fail hw (.reset (Bool.eq_false_iff.mpr hreset))
  | hold f cb =>
      obtain rfl := Option.some.inj h
      exact .hold hw
  | drop =>
      obtain rfl := Option.some.inj h
      exact .drop hw
  | idle =>
      obtain rfl := Option.some.inj h
      exact .idle hw
  | exited => cases h

/-- Every step is one of these. -/
theorem moves_of_step {a : Action} (h : s.step a = some s') : s.Moves a s' := by
  cases a with
  | schedule fc thread =>
      simp only [step, Option.ite_none_right_eq_some, Bool.and_eq_true] at h
      obtain ⟨⟨-, hpass⟩, h⟩ := h
      obtain rfl := Option.some.inj h
      exact .schedule hpass
  | scheduleAll fcs =>
      simp only [step, Option.ite_none_right_eq_some, Bool.and_eq_true] at h
      obtain ⟨⟨-, hpass⟩, h⟩ := h
      obtain rfl := Option.some.inj h
      exact .scheduleAll (List.all_eq_true.mp hpass)
  | newFiber =>
      simp only [step, Option.ite_none_left_eq_some] at h
      obtain rfl := Option.some.inj h.2
      exact .newFiber
  | autostop =>
      simp only [step, Option.ite_none_left_eq_some] at h
      obtain rfl := Option.some.inj h.2
      exact .autostop
  | stop =>
      simp only [step, Option.ite_none_left_eq_some] at h
      obtain rfl := Option.some.inj h.2
      exact .stop
  | work w ch =>
      simp only [step, Option.ite_none_left_eq_some, Option.bind_eq_some_iff] at h
      obtain ⟨-, k, hw, h⟩ := h
      exact moves_of_work hw h

end Steps

end Schedular
end Routn
