import Routn.Schedular.Exclusive

/-!
# Two workers with one fiber

What can follow a step that breaks `TakenAlone`.  A worker has taken a fiber; another worker is
engaged with it, or keeps it as its `cb_fiber`.  The environment chooses who goes on, and some
choice ends in a fault (`MayFail`).
-/

namespace Routn
namespace Schedular

open Foundation

/-- Some continuation runs into a fault. -/
def MayFail (s : Schedular) : Prop :=
  ∃ actions s', runActions step actions s = some s' ∧ s'.faults ≠ []

variable {s s' : Schedular} {v w f : Nat} {k l : Worker}

namespace MayFail

theorem of_faults (h : s.faults ≠ []) : s.MayFail := ⟨[], s, rfl, h⟩

theorem of_step {a : Action} (hstep : s.step a = some s') (h : s'.MayFail) : s.MayFail := by
  obtain ⟨actions, s'', hrun, hfaults⟩ := h
  refine ⟨a :: actions, s'', ?_, hfaults⟩
  rw [runActions, hstep, Option.bind_some, hrun]

theorem of_work (hrunning : s.aborted = false) (hw : s.workers[w]? = some k) (ch : Choice)
    (hwork : s.work w k ch = some s') (h : s'.MayFail) : s.MayFail := by
  refine .of_step (a := .work w ch) ?_ h
  rw [step, hrunning, if_neg Bool.false_ne_true, hw, Option.bind_some, hwork]

end MayFail

theorem workers_goto_self (hw : s.workers[w]? = some k)
    (hworkers : s'.workers = s.workers.set w l) : s'.workers[w]? = some l := by
  obtain ⟨hlt, -⟩ := List.getElem?_eq_some_iff.mp hw
  rw [hworkers, List.getElem?_set_self hlt]

theorem workers_goto_ne (hne : w ≠ v) (hv : s.workers[v]? = some k)
    (hworkers : s'.workers = s.workers.set w l) : s'.workers[v]? = some k := by
  rw [hworkers, List.getElem?_set_ne hne, hv]

theorem runsElsewhere_of_onStack (hne : w ≠ v) (hv : s.workers[v]? = some k)
    (hk : k.pc.onStack = some f) : s.runsElsewhere w f = true := by
  rw [runsElsewhere, anyOther_iff]
  exact ⟨v, k, hne.symm, hv, beq_iff_eq.mpr hk⟩

theorem write_faults (h : s.runsElsewhere w f = true) (fiber : Fiber) :
    (s.write w f fiber).faults ≠ [] := by
  simp [write, h]

/-! ## Another worker is engaged with the fiber -/

section Engaged

variable {task task' : FiberAndThread} {cb_fiber cb_fiber' : Option Nat} {idleTerm idleTerm' : Bool}

theorem mayFail_of_accept (hrunning : s.aborted = false)
    (hw : s.workers[w]? = some ⟨.taken task, cb_fiber, idleTerm⟩) (hjob : task.job = .fiber f)
    (hended : (s.fibers f).status.ended = false)
    (h : (s.goto w ⟨.swapIn task f (s.fibers f).status, cb_fiber, idleTerm⟩).MayFail) :
    s.MayFail := by
  have haccept : s.work w ⟨.taken task, cb_fiber, idleTerm⟩ .returns =
      some (s.goto w ⟨.swapIn task f (s.fibers f).status, cb_fiber, idleTerm⟩) := by
    simp [work, hjob, hended]
  exact .of_work hrunning hw .returns haccept h

/-- The fiber is running: the assertion of `swapIn` fails. -/
theorem mayFail_of_exec (hrunning : s.aborted = false)
    (hw : s.workers[w]? = some ⟨.taken task, cb_fiber, idleTerm⟩) (hjob : task.job = .fiber f)
    (hexec : (s.fibers f).status = .exec) : s.MayFail := by
  refine mayFail_of_accept hrunning hw hjob (by rw [hexec]; rfl) ?_
  refine .of_work hrunning (workers_goto_self hw rfl) .returns (if_pos hexec) (.of_faults ?_)
  simp [fail]

/-- The other worker is about to resume the fiber. -/
theorem mayFail_of_swapIn {status : Status} (hrunning : s.aborted = false) (hne : v ≠ w)
    (hv : s.workers[v]? = some ⟨.swapIn task' f status, cb_fiber', idleTerm'⟩)
    (hw : s.workers[w]? = some ⟨.taken task, cb_fiber, idleTerm⟩) (hjob : task.job = .fiber f) :
    s.MayFail := by
  by_cases hexec : (s.fibers f).status = .exec
  · exact mayFail_of_exec hrunning hw hjob hexec
  · refine .of_work hrunning hv .returns (if_neg hexec) ?_
    refine mayFail_of_exec hrunning (workers_goto_ne hne hw rfl) hjob ?_
    simp [goto, write, setFiber]

/-- The other worker has taken the fiber too. -/
theorem mayFail_of_taken (hrunning : s.aborted = false) (hne : v ≠ w)
    (hv : s.workers[v]? = some ⟨.taken task', cb_fiber', idleTerm'⟩)
    (hjob' : task'.job = .fiber f) (hended : (s.fibers f).status.ended = false)
    (hw : s.workers[w]? = some ⟨.taken task, cb_fiber, idleTerm⟩) (hjob : task.job = .fiber f) :
    s.MayFail := by
  refine mayFail_of_accept hrunning hv hjob' hended ?_
  exact mayFail_of_swapIn hrunning hne (workers_goto_self hv rfl) (workers_goto_ne hne hw rfl) hjob

/-- The worker resumes the fiber, which is a fault if the fiber is on the stack of another one. -/
theorem mayFail_of_resume (hrunning : s.aborted = false)
    (hw : s.workers[w]? = some ⟨.taken task, cb_fiber, idleTerm⟩) (hjob : task.job = .fiber f)
    (hready : (s.fibers f).status = .ready)
    (h : ∀ s' : Schedular, s'.aborted = false → (s'.fibers f).status = .exec →
      s'.workers = s.workers.set w ⟨.run f false, cb_fiber, idleTerm⟩ →
      (∀ v k, w ≠ v → s.workers[v]? = some k → k.pc.onStack = some f → s'.faults ≠ []) →
      s'.MayFail) : s.MayFail := by
  have hexec : (s.fibers f).status ≠ .exec := by
    rw [hready]
    nofun
  refine mayFail_of_accept hrunning hw hjob (by rw [hready]; rfl) ?_
  refine .of_work hrunning (workers_goto_self hw rfl) .returns (if_neg hexec) ?_
  refine h _ hrunning (by simp [goto, write, setFiber]) ?_ fun v k hne hv hk => ?_
  · simp only [goto, write, setFiber, hjob, List.set_set]
    rfl
  · have hruns := runsElsewhere_of_onStack
      (s := s.goto w ⟨.swapIn task f (s.fibers f).status, cb_fiber, idleTerm⟩) hne
      (workers_goto_ne hne hv rfl) hk
    show (if _ then _ else _) ≠ []
    split
    · exact write_faults hruns { s.fibers f with status := .exec, saved := false }
    · simp

/-- The fiber has written `READY` and is still on the stack of the other worker. -/
theorem mayFail_of_swapOut {cb : Bool} (hrunning : s.aborted = false) (hne : v ≠ w)
    (hv : s.workers[v]? = some ⟨.swapOut f cb, cb_fiber', idleTerm'⟩)
    (hready : (s.fibers f).status = .ready)
    (hw : s.workers[w]? = some ⟨.taken task, cb_fiber, idleTerm⟩) (hjob : task.job = .fiber f) :
    s.MayFail := by
  refine mayFail_of_resume hrunning hw hjob hready fun s' _ _ _ hfaults => .of_faults ?_
  exact hfaults v _ hne.symm hv rfl

/-- The other worker has not yet looked at the status the fiber came back with. -/
theorem mayFail_of_look {cb : Bool} (hrunning : s.aborted = false) (hne : v ≠ w)
    (hv : s.workers[v]? = some ⟨.look f cb, cb_fiber', idleTerm'⟩)
    (hready : (s.fibers f).status = .ready)
    (hw : s.workers[w]? = some ⟨.taken task, cb_fiber, idleTerm⟩) (hjob : task.job = .fiber f) :
    s.MayFail := by
  refine mayFail_of_resume hrunning hw hjob hready fun s' hrunning' hexec hworkers _ => ?_
  have hv' := workers_goto_ne hne.symm hv hworkers
  have hw' := workers_goto_self hw hworkers
  -- It finds `EXEC` and holds the fiber, which runs on `w`.
  have hlook : s'.work v ⟨.look f cb, cb_fiber', idleTerm'⟩ .returns =
      some (s'.goto v ⟨.hold f cb, cb_fiber', idleTerm'⟩) := by
    simp [work, hexec, Status.ended]
  refine .of_work hrunning' hv' .returns hlook ?_
  refine .of_work hrunning' (workers_goto_self hv' rfl) .returns rfl (.of_faults ?_)
  exact write_faults (runsElsewhere_of_onStack hne (workers_goto_ne hne hw' rfl) rfl)
    { s'.fibers f with status := .hold }

/-- The other worker has not yet decremented the counter. -/
theorem mayFail_of_returned {cb : Bool} (hrunning : s.aborted = false) (hne : v ≠ w)
    (hv : s.workers[v]? = some ⟨.returned f cb, cb_fiber', idleTerm'⟩)
    (hready : (s.fibers f).status = .ready)
    (hw : s.workers[w]? = some ⟨.taken task, cb_fiber, idleTerm⟩) (hjob : task.job = .fiber f) :
    s.MayFail := by
  refine .of_work hrunning hv .returns rfl ?_
  exact mayFail_of_look hrunning hne (workers_goto_self hv rfl) hready (workers_goto_ne hne hw rfl)
    hjob

/-- The fiber is given a callback, while `w` is about to resume it. -/
theorem mayFail_of_callback (hrunning : s.aborted = false) (hne : v ≠ w)
    (hv : s.workers[v]? = some ⟨.taken task', some f, idleTerm'⟩)
    (hcallback : task'.job = .callback) (hreset : (s.fibers f).status.resettable = true)
    (hw : s.workers[w]? = some ⟨.taken task, cb_fiber, idleTerm⟩) (hjob : task.job = .fiber f) :
    s.MayFail := by
  have hreuse : s.work v ⟨.taken task', some f, idleTerm'⟩ .returns =
      some ((s.write v f (.new true)).goto v ⟨.swapIn task' f .init, some f, idleTerm'⟩) := by
    simp [work, hcallback, resettable, hreset]
  refine .of_work hrunning hv .returns hreuse ?_
  exact mayFail_of_swapIn hrunning hne (workers_goto_self hv rfl) (workers_goto_ne hne hw rfl) hjob

end Engaged

/-! ## Another worker has the fiber as its `cb_fiber` -/

/-- Worker `v` is at `pc` and has `f` as its `cb_fiber`, `w` has taken `f`, and a callback that `v`
may take is in the queue. -/
structure Trap (s : Schedular) (v w f : Nat) (pc : Pc) : Prop where
  running : s.aborted = false
  ne : v ≠ w
  owner : ∃ idleTerm, s.workers[v]? = some ⟨pc, some f, idleTerm⟩
  taken : ∃ task cb_fiber idleTerm,
    s.workers[w]? = some ⟨.taken task, cb_fiber, idleTerm⟩ ∧ task.job = .fiber f
  callback : ∃ task ∈ s.queue, task.job = .callback ∧ task.elsewhere v = false

/-- A fault can be reached as soon as `v` is back in the loop, with the queue as it is. -/
def Back (s : Schedular) (v w f : Nat) : Prop :=
  ∀ s' : Schedular, s'.Trap v w f .pick → s'.queue = s.queue →
    (s'.fibers f).status.resettable = true → s'.MayFail

namespace Trap

variable {pc pc' : Pc} {g : Nat} {task : FiberAndThread}

/-- A step of `v`. -/
theorem goto (h : s.Trap v w f pc) (idleTerm : Bool) (hrunning : s'.aborted = s.aborted)
    (hworkers : s'.workers = s.workers.set v ⟨pc', some f, idleTerm⟩)
    (hqueue : ∀ task ∈ s.queue, task.job = .callback → task ∈ s'.queue) : s'.Trap v w f pc' := by
  obtain ⟨idleTerm', hv⟩ := h.owner
  obtain ⟨task, cb_fiber, idleTerm'', hw, hjob⟩ := h.taken
  obtain ⟨task', htask', hcallback, helsewhere⟩ := h.callback
  exact ⟨hrunning.trans h.running, h.ne, ⟨idleTerm, workers_goto_self hv hworkers⟩,
    ⟨task, cb_fiber, idleTerm'', workers_goto_ne h.ne hw hworkers, hjob⟩,
    ⟨task', hqueue task' htask' hcallback, hcallback, helsewhere⟩⟩

/-- The fiber comes back to `v`. -/
theorem mayFail_of_swapOut {cb : Bool} (h : s.Trap v w f (.swapOut g cb))
    (hlook : ∀ s' : Schedular, s'.Trap v w f (.look g cb) → s'.queue = s.queue →
      (∀ x, (s'.fibers x).status = (s.fibers x).status) → s'.MayFail) : s.MayFail := by
  obtain ⟨idleTerm, hv⟩ := h.owner
  refine .of_work h.running hv .returns rfl ?_
  refine .of_work h.running (workers_goto_self hv rfl) .returns rfl ?_
  refine hlook _ (h.goto idleTerm rfl ?_ fun _ ht _ => ht) rfl fun x => ?_
  · simp only [Schedular.goto, setFiber, List.set_set]
  · by_cases heq : x = g
    · simp [Schedular.goto, setFiber, heq]
    · simp [Schedular.goto, setFiber, heq]

/-- The fiber that `v` runs throws, and `v` is back in the loop. -/
theorem mayFail_of_run (h : s.Trap v w f (.run g false))
    (hreset : g = f ∨ (s.fibers f).status.resettable = true)
    (hback : s.Back v w f) : s.MayFail := by
  obtain ⟨idleTerm, hv⟩ := h.owner
  have hthrows : s.work v ⟨.run g false, some f, idleTerm⟩ .throws =
      some ((s.setStatus g .except).goto v ⟨.swapOut g false, some f, idleTerm⟩) := by
    simp [work, runFiber]
  refine .of_work h.running hv .throws hthrows ?_
  have hrun : ((s.setStatus g .except).goto v ⟨.swapOut g false, some f, idleTerm⟩).Trap v w f
      (.swapOut g false) := h.goto idleTerm rfl rfl fun _ ht _ => ht
  refine hrun.mayFail_of_swapOut fun s' hlook hqueue hstatus => ?_
  obtain ⟨idleTerm', hv'⟩ := hlook.owner
  have hended : (s'.fibers g).status = .except := by
    rw [hstatus]
    simp [Schedular.goto, setStatus, setFiber]
  have hdone : s'.work v ⟨.look g false, some f, idleTerm'⟩ .returns =
      some (s'.goto v ⟨.pick, some f, idleTerm'⟩) := by
    simp [work, hended, Status.ended]
  refine .of_work hlook.running hv' .returns hdone ?_
  refine hback _ (hlook.goto idleTerm' rfl rfl fun _ ht _ => ht) hqueue ?_
  show (s'.fibers f).status.resettable = true
  by_cases heq : g = f
  · rw [← heq, hended]
    rfl
  · rw [hstatus]
    simpa [Schedular.goto, setStatus, setFiber, Ne.symm heq] using hreset.resolve_left heq

/-- `v` goes on with a task that is a fiber. -/
theorem mayFail_of_swapIn {status : Status} {g' : Nat} (h : s.Trap v w f (.swapIn task g status))
    (hjob : task.job = .fiber g') (hexec : (s.fibers g).status ≠ .exec)
    (hreset : (s.fibers f).status.resettable = true)
    (hback : s.Back v w f) : s.MayFail := by
  obtain ⟨idleTerm, hv⟩ := h.owner
  obtain ⟨s', hwork, hworkers, hqueue, hrunning, hothers⟩ : ∃ s',
      s.work v ⟨.swapIn task g status, some f, idleTerm⟩ .returns = some s' ∧
        s'.workers = s.workers.set v ⟨.run g false, some f, idleTerm⟩ ∧ s'.queue = s.queue ∧
        s'.aborted = s.aborted ∧ ∀ x ≠ g, s'.fibers x = s.fibers x := by
    refine ⟨_, if_neg hexec, by rw [hjob]; rfl, rfl, rfl, fun x hx => ?_⟩
    exact Function.update_of_ne hx _ _
  refine .of_work h.running hv .returns hwork ?_
  have hrun : s'.Trap v w f (.run g false) :=
    h.goto _ hrunning hworkers fun t ht _ => by rwa [hqueue]
  refine hrun.mayFail_of_run ?_ fun s'' hpick hqueue' => hback s'' hpick (hqueue'.trans hqueue)
  by_cases heq : g = f
  · exact .inl heq
  · rw [hothers f (Ne.symm heq)]
    exact .inr hreset

theorem mayFail_of_taken (h : s.Trap v w f (.taken task)) (hjob : task.job = .fiber g)
    (hexec : (s.fibers g).status ≠ .exec) (hreset : (s.fibers f).status.resettable = true)
    (hback : s.Back v w f) : s.MayFail := by
  obtain ⟨idleTerm, hv⟩ := h.owner
  by_cases hended : (s.fibers g).status.ended = true
  · have hdrops : s.work v ⟨.taken task, some f, idleTerm⟩ .returns =
        some { s.goto v ⟨.drop, some f, idleTerm⟩ with
          drops := s.drops ++ [⟨task, (s.fibers g).status⟩] } := by
      simp [work, hjob, hended]
    refine .of_work h.running hv .returns hdrops ?_
    refine .of_work h.running (workers_goto_self hv rfl) .returns rfl ?_
    refine hback _ (h.goto idleTerm rfl ?_ fun _ ht _ => ht) rfl hreset
    simp only [Schedular.goto, List.set_set]
  · have haccepts : s.work v ⟨.taken task, some f, idleTerm⟩ .returns =
        some (s.goto v ⟨.swapIn task g (s.fibers g).status, some f, idleTerm⟩) := by
      simp [work, hjob, hended]
    refine .of_work h.running hv .returns haccepts ?_
    have hswapIn : (s.goto v ⟨.swapIn task g (s.fibers g).status, some f, idleTerm⟩).Trap v w f
        (.swapIn task g (s.fibers g).status) := h.goto idleTerm rfl rfl fun _ ht _ => ht
    exact hswapIn.mayFail_of_swapIn hjob hexec hreset hback

/-- Back in the loop, `v` gets to the callback. -/
theorem mayFail_of_pick (h : s.Trap v w f .pick) (hreset : (s.fibers f).status.resettable = true) :
    s.MayFail := by
  -- On the length of the queue: each task in front of the callback is run to its end.
  induction hlength : s.queue.length using Nat.strong_induction_on generalizing s with
  | _ n ih =>
      obtain ⟨idleTerm, hv⟩ := h.owner
      obtain ⟨task, htask, hcallback, helsewhere⟩ := h.callback
      obtain ⟨front, back, hqueue⟩ := List.append_of_mem htask
      have hskips : skips v s.fibers task = false := by
        simp [skips, helsewhere, FiberAndThread.status, hcallback]
      obtain ⟨tickle_me, found, left, hscan, -⟩ := scan_finds front back hskips
      rw [← hqueue] at hscan
      have htakes : s.work v ⟨.pick, some f, idleTerm⟩ .returns =
          some { s.goto v ⟨.taken found, some f, idleTerm⟩ with
            queue := left
            active := s.active + 1
            tickles := s.tickles + tickle_me.toNat
            takes := s.takes ++ [⟨found, v, found.status s.fibers⟩] } := by
        simp only [work, hscan]
      refine .of_work h.running hv .returns htakes ?_
      obtain ⟨hfound, skipped, rest, hsplit, hleft⟩ := scan_some hscan
      obtain ⟨task', cb_fiber', idleTerm', hw, hjob'⟩ := h.taken
      cases hjob : found.job with
      | callback =>
          exact mayFail_of_callback h.running h.ne (workers_goto_self hv rfl) hjob hreset
            (workers_goto_ne h.ne hw rfl) hjob'
      | fiber g =>
          have hexec : (s.fibers g).status ≠ .exec := by
            intro hexec
            simp [skips, FiberAndThread.status, hjob, hexec] at hfound
          have hkeeps : ∀ t ∈ s.queue, t.job = .callback → t ∈ left := by
            intro t ht htjob
            rw [hsplit] at ht
            rw [hleft]
            simp only [List.mem_append, List.mem_cons] at ht ⊢
            rcases ht with ht | rfl | ht
            · exact .inl ht
            · rw [hjob] at htjob
              cases htjob
            · exact .inr ht
          have hshorter : left.length < n := by
            rw [← hlength, hsplit, hleft]
            simp
          refine mayFail_of_taken (h.goto idleTerm rfl rfl hkeeps) hjob hexec hreset
            fun s' hpick hqueue' hreset' => ?_
          exact ih left.length hshorter hpick hreset' (congrArg List.length hqueue')

/-- A step of `v` that brings it back into the loop. -/
theorem mayFail_of_back (h : s.Trap v w f pc)
    (hwork : ∀ idleTerm, ∃ s' idleTerm', s.work v ⟨pc, some f, idleTerm⟩ .returns = some s' ∧
      s'.workers = s.workers.set v ⟨.pick, some f, idleTerm'⟩ ∧ s'.aborted = s.aborted ∧
      (∀ t ∈ s.queue, t ∈ s'.queue) ∧ (s'.fibers f).status.resettable = true) : s.MayFail := by
  obtain ⟨idleTerm, hv⟩ := h.owner
  obtain ⟨s', idleTerm', hstep, hworkers, hrunning, hqueue, hreset⟩ := hwork idleTerm
  refine .of_work h.running hv .returns hstep ?_
  exact (h.goto _ hrunning hworkers fun t ht _ => hqueue t ht).mayFail_of_pick hreset

/-- The reset of the `cb_fiber`. -/
theorem mayFail_of_reset (h : s.Trap v w f (.reset f))
    (hreset : (s.fibers f).status.resettable = true) : s.MayFail := by
  refine h.mayFail_of_back fun idleTerm =>
    ⟨_, idleTerm, if_pos hreset, rfl, rfl, fun _ ht => ht, ?_⟩
  simp [Schedular.goto, write, setFiber, Fiber.new, Status.resettable]

/-- Holding another fiber. -/
theorem mayFail_of_hold (h : s.Trap v w f (.hold g false)) (hne : f ≠ g)
    (hreset : (s.fibers f).status.resettable = true) : s.MayFail := by
  refine h.mayFail_of_back fun idleTerm => ⟨_, idleTerm, rfl, rfl, rfl, fun _ ht => ht, ?_⟩
  simpa [Schedular.goto, write, setFiber, hne] using hreset

theorem mayFail_of_schedule (h : s.Trap v w f (.schedule g))
    (hreset : (s.fibers f).status.resettable = true) : s.MayFail :=
  h.mayFail_of_back fun idleTerm =>
    ⟨_, idleTerm, rfl, rfl, rfl, fun _ ht => List.mem_append_left _ ht, hreset⟩

/-- The status a fiber came back with, which is another fiber or has ended. -/
theorem mayFail_of_look {cb : Bool} (h : s.Trap v w f (.look g cb)) (hcb : cb = true → g = f)
    (hended : g = f → (s.fibers f).status.ended = true)
    (hreset : (s.fibers f).status.resettable = true) : s.MayFail := by
  obtain ⟨idleTerm, hv⟩ := h.owner
  by_cases hdone : (s.fibers g).status.ended = true
  · have hready : (s.fibers g).status ≠ .ready := by
      intro hready
      rw [hready] at hdone
      cases hdone
    have hlook : s.work v ⟨.look g cb, some f, idleTerm⟩ .returns =
        some (s.goto v ⟨if cb then .reset g else .pick, some f, idleTerm⟩) := by
      simp [work, hready, hdone]
    refine .of_work h.running hv .returns hlook ?_
    cases cb with
    | true =>
        obtain rfl := hcb rfl
        have hstep : (s.goto v ⟨.reset g, some g, idleTerm⟩).Trap v w g (.reset g) :=
          h.goto idleTerm rfl rfl fun _ ht _ => ht
        exact hstep.mayFail_of_reset hreset
    | false =>
        have hstep : (s.goto v ⟨.pick, some f, idleTerm⟩).Trap v w f .pick :=
          h.goto idleTerm rfl rfl fun _ ht _ => ht
        exact hstep.mayFail_of_pick hreset
  · have hne : g ≠ f := by
      rintro rfl
      exact hdone (hended rfl)
    obtain rfl : cb = false := Bool.eq_false_iff.mpr fun htrue => hne (hcb htrue)
    by_cases hready : (s.fibers g).status = .ready
    · have hlook : s.work v ⟨.look g false, some f, idleTerm⟩ .returns =
          some (s.goto v ⟨.schedule g, some f, idleTerm⟩) := by
        simp [work, hready]
      refine .of_work h.running hv .returns hlook ?_
      have hstep : (s.goto v ⟨.schedule g, some f, idleTerm⟩).Trap v w f (.schedule g) :=
        h.goto idleTerm rfl rfl fun _ ht _ => ht
      exact hstep.mayFail_of_schedule hreset
    · have hlook : s.work v ⟨.look g false, some f, idleTerm⟩ .returns =
          some (s.goto v ⟨.hold g false, some f, idleTerm⟩) := by
        simp [work, hready, hdone]
      refine .of_work h.running hv .returns hlook ?_
      have hstep : (s.goto v ⟨.hold g false, some f, idleTerm⟩).Trap v w f (.hold g false) :=
        h.goto idleTerm rfl rfl fun _ ht _ => ht
      exact hstep.mayFail_of_hold (Ne.symm hne) hreset

/-- Wherever `v` is, it gets to the callback. -/
theorem mayFail {idleTerm : Bool} (h : s.Trap v w f pc)
    (hagrees : Worker.Agrees s.fibers ⟨pc, some f, idleTerm⟩)
    (hexec : (s.fibers f).status ≠ .exec)
    (hended : pc.engaged = some f → (s.fibers f).status.ended = true) (hexit : pc ≠ .exited) :
    s.MayFail := by
  -- The `cb_fiber` waits for the next callback, or has ended.
  have hreset : (s.fibers f).status.resettable = true := by
    cases huses : pc.usesCb with
    | true => simp [Status.resettable, hended (hagrees.uses huses)]
    | false =>
        obtain ⟨-, hrun | hreset⟩ := hagrees.owns huses f rfl
        · obtain rfl : pc = .run f false := hrun
          exact absurd hagrees.pc hexec
        · exact hreset
  have hback : s.Back v w f := fun _ hpick _ => hpick.mayFail_of_pick
  have hcb : ∀ {g : Nat} {cb : Bool}, (cb = true → some g = some f) → cb = true → g = f :=
    fun huses htrue => Option.some.inj (huses htrue)
  cases pc with
  | pick => exact h.mayFail_of_pick hreset
  | taken task =>
      cases hjob : task.job with
      | callback =>
          obtain ⟨idleTerm', hv⟩ := h.owner
          obtain ⟨task', cb_fiber, idleTerm'', hw, hjob'⟩ := h.taken
          exact Schedular.mayFail_of_callback h.running h.ne hv hjob hreset hw hjob'
      | fiber g =>
          have hg := hagrees.pc
          simp only [Pc.Agrees, FiberAndThread.status, hjob, ne_eq, Option.some.injEq] at hg
          exact h.mayFail_of_taken hjob hg hreset hback
  | swapIn task g status =>
      obtain ⟨hg, hnot, -⟩ := hagrees.pc
      cases hjob : task.job with
      | callback =>
          have huses : some g = some f := hagrees.uses (beq_iff_eq.mpr hjob)
          obtain rfl := Option.some.inj huses
          rw [hended rfl] at hnot
          cases hnot
      | fiber g' => exact h.mayFail_of_swapIn hjob hg hreset hback
  | run g cb =>
      cases cb with
      | true =>
          obtain rfl := hcb (fun _ => hagrees.uses rfl) rfl
          exact absurd hagrees.pc hexec
      | false => exact h.mayFail_of_run (.inr hreset) hback
  | swapOut g cb =>
      refine h.mayFail_of_swapOut fun s' hlook _ hstatus => ?_
      refine hlook.mayFail_of_look (hcb hagrees.uses) ?_ ?_
      · rw [hstatus]
        rintro rfl
        exact hended rfl
      · rwa [hstatus]
  | returned g cb =>
      obtain ⟨idleTerm', hv⟩ := h.owner
      refine .of_work h.running hv .returns rfl ?_
      refine mayFail_of_look (h.goto idleTerm' rfl rfl fun _ ht _ => ht)
        (hcb hagrees.uses) (fun heq => hended (congrArg some heq)) hreset
  | look g cb =>
      exact h.mayFail_of_look (hcb hagrees.uses) (fun heq => hended (congrArg some heq)) hreset
  | schedule g => exact h.mayFail_of_schedule hreset
  | reset g =>
      obtain rfl := hcb (fun _ => hagrees.uses rfl) rfl
      exact h.mayFail_of_reset hreset
  | hold g cb =>
      have hne : f ≠ g := by
        rintro rfl
        exact hexec hagrees.pc
      obtain rfl : cb = false := by
        refine Bool.eq_false_iff.mpr fun htrue => hne ?_
        exact (hcb hagrees.uses htrue).symm
      exact h.mayFail_of_hold hne hreset
  | drop =>
      exact h.mayFail_of_back fun idleTerm => ⟨_, idleTerm, rfl, rfl, rfl, fun _ ht => ht, hreset⟩
  | idle =>
      exact h.mayFail_of_back fun idleTerm => ⟨_, _, rfl, rfl, rfl, fun _ ht => ht, hreset⟩
  | exited => exact absurd rfl hexit

end Trap

/-! ## A worker that has left the loop has no `cb_fiber` -/

/-- What is left of a worker at the end of `run`. -/
def Left (k : Worker) : Prop := k.pc = .exited → k.cb_fiber = none

theorem left_step (h : ∀ k ∈ s.workers, Left k) {a : Action} (hmoves : s.Moves a s') :
    ∀ k ∈ s'.workers, Left k := by
  have hset : ∀ {w k'}, Left k' → ∀ k ∈ s.workers.set w k', Left k := by
    intro w k' hk' k hk
    rcases List.mem_or_eq_of_mem_set hk with hk | rfl
    · exact h k hk
    · exact hk'
  have hschedule : ∀ fcs thread, ∀ k ∈ (s.schedule fcs thread).workers, Left k := by
    intro fcs thread
    obtain ⟨tasks, tickles, heq, -⟩ := schedule_spec s fcs thread
    rw [heq]
    exact h
  cases hmoves with
  | schedule => exact hschedule _ _
  | scheduleAll => exact hschedule _ _
  | newFiber => exact h
  | autostop => exact h
  | stop => exact h
  | fail => exact h
  | @nothing w ch cb_fiber idleTerm =>
      refine hset fun hexit => ?_
      cases idleTerm with
      | true => rfl
      | false => cases hexit
  | @ended w ch cb_fiber idleTerm f cb =>
      refine hset fun hexit => ?_
      cases cb with
      | true => cases hexit
      | false => cases hexit
  | _ => exact hset nofun

theorem left_of_reach {threads : Nat} (h : Reach (init threads) step TakenAlone s) :
    ∀ k ∈ s.workers, Left k := by
  refine Reach.invariant (P := fun s => ∀ k ∈ s.workers, Left k) ?_ ?_ h
  · intro k hk _
    rw [List.eq_of_mem_replicate hk]
  · intro s s' a _ hleft _ hstep
    exact left_step hleft (moves_of_step hstep)

/-! ## The condition is exact -/

theorem takenFiber_eq {a : Action} (h : s.takenFiber a = some (w, f)) :
    ∃ ch cb_fiber idleTerm tickle_me number thread_id left, a = .work w ch ∧
      s.workers[w]? = some ⟨.pick, cb_fiber, idleTerm⟩ ∧
      scan w s.fibers s.queue = (tickle_me, some ⟨number, .fiber f, thread_id⟩, left) := by
  cases a with
  | work w' ch =>
      simp only [takenFiber] at h
      split at h
      · next cb_fiber idleTerm hw =>
          split at h
          · next number g thread_id htask =>
              obtain ⟨rfl, rfl⟩ := Prod.mk.inj (Option.some.inj h)
              exact ⟨ch, cb_fiber, idleTerm, _, number, thread_id, _, rfl, hw,
                Prod.ext rfl (Prod.ext htask rfl)⟩
          · cases h
      · cases h
  | _ => cases h

/-- Another worker is engaged with the fiber, and the fiber has not ended. -/
theorem mayFail_of_engaged {task : FiberAndThread} {cb_fiber : Option Nat} {idleTerm : Bool}
    (hrunning : s.aborted = false) (hne : v ≠ w) (hv : s.workers[v]? = some l)
    (hagrees : l.Agrees s.fibers) (hengaged : l.pc.engaged = some f)
    (hended : (s.fibers f).status.ended = false) (hexec : (s.fibers f).status ≠ .exec)
    (hw : s.workers[w]? = some ⟨.taken task, cb_fiber, idleTerm⟩) (hjob : task.job = .fiber f) :
    s.MayFail := by
  obtain ⟨pc, cb_fiber', idleTerm'⟩ := l
  -- The fiber has come back, and not with `EXEC`.
  have hready : (s.fibers f).status.comesBack = true → (s.fibers f).status = .ready := by
    intro hback
    by_contra hready
    exact hexec (Status.exec_of_comesBack hback hready hended)
  cases pc with
  | taken task' =>
      have hjob' : task'.job = .fiber f := by
        obtain ⟨number, job, thread_id⟩ := task'
        cases job with
        | fiber g => exact congrArg Job.fiber (Option.some.inj hengaged)
        | callback => cases hengaged
      exact mayFail_of_taken hrunning hne hv hjob' hended hw hjob
  | swapIn task' g status =>
      obtain rfl := Option.some.inj hengaged
      exact mayFail_of_swapIn hrunning hne hv hw hjob
  | run g cb =>
      obtain rfl := Option.some.inj hengaged
      exact absurd hagrees.pc hexec
  | swapOut g cb =>
      obtain rfl := Option.some.inj hengaged
      exact mayFail_of_swapOut hrunning hne hv (hready hagrees.pc) hw hjob
  | returned g cb =>
      obtain rfl := Option.some.inj hengaged
      exact mayFail_of_returned hrunning hne hv (hready hagrees.pc) hw hjob
  | look g cb =>
      obtain rfl := Option.some.inj hengaged
      exact mayFail_of_look hrunning hne hv (hready hagrees.pc) hw hjob
  | reset g =>
      obtain rfl := Option.some.inj hengaged
      have hreset : (s.fibers g).status.ended = true := hagrees.pc
      rw [hreset] at hended
      cases hended
  | hold g cb =>
      obtain rfl := Option.some.inj hengaged
      exact absurd hagrees.pc hexec
  | _ => cases hengaged

/-- After a step that breaks the condition, a fault can be reached. -/
theorem mayFail_of_not_alone (h : s.Exclusive) (hleft : ∀ k ∈ s.workers, Left k) {a : Action}
    (hstep : s.step a = some s') (hnot : ¬ s.TakenAlone a) : s'.MayFail := by
  obtain ⟨⟨w, f⟩, htaken, helse⟩ : ∃ taken, taken ∈ s.takenFiber a ∧
      s.engagedElsewhere taken.1 taken.2 = true := by
    simpa [TakenAlone] using hnot
  obtain ⟨ch, cb_fiber, idleTerm, tickle_me, number, thread_id, left, rfl, hw, hscan⟩ :=
    takenFiber_eq htaken
  -- What the step does.
  simp only [step, Option.ite_none_left_eq_some, hw, Option.bind_some, work, hscan,
    Option.some.injEq] at hstep
  obtain ⟨hrunning, rfl⟩ := hstep
  replace hrunning : s.aborted = false := Bool.eq_false_iff.mpr hrunning
  obtain ⟨hskips, -⟩ := scan_some hscan
  have hexec : (s.fibers f).status ≠ .exec := by
    intro hexec
    simp [skips, FiberAndThread.status, hexec] at hskips
  obtain ⟨v, l, hne, hv, hl⟩ := anyOther_iff.mp helse
  have hagrees := h.agrees hv
  have hmay : ∀ t : Schedular, t.aborted = false → t.fibers = s.fibers → t.workers =
      s.workers.set w ⟨.taken ⟨number, .fiber f, thread_id⟩, cb_fiber, idleTerm⟩ → t.MayFail := by
    intro t hrunning hfibers hworkers
    have hw' := workers_goto_self hw hworkers
    have hv' := workers_goto_ne (Ne.symm hne) hv hworkers
    rw [← hfibers] at hexec hagrees hl
    by_cases hengaged : l.pc.engaged = some f ∧ (t.fibers f).status.ended = false
    · exact mayFail_of_engaged hrunning hne hv' hagrees hengaged.1 hengaged.2 hexec hw' rfl
    · have hcb : l.cb_fiber = some f := by
        simp only [Bool.or_eq_true, beq_iff_eq, Bool.and_eq_true, Bool.not_eq_true'] at hl
        exact hl.resolve_right hengaged
      have hended : l.pc.engaged = some f → (t.fibers f).status.ended = true := by
        intro heq
        by_contra hnot
        exact hengaged ⟨heq, Bool.eq_false_iff.mpr hnot⟩
      have hexit : l.pc ≠ .exited := by
        intro hexit
        rw [hleft l (List.mem_of_getElem? hv) hexit] at hcb
        cases hcb
      obtain ⟨pc, _, idleTerm'⟩ := l
      obtain rfl := hcb
      have hschedule : t.step (.schedule (some .callback) (some v)) =
          some (t.schedule [some .callback] (some v)) := by
        simp [step, hrunning, mayPass]
      refine .of_step hschedule ?_
      have htrap : (t.schedule [some .callback] (some v)).Trap v w f pc := by
        refine ⟨hrunning, hne, ⟨idleTerm', hv'⟩, ⟨_, _, _, hw', rfl⟩, ?_⟩
        refine ⟨⟨t.pushed, .callback, some v⟩, ?_, rfl, by simp [FiberAndThread.elsewhere]⟩
        exact List.mem_append_right _ List.mem_cons_self
      exact htrap.mayFail hagrees hexec hended hexit
  exact hmay _ hrunning rfl rfl

/-- **A fiber runs on at most one worker** in every run in which a fiber is taken out of the queue
only if no other worker is engaged with it: nobody resumes a fiber that has not been switched out,
no assertion on a status fails, and nobody overwrites the status of a fiber that runs elsewhere.
The condition cannot be weakened: after the first step that breaks it, one of these can happen. -/
theorem exclusive_of_reach {threads : Nat} {s : Schedular}
    (h : Reach (init threads) step TakenAlone s) :
    s.faults = [] ∧ ∀ a s', s.step a = some s' → ¬ s.TakenAlone a →
      ∃ actions s'', runActions step actions s' = some s'' ∧ s''.faults ≠ [] := by
  obtain ⟨hexclusive, -, hnone⟩ := exclusive_of_meets h
  refine ⟨hnone, fun a s' hstep hnot => ?_⟩
  exact mayFail_of_not_alone hexclusive (left_of_reach h) hstep hnot

/-- Two workers; a fiber yields on worker 0, is put back, and goes on on worker 1. -/
def handedOver : List Action :=
  [.newFiber, .schedule (some (.fiber 0)) none, .work 0 .yieldToReady, .work 0 .yieldToReady,
    .work 0 .yieldToReady, .work 0 .yieldToReady, .work 0 .yieldToReady, .work 0 .yieldToReady,
    .work 0 .yieldToReady, .work 0 .yieldToReady, .work 1 .returns, .work 1 .returns,
    .work 1 .returns, .work 1 .returns, .work 1 .returns]

theorem exclusive_handedOver : ((runActions step handedOver (init 2)).map
    fun s => (s.workers.map (·.pc), s.faults)) = some ([.pick, .returned 0 false], []) := by
  have hsome : (runActions step handedOver (init 2)).map (fun s => s.workers.map (·.pc)) =
      some [.pick, .returned 0 false] := by
    decide
  obtain ⟨s, hs, hpcs⟩ := Option.map_eq_some_iff.mp hsome
  have hfaults : s.faults = [] :=
    (exclusive_of_reach (reach_of_runActions handedOver hs (by decide))).1
  rw [hs, Option.map_some, hpcs, hfaults]

/-- The fiber is scheduled once more while it runs.  `YieldToReady` writes `READY` before the
switch-out, and worker 1 takes the fiber and resumes it while it is on the stack of worker 0. -/
def scheduledTwice : List Action :=
  [.newFiber, .schedule (some (.fiber 0)) none, .work 0 .yieldToReady, .work 0 .yieldToReady,
    .work 0 .yieldToReady, .schedule (some (.fiber 0)) none, .work 0 .yieldToReady,
    .work 1 .returns, .work 1 .returns, .work 1 .returns]

theorem not_exclusive_scheduledTwice :
    ¬ ∀ (threads : Nat) (s : Schedular), Reachable threads s → s.faults = [] := by
  intro hall
  have hrun : (runActions step scheduledTwice (init 2)).map (·.faults) =
      some [.overwrote 1 0, .resumed 1 0] := by
    decide
  obtain ⟨s, hs, hfaults⟩ := Option.map_eq_some_iff.mp hrun
  rw [hall 2 s (reach_of_runActions scheduledTwice hs (by decide))] at hfaults
  cases hfaults

end Schedular
end Routn
