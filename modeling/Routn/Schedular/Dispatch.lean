import Routn.Foundation.Table
import Routn.Schedular.Moves

/-!
# Each task is taken once

`Dispatched` accounts for every task that was ever put in the queue: by number, it is in the queue
or was taken; one that was taken is with its worker, was dropped, or its fiber was resumed.  Each of
these is counted, so that a task cannot be two of them.  It holds after every step of every thread,
whatever the workers and the fibers do, and whether or not a fiber is scheduled more than once.
-/

namespace Routn
namespace Schedular

open Foundation

/-! ## Counting -/

/-- One for the task with number `n`. -/
def FiberAndThread.weight (n : Nat) (task : FiberAndThread) : Nat :=
  if task.number = n then 1 else 0

/-- The worker has the task with number `n` and has neither resumed its fiber nor dropped it. -/
def Worker.inHand (n : Nat) (k : Worker) : Nat :=
  match k.pc with
  | .taken task => task.weight n
  | .swapIn task _ _ => task.weight n
  | _ => 0

/-- The worker has taken a task and has not finished it. -/
def Worker.active (k : Worker) : Nat :=
  match k.pc with
  | .taken _ => 1
  | .swapIn .. => 1
  | .run .. => 1
  | .swapOut .. => 1
  | .returned .. => 1
  | .drop => 1
  | _ => 0

variable (s : Schedular)

def queuedTimes (n : Nat) : Nat := total (·.weight n) s.queue

def takenTimes (n : Nat) : Nat := total (·.task.weight n) s.takes

def resumedTimes (n : Nat) : Nat := total (·.task.weight n) s.resumes

def droppedTimes (n : Nat) : Nat := total (·.task.weight n) s.drops

def inHand (n : Nat) : Nat := total (Worker.inHand n) s.workers

/-- The workers that have taken a task and not finished it. -/
def activeWorkers : Nat := total Worker.active s.workers

/-- What the accounts are kept of, the workers apart. -/
def books : List FiberAndThread × Nat × List Take × List Outcome × List Outcome × Nat :=
  (s.queue, s.pushed, s.takes, s.resumes, s.drops, s.active)

/-- The accounts of the queue and of the workers. -/
structure Dispatched : Prop where
  /-- A task that was put in the queue is there or was taken, once. -/
  once : ∀ n, s.queuedTimes n + s.takenTimes n = if n < s.pushed then 1 else 0
  /-- A task that was taken is with its worker, or its fiber was resumed, or it was dropped. -/
  kept : ∀ n, s.takenTimes n = s.inHand n + s.resumedTimes n + s.droppedTimes n
  /-- It was taken by the worker it is pinned to. -/
  pinned : ∀ t ∈ s.takes, t.task.elsewhere t.worker = false
  /-- Its fiber was not `EXEC`. -/
  exec : ∀ t ∈ s.takes, t.status ≠ some .exec
  /-- It was dropped if the test found `TERM` or `EXCEPT`, and resumed otherwise. -/
  dropped : ∀ d ∈ s.drops, d.status.ended = true
  resumed : ∀ r ∈ s.resumes, r.status.ended = false
  active : s.active = s.activeWorkers

/-- What the test of a worker that has not yet resumed the fiber has found. -/
def Tested (k : Worker) : Prop :=
  ∀ task f status, k.pc = .swapIn task f status → status.ended = false

variable {s} {s' : Schedular} {w : Nat} {k k' : Worker}

/-- Consecutive numbers. -/
theorem total_weight_range' (n : Nat) (tasks : List FiberAndThread) :
    ∀ {first : Nat}, tasks.map (·.number) = List.range' first tasks.length →
      total (·.weight n) tasks = if first ≤ n ∧ n < first + tasks.length then 1 else 0 := by
  induction tasks with
  | nil =>
      intro first _
      rw [total_nil, if_neg (by simp)]
  | cons task tasks ih =>
      intro first hnumbers
      rw [List.length_cons, List.range'_succ, List.map_cons] at hnumbers
      obtain ⟨hhead, htail⟩ := List.cons.inj hnumbers
      rw [total_cons, ih htail, FiberAndThread.weight, hhead, List.length_cons]
      grind

theorem books_eq_iff : s'.books = s.books ↔ s'.queue = s.queue ∧ s'.pushed = s.pushed ∧
    s'.takes = s.takes ∧ s'.resumes = s.resumes ∧ s'.drops = s.drops ∧ s'.active = s.active := by
  simp only [books, Prod.mk.injEq]

namespace Dispatched

/-- A step of a worker that leaves the accounts alone. -/
theorem goto (h : s.Dispatched) (hw : s.workers[w]? = some k) (hbooks : s'.books = s.books)
    (hworkers : s'.workers = s.workers.set w k') (hhand : ∀ n, k'.inHand n = k.inHand n)
    (hsame : k'.active = k.active) : s'.Dispatched := by
  obtain ⟨hqueue, hpushed, htakes, hresumes, hdrops, hactive⟩ := books_eq_iff.mp hbooks
  have hset := total_set (f := Worker.active) (b := k') hw
  refine ⟨?_, fun n => ?_, ?_, ?_, ?_, ?_, ?_⟩
  · simpa [queuedTimes, takenTimes, hqueue, htakes, hpushed] using h.once
  · have hkept := h.kept n
    have hset' := total_set (f := Worker.inHand n) (b := k') hw
    have hn := hhand n
    simp only [takenTimes, inHand, resumedTimes, droppedTimes, htakes, hworkers, hresumes,
      hdrops] at hkept ⊢
    omega
  · simpa [htakes] using h.pinned
  · simpa [htakes] using h.exec
  · simpa [hdrops] using h.dropped
  · simpa [hresumes] using h.resumed
  · have hcount := h.active
    simp only [activeWorkers, hactive, hworkers] at hcount ⊢
    omega

/-- A step that changes neither the workers nor the accounts. -/
theorem congr (h : s.Dispatched) (hbooks : s'.books = s.books)
    (hworkers : s'.workers = s.workers) : s'.Dispatched := by
  obtain ⟨hqueue, hpushed, htakes, hresumes, hdrops, hactive⟩ := books_eq_iff.mp hbooks
  refine ⟨?_, ?_, ?_, ?_, ?_, ?_, ?_⟩
  · simpa [queuedTimes, takenTimes, hqueue, htakes, hpushed] using h.once
  · simpa [takenTimes, inHand, resumedTimes, droppedTimes, htakes, hworkers, hresumes,
      hdrops] using h.kept
  · simpa [htakes] using h.pinned
  · simpa [htakes] using h.exec
  · simpa [hdrops] using h.dropped
  · simpa [hresumes] using h.resumed
  · simpa [activeWorkers, hactive, hworkers] using h.active

/-- Tasks are put in the queue. -/
theorem schedule (h : s.Dispatched) (fcs : List (Option Job)) (thread : Option Nat) :
    (s.schedule fcs thread).Dispatched := by
  obtain ⟨tasks, tickles, heq, hnumbers, -, -⟩ := schedule_spec s fcs thread
  rw [heq]
  refine ⟨fun n => ?_, h.kept, h.pinned, h.exec, h.dropped, h.resumed, h.active⟩
  have honce := h.once n
  have htasks := total_weight_range' n tasks hnumbers
  simp only [queuedTimes, takenTimes, total_append] at honce ⊢
  grind

/-- A task is taken. -/
theorem take (h : s.Dispatched) {cb_fiber : Option Nat} {idleTerm tickle_me : Bool}
    {task : FiberAndThread} {left : List FiberAndThread}
    (hw : s.workers[w]? = some ⟨.pick, cb_fiber, idleTerm⟩)
    (hscan : scan w s.fibers s.queue = (tickle_me, some task, left)) :
    Dispatched { s.goto w ⟨.taken task, cb_fiber, idleTerm⟩ with
      queue := left
      active := s.active + 1
      tickles := s.tickles + tickle_me.toNat
      takes := s.takes ++ [⟨task, w, task.status s.fibers⟩] } := by
  obtain ⟨hskips, skipped, rest, hqueue, rfl⟩ := scan_some hscan
  obtain ⟨helsewhere, hexec⟩ : task.elsewhere w = false ∧ task.status s.fibers ≠ some .exec := by
    simpa [skips] using hskips
  refine ⟨fun n => ?_, fun n => ?_, ?_, ?_, h.dropped, h.resumed, ?_⟩
  · have honce := h.once n
    simp only [queuedTimes, takenTimes, hqueue, Schedular.goto, total_append, total_cons,
      total_nil] at honce ⊢
    omega
  · have hkept := h.kept n
    have hset := total_set (f := Worker.inHand n) (b := ⟨.taken task, cb_fiber, idleTerm⟩) hw
    simp only [takenTimes, inHand, resumedTimes, droppedTimes, Schedular.goto, total_append,
      total_cons, total_nil, Worker.inHand] at hkept hset ⊢
    omega
  · intro t ht
    rcases List.mem_append.mp ht with ht | ht
    · exact h.pinned t ht
    · rw [List.mem_singleton.mp ht]
      exact helsewhere
  · intro t ht
    rcases List.mem_append.mp ht with ht | ht
    · exact h.exec t ht
    · rw [List.mem_singleton.mp ht]
      exact hexec
  · have hcount := h.active
    have hset := total_set (f := Worker.active) (b := ⟨.taken task, cb_fiber, idleTerm⟩) hw
    simp only [activeWorkers, Schedular.goto, Worker.active] at hcount hset ⊢
    omega

/-- A task is dropped. -/
theorem refuse (h : s.Dispatched) {cb_fiber : Option Nat} {idleTerm : Bool} {task : FiberAndThread}
    {f : Nat} (hw : s.workers[w]? = some ⟨.taken task, cb_fiber, idleTerm⟩)
    (hended : (s.fibers f).status.ended = true) :
    Dispatched { s.goto w ⟨.drop, cb_fiber, idleTerm⟩ with
      drops := s.drops ++ [⟨task, (s.fibers f).status⟩] } := by
  refine ⟨h.once, fun n => ?_, h.pinned, h.exec, ?_, h.resumed, ?_⟩
  · have hkept := h.kept n
    have hset := total_set (f := Worker.inHand n) (b := ⟨.drop, cb_fiber, idleTerm⟩) hw
    simp only [takenTimes, inHand, resumedTimes, droppedTimes, Schedular.goto, total_append,
      total_cons, total_nil, Worker.inHand] at hkept hset ⊢
    omega
  · intro d hd
    rcases List.mem_append.mp hd with hd | hd
    · exact h.dropped d hd
    · rw [List.mem_singleton.mp hd]
      exact hended
  · have hcount := h.active
    have hset := total_set (f := Worker.active) (b := ⟨.drop, cb_fiber, idleTerm⟩) hw
    simp only [activeWorkers, Schedular.goto, Worker.active] at hcount hset ⊢
    omega

/-- The fiber of a task is resumed. -/
theorem swapIn (h : s.Dispatched) {cb_fiber : Option Nat} {idleTerm : Bool} {task : FiberAndThread}
    {f : Nat} {status : Status} {faults : List Fault} {fibers : Nat → Fiber}
    (hw : s.workers[w]? = some ⟨.swapIn task f status, cb_fiber, idleTerm⟩)
    (htested : status.ended = false) :
    Dispatched { s.goto w ⟨.run f (task.job == .callback), cb_fiber, idleTerm⟩ with
      fibers := fibers
      resumes := s.resumes ++ [⟨task, status⟩]
      faults := faults } := by
  refine ⟨h.once, fun n => ?_, h.pinned, h.exec, h.dropped, ?_, ?_⟩
  · have hkept := h.kept n
    have hset := total_set (f := Worker.inHand n)
      (b := ⟨.run f (task.job == .callback), cb_fiber, idleTerm⟩) hw
    simp only [takenTimes, inHand, resumedTimes, droppedTimes, Schedular.goto, total_append,
      total_cons, total_nil, Worker.inHand] at hkept hset ⊢
    omega
  · intro r hr
    rcases List.mem_append.mp hr with hr | hr
    · exact h.resumed r hr
    · rw [List.mem_singleton.mp hr]
      exact htested
  · have hcount := h.active
    have hset := total_set (f := Worker.active)
      (b := ⟨.run f (task.job == .callback), cb_fiber, idleTerm⟩) hw
    simp only [activeWorkers, Schedular.goto, Worker.active] at hcount hset ⊢
    omega

/-- A task is finished: the counter goes down. -/
theorem finish (h : s.Dispatched) (hw : s.workers[w]? = some k) (hactive : k.active = 1)
    (hactive' : k'.active = 0) (hhand : ∀ n, k'.inHand n = k.inHand n) :
    Dispatched { s.goto w k' with active := s.active - 1 } := by
  refine ⟨h.once, fun n => ?_, h.pinned, h.exec, h.dropped, h.resumed, ?_⟩
  · have hkept := h.kept n
    have hset := total_set (f := Worker.inHand n) (b := k') hw
    have hn := hhand n
    simp only [takenTimes, inHand, resumedTimes, droppedTimes, Schedular.goto] at hkept ⊢
    omega
  · have hcount := h.active
    have hset := total_set (f := Worker.active) (b := k') hw
    simp only [activeWorkers, Schedular.goto] at hcount ⊢
    omega

theorem step (h : s.Dispatched) (htested : ∀ k ∈ s.workers, Tested k) {a : Action}
    (hmoves : s.Moves a s') : s'.Dispatched := by
  cases hmoves with
  | schedule => exact h.schedule _ _
  | scheduleAll => exact h.schedule _ _
  | newFiber => exact h.congr rfl rfl
  | autostop => exact h.congr rfl rfl
  | stop => exact h.congr rfl rfl
  | take hw hscan => exact h.take hw hscan
  | @nothing w ch cb_fiber idleTerm tickle_me left hw hscan =>
      refine h.goto hw rfl rfl (fun n => ?_) ?_
      · cases idleTerm <;> rfl
      · cases idleTerm <;> rfl
  | refuse hw _ hended => exact h.refuse hw hended
  | accept hw => exact h.goto hw rfl rfl (fun _ => rfl) rfl
  | reuse hw => exact h.goto hw rfl rfl (fun _ => rfl) rfl
  | create hw => exact h.goto hw rfl rfl (fun _ => rfl) rfl
  | swapIn hw => exact h.swapIn hw (htested _ (List.mem_of_getElem? hw) _ _ _ rfl)
  | yield hw => exact h.goto hw rfl rfl (fun _ => rfl) rfl
  | swapOut hw => exact h.goto hw rfl rfl (fun _ => rfl) rfl
  | returned hw => exact h.finish hw rfl rfl fun _ => rfl
  | ready hw => exact h.goto hw rfl rfl (fun _ => rfl) rfl
  | @ended w ch cb_fiber idleTerm f cb hw =>
      refine h.goto hw rfl rfl (fun n => ?_) ?_
      · cases cb <;> rfl
      · cases cb <;> rfl
  | held hw => exact h.goto hw rfl rfl (fun _ => rfl) rfl
  | @requeue w ch cb_fiber idleTerm f hw =>
      exact (h.schedule _ none).goto (k := ⟨.schedule f, cb_fiber, idleTerm⟩) hw rfl rfl
        (fun _ => rfl) rfl
  | reset hw => exact h.goto hw rfl rfl (fun _ => rfl) rfl
  | hold hw => exact h.goto hw rfl rfl (fun _ => rfl) rfl
  | drop hw => exact h.finish hw rfl rfl fun _ => rfl
  | idle hw => exact h.goto hw rfl rfl (fun _ => rfl) rfl
  | fail hw => exact h.congr rfl rfl

theorem init (threads : Nat) : (init threads).Dispatched where
  once _ := rfl
  kept n := by
    have hzero : total (Worker.inHand n) (List.replicate threads ⟨.pick, none, false⟩) = 0 :=
      total_eq_zero fun k hk => by rw [(List.mem_replicate.mp hk).2]; rfl
    simp only [takenTimes, inHand, resumedTimes, droppedTimes, Schedular.init, total_nil, hzero]
  pinned _ ht := absurd ht List.not_mem_nil
  exec _ ht := absurd ht List.not_mem_nil
  dropped _ hd := absurd hd List.not_mem_nil
  resumed _ hr := absurd hr List.not_mem_nil
  active := by
    have hzero : total Worker.active (List.replicate threads ⟨.pick, none, false⟩) = 0 :=
      total_eq_zero fun k hk => by rw [(List.mem_replicate.mp hk).2]; rfl
    simp only [activeWorkers, Schedular.init, hzero]

end Dispatched

/-- A worker that gets to `swapIn` has just been there with the test, or has set the status. -/
theorem tested_step (h : ∀ k ∈ s.workers, Tested k) {a : Action} (hmoves : s.Moves a s') :
    ∀ k ∈ s'.workers, Tested k := by
  -- The other workers have not moved.
  have hset : ∀ {w k'}, Tested k' → ∀ k ∈ s.workers.set w k', Tested k := by
    intro w k' hk' k hk
    rcases List.mem_or_eq_of_mem_set hk with hk | rfl
    · exact h k hk
    · exact hk'
  have hother : ∀ {pc cb_fiber idleTerm}, (∀ task f status, pc ≠ .swapIn task f status) →
      Tested ⟨pc, cb_fiber, idleTerm⟩ := fun hne task f status heq => absurd heq (hne task f status)
  have hschedule : ∀ fcs thread, ∀ k ∈ (s.schedule fcs thread).workers, Tested k := by
    intro fcs thread
    obtain ⟨tasks, tickles, heq, -⟩ := schedule_spec s fcs thread
    rw [heq]
    exact h
  cases hmoves with
  | schedule => exact hschedule _ _
  | scheduleAll => exact hschedule _ _
  | newFiber => exact h
  | autostop => exact h
  | stop => exact h
  | fail => exact h
  | @nothing w ch cb_fiber idleTerm =>
      exact hset (hother (by cases idleTerm <;> simp))
  | @ended w ch cb_fiber idleTerm f cb =>
      exact hset (hother (by cases cb <;> simp))
  | accept hw hjob hended =>
      refine hset fun task f status heq => ?_
      obtain ⟨rfl, rfl, rfl⟩ := Pc.swapIn.inj heq
      exact hended
  | reuse =>
      refine hset fun task f status heq => ?_
      obtain ⟨rfl, rfl, rfl⟩ := Pc.swapIn.inj heq
      rfl
  | create =>
      refine hset fun task f status heq => ?_
      obtain ⟨rfl, rfl, rfl⟩ := Pc.swapIn.inj heq
      rfl
  | _ => exact hset (hother (by simp))

theorem Reachable.dispatched {threads : Nat} (h : Reachable threads s) : s.Dispatched := by
  refine (Reach.invariant (P := fun s => s.Dispatched ∧ ∀ k ∈ s.workers, Tested k)
    ⟨.init threads, fun k hk task f status heq => ?_⟩ ?_ h).1
  · rw [(List.mem_replicate.mp hk).2] at heq
    cases heq
  · rintro s s' a - ⟨hs, htested⟩ - hstep
    have hmoves := moves_of_step hstep
    exact ⟨hs.step htested hmoves, tested_step htested hmoves⟩

/-- **Each task is taken once, by a worker that may take it, and the counter is right**, in every
reachable state; and as long as a task is in the queue, a worker that may take it takes it or one in
front of it. -/
theorem dispatched_of_reachable {threads : Nat} (h : Reachable threads s) :
    s.Dispatched ∧ ∀ w front task back, s.queue = front ++ task :: back →
      task.elsewhere w = false → task.status s.fibers ≠ some .exec →
        ∃ tickle_me found left, scan w s.fibers s.queue = (tickle_me, some found, left) ∧
          (found = task ∨ found ∈ front) := by
  refine ⟨h.dispatched, fun w front task back hqueue helsewhere hexec => ?_⟩
  rw [hqueue]
  exact scan_finds front back (by simp [skips, helsewhere, hexec])

/-- Worker 0 passes over a fiber that is pinned to worker 1, runs a callback to its end and is left
without a task; worker 1 takes the fiber. -/
def pinnedFiber : List Action :=
  [.newFiber, .schedule (some (.fiber 0)) (some 1), .schedule (some .callback) none,
    .work 0 .returns, .work 0 .returns, .work 0 .returns, .work 0 .returns, .work 0 .returns,
    .work 0 .returns, .work 0 .returns, .work 0 .returns, .work 0 .returns, .work 1 .returns,
    .work 1 .returns]

theorem dispatched_pinnedFiber :
    ∃ s, runActions step pinnedFiber (init 2) = some s ∧
      s.takes = [⟨⟨1, .callback, none⟩, 0, none⟩, ⟨⟨0, .fiber 0, some 1⟩, 1, some .init⟩] ∧
      s.active = 1 ∧ s.Dispatched := by
  have hrun : (runActions step pinnedFiber (init 2)).map (fun s => (s.takes, s.active)) =
      some ([⟨⟨1, .callback, none⟩, 0, none⟩, ⟨⟨0, .fiber 0, some 1⟩, 1, some .init⟩], 1) := by
    decide
  obtain ⟨s, hs, heq⟩ := Option.map_eq_some_iff.mp hrun
  obtain ⟨htakes, hactive⟩ := Prod.mk.inj heq
  have hreach : Reachable 2 s := reach_of_runActions pinnedFiber hs (by decide)
  exact ⟨s, hs, htakes, hactive, (dispatched_of_reachable hreach).1⟩

end Schedular
end Routn
