import Mathlib.Data.List.TakeWhile
import Mathlib.Logic.Function.Basic
import Routn.Foundation.Transition

/-!
# `Schedular`: the queue, the fibers and the run loops

Each worker is a thread in `run`.  The program points cut its loop at every section under `_mutex`,
every access to `_active_thread_cnt`, every status test, every write of a status and at the
switch-out; an assertion is evaluated with the write that follows it.

* A fiber is a number; its status, whether `_fcallback` is set, and whether its context is saved are
  all that the loops depend on.  What it does next is chosen by the environment.
* A thread id is the number of the worker; `none` is `-1`.
* `schedule`, `stop` and the construction of fibers may be called at any time, by any thread.
  `stopping` changes nothing; the idle fiber of a worker that has found no task evaluates it.
* The entries of the queue are numbered in the order of `push_back`.  The counts and lists below
  `aborted` in the state record what has happened; no step depends on them.
-/

namespace Routn
namespace Schedular

/-- `Fiber::State`. -/
inductive Status
  | init
  | hold
  | exec
  | term
  | ready
  | except
deriving DecidableEq, Repr

/-- The status of a fiber that will not be resumed. -/
def Status.ended : Status → Bool
  | .term => true
  | .except => true
  | _ => false

/-- `_fstatus == TERM || _fstatus == EXCEPT || _fstatus == INIT`. -/
def Status.resettable (status : Status) : Bool := status.ended || status == .init

structure Fiber where
  status : Status
  /-- `_fcallback` is set. -/
  callback : Bool
  /-- The context is new or has been saved by a switch-out. -/
  saved : Bool
deriving DecidableEq, Repr

/-- `Fiber(cb)`, and `reset(cb)`. -/
def Fiber.new (callback : Bool) : Fiber := ⟨.init, callback, true⟩

/-- What is in the queue: a fiber that is not null, or a function that is not null. -/
inductive Job
  | fiber (f : Nat)
  | callback
deriving DecidableEq, Repr

structure FiberAndThread where
  number : Nat
  job : Job
  thread_id : Option Nat
deriving DecidableEq, Repr

namespace FiberAndThread

/-- `it->thread_id != -1 && it->thread_id != GetThreadId()`. -/
def elsewhere (task : FiberAndThread) (worker : Nat) : Bool :=
  task.thread_id.any fun thread => thread != worker

/-- The status of the fiber of a task, if it has one. -/
def status (task : FiberAndThread) (fibers : Nat → Fiber) : Option Status :=
  match task.job with
  | .fiber f => some (fibers f).status
  | _ => none

end FiberAndThread

/-- A worker leaves a task in the queue that is pinned elsewhere or whose fiber is `EXEC`. -/
def skips (worker : Nat) (fibers : Nat → Fiber) (task : FiberAndThread) : Bool :=
  task.elsewhere worker || task.status fibers == some .exec

/-- The loop over `_fibers` in `run`: `tickle_me`, the task that is taken, and what stays. -/
def scan (worker : Nat) (fibers : Nat → Fiber) :
    List FiberAndThread → Bool × Option FiberAndThread × List FiberAndThread
  | [] => (false, none, [])
  | task :: rest =>
      if skips worker fibers task then
        let (tickle_me, found, left) := scan worker fibers rest
        (task.elsewhere worker || tickle_me, found, task :: left)
      else (false, some task, rest)

section Scan

variable {worker : Nat} {fibers : Nat → Fiber} {queue left : List FiberAndThread}
  {tickle_me : Bool} {task : FiberAndThread}

theorem scan_eq (worker : Nat) (fibers : Nat → Fiber) (queue : List FiberAndThread) :
    scan worker fibers queue =
      ((queue.takeWhile (skips worker fibers)).any (·.elsewhere worker),
        (queue.dropWhile (skips worker fibers)).head?,
        queue.takeWhile (skips worker fibers) ++ (queue.dropWhile (skips worker fibers)).tail) := by
  induction queue with
  | nil => rfl
  | cons task rest ih =>
      rw [scan]
      by_cases hskip : skips worker fibers task = true
      · simp [ih, hskip]
      · simp [hskip]

/-- The task that is taken stands behind tasks that are not for this worker now. -/
theorem scan_some (h : scan worker fibers queue = (tickle_me, some task, left)) :
    skips worker fibers task = false ∧ ∃ skipped rest, queue = skipped ++ task :: rest ∧
      left = skipped ++ rest := by
  rw [scan_eq] at h
  obtain ⟨hhead, hleft⟩ := Prod.mk.inj (Prod.mk.inj h).2
  obtain ⟨rest, hdrop⟩ := List.head?_eq_some_iff.mp hhead
  have hkeeps := List.head?_dropWhile_not (skips worker fibers) queue
  rw [hhead] at hkeeps
  have hqueue := (List.takeWhile_append_dropWhile (p := skips worker fibers) (l := queue)).symm
  rw [hdrop] at hqueue hleft
  exact ⟨by simpa using hkeeps, _, rest, hqueue, hleft.symm⟩

/-- If a task is for this worker, that task or one in front of it is taken. -/
theorem scan_finds (front back : List FiberAndThread) (h : skips worker fibers task = false) :
    ∃ tickle_me found left, scan worker fibers (front ++ task :: back) =
      (tickle_me, some found, left) ∧ (found = task ∨ found ∈ front) := by
  induction front with
  | nil => exact ⟨false, task, back, by simp [scan, h], .inl rfl⟩
  | cons t front ih =>
      obtain ⟨tickle_me, found, left, hscan, hfound⟩ := ih
      rw [List.cons_append, scan]
      by_cases hskip : skips worker fibers t = true
      · rw [if_pos hskip, hscan]
        exact ⟨_, found, _, rfl, hfound.imp_right (List.mem_cons_of_mem t)⟩
      · rw [if_neg hskip]
        exact ⟨_, t, _, rfl, .inr List.mem_cons_self⟩

end Scan

/-! ## Workers -/

/-- Where a worker is in the loop of `run`.  `cb` says that the fiber is `cb_fiber`. -/
inductive Pc
  | pick
  /-- `ft` is a task; its status is about to be tested. -/
  | taken (task : FiberAndThread)
  /-- `status` is what the test has found. -/
  | swapIn (task : FiberAndThread) (f : Nat) (status : Status)
  | run (f : Nat) (cb : Bool)
  /-- The fiber is inside `swapOut`. -/
  | swapOut (f : Nat) (cb : Bool)
  /-- Back in the loop, before `--_active_thread_cnt`. -/
  | returned (f : Nat) (cb : Bool)
  | look (f : Nat) (cb : Bool)
  /-- Before `schedule`, `reset(nullptr)` and `_fstatus = HOLD`. -/
  | schedule (f : Nat)
  | reset (f : Nat)
  | hold (f : Nat) (cb : Bool)
  /-- The task is dropped, before `--_active_thread_cnt`. -/
  | drop
  | idle
  | exited
deriving DecidableEq, Repr

/-- The fiber that runs on the worker. -/
def Pc.onStack : Pc → Option Nat
  | .run f _ => some f
  | .swapOut f _ => some f
  | _ => none

structure Worker where
  pc : Pc
  cb_fiber : Option Nat
  /-- `idle_fiber` is `TERM`. -/
  idleTerm : Bool
deriving DecidableEq, Repr

/-! ## Records -/

/-- A task that was taken out of the queue, and the status its fiber had then. -/
structure Take where
  task : FiberAndThread
  worker : Nat
  status : Option Status
deriving DecidableEq, Repr

/-- What became of a task, and the status the test had found. -/
structure Outcome where
  task : FiberAndThread
  status : Status
deriving DecidableEq, Repr

inductive Fault
  /-- `swapIn` of a fiber that has not been switched out. -/
  | resumed (worker f : Nat)
  /-- The assertion of `swapIn` has failed. -/
  | swapIn (worker f : Nat)
  /-- A worker has written the status of a fiber that runs on another worker. -/
  | overwrote (worker f : Nat)
  /-- The assertion of `reset` has failed. -/
  | reset (worker f : Nat)
  /-- The assertion of `YieldToHold` has failed. -/
  | yieldToHold (worker f : Nat)
deriving DecidableEq, Repr

end Schedular

/-! ## The scheduler -/

structure Schedular where
  fibers : Nat → Schedular.Fiber
  fiberCount : Nat
  queue : List Schedular.FiberAndThread
  workers : List Schedular.Worker
  active : Nat
  autostopFlag : Bool
  stoppingFlag : Bool
  aborted : Bool
  tickles : Nat
  pushed : Nat
  takes : List Schedular.Take
  resumes : List Schedular.Outcome
  drops : List Schedular.Outcome
  faults : List Schedular.Fault

namespace Schedular

/-- What a running fiber does next. -/
inductive Choice
  | yieldToReady
  | yieldToHold
  | returns
  | throws
deriving DecidableEq, Repr

inductive Action
  /-- `none` is a null fiber or a null function. -/
  | schedule (fc : Option Job) (thread : Option Nat)
  | scheduleAll (fcs : List (Option Job))
  | newFiber
  /-- The two writes of `stop`. -/
  | autostop
  | stop
  /-- Worker `w` goes on. -/
  | work (w : Nat) (ch : Choice)
deriving DecidableEq, Repr

/-- The scheduler after `start`. -/
def init (threads : Nat) : Schedular where
  fibers _ := .new false
  fiberCount := 0
  queue := []
  workers := List.replicate threads ⟨.pick, none, false⟩
  active := 0
  autostopFlag := false
  stoppingFlag := false
  aborted := false
  tickles := 0
  pushed := 0
  takes := []
  resumes := []
  drops := []
  faults := []

variable (s : Schedular)

def goto (w : Nat) (k : Worker) : Schedular := { s with workers := s.workers.set w k }

def setFiber (f : Nat) (fiber : Fiber) : Schedular :=
  { s with fibers := Function.update s.fibers f fiber }

def setStatus (f : Nat) (status : Status) : Schedular :=
  s.setFiber f { s.fibers f with status := status }

/-- An assertion fails. -/
def fail (fault : Fault) : Schedular :=
  { s with aborted := true, faults := s.faults ++ [fault] }

/-- A worker other than `w` meets `p`. -/
def anyOther (w : Nat) (p : Worker → Bool) : Bool :=
  (List.range s.workers.length).any fun v => v != w && s.workers[v]?.any p

/-- Fiber `f` runs on a worker other than `w`. -/
def runsElsewhere (w f : Nat) : Bool := s.anyOther w fun k => k.pc.onStack == some f

/-- Worker `w` writes the status of fiber `f`. -/
def write (w f : Nat) (fiber : Fiber) : Schedular :=
  { s.setFiber f fiber with
    faults := if s.runsElsewhere w f then s.faults ++ [.overwrote w f] else s.faults }

def scheduleNoLock (fc : Option Job) (thread : Option Nat) : Bool × Schedular :=
  (s.queue.isEmpty,
    match fc with
    | some job =>
        { s with queue := s.queue ++ [⟨s.pushed, job, thread⟩], pushed := s.pushed + 1 }
    | none => s)

/-- The loop in `schedule(begin, end)`. -/
def scheduleLoop (thread : Option Nat) : List (Option Job) → Schedular → Bool × Schedular
  | [], s => (false, s)
  | fc :: fcs, s =>
      let (need_tickle, s') := s.scheduleNoLock fc thread
      let (rest, s'') := scheduleLoop thread fcs s'
      (need_tickle || rest, s'')

def schedule (fcs : List (Option Job)) (thread : Option Nat) : Schedular :=
  let (need_tickle, s') := scheduleLoop thread fcs s
  { s' with tickles := s'.tickles + need_tickle.toNat }

def stopping : Bool :=
  s.autostopFlag && s.stoppingFlag && s.queue.isEmpty && s.active == 0

/-- The assertion of `reset`. -/
def resettable (f : Nat) : Bool := (s.fibers f).status.resettable

/-- The fiber that runs on worker `w` goes on. -/
def runFiber (w : Nat) (k : Worker) (f : Nat) (cb : Bool) (ch : Choice) : Option Schedular :=
  let fiber := s.fibers f
  let k' := { k with pc := .swapOut f cb }
  -- a call of a null function throws
  if fiber.callback = false ∧ ch ≠ .throws then none
  else match ch with
    | .yieldToReady => some ((s.setStatus f .ready).goto w k')
    | .yieldToHold =>
        if fiber.status = .exec then some (s.goto w k') else some (s.fail (.yieldToHold w f))
    | .returns =>
        some ((s.setFiber f { fiber with status := .term, callback := false }).goto w k')
    | .throws => some ((s.setStatus f .except).goto w k')

/-- The next section of worker `w`. -/
def work (w : Nat) (k : Worker) (ch : Choice) : Option Schedular :=
  match k.pc with
  | .pick =>
      match scan w s.fibers s.queue with
      | (tickle_me, some task, left) =>
          some { s.goto w { k with pc := .taken task } with
            queue := left
            active := s.active + 1
            tickles := s.tickles + tickle_me.toNat
            takes := s.takes ++ [⟨task, w, task.status s.fibers⟩] }
      | (tickle_me, none, _) =>
          -- `cb_fiber` ends with the loop
          some { s.goto w { k with
              pc := if k.idleTerm then .exited else .idle
              cb_fiber := if k.idleTerm then none else k.cb_fiber } with
            tickles := s.tickles + tickle_me.toNat }
  | .taken task =>
      match task.job with
      | .fiber f =>
          let status := (s.fibers f).status
          if status.ended then
            some { s.goto w { k with pc := .drop } with drops := s.drops ++ [⟨task, status⟩] }
          else some (s.goto w { k with pc := .swapIn task f status })
      | .callback =>
          match k.cb_fiber with
          | some f =>
              if s.resettable f then
                some ((s.write w f (.new true)).goto w { k with pc := .swapIn task f .init })
              else some (s.fail (.reset w f))
          | none =>
              let f := s.fiberCount
              some { (s.setFiber f (.new true)).goto w
                  { k with pc := .swapIn task f .init, cb_fiber := some f } with
                fiberCount := f + 1 }
  | .swapIn task f status =>
      let fiber := s.fibers f
      if fiber.status = .exec then some (s.fail (.swapIn w f))
      else
        let s' := s.write w f { fiber with status := .exec, saved := false }
        some { s'.goto w { k with pc := .run f (task.job == .callback) } with
          resumes := s.resumes ++ [⟨task, status⟩]
          faults := if fiber.saved then s'.faults else s'.faults ++ [.resumed w f] }
  | .run f cb => s.runFiber w k f cb ch
  | .swapOut f cb =>
      some ((s.setFiber f { s.fibers f with saved := true }).goto w { k with pc := .returned f cb })
  | .returned f cb =>
      some { s.goto w { k with pc := .look f cb } with active := s.active - 1 }
  | .look f cb =>
      let status := (s.fibers f).status
      if status = .ready then
        some (s.goto w ⟨.schedule f, if cb then none else k.cb_fiber, k.idleTerm⟩)
      else if status.ended then some (s.goto w { k with pc := if cb then .reset f else .pick })
      else some (s.goto w { k with pc := .hold f cb })
  | .schedule f => some ((s.schedule [some (.fiber f)] none).goto w { k with pc := .pick })
  | .reset f =>
      if s.resettable f then some ((s.write w f (.new false)).goto w { k with pc := .pick })
      else some (s.fail (.reset w f))
  | .hold f cb =>
      some ((s.write w f { s.fibers f with status := .hold }).goto w
        ⟨.pick, if cb then none else k.cb_fiber, k.idleTerm⟩)
  | .drop => some { s.goto w { k with pc := .pick } with active := s.active - 1 }
  | .idle => some (s.goto w { k with pc := .pick, idleTerm := s.stopping })
  | .exited => none

/-- Only fibers that exist can be scheduled. -/
def mayPass : Option Job → Bool
  | some (.fiber f) => f < s.fiberCount
  | _ => true

def step : Action → Option Schedular
  | .schedule fc thread =>
      if !s.aborted && s.mayPass fc then some (s.schedule [fc] thread) else none
  | .scheduleAll fcs =>
      if !s.aborted && fcs.all s.mayPass then some (s.schedule fcs none) else none
  | .newFiber =>
      if s.aborted then none
      else some { s.setFiber s.fiberCount (.new true) with fiberCount := s.fiberCount + 1 }
  | .autostop => if s.aborted then none else some { s with autostopFlag := true }
  | .stop => if s.aborted then none else some { s with stoppingFlag := true }
  | .work w ch =>
      if s.aborted then none else s.workers[w]?.bind fun k => s.work w k ch

def Reachable (threads : Nat) : Schedular → Prop :=
  Foundation.Reach (init threads) step fun _ _ => True

end Schedular
end Routn
