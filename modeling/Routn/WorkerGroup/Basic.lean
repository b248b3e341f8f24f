import Routn.FiberSync
import Routn.Foundation.Transition

/-!
# `WorkerGroup`: a client and its callbacks

One fiber makes the calls of `schedule` and `waitAll`, one after the other.  Each call of
`schedule` takes one permit of `m_sem` for each callback and then hands them all to the scheduler;
each callback becomes a fiber that runs `doWork`.  The fibers go on in any order.

* An input says how each callback ends.  An exception leaves `doWork` before `m_sem.notify()`, and
  `Fiber::MainFunc` catches it.
* The two overloads of `schedule` differ in the number of callbacks; the thread to which a callback
  is pinned plays no role here.
* `waitAll` gives no permit back.  `kept` counts the permits of the calls that have returned.
-/

namespace Routn
namespace WorkerGroup

open Foundation
open Fibers

/-- How a callback ends. -/
inductive Exit
  | returns
  | throws
deriving DecidableEq, Repr

inductive Call
  | schedule (cb : Exit)
  | scheduleAll (cbs : List Exit)
  | waitAll
deriving DecidableEq, Repr

def Call.callbacks : Call → List Exit
  | .schedule cb => [cb]
  | .scheduleAll cbs => cbs
  | .waitAll => []

/-- Where the client is. -/
inductive ClientPc
  | idle
  /-- `schedule` has a permit for each callback in `taken`. -/
  | taking (taken todo : List Exit)
  | asleep (taken : List Exit) (cb : Exit) (todo : List Exit)
  /-- `waitAll` has taken so many permits. -/
  | draining (taken : Nat)
  | drainAsleep (taken : Nat)
  /-- `waitAll` has returned. -/
  | returned
deriving DecidableEq, Repr

/-- `doWork`; `queued` is before its fiber runs for the first time. -/
inductive WorkPc
  | queued (cb : Exit)
  | running (cb : Exit)
  | notify
  | finished
  | threw
deriving DecidableEq, Repr

inductive Thread
  | client (pc : ClientPc) (kept : Nat) (calls : List Call)
  | doWork (pc : WorkPc)
deriving DecidableEq, Repr

/-- The next section of a fiber of a group with `batch_size` permits; the shared data is
`m_finish`. -/
def next (batch_size : Nat) (finish : Bool) (_ : Unit) : Thread → Option (Stmt Unit Bool Thread)
  | .client .idle kept (.waitAll :: calls) =>
      if finish then some (.tau finish (.client .returned kept calls) [])
      else some (.tau true (.client (.draining 0) kept calls) [])
  | .client .idle kept (call :: calls) =>
      some (.tau finish (.client (.taking [] call.callbacks) kept calls) [])
  | .client (.taking taken (cb :: todo)) kept calls =>
      some (.wait () (.client (.asleep taken cb todo) kept calls)
        (.client (.taking (taken ++ [cb]) todo) kept calls))
  -- `m_scheduler->schedule(cs.begin(), cs.end())`
  | .client (.taking taken []) kept calls =>
      some (.tau finish (.client .idle kept calls) (taken.map fun cb => .doWork (.queued cb)))
  | .client (.draining taken) kept calls =>
      if taken < batch_size then
        some (.wait () (.client (.drainAsleep taken) kept calls)
          (.client (.draining (taken + 1)) kept calls))
      else some (.tau finish (.client .returned (kept + taken) calls) [])
  | .client .returned kept calls => some (.tau finish (.client .idle kept calls) [])
  | .doWork (.queued cb) => some (.tau finish (.doWork (.running cb)) [])
  | .doWork (.running .returns) => some (.tau finish (.doWork .notify) [])
  | .doWork (.running .throws) => some (.tau finish (.doWork .threw) [])
  | .doWork .notify => some (.notify () (.doWork .finished))
  | _ => none

def Thread.waiting : Thread → Option Unit
  | .client (.asleep ..) _ _ => some ()
  | .client (.drainAsleep _) _ _ => some ()
  | _ => none

def Thread.wake : Thread → Thread
  | .client (.asleep taken cb todo) kept calls => .client (.taking (taken ++ [cb]) todo) kept calls
  | .client (.drainAsleep taken) kept calls => .client (.draining (taken + 1)) kept calls
  | th => th

section Next

variable {batch_size : Nat} {finish finish' : Bool} {th after : Thread}
  {spawned : List Thread}

/-- The calls of `m_sem.wait()`. -/
theorem next_wait {k : Unit} {blocked acquired : Thread}
    (h : next batch_size finish () th = some (.wait k blocked acquired)) :
    (∃ kept calls taken cb todo, th = .client (.taking taken (cb :: todo)) kept calls ∧
        blocked = .client (.asleep taken cb todo) kept calls ∧
        acquired = .client (.taking (taken ++ [cb]) todo) kept calls) ∨
      ∃ kept calls taken, taken < batch_size ∧ th = .client (.draining taken) kept calls ∧
        blocked = .client (.drainAsleep taken) kept calls ∧
        acquired = .client (.draining (taken + 1)) kept calls := by
  unfold next at h
  split at h <;> (repeat' split at h) <;> cases h
  · exact .inl ⟨_, _, _, _, _, rfl, rfl, rfl⟩
  · exact .inr ⟨_, _, _, ‹_›, rfl, rfl, rfl⟩

/-- Only `doWork` gives a permit back. -/
theorem next_notify {k : Unit} (h : next batch_size finish () th = some (.notify k after)) :
    th = .doWork .notify ∧ after = .doWork .finished := by
  unfold next at h
  split at h <;> (repeat' split at h) <;> cases h
  exact ⟨rfl, rfl⟩

/-- The sections that touch no semaphore. -/
inductive Section (batch_size : Nat) : Bool → Thread → Bool → Thread → List Thread → Prop
  | again {kept : Nat} {calls : List Call} :
      Section batch_size true (.client .idle kept (.waitAll :: calls)) true
        (.client .returned kept calls) []
  | drain {kept : Nat} {calls : List Call} :
      Section batch_size false (.client .idle kept (.waitAll :: calls)) true
        (.client (.draining 0) kept calls) []
  | begin {finish : Bool} {kept : Nat} {call : Call} {calls : List Call} (hcall : call ≠ .waitAll) :
      Section batch_size finish (.client .idle kept (call :: calls)) finish
        (.client (.taking [] call.callbacks) kept calls) []
  | schedule {finish : Bool} {kept : Nat} {calls : List Call} {taken : List Exit} :
      Section batch_size finish (.client (.taking taken []) kept calls) finish
        (.client .idle kept calls) (taken.map fun cb => .doWork (.queued cb))
  | drained {finish : Bool} {kept : Nat} {calls : List Call} {taken : Nat}
      (htaken : batch_size ≤ taken) :
      Section batch_size finish (.client (.draining taken) kept calls) finish
        (.client .returned (kept + taken) calls) []
  | goOn {finish : Bool} {kept : Nat} {calls : List Call} :
      Section batch_size finish (.client .returned kept calls) finish
        (.client .idle kept calls) []
  | start {finish : Bool} {cb : Exit} :
      Section batch_size finish (.doWork (.queued cb)) finish (.doWork (.running cb)) []
  | cb {finish : Bool} :
      Section batch_size finish (.doWork (.running .returns)) finish (.doWork .notify) []
  | throw {finish : Bool} :
      Section batch_size finish (.doWork (.running .throws)) finish (.doWork .threw) []

theorem next_tau (h : next batch_size finish () th = some (.tau finish' after spawned)) :
    Section batch_size finish th finish' after spawned := by
  unfold next at h
  split at h <;> (repeat' split at h) <;> cases h
  · next hfinish =>
      subst hfinish
      exact .again
  · next hfinish =>
      obtain rfl := Bool.eq_false_iff.mpr hfinish
      exact .drain
  · next hcall => exact .begin hcall
  · exact .schedule
  · next htaken => exact .drained (Nat.le_of_not_lt htaken)
  · exact .goOn
  · exact .start
  · exact .cb
  · exact .throw

end Next

def program (batch_size : Nat) : Program Unit Bool Unit Thread where
  next := next batch_size
  waiting := Thread.waiting
  wake := Thread.wake
  next_of_waiting := by
    intro finish ch th k h
    unfold Thread.waiting at h
    split at h
    · simp [next]
    · simp [next]
    · cases h
  next_wait := by
    intro finish ch th k blocked acquired h
    rcases next_wait h with ⟨_, _, _, _, _, -, rfl, rfl⟩ | ⟨_, _, _, -, -, rfl, rfl⟩
    · exact ⟨rfl, rfl⟩
    · exact ⟨rfl, rfl⟩
  next_notify := by
    intro finish ch th k after h
    obtain ⟨-, rfl⟩ := next_notify h
    rfl
  next_tau := by
    intro finish ch th finish' after spawned h
    cases next_tau h with
    | schedule => exact ⟨rfl, by simp [Thread.waiting]⟩
    | _ => exact ⟨rfl, by simp⟩
  waiting_wake := by
    intro th
    cases th with
    | client pc kept calls => cases pc <;> rfl
    | doWork pc => rfl

abbrev State := Fibers.State Unit Bool Thread

/-- A new group, and a client that is going to make these calls. -/
def init (batch_size : Nat) (calls : List Call) : State where
  sems _ := .new batch_size
  shared := false
  threads := [.client .idle 0 calls]

/-- An action is the number of the fiber that goes on. -/
def step (batch_size : Nat) (s : State) (i : Nat) : Option State := (program batch_size).run s i ()

def Reachable (batch_size : Nat) (calls : List Call) : State → Prop :=
  Reach (init batch_size calls) (step batch_size) fun _ _ => True

/-! ## Where the permits are -/

/-- The permits a call in progress or a call of `waitAll` has taken. -/
def Thread.taken : Thread → Nat
  | .client (.taking taken _) kept _ => kept + taken.length
  | .client (.asleep taken _ _) kept _ => kept + taken.length
  | .client (.draining taken) kept _ => kept + taken
  | .client (.drainAsleep taken) kept _ => kept + taken
  | .client _ kept _ => kept
  | .doWork _ => 0

/-- A callback that is scheduled and has not finished. -/
def Thread.unfinished : Thread → Nat
  | .doWork (.queued _) => 1
  | .doWork (.running _) => 1
  | .doWork .notify => 1
  | _ => 0

/-- A callback that has thrown. -/
def Thread.lost : Thread → Nat
  | .doWork .threw => 1
  | _ => 0

def Thread.held (th : Thread) : Nat := th.unfinished + th.taken + th.lost

section State

variable (s : State)

def free : Nat := (s.sems ()).concurrency

def unfinished : Nat := total Thread.unfinished s.threads

def taken : Nat := total Thread.taken s.threads

def lost : Nat := total Thread.lost s.threads

end State

theorem total_queued (cbs : List Exit) :
    total Thread.held (cbs.map fun cb => .doWork (.queued cb)) = cbs.length := by
  induction cbs with
  | nil => rfl
  | cons cb cbs ih =>
      rw [List.map_cons, total_cons, ih, List.length_cons]
      exact Nat.add_comm ..

theorem holds_held (batch_size : Nat) : (program batch_size).Holds () Thread.held where
  wait := by
    intro finish ch th k blocked acquired h
    rcases next_wait h with ⟨_, _, _, _, _, rfl, rfl, rfl⟩ | ⟨_, _, _, -, rfl, rfl, rfl⟩
    · simp [Thread.held, Thread.unfinished, Thread.taken, Thread.lost, Nat.add_assoc]
    · simp [Thread.held, Thread.unfinished, Thread.taken, Thread.lost, Nat.add_assoc]
  notify := by
    intro finish ch th k after h
    obtain ⟨rfl, rfl⟩ := next_notify h
    rfl
  tau := by
    intro finish ch th finish' after spawned h
    cases next_tau h with
    | schedule =>
        rw [total_queued]
        simp [Thread.held, Thread.unfinished, Thread.taken, Thread.lost]
    | _ => rfl
  wake := by
    intro th k h
    replace h : th.waiting = some k := h
    unfold Thread.waiting at h
    split at h
    · simp [program, Thread.wake, Thread.held, Thread.unfinished, Thread.taken, Thread.lost,
        Nat.add_assoc]
    · simp [program, Thread.wake, Thread.held, Thread.unfinished, Thread.taken, Thread.lost,
        Nat.add_assoc]
    · cases h

/-- The client is the first fiber, and there is no other. -/
def Placed (_ : Bool) (j : Nat) : Thread → Prop
  | .client .. => j = 0
  | .doWork _ => 0 < j

theorem keeps_placed (batch_size : Nat) : (program batch_size).Keeps Placed where
  wait := by
    intro finish ch j th k blocked acquired hj h
    rcases next_wait h with ⟨_, _, _, _, _, rfl, rfl, rfl⟩ | ⟨_, _, _, -, rfl, rfl, rfl⟩
    · exact ⟨hj, hj⟩
    · exact ⟨hj, hj⟩
  notify := by
    intro finish ch j th k after hj h
    obtain ⟨rfl, rfl⟩ := next_notify h
    exact hj
  tau := by
    intro finish ch j th finish' after spawned hj h
    cases next_tau h with
    | schedule =>
        refine ⟨hj, fun th' hth' l hl => ?_, fun _ hl => hl⟩
        obtain ⟨cb, -, rfl⟩ := List.mem_map.mp hth'
        exact Nat.zero_lt_of_lt hl
    | _ => exact ⟨hj, by simp, fun _ hl => hl⟩
  wake := by
    intro finish j th k hj h
    replace h : th.waiting = some k := h
    unfold Thread.waiting at h
    split at h
    · exact hj
    · exact hj
    · cases h

/-- What holds in every reachable state. -/
structure Structured (batch_size : Nat) (s : State) : Prop where
  wellFormed : (program batch_size).WellFormed s
  placed : Program.Entries Placed s
  balance : free s + total Thread.held s.threads = batch_size

section Reachable

variable {batch_size : Nat} {calls : List Call} {s s' : State} {i : Nat}

theorem structured_init (batch_size : Nat) (calls : List Call) :
    Structured batch_size (init batch_size calls) where
  wellFormed := by
    refine ⟨fun _ => List.nodup_nil, fun k j => ?_, fun _ _ => rfl⟩
    cases j with
    | zero => simp [init, FiberSemaphore.new, Program.waitsOn, program, Thread.waiting]
    | succ j => simp [init, FiberSemaphore.new, Program.waitsOn]
  placed j th hj := by
    cases j with
    | zero =>
        obtain rfl : Thread.client .idle 0 calls = th := Option.some.inj hj
        rfl
    | succ j => simp [init] at hj
  balance := rfl

theorem Structured.step (hs : Structured batch_size s) (h : step batch_size s i = some s') :
    Structured batch_size s' := by
  have hmoves := (program batch_size).moves_of_run h
  exact ⟨hmoves.wellFormed hs.wellFormed,
    hmoves.entries hs.wellFormed (keeps_placed batch_size) hs.placed,
    (hmoves.balance hs.wellFormed (holds_held batch_size)).trans hs.balance⟩

theorem Reachable.structured (h : Reachable batch_size calls s) : Structured batch_size s :=
  Reach.invariant (structured_init batch_size calls) (fun _ hs _ hstep => hs.step hstep) h

theorem Reachable.step (h : Reachable batch_size calls s) (hstep : step batch_size s i = some s') :
    Reachable batch_size calls s' :=
  Reach.step h trivial hstep

/-- The permits are free, held for callbacks that have not finished, taken by calls, or lost. -/
theorem Structured.free_add (hs : Structured batch_size s) :
    free s + unfinished s + taken s + lost s = batch_size := by
  have hbalance := hs.balance
  have hheld : total Thread.held s.threads = unfinished s + taken s + lost s := by
    rw [unfinished, taken, lost, ← total_add, ← total_add]
    rfl
  omega

/-- The permits taken by calls are those the client has taken. -/
theorem Structured.taken_eq (hs : Structured batch_size s) {th : Thread}
    (hclient : s.threads[0]? = some th) : taken s = th.taken := by
  refine total_eq_single hclient fun j th' hne hj => ?_
  have hplaced := hs.placed j th' hj
  cases th' with
  | client => exact absurd hplaced hne
  | doWork => rfl

/-- Nobody but the client ever waits. -/
theorem Structured.waiters_nil (hs : Structured batch_size s) {th : Thread}
    (hclient : s.threads[0]? = some th) (hrunning : th.waiting = none) :
    (s.sems ()).waiters = [] := by
  cases hwaiters : (s.sems ()).waiters with
  | nil => rfl
  | cons j rest =>
      obtain ⟨th', hj, hwaiting⟩ := hs.wellFormed.first_waiter hwaiters
      have hplaced := hs.placed j th' hj
      cases th' with
      | client pc kept calls =>
          obtain rfl : j = 0 := hplaced
          obtain rfl := Option.some.inj (hclient.symm.trans hj)
          exact absurd hwaiting (by simp [program, hrunning])
      | doWork => cases hwaiting

end Reachable

end WorkerGroup
end Routn
