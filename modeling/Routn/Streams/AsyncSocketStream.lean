import Routn.FiberSync
import Routn.Foundation.Transition

/-!
# `AsyncSocketStream`: starting, reading, writing and closing

The fibers of one stream: calls of `start`, `enqueue` and `innerClose`, and the reader and writer
fibers that `start` schedules.  They share `_waitSem`, which holds two permits, the queue of the
writer with its semaphore `_sem`, and the state of the socket.

* `next` is the code, cut at every semaphore operation and every section under a lock.  A started
  fiber counts from the moment it is scheduled.
* `Choice` is what the environment decides: whether the socket connects, what the connect callback
  returns, how `doRecv` and `doSend` end.  Neither callback throws.
* The contexts of the queue are numbered in the order in which `enqueue` appends them.
* What `innerClose` does to the contexts of outstanding requests is modelled in `Completion`.
-/

namespace Routn
namespace AsyncSocketStream

open Foundation
open Fibers

inductive Semaphore
  | sem
  | waitSem
deriving DecidableEq, Repr

inductive Choice
  | success
  | failure
  | exception
deriving DecidableEq, Repr

/-- The data members.  `timers` are the armed timers whose callback is `start`; `sent` lists the
calls of `doSend`, the last one last. -/
structure Shared where
  queue : List Nat
  connected : Bool
  autoConnect : Bool
  timer : Option Nat
  timers : List Nat
  timerCount : Nat
  enqueued : Nat
  sent : List Nat
deriving DecidableEq, Repr

namespace Shared

/-- `if(_timer){ _timer->cancel(); _timer = nullptr; }` -/
def cancelTimer (sh : Shared) : Shared :=
  match sh.timer with
  | some t => { sh with timers := sh.timers.erase t, timer := none }
  | none => sh

/-- `_ioMgr->addTimer(.., start)`. -/
def addTimer (sh : Shared) : Shared :=
  { sh with timers := sh.timerCount :: sh.timers, timerCount := sh.timerCount + 1 }

end Shared

/-- `start`.  The first eight points are inside `waitFiber`, `both` is after it. -/
inductive StartPc
  | enter
  | blocked1
  | woken1
  | first
  | blocked2
  | woken2
  | both
  | connect
  | callback
  | notify1
  | notify2
  | startRead
  | startWrite
  | retry
deriving DecidableEq, Repr

inductive ReadPc
  | top
  | recv
  | notify
  | retry
deriving DecidableEq, Repr

/-- `doWrite`; `sending` has the contexts of the local list that are still to be sent. -/
inductive WritePc
  | top
  | wait
  | blocked
  | woken
  | swap
  | sending (ctxs : List Nat)
  | clear
  | notify
deriving DecidableEq, Repr

inductive EnqueuePc
  | push
  | notify (ctx : Nat)
deriving DecidableEq, Repr

inductive ClosePc
  | close
  | notify
  | clear
deriving DecidableEq, Repr

/-- Who called `innerClose`. -/
inductive Caller
  | start
  | doRecv
  | doRead
  | doWrite
  | other
deriving DecidableEq, Repr

inductive Thread
  | start (pc : StartPc)
  | doRead (pc : ReadPc)
  | doWrite (pc : WritePc)
  | enqueue (pc : EnqueuePc)
  | innerClose (pc : ClosePc) (caller : Caller)
  | done
deriving DecidableEq, Repr

/-- Where the caller goes on after `innerClose`. -/
def Caller.resume : Caller → Thread
  | .start => .start .notify1
  | .doRecv => .doRead .top
  | .doRead => .doRead .notify
  | .doWrite => .doWrite .top
  | .other => .done

/-- The next section of a fiber. -/
def next (sh : Shared) (ch : Choice) : Thread → Option (Stmt Semaphore Shared Thread)
  -- `waitFiber`
  | .start .enter => some (.wait .waitSem (.start .blocked1) (.start .first))
  | .start .blocked1 => none
  | .start .woken1 => some (.tau sh (.start .first) [])
  | .start .first => some (.wait .waitSem (.start .blocked2) (.start .both))
  | .start .blocked2 => none
  | .start .woken2 => some (.tau sh (.start .both) [])
  -- the body of `start`
  | .start .both => some (.tau sh.cancelTimer (.start .connect) [])
  | .start .connect =>
      if sh.connected then some (.tau sh (.start .callback) [])
      else if ch = .success then some (.tau { sh with connected := true } (.start .callback) [])
      else some (.tau sh (.innerClose .close .start) [])
  | .start .callback =>
      if ch = .success then some (.tau sh (.start .startRead) [])
      else some (.tau sh (.innerClose .close .start) [])
  | .start .notify1 => some (.notify .waitSem (.start .notify2))
  | .start .notify2 => some (.notify .waitSem (.start .retry))
  | .start .startRead => some (.tau sh (.start .startWrite) [.doRead .top])
  | .start .startWrite => some (.tau sh .done [.doWrite .top])
  | .start .retry =>
      if sh.autoConnect then
        some (.tau { sh.cancelTimer.addTimer with timer := some sh.timerCount } .done [])
      else some (.tau sh .done [])
  | .doRead .top =>
      if sh.connected then some (.tau sh (.doRead .recv) [])
      else some (.tau sh (.innerClose .close .doRead) [])
  | .doRead .recv =>
      match ch with
      | .success => some (.tau sh (.doRead .top) [])
      -- `doRecv` could not parse the frame
      | .failure => some (.tau sh (.innerClose .close .doRecv) [])
      | .exception => some (.tau sh (.innerClose .close .doRead) [])
  | .doRead .notify => some (.notify .waitSem (.doRead .retry))
  | .doRead .retry => some (.tau (if sh.autoConnect then sh.addTimer else sh) .done [])
  | .doWrite .top =>
      if sh.connected then some (.tau sh (.doWrite .wait) [])
      else some (.tau sh (.doWrite .clear) [])
  | .doWrite .wait => some (.wait .sem (.doWrite .blocked) (.doWrite .swap))
  | .doWrite .blocked => none
  | .doWrite .woken => some (.tau sh (.doWrite .swap) [])
  -- `_queue.swap(ctxs)` with an empty local list
  | .doWrite .swap => some (.tau { sh with queue := [] } (.doWrite (.sending sh.queue)) [])
  | .doWrite (.sending []) => some (.tau sh (.doWrite .top) [])
  | .doWrite (.sending (ctx :: rest)) =>
      let sh' := { sh with sent := sh.sent ++ [ctx] }
      match ch with
      | .success => some (.tau sh' (.doWrite (.sending rest)) [])
      | .failure => some (.tau sh' (.innerClose .close .doWrite) [])
      | .exception => some (.tau sh' (.doWrite .clear) [])
  | .doWrite .clear => some (.tau { sh with queue := [] } (.doWrite .notify) [])
  | .doWrite .notify => some (.notify .waitSem .done)
  | .enqueue .push =>
      let ctx := sh.enqueued
      some (.tau { sh with queue := sh.queue ++ [ctx], enqueued := ctx + 1 }
        -- only the first context of a queue is announced
        (if sh.queue = [] then .enqueue (.notify ctx) else .done) [])
  | .enqueue (.notify _) => some (.notify .sem .done)
  | .innerClose .close caller =>
      some (.tau { sh with connected := false } (.innerClose .notify caller) [])
  | .innerClose .notify caller => some (.notify .sem (.innerClose .clear caller))
  -- whatever was enqueued since is dropped with the rest
  | .innerClose .clear caller => some (.tau { sh with queue := [] } caller.resume [])
  | .done => none

/-- The semaphore a fiber is blocked on. -/
def Thread.waiting : Thread → Option Semaphore
  | .start .blocked1 => some .waitSem
  | .start .blocked2 => some .waitSem
  | .doWrite .blocked => some .sem
  | _ => none

def Thread.wake : Thread → Thread
  | .start .blocked1 => .start .woken1
  | .start .blocked2 => .start .woken2
  | .doWrite .blocked => .doWrite .woken
  | th => th

@[simp] theorem waiting_resume (caller : Caller) : caller.resume.waiting = none := by
  cases caller <;> rfl

section Next

variable {sh sh' : Shared} {ch : Choice} {th after : Thread} {spawned : List Thread}

/-- The calls of `wait`. -/
theorem next_wait {k : Semaphore} {blocked acquired : Thread}
    (h : next sh ch th = some (.wait k blocked acquired)) :
    (th = .start .enter ∧ k = .waitSem ∧ blocked = .start .blocked1 ∧
        acquired = .start .first) ∨
      (th = .start .first ∧ k = .waitSem ∧ blocked = .start .blocked2 ∧
        acquired = .start .both) ∨
      (th = .doWrite .wait ∧ k = .sem ∧ blocked = .doWrite .blocked ∧
        acquired = .doWrite .swap) := by
  unfold next at h
  split at h <;> (repeat' split at h) <;> cases h <;> simp

/-- The calls of `notify`. -/
theorem next_notify {k : Semaphore} (h : next sh ch th = some (.notify k after)) :
    (k = .waitSem ∧
        ((th = .start .notify1 ∧ after = .start .notify2) ∨
          (th = .start .notify2 ∧ after = .start .retry) ∨
          (th = .doRead .notify ∧ after = .doRead .retry) ∨
          (th = .doWrite .notify ∧ after = .done))) ∨
      (k = .sem ∧
        ((∃ ctx, th = .enqueue (.notify ctx) ∧ after = .done) ∨
          ∃ caller, th = .innerClose .notify caller ∧ after = .innerClose .clear caller)) := by
  unfold next at h
  split at h <;> (repeat' split at h) <;> cases h <;> simp

/-- No other section blocks, and only `startRead` and `startWrite` start fibers. -/
theorem next_tau (h : next sh ch th = some (.tau sh' after spawned)) :
    th.waiting = none ∧ after.waiting = none ∧ ∀ th' ∈ spawned, th'.waiting = none := by
  unfold next at h
  split at h <;> (repeat' split at h) <;> cases h <;> simp [Thread.waiting]
  exact waiting_resume _

end Next

def program : Program Semaphore Shared Choice Thread where
  next := next
  waiting := Thread.waiting
  wake := Thread.wake
  next_of_waiting := by
    intro sh ch th k h
    unfold Thread.waiting at h
    split at h
    · rfl
    · rfl
    · rfl
    · cases h
  next_wait := by
    intro sh ch th k blocked acquired h
    rcases next_wait h with ⟨-, rfl, rfl, rfl⟩ | ⟨-, rfl, rfl, rfl⟩ | ⟨-, rfl, rfl, rfl⟩
    · exact ⟨rfl, rfl⟩
    · exact ⟨rfl, rfl⟩
    · exact ⟨rfl, rfl⟩
  next_notify := by
    intro sh ch th k after h
    rcases next_notify h with ⟨-, h | h | h | h⟩ | ⟨-, ⟨ctx, h⟩ | ⟨caller, h⟩⟩ <;>
      · obtain ⟨-, rfl⟩ := h
        rfl
  next_tau := fun h => (next_tau h).2
  waiting_wake := by
    intro th
    cases th with
    | start pc => cases pc <;> rfl
    | doWrite pc => cases pc <;> rfl
    | _ => rfl

/-! ## The stream -/

abbrev State := Fibers.State Semaphore Shared Thread

/-- The constructor: two permits in `_waitSem`, none in `_sem`. -/
def init (connected autoConnect : Bool) : State where
  sems
    | .sem => .new 0
    | .waitSem => .new 2
  shared := ⟨[], connected, autoConnect, none, [], 0, 0, []⟩
  threads := []

inductive Action
  /-- A call of `start`, `enqueue` or `innerClose` from outside. -/
  | start
  | enqueue
  | innerClose
  /-- A timer calls `start`. -/
  | expire (timer : Nat)
  | close
  | setAutoConnect (v : Bool)
  | run (i : Nat) (ch : Choice)
deriving DecidableEq, Repr

/-- A fiber enters the code of the stream. -/
def spawn (s : State) (shared : Shared) (th : Thread) : State :=
  { s with shared := shared, threads := s.threads ++ [th] }

def step (s : State) : Action → Option State
  | .start => some (spawn s s.shared (.start .enter))
  | .enqueue => some (spawn s s.shared (.enqueue .push))
  | .innerClose => some (spawn s s.shared (.innerClose .close .other))
  | .expire t =>
      if t ∈ s.shared.timers then
        some (spawn s { s.shared with timers := s.shared.timers.erase t } (.start .enter))
      else none
  | .close =>
      -- the pointer `_timer` stays set
      let timers := s.shared.timer.elim s.shared.timers s.shared.timers.erase
      some { s with
        shared := { s.shared with connected := false, autoConnect := false, timers := timers } }
  | .setAutoConnect v => some { s with shared := { s.shared with autoConnect := v } }
  | .run i ch => program.run s i ch

/-- The states a stream can reach. -/
abbrev Reachable (connected autoConnect : Bool) : State → Prop :=
  Reach (init connected autoConnect) step fun _ _ => True

section Step

variable {s s' : State} {a : Action}

/-- A step lets a fiber enter, changes members that no fiber waits for, or lets a fiber run. -/
theorem step_cases (h : step s a = some s') :
    (∃ sh th, s' = spawn s sh th ∧ th ∈ [.start .enter, .enqueue .push, .innerClose .close .other] ∧
        sh.queue = s.shared.queue ∧ sh.enqueued = s.shared.enqueued ∧ sh.sent = s.shared.sent) ∨
      (∃ sh, s' = { s with shared := sh } ∧
        sh.queue = s.shared.queue ∧ sh.enqueued = s.shared.enqueued ∧ sh.sent = s.shared.sent) ∨
      ∃ i ch, a = .run i ch ∧ program.Moves s i ch s' := by
  cases a with
  | start =>
      obtain rfl := Option.some.inj h
      exact .inl ⟨_, _, rfl, by simp, rfl, rfl, rfl⟩
  | enqueue =>
      obtain rfl := Option.some.inj h
      exact .inl ⟨_, _, rfl, by simp, rfl, rfl, rfl⟩
  | innerClose =>
      obtain rfl := Option.some.inj h
      exact .inl ⟨_, _, rfl, by simp, rfl, rfl, rfl⟩
  | expire t =>
      simp only [step] at h
      split at h
      · obtain rfl := Option.some.inj h
        exact .inl ⟨_, _, rfl, by simp, rfl, rfl, rfl⟩
      · cases h
  | close =>
      obtain rfl := Option.some.inj h
      exact .inr (.inl ⟨_, rfl, rfl, rfl, rfl⟩)
  | setAutoConnect v =>
      obtain rfl := Option.some.inj h
      exact .inr (.inl ⟨_, rfl, rfl, rfl, rfl⟩)
  | run i ch => exact .inr (.inr ⟨i, ch, rfl, Program.moves_of_run program h⟩)

theorem init_wellFormed (connected autoConnect : Bool) :
    program.WellFormed (init connected autoConnect) where
  nodup k := by cases k <;> simp [init, FiberSemaphore.new]
  mem_waiters k j := by cases k <;> simp [init, FiberSemaphore.new, Program.waitsOn]
  free k _ := by cases k <;> rfl

/-- The waiter lists are right in every state. -/
theorem step_wellFormed (hs : program.WellFormed s) (h : step s a = some s') :
    program.WellFormed s' := by
  rcases step_cases h with ⟨sh, th, rfl, hth, -⟩ | ⟨sh, rfl, -⟩ | ⟨i, ch, -, hmoves⟩
  · refine hs.spawn sh ?_
    fin_cases hth <;> rfl
  · exact ⟨hs.nodup, hs.mem_waiters, hs.free⟩
  · exact hmoves.wellFormed hs

end Step

end AsyncSocketStream
end Routn
