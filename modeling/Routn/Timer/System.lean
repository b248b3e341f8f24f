import Mathlib.Logic.Function.Basic
import Routn.Foundation.Transition
import Routn.Timer.Basic

/-!
# Threads that use one `TimerManager`

The critical sections of `_mutex` are atomic, and so is what a thread does before it asks for the
lock.  A thread that is between two of these steps is at a `Point`:

* `addTimer` constructs the timer, which reads the clock, inserts it under the lock, and calls
  `onTimerInsertedAtFront` after the lock has been released when the timer was at the front;
* `reset` compares the periods before it takes the lock, and may call `onTimerInsertedAtFront` too;
* `listExpiredCb` reads the clock, looks at `_timers` under the read lock, and cuts the expired
  timers off under the write lock.

The address of a timer is chosen when it goes into `_timers` for the first time: until then nobody
else can see it.
-/

namespace Routn

open Foundation

namespace TimerManager

inductive Point
  | idle
  /-- `addTimer` has constructed the timer. -/
  | adding (timer : Timer)
  /-- `reset` has not skipped. -/
  | resetting (t : Nat) (ms : UInt64) (from_now : Bool)
  /-- `t` was inserted at the front after so many calls of `getNextTimer`, and
  `onTimerInsertedAtFront` has not been called yet. -/
  | inserted (t calls : Nat)
  /-- `listExpiredCb` has read the clock. -/
  | sampled (now_ms : UInt64)
  /-- `listExpiredCb` has seen that `_timers` is not empty. -/
  | nonEmpty (now_ms : UInt64)
deriving DecidableEq, Repr

inductive Call
  | addTimer (ms : UInt64) (cb : Option Nat) (recurring : Bool)
  | refresh (t : Nat)
  | cancel (t : Nat)
  | reset (t : Nat) (ms : UInt64) (from_now : Bool)
  | listExpiredCb
  | getNextTimer
deriving DecidableEq, Repr

inductive Action
  /-- The clock goes on. -/
  | tick (now : UInt64)
  | call (thread : Nat) (c : Call)
  /-- A thread goes on from the point where it is.  The address is that of the timer that it
  publishes, or of `now_timer`. -/
  | resume (thread : Nat) (address : Nat)
deriving DecidableEq, Repr

/-- A callback that `listExpiredCb` has handed out. -/
structure Handed where
  timer : Nat
  /-- `_next` of the timer when it was taken out. -/
  deadline : UInt64
  clock : UInt64
deriving DecidableEq, Repr

/-- The last four fields are a record. -/
structure System where
  manager : TimerManager
  clock : UInt64
  threads : List Point
  /-- The timers that others can have a pointer to. -/
  objects : List Nat
  handed : List Handed
  /-- How often `getNextTimer` has been called. -/
  calls : Nat
  /-- The deadline that the last call has reported; `none` when it has returned `~0ull`. -/
  reported : Option UInt64
  /-- `onTimerInsertedAtFront` has been called since then. -/
  notified : Bool

namespace System

/-- The clock shows `now`, and no thread is in an operation. -/
def init (now : UInt64) (threads : Nat) : System :=
  ⟨TimerManager.new now, now, List.replicate threads .idle, [], [], 0, none, false⟩

def goto (s : System) (thread : Nat) (point : Point) : System :=
  { s with threads := s.threads.set thread point }

/-- What `addTimer(val, lock)` does after `lock.unlock()`. -/
def unlock (s : System) (thread : Nat) (t : Nat) (at_front : Bool) : System :=
  s.goto thread (if at_front then .inserted t s.calls else .idle)

/-- The first step of an operation. -/
def call (s : System) (thread : Nat) : Call → Option System
  | .addTimer ms cb recurring =>
      some (s.goto thread (.adding (Timer.new ms cb recurring s.clock)))
  | .refresh t =>
      if t ∈ s.objects then some { s with manager := (s.manager.refresh t s.clock).2 } else none
  | .cancel t =>
      if t ∈ s.objects then
        (s.manager.cancel t).map fun answer => { s with manager := answer.2 }
      else none
  | .reset t ms from_now =>
      if t ∈ s.objects then
        some (if s.manager.resetSkips t ms from_now then s
          else s.goto thread (.resetting t ms from_now))
      else none
  | .listExpiredCb => some (s.goto thread (.sampled s.clock))
  | .getNextTimer =>
      some { s with
        manager := (s.manager.getNextTimer s.clock).2
        calls := s.calls + 1
        reported := s.manager.timers.head?.map fun next => (s.manager.timer next).next
        notified := false }

/-- The next step of a thread that is in an operation. -/
def resume (s : System) (thread address : Nat) : Point → Option System
  | .idle => none
  | .adding timer =>
      if address ∈ s.objects then none
      else
        let (at_front, m) := (s.manager.setTimer address timer).addTimer address
        some ({ s with manager := m, objects := address :: s.objects }.unlock thread address
          at_front)
  | .resetting t ms from_now =>
      let (_, at_front, m) := s.manager.reset t ms from_now s.clock
      some ({ s with manager := m }.unlock thread t at_front)
  | .inserted _ _ => some ({ s with notified := true }.goto thread .idle)
  | .sampled now_ms =>
      some (s.goto thread (if s.manager.timers.isEmpty then .idle else .nonEmpty now_ms))
  | .nonEmpty now_ms =>
      let (expired, _, m) := s.manager.listExpiredCb now_ms address
      some ({ s with
        manager := m
        handed := s.handed ++
          expired.map fun t => Handed.mk t (s.manager.timer t).next s.clock }.goto thread .idle)

def step (s : System) : Action → Option System
  | .tick now => if s.clock ≤ now then some { s with clock := now } else none
  | .call thread c => if s.threads[thread]? = some .idle then s.call thread c else none
  | .resume thread address => s.threads[thread]?.bind (s.resume thread address)

/-- The ways in which a step can go. -/
inductive Moves (s : System) : Action → System → Prop
  | tick {now : UInt64} (h : s.clock ≤ now) : Moves s (.tick now) { s with clock := now }
  /-- A thread goes to another point and touches nothing else. -/
  | goto {a : Action} {thread : Nat} {before after : Point}
      (hbefore : s.threads[thread]? = some before) (hquiet : ∀ t calls, before ≠ .inserted t calls)
      (hafter : after = .idle ∨ (∃ t ms from_now, after = .resetting t ms from_now) ∨
        (∃ ms cb recurring, after = .adding (Timer.new ms cb recurring s.clock)) ∨
        (after = .sampled s.clock) ∨
        ∃ now_ms, before = .sampled now_ms ∧ after = .nonEmpty now_ms) :
      Moves s a (s.goto thread after)
  | stay {a : Action} : Moves s a s
  | refresh {thread t : Nat} :
      Moves s (.call thread (.refresh t)) { s with manager := (s.manager.refresh t s.clock).2 }
  | cancel {thread t : Nat} {answer : Bool × TimerManager} (h : s.manager.cancel t = some answer) :
      Moves s (.call thread (.cancel t)) { s with manager := answer.2 }
  | getNextTimer {thread : Nat} :
      Moves s (.call thread .getNextTimer) { s with
        manager := (s.manager.getNextTimer s.clock).2
        calls := s.calls + 1
        reported := s.manager.timers.head?.map fun next => (s.manager.timer next).next
        notified := false }
  | publish {thread address : Nat} {timer : Timer}
      (hbefore : s.threads[thread]? = some (.adding timer)) (hnew : address ∉ s.objects) :
      Moves s (.resume thread address)
        ({ s with
          manager := ((s.manager.setTimer address timer).addTimer address).2
          objects := address :: s.objects }.unlock thread address
            ((s.manager.setTimer address timer).addTimer address).1)
  | reset {thread address t : Nat} {ms : UInt64} {from_now : Bool}
      (hbefore : s.threads[thread]? = some (.resetting t ms from_now)) :
      Moves s (.resume thread address)
        ({ s with manager := (s.manager.reset t ms from_now s.clock).2.2 }.unlock thread t
          (s.manager.reset t ms from_now s.clock).2.1)
  | notify {thread address t calls : Nat}
      (hbefore : s.threads[thread]? = some (.inserted t calls)) :
      Moves s (.resume thread address) ({ s with notified := true }.goto thread .idle)
  | listExpired {thread address : Nat} {now_ms : UInt64}
      (hbefore : s.threads[thread]? = some (.nonEmpty now_ms)) :
      Moves s (.resume thread address) ({ s with
        manager := (s.manager.listExpiredCb now_ms address).2.2
        handed := s.handed ++ (s.manager.listExpiredCb now_ms address).1.map fun t =>
          Handed.mk t (s.manager.timer t).next s.clock }.goto thread .idle)

/-- Every step is one of these. -/
theorem moves_of_step {s s' : System} {a : Action} (h : s.step a = some s') : s.Moves a s' := by
  cases a with
  | tick now =>
      simp only [step, Option.ite_none_right_eq_some, Option.some.injEq] at h
      obtain ⟨hle, rfl⟩ := h
      exact .tick hle
  | call thread c =>
      simp only [step, Option.ite_none_right_eq_some] at h
      obtain ⟨hidle, h⟩ := h
      cases c with
      | addTimer ms cb recurring =>
          obtain rfl := Option.some.inj h
          exact .goto hidle (by simp) (.inr (.inr (.inl ⟨ms, cb, recurring, rfl⟩)))
      | refresh t =>
          simp only [call, Option.ite_none_right_eq_some, Option.some.injEq] at h
          obtain ⟨-, rfl⟩ := h
          exact .refresh
      | cancel t =>
          simp only [call, Option.ite_none_right_eq_some, Option.map_eq_some_iff] at h
          obtain ⟨-, answer, hanswer, rfl⟩ := h
          exact .cancel hanswer
      | reset t ms from_now =>
          simp only [call, Option.ite_none_right_eq_some, Option.some.injEq] at h
          obtain ⟨-, rfl⟩ := h
          split
          · exact .stay
          · exact .goto hidle (by simp) (.inr (.inl ⟨t, ms, from_now, rfl⟩))
      | listExpiredCb =>
          obtain rfl := Option.some.inj h
          exact .goto hidle (by simp) (.inr (.inr (.inr (.inl rfl))))
      | getNextTimer =>
          obtain rfl := Option.some.inj h
          exact .getNextTimer
  | resume thread address =>
      simp only [step, Option.bind_eq_some_iff] at h
      obtain ⟨point, hpoint, h⟩ := h
      cases point with
      | idle => cases h
      | adding timer =>
          simp only [resume, Option.ite_none_left_eq_some, Option.some.injEq] at h
          obtain ⟨hnew, rfl⟩ := h
          exact .publish hpoint hnew
      | resetting t ms from_now =>
          obtain rfl := Option.some.inj h
          exact .reset hpoint
      | inserted t calls =>
          obtain rfl := Option.some.inj h
          exact .notify hpoint
      | sampled now_ms =>
          obtain rfl := Option.some.inj h
          refine .goto hpoint (by simp) ?_
          split
          · exact .inl rfl
          · exact .inr (.inr (.inr (.inr ⟨now_ms, rfl, rfl⟩)))
      | nonEmpty now_ms =>
          obtain rfl := Option.some.inj h
          exact .listExpired hpoint

end System
end TimerManager
end Routn
