import Routn.Foundation.OrderedSet

/-!
# `Timer` and `TimerManager`

A timer is its address, and `TimerManager.timer` is the memory: addresses of objects that are gone
may hold anything, since nobody has a pointer to them.  Each operation here is one critical section
of `_mutex`; the value of `GetCurrentMs()` that it reads, or was given, is an argument.
Milliseconds are `uint64_t`, so sums wrap around.
-/

namespace Routn

open Foundation

/-- `_callback` is the name of a function, `none` when it is null.  `_manager` is the manager that
the operations are about. -/
structure Timer where
  recurring : Bool
  ms : UInt64
  next : UInt64
  callback : Option Nat
deriving DecidableEq, Repr

namespace Timer

/-- The constructor, when the clock shows `now`. -/
def new (ms : UInt64) (cb : Option Nat) (recurring : Bool) (now : UInt64) : Timer :=
  ⟨recurring, ms, now + ms, cb⟩

/-- `Timer::Comparator`, on the pairs of `_next` and address. -/
def comparator (lhs rhs : UInt64 × Nat) : Bool :=
  if lhs.1 < rhs.1 then true
  else if rhs.1 < lhs.1 then false
  else lhs.2 < rhs.2

theorem next_le_of_comparator {lhs rhs : UInt64 × Nat} (h : comparator lhs rhs = true) :
    lhs.1 ≤ rhs.1 := by
  simp only [comparator] at h
  split at h
  · next hlt => exact UInt64.le_of_lt hlt
  · split at h
    · cases h
    · next hge => exact UInt64.not_lt.mp hge

/-- The order by `_next`, and by address among timers that are due at the same time. -/
theorem comparator_iff {lhs rhs : UInt64 × Nat} :
    comparator lhs rhs = true ↔ lhs.1 < rhs.1 ∨ lhs.1 = rhs.1 ∧ lhs.2 < rhs.2 := by
  simp only [comparator, UInt64.lt_iff_toNat_lt, ← UInt64.toNat_inj]
  split
  · next hlt => simp [hlt]
  · split
    · next hlt hgt => simp only [Bool.false_eq_true, false_iff]; omega
    · next hge hle =>
        have heq : lhs.1.toNat = rhs.1.toNat := by omega
        simp [heq]

theorem comparator_strictOrder : StrictOrder comparator where
  irrefl key := by simp [comparator]
  trans {i j k} hij hjk := by
    simp only [comparator_iff, UInt64.lt_iff_toNat_lt, ← UInt64.toNat_inj] at hij hjk ⊢
    omega
  connected {i j} hij hji := by
    have hij' : ¬ comparator i j = true := by simp [hij]
    have hji' : ¬ comparator j i = true := by simp [hji]
    simp only [comparator_iff, UInt64.lt_iff_toNat_lt, ← UInt64.toNat_inj] at hij' hji'
    exact Prod.ext (UInt64.toNat_inj.mp (by omega)) (by omega)

end Timer

/-- `_timers` holds the addresses in the order of the set. -/
structure TimerManager where
  timer : Nat → Timer
  timers : List Nat
  tickled : Bool
  previousTime : UInt64

namespace TimerManager

/-- The constructor, when the clock shows `now`. -/
def new (now : UInt64) : TimerManager :=
  ⟨fun _ => ⟨false, 0, 0, none⟩, [], false, now⟩

def key (m : TimerManager) (t : Nat) : UInt64 × Nat := ((m.timer t).next, t)

def setTimer (m : TimerManager) (t : Nat) (timer : Timer) : TimerManager :=
  { m with timer := Function.update m.timer t timer }

/-! ## `_timers` -/

def find (m : TimerManager) (t : Nat) : Option Nat :=
  OrderedSet.find Timer.comparator m.key (m.key t) m.timers

def erase (m : TimerManager) (t : Nat) : TimerManager :=
  { m with timers := OrderedSet.erase Timer.comparator m.key (m.key t) m.timers }

def insert (m : TimerManager) (t : Nat) : TimerManager :=
  { m with timers := OrderedSet.insert Timer.comparator m.key t m.timers }

/-! ## Operations -/

/-- `addTimer(val, lock)` up to `lock.unlock()`.  `true`: `onTimerInsertedAtFront` comes next. -/
def addTimer (m : TimerManager) (val : Nat) : Bool × TimerManager :=
  let m := m.insert val
  let at_front := m.timers.head? == some val && !m.tickled
  (at_front, if at_front then { m with tickled := true } else m)

/-- `Timer::refresh`. -/
def refresh (m : TimerManager) (t : Nat) (now : UInt64) : Bool × TimerManager :=
  if (m.timer t).callback.isNone then (false, m)
  else
    match m.find t with
    | none => (false, m)
    | some _ =>
        let m := m.erase t
        let m := m.setTimer t { m.timer t with next := now + (m.timer t).ms }
        (true, m.insert t)

/-- `Timer::cancel`.  `none`: the timer has a callback and is not in the set, and `erase(end())` is
undefined. -/
def cancel (m : TimerManager) (t : Nat) : Option (Bool × TimerManager) :=
  if (m.timer t).callback.isNone then some (false, m)
  else
    let m := m.setTimer t { m.timer t with callback := none }
    match m.find t with
    | none => none
    | some _ => some (true, m.erase t)

/-- The test of `Timer::reset` in front of the lock. -/
def resetSkips (m : TimerManager) (t : Nat) (ms : UInt64) (from_now : Bool) : Bool :=
  ms == (m.timer t).ms && !from_now

/-- `Timer::reset` under the lock.  The second answer is `at_front` of `addTimer`. -/
def reset (m : TimerManager) (t : Nat) (ms : UInt64) (from_now : Bool) (now : UInt64) :
    Bool × Bool × TimerManager :=
  if (m.timer t).callback.isNone then (false, false, m)
  else
    match m.find t with
    | none => (false, false, m)
    | some _ =>
        let m := m.erase t
        let start := if from_now then now else (m.timer t).next - (m.timer t).ms
        let m := m.setTimer t { m.timer t with ms := ms, next := start + ms }
        (true, m.addTimer t)

/-- `getNextTimer`. -/
def getNextTimer (m : TimerManager) (now_ms : UInt64) : UInt64 × TimerManager :=
  let m := { m with tickled := false }
  match m.timers with
  | [] => (~~~0, m)
  | next :: _ =>
      if (m.timer next).next ≤ now_ms then (0, m) else ((m.timer next).next - now_ms, m)

/-- The test of `detectClockRollover`. -/
def rollover (m : TimerManager) (now_ms : UInt64) : Bool :=
  now_ms < m.previousTime && now_ms < m.previousTime - 60 * 60 * 1000

/-- `detectClockRollover`. -/
def detectClockRollover (m : TimerManager) (now_ms : UInt64) : Bool × TimerManager :=
  (m.rollover now_ms, { m with previousTime := now_ms })

/-- The cut of `listExpiredCb` without rollover; `now_timer` is the address of the timer that is
made up for the search. -/
def expired (m : TimerManager) (now_ms : UInt64) (now_timer : Nat) : List Nat :=
  OrderedSet.before Timer.comparator m.key (now_ms, now_timer) m.timers ++
    (OrderedSet.lowerBound Timer.comparator m.key (now_ms, now_timer) m.timers).takeWhile
      fun t => (m.timer t).next == now_ms

/-- The timers behind the cut. -/
def remaining (m : TimerManager) (now_ms : UInt64) (now_timer : Nat) : List Nat :=
  (OrderedSet.lowerBound Timer.comparator m.key (now_ms, now_timer) m.timers).dropWhile
    fun t => (m.timer t).next == now_ms

/-- What `listExpiredCb` does with one expired timer after it has taken the callback. -/
def rearm (m : TimerManager) (now_ms : UInt64) (t : Nat) : TimerManager :=
  if (m.timer t).recurring then
    (m.setTimer t { m.timer t with next := now_ms + (m.timer t).ms }).insert t
  else m.setTimer t { m.timer t with callback := none }

/-- The loop of `listExpiredCb` over the expired timers. -/
def collect (now_ms : UInt64) : List Nat → TimerManager → List (Option Nat) × TimerManager
  | [], m => ([], m)
  | t :: ts, m =>
      let (cbs, m') := collect now_ms ts (m.rearm now_ms t)
      ((m.timer t).callback :: cbs, m')

/-- What `listExpiredCb` does under the write lock: the timers it has taken out, their callbacks,
and the manager afterwards. -/
def listExpiredCb (m : TimerManager) (now_ms : UInt64) (now_timer : Nat) :
    List Nat × List (Option Nat) × TimerManager :=
  match m.timers with
  | [] => ([], [], m)
  | first :: _ =>
      let (rollover, m) := m.detectClockRollover now_ms
      if !rollover && now_ms < (m.timer first).next then ([], [], m)
      else if rollover then (m.timers, collect now_ms m.timers { m with timers := [] })
      else
        (m.expired now_ms now_timer,
          collect now_ms (m.expired now_ms now_timer)
            { m with timers := m.remaining now_ms now_timer })

end TimerManager
end Routn
