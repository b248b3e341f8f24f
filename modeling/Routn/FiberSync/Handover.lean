import Mathlib.Data.List.Infix
import Mathlib.Tactic
import Routn.FiberSync

/-!
# Histories of one semaphore

`Call` lists the operations of `FiberSemaphore`, each a critical section of `m_mutex`; a `History`
is the semaphore with a record of what its operations have done.  Any fiber may make the next call.

A fiber that `wait` blocks pushes the pair of its scheduler and itself.  Here `m_waiters` holds the
number of the blocked wait instead, and `waits` says which pair that wait has pushed: one fiber
waits many times, and a fiber that was scheduled by someone else while it was blocked may push a
second pair before the first one is taken out.

`inOrder_calls` is the invariant: the calls of `schedule` made so far are the first of the pairs
pushed so far, in the same order, and the list holds exactly the others.
-/

namespace Routn
namespace FiberSemaphore

/-- `m_concurrency` is a `size_t`. -/
def wrap (sem : FiberSemaphore) : FiberSemaphore :=
  { sem with concurrency := sem.concurrency % 2 ^ 64 }

@[simp] theorem wrap_waiters (sem : FiberSemaphore) : sem.wrap.waiters = sem.waiters := rfl

@[simp] theorem wrap_concurrency (sem : FiberSemaphore) :
    sem.wrap.concurrency = sem.concurrency % 2 ^ 64 := rfl

/-- `schedular` and `fiber` are `Schedular::GetThis()` and `Fiber::GetThis()` of the caller. -/
inductive Call
  | tryWait
  | wait (schedular fiber : Nat)
  | notify
  | notifyAll
deriving DecidableEq, Repr

/-- A semaphore and its record. -/
structure History where
  sem : FiberSemaphore
  /-- The pairs pushed to `m_waiters`, first to last. -/
  waits : List (Nat × Nat)
  /-- The calls `first->schedule(second)`, first to last. -/
  scheduled : List (Nat × Nat)
  /-- How often `tryWait` or `wait` has taken a counted permit. -/
  acquired : Nat
  /-- How often `notify` has been called. -/
  notifies : Nat
  /-- How many waiters `notifyAll` has released. -/
  released : Nat
deriving DecidableEq, Repr

namespace History

def init (initial_concurrency : Nat) : History :=
  ⟨FiberSemaphore.new initial_concurrency, [], [], 0, 0, 0⟩

/-- The pairs pushed by some of the waits. -/
def pairs (h : History) (numbers : List Nat) : List (Nat × Nat) :=
  numbers.filterMap fun number => h.waits[number]?

def call (h : History) : Call → History
  | .tryWait =>
      let (acquires, sem) := h.sem.tryWait
      { h with sem := sem, acquired := h.acquired + acquires.toNat }
  | .wait schedular fiber =>
      match h.sem.wait h.waits.length with
      | (true, sem) => { h with sem := sem, acquired := h.acquired + 1 }
      | (false, sem) => { h with sem := sem, waits := h.waits ++ [(schedular, fiber)] }
  | .notify =>
      let (next, sem) := h.sem.notify
      { h with
        sem := sem.wrap
        scheduled := h.scheduled ++ h.pairs next.toList
        notifies := h.notifies + 1 }
  | .notifyAll =>
      let (waiters, sem) := h.sem.notifyAll
      { h with
        sem := sem
        scheduled := h.scheduled ++ h.pairs waiters
        released := h.released + waiters.length }

/-- One call after the other. -/
def calls (h : History) (cs : List Call) : History := cs.foldl call h

/-- The fibers that were let through: a counted permit was taken, or the fiber was woken. -/
def grants (h : History) : Nat := h.acquired + h.scheduled.length

/-- The invariant of the histories that start with `initial` permits. -/
structure InOrder (initial : Nat) (h : History) : Prop where
  free : 0 < h.sem.concurrency → h.sem.waiters = []
  scheduled : h.scheduled = h.waits.take h.scheduled.length
  waiters : h.sem.waiters =
    List.range' h.scheduled.length (h.waits.length - h.scheduled.length)
  /-- The counter may have wrapped around some times. -/
  permits : ∃ wraps, h.grants + h.sem.concurrency + wraps * 2 ^ 64 =
    initial + h.notifies + h.released

theorem inOrder_init (initial : Nat) : (init initial).InOrder initial where
  free _ := rfl
  scheduled := rfl
  waiters := rfl
  permits := ⟨0, by simp [init, grants, new]⟩

/-- Waits with consecutive numbers have pushed consecutive pairs. -/
theorem pairs_range' (h : History) (first count : Nat) (hle : first + count ≤ h.waits.length) :
    h.pairs (List.range' first count) = (h.waits.drop first).take count := by
  induction count generalizing first with
  | zero => simp [pairs]
  | succ count ih =>
      have hlt : first < h.waits.length := by omega
      have htail := ih (first + 1) (by omega)
      simp only [pairs] at htail
      rw [pairs, List.range'_succ, List.filterMap_cons_some (List.getElem?_eq_getElem hlt), htail,
        List.drop_eq_getElem_cons hlt, List.take_succ_cons]

variable {initial : Nat} {h : History}

namespace InOrder

theorem length_scheduled_le (hi : h.InOrder initial) :
    h.scheduled.length ≤ h.waits.length := by
  rw [hi.scheduled]
  exact List.length_take_le' ..

/-- Handing over the first `count` waiters. -/
theorem scheduled_append (hi : h.InOrder initial) {count : Nat}
    (hle : h.scheduled.length + count ≤ h.waits.length) :
    h.scheduled ++ h.pairs (List.range' h.scheduled.length count) =
      h.waits.take (h.scheduled.length + count) := by
  rw [h.pairs_range' _ _ hle, List.take_add, ← hi.scheduled]

theorem length_scheduled_append (hi : h.InOrder initial) {count : Nat}
    (hle : h.scheduled.length + count ≤ h.waits.length) :
    (h.scheduled ++ h.pairs (List.range' h.scheduled.length count)).length =
      h.scheduled.length + count := by
  rw [hi.scheduled_append hle, List.length_take, Nat.min_eq_left hle]

/-- A counted permit is taken. -/
theorem acquire (hi : h.InOrder initial) (hfree : 0 < h.sem.concurrency) :
    InOrder initial { h with
      sem := { h.sem with concurrency := h.sem.concurrency - 1 }
      acquired := h.acquired + 1 } where
  free _ := hi.free hfree
  scheduled := hi.scheduled
  waiters := hi.waiters
  permits := by
    obtain ⟨wraps, hpermits⟩ := hi.permits
    refine ⟨wraps, ?_⟩
    simp only [grants] at hpermits ⊢
    omega

/-- A pair is pushed. -/
theorem block (hi : h.InOrder initial) (hnone : h.sem.concurrency = 0) (pair : Nat × Nat) :
    InOrder initial { h with
      sem := { h.sem with waiters := h.sem.waiters ++ [h.waits.length] }
      waits := h.waits ++ [pair] } where
  free hfree := by
    simp only [hnone] at hfree
    exact absurd hfree (Nat.lt_irrefl 0)
  scheduled := by
    show h.scheduled = (h.waits ++ [pair]).take _
    rw [List.take_append_of_le_length hi.length_scheduled_le, ← hi.scheduled]
  waiters := by
    have hle := hi.length_scheduled_le
    show h.sem.waiters ++ [h.waits.length] = _
    rw [hi.waiters, List.length_append, List.length_singleton,
      Nat.sub_add_comm hle, List.range'_1_concat, Nat.add_sub_cancel' hle]
  permits := hi.permits

/-- The first pair is taken out and scheduled. -/
theorem handOver (hi : h.InOrder initial) {next : Nat} {rest : List Nat}
    (hwaiters : h.sem.waiters = next :: rest) :
    InOrder initial { h with
      sem := { h.sem with waiters := rest }.wrap
      scheduled := h.scheduled ++ h.pairs [next]
      notifies := h.notifies + 1 } := by
  have hrange := hi.waiters.symm.trans hwaiters
  have hlt : h.scheduled.length + 1 ≤ h.waits.length := by
    by_contra hge
    rw [Nat.sub_eq_zero_of_le (by omega)] at hrange
    cases hrange
  -- The number of the first waiter is the number of pairs scheduled so far.
  obtain ⟨hnext, hrest⟩ : h.scheduled.length = next ∧
      List.range' (h.scheduled.length + 1) (h.waits.length - (h.scheduled.length + 1)) = rest := by
    rw [show h.waits.length - h.scheduled.length =
      h.waits.length - (h.scheduled.length + 1) + 1 by omega, List.range'_succ] at hrange
    exact List.cons.inj hrange
  have hpairs : h.pairs [next] = h.pairs (List.range' h.scheduled.length 1) := by
    rw [← hnext]
    rfl
  have hlength := hi.length_scheduled_append hlt
  rw [← hpairs] at hlength
  have hzero : h.sem.concurrency = 0 := by
    by_contra hne
    rw [hi.free (Nat.pos_of_ne_zero hne)] at hwaiters
    cases hwaiters
  refine ⟨fun hfree => ?_, ?_, ?_, ?_⟩
  · simp [hzero] at hfree
  · show h.scheduled ++ h.pairs [next] = h.waits.take (h.scheduled ++ h.pairs [next]).length
    rw [hlength, hpairs, hi.scheduled_append hlt]
  · show rest = List.range' (h.scheduled ++ h.pairs [next]).length _
    rw [hlength, hrest]
  · obtain ⟨wraps, hpermits⟩ := hi.permits
    refine ⟨wraps, ?_⟩
    simp only [grants, hlength, wrap_concurrency, hzero] at hpermits ⊢
    omega

/-- Nobody waits, and the counter goes up. -/
theorem release (hi : h.InOrder initial) (hwaiters : h.sem.waiters = []) :
    InOrder initial { h with
      sem := { h.sem with concurrency := h.sem.concurrency + 1 }.wrap
      scheduled := h.scheduled ++ h.pairs []
      notifies := h.notifies + 1 } := by
  have hpairs : h.scheduled ++ h.pairs [] = h.scheduled := List.append_nil _
  rw [hpairs]
  refine ⟨fun _ => hwaiters, hi.scheduled, hi.waiters, ?_⟩
  obtain ⟨wraps, hpermits⟩ := hi.permits
  refine ⟨wraps + (h.sem.concurrency + 1) / 2 ^ 64, ?_⟩
  simp only [grants, wrap_concurrency] at hpermits ⊢
  omega

/-- The whole list is taken out and scheduled. -/
theorem handOverAll (hi : h.InOrder initial) :
    InOrder initial { h with
      sem := { h.sem with waiters := [] }
      scheduled := h.scheduled ++ h.pairs h.sem.waiters
      released := h.released + h.sem.waiters.length } := by
  have hle := hi.length_scheduled_le
  have hfill : h.scheduled.length + (h.waits.length - h.scheduled.length) = h.waits.length :=
    Nat.add_sub_cancel' hle
  have hscheduled := hi.scheduled_append hfill.le
  rw [← hi.waiters, hfill, List.take_length] at hscheduled
  have hwaiters : h.sem.waiters.length = h.waits.length - h.scheduled.length := by
    rw [hi.waiters, List.length_range']
  rw [hscheduled]
  refine ⟨fun _ => rfl, List.take_length.symm, ?_, ?_⟩
  · show [] = List.range' h.waits.length (h.waits.length - h.waits.length)
    rw [Nat.sub_self, List.range'_zero]
  · obtain ⟨wraps, hpermits⟩ := hi.permits
    refine ⟨wraps, ?_⟩
    simp only [grants] at hpermits ⊢
    omega

theorem call (hi : h.InOrder initial) (c : Call) : (h.call c).InOrder initial := by
  cases c with
  | tryWait =>
      by_cases hfree : 0 < h.sem.concurrency
      · simpa [History.call, FiberSemaphore.tryWait, hfree] using hi.acquire hfree
      · simpa [History.call, FiberSemaphore.tryWait, hfree] using hi
  | wait schedular fiber =>
      by_cases hfree : 0 < h.sem.concurrency
      · simpa [History.call, FiberSemaphore.wait, hfree] using hi.acquire hfree
      · simpa [History.call, FiberSemaphore.wait, hfree] using
          hi.block (Nat.eq_zero_of_not_pos hfree) (schedular, fiber)
  | notify =>
      cases hwaiters : h.sem.waiters with
      | nil => simpa [History.call, FiberSemaphore.notify, hwaiters] using hi.release hwaiters
      | cons next rest =>
          simpa [History.call, FiberSemaphore.notify, hwaiters] using hi.handOver hwaiters
  | notifyAll => exact hi.handOverAll

theorem calls (hi : h.InOrder initial) (cs : List Call) : (h.calls cs).InOrder initial := by
  -- On the calls, one after the other.
  induction cs generalizing h with
  | nil => exact hi
  | cons c cs ih => exact ih (hi.call c)

end InOrder

end History
end FiberSemaphore
end Routn
