import Routn.Timer.LifeCycle

/-!
# Which timers `listExpiredCb` hands out

The cut of `listExpiredCb` goes through the timers that are due at the same time: some of them are
in front of `lower_bound`, by their addresses, and the loop behind it takes the others.  In a set in
order the cut is therefore where the deadlines pass `now_ms` (`Ordered.expired_eq`), whatever the
address of the timer that is made up for the search.

The loop over the expired timers changes deadlines while it inserts.  A timer that it inserts is not
among those that it still has to take, so that each is taken with its own callback and period
(`collect_expires`).
-/

namespace Routn

open Foundation

/-- What `listExpiredCb` makes of an expired timer. -/
def Timer.expire (timer : Timer) (now_ms : UInt64) : Timer :=
  if timer.recurring then { timer with next := now_ms + timer.ms }
  else { timer with callback := none }

namespace TimerManager

variable {m m' : TimerManager} {t u address : Nat} {now_ms : UInt64} {ts : List Nat}

/-! ## The cut -/

/-- The timers that are due, in the order of the set. -/
def due (m : TimerManager) (now_ms : UInt64) : List Nat :=
  m.timers.filter fun t => (m.timer t).next ≤ now_ms

theorem mem_due : t ∈ m.due now_ms ↔ t ∈ m.timers ∧ (m.timer t).next ≤ now_ms := by
  simp [due]

theorem Ordered.due (h : m.Ordered) (now_ms : UInt64) :
    OrderedSet.Sorted Timer.comparator m.key (m.due now_ms) :=
  h.sublist List.filter_sublist

/-- No deadline behind `lower_bound` is earlier than the one that was searched for. -/
theorem Ordered.le_of_mem_lowerBound (h : m.Ordered)
    (ht : t ∈ OrderedSet.lowerBound Timer.comparator m.key (now_ms, address) m.timers) :
    now_ms ≤ (m.timer t).next := by
  have hsorted : OrderedSet.Sorted Timer.comparator m.key
      (OrderedSet.lowerBound Timer.comparator m.key (now_ms, address) m.timers) :=
    h.sublist (List.dropWhile_sublist _)
  cases hbound : OrderedSet.lowerBound Timer.comparator m.key (now_ms, address) m.timers with
  | nil => simp [hbound] at ht
  | cons first rest =>
      have hfirst : now_ms ≤ (m.timer first).next := by
        have hnot := OrderedSet.not_less_of_lowerBound hbound
        by_contra hlt
        rw [UInt64.not_le] at hlt
        have hless : Timer.comparator (m.key first) (now_ms, address) = true :=
          Timer.comparator_iff.mpr (.inl hlt)
        simp [hless] at hnot
      rw [hbound] at ht hsorted
      rcases List.mem_cons.mp ht with rfl | hrest
      · exact hfirst
      · have hless := List.rel_of_pairwise_cons hsorted hrest
        exact UInt64.le_trans hfirst (Timer.next_le_of_comparator hless)

/-- Nothing that is due is behind the cut. -/
theorem Ordered.lt_of_mem_remaining (h : m.Ordered) (ht : t ∈ m.remaining now_ms address) :
    now_ms < (m.timer t).next := by
  have hsorted : OrderedSet.Sorted Timer.comparator m.key (m.remaining now_ms address) :=
    h.sublist ((List.dropWhile_sublist _).trans (List.dropWhile_sublist _))
  cases hcut : m.remaining now_ms address with
  | nil => simp [hcut] at ht
  | cons first rest =>
      -- The loop stopped at the first timer with another deadline.
      have hfirst : now_ms < (m.timer first).next := by
        have hstop := List.head?_dropWhile_not (fun t => (m.timer t).next == now_ms)
          (OrderedSet.lowerBound Timer.comparator m.key (now_ms, address) m.timers)
        unfold remaining at hcut
        rw [hcut] at hstop
        have hmem : first ∈
            OrderedSet.lowerBound Timer.comparator m.key (now_ms, address) m.timers := by
          apply (List.dropWhile_sublist _).subset
          rw [hcut]
          exact List.mem_cons_self
        apply UInt64.lt_of_le_of_ne (h.le_of_mem_lowerBound hmem)
        intro heq
        simp [heq] at hstop
      rw [hcut] at ht hsorted
      rcases List.mem_cons.mp ht with rfl | hrest
      · exact hfirst
      · have hless := List.rel_of_pairwise_cons hsorted hrest
        exact UInt64.lt_of_lt_of_le hfirst (Timer.next_le_of_comparator hless)

/-- **The cut** is where the deadlines pass `now_ms`. -/
theorem Ordered.expired_eq (h : m.Ordered) (now_ms : UInt64) (address : Nat) :
    m.expired now_ms address = m.due now_ms := by
  have hexpired : (m.expired now_ms address).filter (fun t => (m.timer t).next ≤ now_ms) =
      m.expired now_ms address := by
    rw [List.filter_eq_self]
    intro t ht
    exact decide_eq_true (next_le_of_mem_expired ht)
  have hremaining : (m.remaining now_ms address).filter (fun t => (m.timer t).next ≤ now_ms) =
      [] := by
    rw [List.filter_eq_nil_iff]
    intro t ht
    simpa using h.lt_of_mem_remaining ht
  rw [TimerManager.due, ← expired_append_remaining m now_ms address, List.filter_append, hexpired,
    hremaining, List.append_nil]

/-! ## The loop -/

/-- The timers of the list have expired, and all others are as they were. -/
structure Expires (now_ms : UInt64) (ts : List Nat) (m m' : TimerManager) : Prop where
  timer : ∀ t, m'.timer t = if t ∈ ts then (m.timer t).expire now_ms else m.timer t
  mem : ∀ t, t ∈ m'.timers ↔ t ∈ m.timers ∨ t ∈ ts ∧ (m.timer t).recurring = true

theorem rearm_timer_self (m : TimerManager) (now_ms : UInt64) (t : Nat) :
    (m.rearm now_ms t).timer t = (m.timer t).expire now_ms := by
  unfold rearm Timer.expire
  split <;> simp

theorem rearm_timer_of_ne (m : TimerManager) (now_ms : UInt64) (hne : u ≠ t) :
    (m.rearm now_ms t).timer u = m.timer u := by
  unfold rearm
  split <;> simp [setTimer_timer_of_ne _ hne]

theorem mem_rearm (m : TimerManager) (now_ms : UInt64) (t u : Nat) :
    u ∈ (m.rearm now_ms t).timers ↔
      u ∈ m.timers ∨ u = t ∧ (m.timer t).recurring = true := by
  unfold rearm
  split
  · next hrecurring =>
      rw [mem_insert_iff]
      simp [hrecurring, or_comm]
  · next hrecurring => simp [hrecurring]

/-- **The loop** takes the callbacks as they were before it, and each timer expires once. -/
theorem collect_expires (hnodup : ts.Nodup) (m : TimerManager) (now_ms : UInt64) :
    (collect now_ms ts m).1 = ts.map (fun t => (m.timer t).callback) ∧
      Expires now_ms ts m (collect now_ms ts m).2 := by
  induction ts generalizing m with
  | nil =>
      constructor
      · rfl
      · constructor
        · simp [collect]
        · simp [collect]
  | cons t ts ih =>
      obtain ⟨hfresh, hnodup⟩ := List.nodup_cons.mp hnodup
      obtain ⟨hcbs, htimer, hmem⟩ := ih hnodup (m.rearm now_ms t)
      have hother : ∀ u ∈ ts, u ≠ t := by
        rintro u hu rfl
        exact hfresh hu
      constructor
      · show (m.timer t).callback :: (collect now_ms ts (m.rearm now_ms t)).1 = _
        rw [hcbs, List.map_cons]
        congr 1
        apply List.map_congr_left
        intro u hu
        rw [rearm_timer_of_ne m now_ms (hother u hu)]
      · constructor
        · intro u
          show (collect now_ms ts (m.rearm now_ms t)).2.timer u = _
          rw [htimer u]
          by_cases heq : u = t
          · subst heq
            simp [hfresh, rearm_timer_self]
          · simp [heq, rearm_timer_of_ne m now_ms heq]
        · intro u
          show u ∈ (collect now_ms ts (m.rearm now_ms t)).2.timers ↔ _
          rw [hmem u, mem_rearm]
          by_cases heq : u = t
          · subst heq
            simp [hfresh]
          · simp [heq, rearm_timer_of_ne m now_ms heq]

/-! ## `listExpiredCb` -/

/-- Without rollover the timers that are due are collected, also where there are none. -/
theorem Ordered.listExpiredCb_eq (h : m.Ordered) (hroll : m.rollover now_ms = false)
    (address : Nat) :
    ∃ rest previous,
      m.listExpiredCb now_ms address = (m.due now_ms,
        TimerManager.collect now_ms (m.due now_ms)
          { m with timers := rest, previousTime := previous }) ∧
      m.due now_ms ++ rest = m.timers := by
  obtain ⟨timer, timers, tickled, previousTime⟩ := m
  cases timers with
  | nil => exact ⟨[], previousTime, rfl, rfl⟩
  | cons first others =>
      by_cases hfirst : now_ms < (timer first).next
      · -- The first timer is not due, and so no timer is.
        have hnone : TimerManager.due ⟨timer, first :: others, tickled, previousTime⟩ now_ms =
            [] := by
          unfold TimerManager.due
          rw [List.filter_eq_nil_iff]
          intro t ht
          have hle := h.head_le rfl ht
          simpa using UInt64.lt_of_lt_of_le hfirst hle
        refine ⟨first :: others, now_ms, ?_, ?_⟩
        · rw [hnone]
          simp [TimerManager.listExpiredCb, detectClockRollover, hroll, hfirst,
            TimerManager.collect]
        · rw [hnone, List.nil_append]
      · have hsplit :=
          expired_append_remaining ⟨timer, first :: others, tickled, previousTime⟩ now_ms address
        rw [h.expired_eq] at hsplit
        refine ⟨remaining ⟨timer, first :: others, tickled, previousTime⟩ now_ms address, now_ms,
          ?_, hsplit⟩
        rw [← h.expired_eq now_ms address]
        simp only [TimerManager.listExpiredCb, detectClockRollover, hroll, hfirst]
        rfl

/-- **Exactly the timers that are due are handed out**, in the order of their deadlines and
addresses.  Those that do not repeat leave the set and lose their callbacks, those that repeat are
in the set with a new deadline, and nothing else changes. -/
theorem listExpiredCb_exact (h : m.Ordered) (hroll : m.rollover now_ms = false) (address : Nat) :
    ∃ due : List Nat,
      (∀ t, t ∈ due ↔ t ∈ m.timers ∧ (m.timer t).next ≤ now_ms) ∧
      (due.Pairwise fun t u => (m.timer t).next < (m.timer u).next ∨
        (m.timer t).next = (m.timer u).next ∧ t < u) ∧
      (m.listExpiredCb now_ms address).2.1 = due.map (fun t => (m.timer t).callback) ∧
      (∀ t ∈ due, (m.timer t).recurring = false →
        t ∉ (m.listExpiredCb now_ms address).2.2.timers ∧
          (m.listExpiredCb now_ms address).2.2.timer t = { m.timer t with callback := none }) ∧
      (∀ t ∈ due, (m.timer t).recurring = true →
        t ∈ (m.listExpiredCb now_ms address).2.2.timers ∧
          (m.listExpiredCb now_ms address).2.2.timer t =
            { m.timer t with next := now_ms + (m.timer t).ms }) ∧
      (∀ t, t ∉ due →
        (m.listExpiredCb now_ms address).2.2.timer t = m.timer t ∧
          (t ∈ (m.listExpiredCb now_ms address).2.2.timers ↔ t ∈ m.timers)) ∧
      (m.listExpiredCb now_ms address).2.2.Ordered := by
  obtain ⟨rest, previous, heq, hsplit⟩ := h.listExpiredCb_eq hroll address
  have hordered := h.listExpiredCb now_ms address
  have hnodup : (m.due now_ms ++ rest).Nodup := by
    rw [hsplit]
    exact OrderedSet.Sorted.nodup Timer.comparator_strictOrder h
  obtain ⟨hnodup, -, hdisjoint⟩ := List.nodup_append.mp hnodup
  obtain ⟨hcbs, htimer, hmem⟩ :=
    collect_expires hnodup { m with timers := rest, previousTime := previous } now_ms
  rw [heq] at hordered ⊢
  refine ⟨m.due now_ms, fun t => mem_due, ?_, hcbs, ?_, ?_, ?_, hordered⟩
  · apply (h.due now_ms).imp
    intro t u hless
    exact Timer.comparator_iff.mp hless
  · intro t ht honce
    constructor
    · intro hin
      rcases (hmem t).mp hin with hrest | ⟨-, hrecurring⟩
      · exact hdisjoint t ht t hrest rfl
      · simp [honce] at hrecurring
    · rw [htimer t, if_pos ht]
      simp [Timer.expire, honce]
  · intro t ht hrecurring
    constructor
    · exact (hmem t).mpr (.inr ⟨ht, hrecurring⟩)
    · rw [htimer t, if_pos ht]
      simp [Timer.expire, hrecurring]
  · intro t ht
    constructor
    · rw [htimer t, if_neg ht]
    · rw [hmem t, ← hsplit, List.mem_append]
      simp [ht]

/-- Two timers that are due at 5, of which one repeats, and one that is not due yet. -/
def dueAtFive : TimerManager where
  timer := fun t =>
    if t = 1 then ⟨true, 0, 5, some 11⟩
    else if t = 2 then ⟨false, 5, 5, some 12⟩
    else ⟨false, 9, 9, some 13⟩
  timers := [1, 2, 3]
  tickled := false
  previousTime := 0

theorem listExpiredCb_dueAtFive :
    ∃ due : List Nat,
      (∀ t, t ∈ due ↔ t ∈ dueAtFive.timers ∧ (dueAtFive.timer t).next ≤ 5) ∧
        (dueAtFive.listExpiredCb 5 0).2.1 =
          due.map (fun t => (dueAtFive.timer t).callback) := by
  have hordered : dueAtFive.Ordered := by
    unfold Ordered OrderedSet.Sorted
    decide
  have hroll : dueAtFive.rollover 5 = false := by decide
  obtain ⟨due, hmem, -, hcbs, -⟩ := listExpiredCb_exact hordered hroll 0
  exact ⟨due, hmem, hcbs⟩

end TimerManager
end Routn
