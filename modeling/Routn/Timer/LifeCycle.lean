import Routn.Foundation.Transition
import Routn.Timer.Deadlines

/-!
# The life of a timer

A timer is in `_timers` exactly as long as it has a callback, and it keeps its place in the order
because it is out of the set whenever its deadline changes.  So a timer that is not in the set is
left alone by `refresh`, `cancel` and `reset`, and a timer that has been cancelled does not come
back.

The operations are called one after the other, each at any value of the clock.
-/

namespace Routn

open Foundation

namespace TimerManager

variable {m m' : TimerManager} {t u address : Nat} {now_ms : UInt64}

/-! ## What is in the set -/

theorem mem_insert_iff : u ∈ (m.insert t).timers ↔ u = t ∨ u ∈ m.timers :=
  OrderedSet.mem_insert_iff Timer.comparator_strictOrder m.key_injective

theorem mem_addTimer_iff : u ∈ (m.addTimer t).2.timers ↔ u = t ∨ u ∈ m.timers := by
  have hsame : (m.addTimer t).2.timers = (m.insert t).timers := by
    simp only [addTimer]
    split <;> rfl
  rw [hsame]
  exact mem_insert_iff

theorem Ordered.find_of_mem (h : m.Ordered) (ht : t ∈ m.timers) : m.find t = some t :=
  OrderedSet.Sorted.find_of_mem Timer.comparator_strictOrder h ht

theorem Ordered.mem_erase_iff (h : m.Ordered) (ht : t ∈ m.timers) :
    u ∈ (m.erase t).timers ↔ u ≠ t ∧ u ∈ m.timers :=
  OrderedSet.Sorted.mem_erase_iff Timer.comparator_strictOrder h (h.find_of_mem ht)

/-- What the operations rely on. -/
structure Registered (m : TimerManager) : Prop where
  ordered : m.Ordered
  mem_iff : ∀ t, t ∈ m.timers ↔ (m.timer t).callback ≠ none

namespace Registered

theorem new (now : UInt64) : (TimerManager.new now).Registered where
  ordered := .nil
  mem_iff t := by simp [TimerManager.new]

theorem callback_of_not_mem (h : m.Registered) (ht : t ∉ m.timers) :
    (m.timer t).callback = none := by
  by_contra hcallback
  exact ht ((h.mem_iff t).mpr hcallback)

/-! ## Operations -/

/-- A timer goes in that is not in the set. -/
theorem addTimer (h : m.Registered) (hnew : address ∉ m.timers) (ms : UInt64) (cb : Nat)
    (recurring : Bool) (now : UInt64) :
    ((m.setTimer address (.new ms (some cb) recurring now)).addTimer address).2.Registered where
  ordered := (h.ordered.setTimer fun hin => absurd hin hnew).addTimer address
  mem_iff u := by
    rw [mem_addTimer_iff, addTimer_timer]
    by_cases heq : u = address
    · subst heq
      simp [Timer.new]
    · rw [setTimer_timer_of_ne _ heq, setTimer_timers, ← h.mem_iff u]
      simp [heq]

theorem mem_of_mem_reset {ms now : UInt64} {from_now : Bool}
    (h : u ∈ (m.reset t ms from_now now).2.2.timers) : u ∈ m.timers := by
  rw [TimerManager.reset] at h
  split at h
  · exact h
  · split at h
    · exact h
    · next found hfind =>
        rcases mem_of_mem_addTimer h with rfl | h
        · exact mem_of_find hfind
        · exact mem_of_mem_erase h

/-- The set and the callbacks are as before after a timer has been taken out, changed and put back
in. -/
theorem mem_iff_of_moved (h : m.Registered) (ht : t ∈ m.timers) (timer : Timer)
    (hcallback : timer.callback = (m.timer t).callback) (u : Nat) :
    (u = t ∨ u ∈ ((m.erase t).setTimer t timer).timers) ↔
      (((m.erase t).setTimer t timer).timer u).callback ≠ none := by
  rw [setTimer_timers, h.ordered.mem_erase_iff ht]
  by_cases heq : u = t
  · subst heq
    rw [setTimer_timer_self, hcallback]
    simpa using (h.mem_iff u).mp ht
  · rw [setTimer_timer_of_ne _ heq, erase_timer, ← h.mem_iff u]
    simp [heq]

theorem refresh (h : m.Registered) (t : Nat) (now : UInt64) :
    (m.refresh t now).2.Registered where
  ordered := h.ordered.refresh t now
  mem_iff u := by
    rw [TimerManager.refresh]
    split
    · exact h.mem_iff u
    · split
      · exact h.mem_iff u
      · next found hfind =>
          rw [mem_insert_iff]
          exact h.mem_iff_of_moved (mem_of_find hfind)
            { m.timer t with next := now + (m.timer t).ms } rfl u

theorem reset (h : m.Registered) (t : Nat) (ms : UInt64) (from_now : Bool) (now : UInt64) :
    (m.reset t ms from_now now).2.2.Registered where
  ordered := h.ordered.reset t ms from_now now
  mem_iff u := by
    rw [TimerManager.reset]
    split
    · exact h.mem_iff u
    · split
      · exact h.mem_iff u
      · next found hfind =>
          rw [mem_addTimer_iff, addTimer_timer]
          exact h.mem_iff_of_moved (mem_of_find hfind) { m.timer t with
            ms := ms, next := (if from_now then now else (m.timer t).next - (m.timer t).ms) + ms }
            rfl u

/-- A timer that has a callback is found, so `cancel` never erases the end of the set. -/
theorem cancel (h : m.Registered) (t : Nat) :
    (t ∉ m.timers ∧ m.cancel t = some (false, m)) ∨
      t ∈ m.timers ∧ ∃ m', m.cancel t = some (true, m') ∧ t ∉ m'.timers ∧ m'.Registered := by
  by_cases ht : t ∈ m.timers
  · have hcallback := (h.mem_iff t).mp ht
    -- The key does not change, so the timer is found where it was.
    have hset : (m.setTimer t { m.timer t with callback := none }).Ordered :=
      h.ordered.setTimer fun _ => rfl
    have hcancel : m.cancel t =
        some (true, (m.setTimer t { m.timer t with callback := none }).erase t) := by
      rw [TimerManager.cancel, if_neg (by simpa using hcallback)]
      simp only [hset.find_of_mem (t := t) ht]
    refine .inr ⟨ht, _, hcancel, ?_, h.ordered.cancel hcancel, fun u => ?_⟩
    · rw [hset.mem_erase_iff (t := t) ht]
      simp
    · rw [hset.mem_erase_iff (t := t) ht, erase_timer, setTimer_timers]
      by_cases heq : u = t
      · subst heq
        simp
      · rw [setTimer_timer_of_ne _ heq, ← h.mem_iff u]
        simp [heq]
  · refine .inl ⟨ht, ?_⟩
    rw [TimerManager.cancel, h.callback_of_not_mem ht]
    rfl

/-- While the expired timers are handed out, those that are still to come have callbacks too. -/
theorem mem_iff_collect (now_ms : UInt64) {ts : List Nat} (hnodup : ts.Nodup)
    (hout : ∀ t ∈ ts, t ∉ m.timers)
    (hall : ∀ t, t ∈ ts ∨ t ∈ m.timers ↔ (m.timer t).callback ≠ none) (u : Nat) :
    u ∈ (collect now_ms ts m).2.timers ↔ ((collect now_ms ts m).2.timer u).callback ≠ none := by
  induction ts generalizing m with
  | nil => simpa [collect] using hall u
  | cons t ts ih =>
      obtain ⟨hfresh, hnodup⟩ := List.nodup_cons.mp hnodup
      have ht := hout t List.mem_cons_self
      refine ih hnodup (fun v hv hin => ?_) fun v => ?_
      · rcases (rearm_rearmed m now_ms t).mem v hin with hin | hin
        · exact hout v (List.mem_cons_of_mem t hv) hin
        · rw [List.mem_singleton.mp hin] at hv
          exact hfresh hv
      · rw [rearm]
        by_cases heq : v = t
        · -- The timer itself: in the set again with its callback, or out of it without.
          subst heq
          split
          · rw [mem_insert_iff, insert_timer, setTimer_timer_self]
            simpa using (hall v).mp (.inl List.mem_cons_self)
          · simp [hfresh, ht]
        · have hv := hall v
          rw [List.mem_cons, or_iff_right heq] at hv
          split
          · rw [mem_insert_iff, insert_timer, or_iff_right heq, setTimer_timer_of_ne _ heq]
            exact hv
          · rw [setTimer_timer_of_ne _ heq]
            exact hv

/-- The callbacks are those that the timers had. -/
theorem collect_callbacks (now_ms : UInt64) {ts : List Nat} (hnodup : ts.Nodup)
    (m : TimerManager) : (collect now_ms ts m).1 = ts.map fun t => (m.timer t).callback := by
  induction ts generalizing m with
  | nil => rfl
  | cons t ts ih =>
      obtain ⟨hfresh, hnodup⟩ := List.nodup_cons.mp hnodup
      have hsame : ∀ u ∈ ts, (m.rearm now_ms t).timer u = m.timer u := by
        intro u hu
        have hne : u ≠ t := fun heq => hfresh (heq ▸ hu)
        rw [rearm]
        split
        · rw [insert_timer, setTimer_timer_of_ne _ hne]
        · rw [setTimer_timer_of_ne _ hne]
      have hrest := ih hnodup (m.rearm now_ms t)
      rw [List.map_congr_left fun u hu => congrArg Timer.callback (hsame u hu)] at hrest
      simp only [collect, List.map_cons, hrest]

/-- Timers of the set are handed out, with their callbacks. -/
theorem listExpiredCb (h : m.Registered) (now_ms : UInt64) (now_timer : Nat) :
    (m.listExpiredCb now_ms now_timer).2.2.Registered ∧
      (∀ t ∈ (m.listExpiredCb now_ms now_timer).1, t ∈ m.timers) ∧
      (m.listExpiredCb now_ms now_timer).2.1 =
        (m.listExpiredCb now_ms now_timer).1.map fun t => (m.timer t).callback := by
  have hordered := h.ordered.listExpiredCb now_ms now_timer
  rcases m.listExpiredCb_cases now_ms now_timer with
    ⟨-, previous, heq⟩ | ⟨expired, rest, heq, hsplit, -⟩
  · rw [heq] at hordered ⊢
    exact ⟨⟨hordered, h.mem_iff⟩, by simp, rfl⟩
  · rw [heq] at hordered ⊢
    obtain ⟨hnodup, -, hdisjoint⟩ := List.nodup_append.mp
      (hsplit ▸ OrderedSet.Sorted.nodup Timer.comparator_strictOrder h.ordered)
    refine ⟨⟨hordered, mem_iff_collect now_ms hnodup (fun t ht hin => hdisjoint t ht t hin rfl)
      fun t => ?_⟩, fun t ht => hsplit ▸ List.mem_append_left rest ht,
      collect_callbacks now_ms hnodup _⟩
    rw [← List.mem_append, hsplit]
    exact h.mem_iff t

end Registered

/-! ## Sequences of operations -/

/-- The operations, with the values of `GetCurrentMs()` that they read.  The addresses are those of
the objects that `addTimer` and `listExpiredCb` construct. -/
inductive Operation
  | addTimer (address : Nat) (ms : UInt64) (cb : Nat) (recurring : Bool) (now : UInt64)
  | refresh (t : Nat) (now : UInt64)
  | reset (t : Nat) (ms : UInt64) (from_now : Bool) (now : UInt64)
  | cancel (t : Nat)
  | listExpiredCb (now_ms : UInt64) (now_timer : Nat)
  | getNextTimer (now : UInt64)
deriving DecidableEq, Repr

inductive Answer
  | timer (address : Nat)
  | flag (value : Bool)
  /-- The timers whose callbacks are handed out, and the callbacks. -/
  | callbacks (timers : List Nat) (cbs : List (Option Nat))
  | wait (ms : UInt64)
deriving DecidableEq, Repr

/-- `none` where the behaviour is undefined. -/
def perform (m : TimerManager) : Operation → Option (Answer × TimerManager)
  | .addTimer address ms cb recurring now =>
      some (.timer address,
        ((m.setTimer address (.new ms (some cb) recurring now)).addTimer address).2)
  | .refresh t now => some (.flag (m.refresh t now).1, (m.refresh t now).2)
  | .reset t ms from_now now =>
      if m.resetSkips t ms from_now then some (.flag true, m)
      else some (.flag (m.reset t ms from_now now).1, (m.reset t ms from_now now).2.2)
  | .cancel t => (m.cancel t).map fun answer => (.flag answer.1, answer.2)
  | .listExpiredCb now_ms now_timer =>
      some (.callbacks (m.listExpiredCb now_ms now_timer).1 (m.listExpiredCb now_ms now_timer).2.1,
        (m.listExpiredCb now_ms now_timer).2.2)
  | .getNextTimer now => some (.wait (m.getNextTimer now).1, (m.getNextTimer now).2)

/-- A new object is not where one is that the set still holds. -/
def Legal (m : TimerManager) : Operation → Prop
  | .addTimer address _ _ _ _ => address ∉ m.timers
  | _ => True

/-- The operation constructs a timer at the address. -/
def Operation.Constructs (t : Nat) : Operation → Prop
  | .addTimer address _ _ _ _ => address = t
  | _ => False

/-- `refresh`, `cancel` and the calls of `reset` that have something to do leave a timer alone that
is not in the set. -/
def RefusesIdle (m : TimerManager) : Prop :=
  ∀ t ∉ m.timers,
    (∀ now, m.perform (.refresh t now) = some (.flag false, m)) ∧
    m.perform (.cancel t) = some (.flag false, m) ∧
    ∀ ms from_now now, ms ≠ (m.timer t).ms ∨ from_now = true →
      m.perform (.reset t ms from_now now) = some (.flag false, m)

theorem Registered.refusesIdle (h : m.Registered) : m.RefusesIdle := by
  intro t ht
  have hcallback := h.callback_of_not_mem ht
  refine ⟨fun now => ?_, ?_, fun ms from_now now hreset => ?_⟩
  · simp [perform, TimerManager.refresh, hcallback]
  · simp [perform, TimerManager.cancel, hcallback]
  · have hskips : m.resetSkips t ms from_now = false := by
      rcases hreset with hms | hnow <;> simp [resetSkips, *]
    simp [perform, TimerManager.reset, hskips, hcallback]

/-- Nothing that the operation answers is about a timer that has been cancelled. -/
def Silent (t : Nat) : Operation → Answer → Prop
  | .cancel u, answer => u = t → answer = .flag false
  | .listExpiredCb _ _, .callbacks timers _ => t ∉ timers
  | _, _ => True

/-- No operation fails, and none puts a timer into the set that is not in it, `addTimer` apart. -/
theorem Registered.perform (h : m.Registered) {op : Operation} (hlegal : m.Legal op) :
    ∃ answer m', m.perform op = some (answer, m') ∧ m'.Registered ∧
      ∀ t ∉ m.timers, ¬ op.Constructs t → t ∉ m'.timers ∧ Silent t op answer := by
  cases op with
  | addTimer address ms cb recurring now =>
      refine ⟨_, _, rfl, h.addTimer hlegal ms cb recurring now, fun t ht hnew => ⟨?_, trivial⟩⟩
      rw [mem_addTimer_iff, setTimer_timers]
      exact not_or.mpr ⟨fun heq => hnew heq.symm, ht⟩
  | refresh t now =>
      exact ⟨_, _, rfl, h.refresh t now, fun u hu _ => ⟨fun hin => hu (mem_of_mem_refresh hin),
        trivial⟩⟩
  | reset t ms from_now now =>
      cases hskips : m.resetSkips t ms from_now with
      | true =>
          exact ⟨.flag true, m, by simp [TimerManager.perform, hskips], h,
            fun u hu _ => ⟨hu, trivial⟩⟩
      | false =>
          exact ⟨.flag (m.reset t ms from_now now).1, (m.reset t ms from_now now).2.2,
            by simp [TimerManager.perform, hskips], h.reset t ms from_now now,
            fun u hu _ => ⟨fun hin => hu (mem_of_mem_reset hin), trivial⟩⟩
  | cancel t =>
      rcases h.cancel t with ⟨-, hcancel⟩ | ⟨ht, m', hcancel, -, hm'⟩
      · exact ⟨.flag false, m, by simp [TimerManager.perform, hcancel], h,
          fun u hu _ => ⟨hu, fun _ => rfl⟩⟩
      · refine ⟨.flag true, m', by simp [TimerManager.perform, hcancel], hm',
          fun u hu _ => ⟨fun hin => hu ((cancel_spec hcancel).1.mem u hin), ?_⟩⟩
        rintro rfl
        exact absurd ht hu
  | listExpiredCb now_ms now_timer =>
      obtain ⟨hnext, hin, -⟩ := h.listExpiredCb now_ms now_timer
      exact ⟨_, _, rfl, hnext, fun t ht _ =>
        ⟨fun hmem => ht (mem_of_mem_listExpiredCb hmem), fun hmem => ht (hin t hmem)⟩⟩
  | getNextTimer now =>
      refine ⟨_, _, rfl, ?_, fun t ht _ => ?_⟩
      · rw [getNextTimer_manager]
        exact ⟨h.ordered, h.mem_iff⟩
      · rw [getNextTimer_manager]
        exact ⟨ht, trivial⟩

/-- In this run nothing is answered about the timer, unless a new one is constructed in its
place. -/
def SilentRun (t : Nat) (ops : List Operation) (m : TimerManager) : Prop :=
  runKeeps perform (fun m op => m.Legal op ∧ ¬ op.Constructs t) (fun _ => True)
    (fun _ op answer _ => Silent t op answer) ops m

theorem Registered.silentRun (h : m.Registered) (ht : t ∉ m.timers) (ops : List Operation) :
    SilentRun t ops m := by
  refine runKeeps_of_step (J := fun m => m.Registered ∧ t ∉ m.timers) (fun _ => trivial) ?_ ops
    ⟨h, ht⟩
  rintro m op ⟨h, ht⟩ ⟨hlegal, hnew⟩
  obtain ⟨answer, m', hperform, hm', hsilent⟩ := h.perform hlegal
  obtain ⟨hout, hquiet⟩ := hsilent t ht hnew
  exact ⟨answer, m', hperform, hquiet, hm', hout⟩

/-- What holds between two operations. -/
structure Sound (m : TimerManager) : Prop where
  mem_iff : ∀ t, t ∈ m.timers ↔ (m.timer t).callback ≠ none
  ordered : m.timers.Pairwise fun t u =>
    (m.timer t).next < (m.timer u).next ∨ (m.timer t).next = (m.timer u).next ∧ t < u
  nodup : m.timers.Nodup
  refusesIdle : m.RefusesIdle

/-- What an operation does: `listExpiredCb` hands out the callbacks of the timers that it takes out,
and after a successful `cancel` no operation answers for that timer, whatever comes later. -/
def RightAnswer (m : TimerManager) : Operation → Answer → TimerManager → Prop
  | .cancel t, answer, m' => answer = .flag true → ∀ later, SilentRun t later m'
  | .listExpiredCb _ _, answer, _ =>
      ∃ timers, answer = .callbacks timers (timers.map fun t => (m.timer t).callback) ∧
        ∀ t ∈ timers, t ∈ m.timers
  | _, _, _ => True

theorem Registered.sound (h : m.Registered) : m.Sound where
  mem_iff := h.mem_iff
  ordered := h.ordered.imp fun hless => Timer.comparator_iff.mp hless
  nodup := OrderedSet.Sorted.nodup Timer.comparator_strictOrder h.ordered
  refusesIdle := h.refusesIdle

theorem Registered.rightAnswer (h : m.Registered) {op : Operation} {answer : Answer}
    (hperform : m.perform op = some (answer, m')) : m.RightAnswer op answer m' := by
  cases op with
  | cancel t =>
      rintro rfl later
      rcases h.cancel t with ⟨-, hcancel⟩ | ⟨-, m₁, hcancel, hout, hm₁⟩
      · simp [TimerManager.perform, hcancel] at hperform
      · obtain rfl : m₁ = m' := by simpa [TimerManager.perform, hcancel] using hperform
        exact hm₁.silentRun hout later
  | listExpiredCb now_ms now_timer =>
      obtain ⟨-, hin, hcbs⟩ := h.listExpiredCb now_ms now_timer
      obtain ⟨rfl, -⟩ := Prod.mk.inj (Option.some.inj hperform)
      exact ⟨_, by rw [hcbs], hin⟩
  | _ => trivial

/-- **Life cycle of timers.**  In every sequence of operations on a new manager, at any values of
the clock: no operation fails, the set is sound before and after each one, and the answers are
right. -/
theorem timer_lifeCycle (now : UInt64) (ops : List Operation) :
    runKeeps perform Legal Sound RightAnswer ops (new now) :=
  runKeeps_of_step (fun h => Registered.sound h)
    (fun {_ _} h hlegal =>
      let ⟨answer, m', hperform, hm', _⟩ := h.perform hlegal
      ⟨answer, m', hperform, h.rightAnswer hperform, hm'⟩)
    ops (.new now)

end TimerManager
end Routn
