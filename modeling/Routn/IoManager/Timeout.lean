import Mathlib.Data.UInt
import Routn.Streams.Stream
import Routn.Timer.Deadlines

/-!
# How long `idle` waits

The timeout that `IOManager::idle` passes to `epoll_wait`.  `getNextTimer` answers with 64 bits, and
`idle` narrows them to `int` before it compares them with `MAX_TIMEOUT`: a distance with bit 31 set
becomes a negative number, which is not greater, so that nothing is clamped and `epoll_wait` waits
without end.  Of other distances of more than 32 bits it takes the low bits, and that is not too
long.

The loop that starts `epoll_wait` again after `EINTR` narrows and clamps what it has clamped, and
passes the same timeout each time.
-/

namespace Routn

open Foundation

namespace IOManager

def MAX_TIMEOUT : UInt64 := 3000

/-- What an iteration of the loop around `epoll_wait` makes of `next_timeout`. -/
def clamp (next_timeout : UInt64) : UInt64 :=
  if next_timeout ≠ ~~~0 then
    if toInt next_timeout.toNat > MAX_TIMEOUT.toNat then MAX_TIMEOUT else next_timeout
  else MAX_TIMEOUT

/-- The loop around `epoll_wait`, which is interrupted so many times: the timeouts that it
passes. -/
def waits : Nat → UInt64 → List Int
  | 0, next_timeout => [toInt (clamp next_timeout).toNat]
  | interrupts + 1, next_timeout =>
      toInt (clamp next_timeout).toNat :: waits interrupts (clamp next_timeout)

/-- `stopping(timeout)`; `schedular` is the answer of `Schedular::stopping`. -/
def stopping (timers : TimerManager) (now_ms : UInt64) (pendingEventCount : Nat)
    (schedular : Bool) : Bool × UInt64 × TimerManager :=
  let (timeout, timers) := timers.getNextTimer now_ms
  (timeout == ~~~0 && pendingEventCount == 0 && schedular, timeout, timers)

/-- One iteration of `idle` up to `listExpiredCb`: the timeouts that it passes to `epoll_wait`, none
of them when it stops. -/
def idleWaits (timers : TimerManager) (now_ms : UInt64) (pendingEventCount : Nat)
    (schedular : Bool) (interrupts : Nat) : List Int :=
  let (stops, next_timeout, _) := stopping timers now_ms pendingEventCount schedular
  if stops then [] else waits interrupts next_timeout

/-! ## Clamping -/

/-- Milliseconds from `now_ms` on to `next`, none when it has passed. -/
def timeTo (next now_ms : UInt64) : Nat := next.toNat - now_ms.toNat

/-- Narrowing to `int` keeps the sign. -/
def Narrows (distance : Nat) : Prop := distance % 2 ^ 32 < 2 ^ 31 ∨ distance = 2 ^ 64 - 1

instance (distance : Nat) : Decidable (Narrows distance) := inferInstanceAs (Decidable (_ ∨ _))

theorem toInt_eq (n : Nat) :
    toInt n = if n % 2 ^ 32 < 2 ^ 31 then ((n % 2 ^ 32 : Nat) : Int)
      else ((n % 2 ^ 32 : Nat) : Int) - 2 ^ 32 := by
  unfold toInt
  split <;> omega

theorem not_zero_toNat : (~~~0 : UInt64).toNat = 2 ^ 64 - 1 := by decide

/-- What is clamped is clamped already. -/
theorem clamp_clamp (next_timeout : UInt64) : clamp (clamp next_timeout) = clamp next_timeout := by
  have hmax : clamp MAX_TIMEOUT = MAX_TIMEOUT := by decide
  unfold clamp
  split
  · next hsome =>
      split
      · exact hmax
      · rfl
  · exact hmax

theorem mem_waits {interrupts : Nat} {next_timeout : UInt64} {timeout : Int} :
    timeout ∈ waits interrupts next_timeout ↔ timeout = toInt (clamp next_timeout).toNat := by
  induction interrupts generalizing next_timeout with
  | zero => simp [waits]
  | succ interrupts ih => simp [waits, ih, clamp_clamp]

/-- The timeout for a distance that keeps its sign. -/
theorem toInt_clamp {next_timeout : UInt64} (h : Narrows next_timeout.toNat) :
    toInt (clamp next_timeout).toNat =
      ((min MAX_TIMEOUT.toNat (next_timeout.toNat % 2 ^ 32) : Nat) : Int) := by
  have hmax : MAX_TIMEOUT.toNat = 3000 := by decide
  have hsmall : toInt 3000 = 3000 := by decide
  unfold clamp
  rw [hmax]
  split
  · next hsome =>
      have hlow : next_timeout.toNat % 2 ^ 32 < 2 ^ 31 := by
        apply h.resolve_right
        intro hall
        apply hsome
        rw [← UInt64.toNat_inj, hall, not_zero_toNat]
      have heq := toInt_eq next_timeout.toNat
      rw [if_pos hlow] at heq
      split
      · rw [hmax, hsmall]
        omega
      · rw [heq]
        omega
  · next hnone =>
      have hall : next_timeout.toNat = 2 ^ 64 - 1 := by
        rw [not_not.mp hnone, not_zero_toNat]
      rw [hmax, hsmall, hall]
      decide

/-- The timeout for any other distance. -/
theorem toInt_clamp_neg {next_timeout : UInt64} (h : ¬ Narrows next_timeout.toNat) :
    toInt (clamp next_timeout).toNat < 0 := by
  unfold Narrows at h
  push Not at h
  obtain ⟨hhigh, hnot⟩ := h
  have hsome : next_timeout ≠ ~~~0 := by
    rintro rfl
    exact hnot not_zero_toNat
  have heq := toInt_eq next_timeout.toNat
  rw [if_neg (by omega)] at heq
  unfold clamp
  rw [if_pos hsome, if_neg (by omega), heq]
  omega

/-! ## Waiting -/

/-- What is asked of a timeout when the clock shows `clock`. -/
structure Fits (timers : TimerManager) (clock : UInt64) (timeout : Int) : Prop where
  nonneg : 0 ≤ timeout
  le_max : timeout ≤ 3000
  le_timeTo : ∀ t ∈ timers.timers, timeout ≤ timeTo (timers.timer t).next clock

section Waiting

variable {timers : TimerManager} {now_ms : UInt64} {pendingEventCount : Nat} {schedular : Bool}

theorem getNextTimer_nil (htimers : timers.timers = []) :
    (timers.getNextTimer now_ms).1 = ~~~0 := by
  simp [TimerManager.getNextTimer, htimers]

theorem getNextTimer_cons (now_ms : UInt64) {first : Nat} {rest : List Nat}
    (htimers : timers.timers = first :: rest) :
    (timers.getNextTimer now_ms).1.toNat = timeTo (timers.timer first).next now_ms := by
  unfold TimerManager.getNextTimer timeTo
  simp only [htimers]
  split
  · next hpast =>
      rw [UInt64.le_iff_toNat_le] at hpast
      simp [Nat.sub_eq_zero_of_le hpast]
  · next hfuture =>
      rw [UInt64.not_le] at hfuture
      exact UInt64.toNat_sub_of_le _ _ (UInt64.le_of_lt hfuture)

/-- No timer is due before the first one, at any time. -/
theorem timeTo_first_le (h : timers.Ordered) {first : Nat} {rest : List Nat}
    (htimers : timers.timers = first :: rest) {t : Nat} (ht : t ∈ timers.timers) (clock : UInt64) :
    timeTo (timers.timer first).next clock ≤ timeTo (timers.timer t).next clock := by
  have hle := UInt64.le_iff_toNat_le.mp (h.head_le htimers ht)
  unfold timeTo
  omega

theorem idleWaits_eq (hgo : (stopping timers now_ms pendingEventCount schedular).1 = false)
    (interrupts : Nat) :
    idleWaits timers now_ms pendingEventCount schedular interrupts =
      waits interrupts (timers.getNextTimer now_ms).1 := by
  have hif : idleWaits timers now_ms pendingEventCount schedular interrupts =
      if (stopping timers now_ms pendingEventCount schedular).1 then []
      else waits interrupts (timers.getNextTimer now_ms).1 := rfl
  rw [hif, hgo, if_neg Bool.false_ne_true]

/-- The calls of `epoll_wait` at their times all pass the same timeout. -/
theorem forall_waits_iff (p : UInt64 → Int → Prop) (restarts : List UInt64)
    (next_timeout : UInt64) :
    (∀ call ∈ (now_ms :: restarts).zip (waits restarts.length next_timeout), p call.1 call.2) ↔
      ∀ clock ∈ now_ms :: restarts, p clock (toInt (clamp next_timeout).toNat) := by
  induction restarts generalizing now_ms next_timeout with
  | nil => simp [waits]
  | cons clock restarts ih =>
      rw [List.length_cons, waits, List.zip_cons_cons, List.forall_mem_cons, List.forall_mem_cons,
        ih, clamp_clamp]

/-- A timeout that is asked to fit at one time. -/
theorem fits_iff (h : timers.Ordered) (clock : UInt64) :
    Fits timers clock (toInt (clamp (timers.getNextTimer now_ms).1).toNat) ↔
      ∀ first, timers.timers.head? = some first →
        Narrows (timeTo (timers.timer first).next now_ms) ∧
          min 3000 (timeTo (timers.timer first).next now_ms % 2 ^ 32) ≤
            timeTo (timers.timer first).next clock := by
  cases htimers : timers.timers with
  | nil =>
      have hnone : toInt (clamp (timers.getNextTimer now_ms).1).toNat = 3000 := by
        rw [getNextTimer_nil htimers]
        decide
      constructor
      · intro _ first hfirst
        cases hfirst
      · intro _
        rw [hnone]
        constructor
        · decide
        · decide
        · simp [htimers]
  | cons first rest =>
      have hdistance := getNextTimer_cons now_ms htimers
      simp only [List.head?_cons, Option.some.injEq, forall_eq']
      by_cases hnarrows : Narrows (timeTo (timers.timer first).next now_ms)
      · have htimeout := toInt_clamp (hdistance ▸ hnarrows)
        rw [hdistance, show MAX_TIMEOUT.toNat = 3000 by decide] at htimeout
        rw [htimeout]
        constructor
        · intro hfits
          refine ⟨hnarrows, ?_⟩
          have hle := hfits.le_timeTo first (htimers ▸ List.mem_cons_self)
          exact Int.ofNat_le.mp hle
        · rintro ⟨-, hle⟩
          constructor
          · omega
          · omega
          · intro t ht
            have hfirst := timeTo_first_le h htimers ht clock
            exact Int.ofNat_le.mpr (hle.trans hfirst)
      · have hneg := toInt_clamp_neg (hdistance ▸ hnarrows)
        constructor
        · intro hfits
          have hnonneg := hfits.nonneg
          omega
        · rintro ⟨hyes, -⟩
          exact absurd hyes hnarrows

/-- **The timeouts of `idle`** fit at the time for which they are computed exactly if the distance
to the earliest deadline keeps its sign.  At the times of the restarts they fit exactly if, besides,
none of them comes later than the timeout before that deadline. -/
theorem idleWaits_fit_iff (h : timers.Ordered)
    (hgo : (stopping timers now_ms pendingEventCount schedular).1 = false) :
    (∀ interrupts,
      (∀ timeout ∈ idleWaits timers now_ms pendingEventCount schedular interrupts,
        Fits timers now_ms timeout) ↔
      ∀ first, timers.timers.head? = some first →
        Narrows (timeTo (timers.timer first).next now_ms)) ∧
    ∀ restarts : List UInt64,
      (∀ call ∈ (now_ms :: restarts).zip
          (idleWaits timers now_ms pendingEventCount schedular restarts.length),
        Fits timers call.1 call.2) ↔
      ∀ first, timers.timers.head? = some first →
        Narrows (timeTo (timers.timer first).next now_ms) ∧
          ∀ clock ∈ restarts, min 3000 (timeTo (timers.timer first).next now_ms % 2 ^ 32) ≤
            timeTo (timers.timer first).next clock := by
  have hnow : Fits timers now_ms (toInt (clamp (timers.getNextTimer now_ms).1).toNat) ↔
      ∀ first, timers.timers.head? = some first →
        Narrows (timeTo (timers.timer first).next now_ms) := by
    rw [fits_iff h now_ms]
    apply forall₂_congr
    intro first hfirst
    apply and_iff_left
    exact (Nat.min_le_right _ _).trans (Nat.mod_le _ _)
  constructor
  · intro interrupts
    rw [idleWaits_eq hgo, ← hnow]
    constructor
    · intro hall
      exact hall _ (mem_waits.mpr rfl)
    · intro hfits timeout htimeout
      rw [mem_waits.mp htimeout]
      exact hfits
  · intro restarts
    rw [idleWaits_eq hgo, forall_waits_iff, List.forall_mem_cons, hnow]
    constructor
    · rintro ⟨hnarrows, hrestarts⟩ first hfirst
      refine ⟨hnarrows first hfirst, fun clock hclock => ?_⟩
      exact ((fits_iff h clock).mp (hrestarts clock hclock) first hfirst).2
    · intro hall
      constructor
      · intro first hfirst
        exact (hall first hfirst).1
      · intro clock hclock
        rw [fits_iff h clock]
        intro first hfirst
        exact ⟨(hall first hfirst).1, (hall first hfirst).2 clock hclock⟩

end Waiting

/-- One timer, due after so many milliseconds. -/
def dueAfter (ms : UInt64) : TimerManager where
  timer := fun _ => .new ms (some 0) false 0
  timers := [1]
  tickled := false
  previousTime := 0

theorem dueAfter_ordered (ms : UInt64) : (dueAfter ms).Ordered := List.pairwise_singleton _ _

/-- `idleWaits_fit_iff` for a timer that is due after a second, with one restart. -/
theorem idleWaits_dueAfter : idleWaits (dueAfter 1000) 0 0 false 1 = [1000, 1000] ∧
    ∀ timeout ∈ idleWaits (dueAfter 1000) 0 0 false 1, Fits (dueAfter 1000) 0 timeout := by
  refine ⟨by decide, ?_⟩
  rw [(idleWaits_fit_iff (dueAfter_ordered 1000) (by decide)).1 1]
  rintro first ⟨⟩
  decide

/-- **A timer that is due after 2^31 milliseconds** makes `idle` wait without end. -/
theorem not_fits_dueAfter :
    idleWaits (dueAfter (2 ^ 31)) 0 0 false 0 = [-2 ^ 31] ∧
      ¬ ∀ timeout ∈ idleWaits (dueAfter (2 ^ 31)) 0 0 false 0,
        Fits (dueAfter (2 ^ 31)) 0 timeout := by
  have hwaits : idleWaits (dueAfter (2 ^ 31)) 0 0 false 0 = [-2 ^ 31] := by decide
  refine ⟨hwaits, fun hall => ?_⟩
  have hfits := hall (-2 ^ 31) (by simp [hwaits])
  have hnonneg := hfits.nonneg
  omega

end IOManager
end Routn
