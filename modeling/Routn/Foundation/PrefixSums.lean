import Mathlib.Algebra.Order.BigOperators.Group.List
import Mathlib.Order.Interval.Finset.Nat
import Mathlib.Tactic

/-!
# Choosing by prefix sums

The weights of a list are added up one after the other, and a number below the total chooses the
first place whose sum exceeds it.  Every place is chosen by as many numbers as its weight says
(`card_firstOver`).
-/

namespace Routn
namespace Foundation

/-- The sums of the weights, counted from `total`. -/
def sums : Nat → List Nat → List Nat
  | _, [] => []
  | total, w :: ws => (total + w) :: sums (total + w) ws

variable {total d i w : Nat} {ws : List Nat}

@[simp] theorem length_sums (total : Nat) (ws : List Nat) :
    (sums total ws).length = ws.length := by
  induction ws generalizing total with
  | nil => rfl
  | cons w ws ih => rw [sums, List.length_cons, List.length_cons, ih]

theorem getElem?_sums (h : i < ws.length) :
    (sums total ws)[i]? = some (total + (ws.take (i + 1)).sum) := by
  induction ws generalizing total i with
  | nil => cases h
  | cons w ws ih =>
      cases i with
      | zero => simp [sums]
      | succ i =>
          have hi : i < ws.length := Nat.lt_of_succ_lt_succ h
          rw [sums, List.getElem?_cons_succ, ih hi, List.take_succ_cons, List.sum_cons,
            Nat.add_assoc]

theorem getElem?_cons_sums (h : i < ws.length) :
    (total :: sums total ws)[i]? = some (total + (ws.take i).sum) := by
  cases i with
  | zero => simp
  | succ i =>
      have hi : i < ws.length := Nat.lt_of_succ_lt h
      rw [List.getElem?_cons_succ, getElem?_sums hi]

theorem getLast?_sums (total : Nat) (h : ws ≠ []) :
    (sums total ws).getLast? = some (total + ws.sum) := by
  have hlast : ws.length - 1 < ws.length := Nat.sub_lt (List.length_pos_of_ne_nil h) Nat.one_pos
  have hall : ws.take (ws.length - 1 + 1) = ws := List.take_of_length_le (by omega)
  rw [List.getLast?_eq_getElem?, length_sums, getElem?_sums hlast, hall]

theorem le_of_mem_sums (h : d ∈ sums total ws) : total ≤ d ∧ d ≤ total + ws.sum := by
  induction ws generalizing total with
  | nil => cases h
  | cons w ws ih =>
      rw [List.sum_cons]
      rcases List.mem_cons.mp h with rfl | hrest
      · omega
      · have := ih hrest
        omega

theorem pairwise_sums (total : Nat) (ws : List Nat) : (sums total ws).Pairwise (· ≤ ·) := by
  induction ws generalizing total with
  | nil => exact .nil
  | cons w ws ih => exact .cons (fun d hd => (le_of_mem_sums hd).1) (ih (total + w))

/-- The first place whose sum exceeds `d`. -/
def firstOver (d : Nat) (ws : List Nat) : Nat := (sums 0 ws).findIdx (d < ·)

theorem sum_take_succ (h : ws[i]? = some w) : (ws.take (i + 1)).sum = (ws.take i).sum + w := by
  rw [List.take_add_one, h, Option.toList_some, List.sum_append, List.sum_singleton]

theorem sum_take_le_sum_take {j : Nat} (h : i ≤ j) (ws : List Nat) :
    (ws.take i).sum ≤ (ws.take j).sum :=
  (List.take_sublist_take_left h).sum_le_sum fun _ _ => Nat.zero_le _

/-- Some place is chosen by every number below the total. -/
theorem firstOver_lt (h : d < ws.sum) : firstOver d ws < ws.length := by
  have hne : ws ≠ [] := by
    rintro rfl
    exact absurd h (Nat.not_lt_zero d)
  have hlast := List.mem_of_getLast? (getLast?_sums 0 hne)
  rw [firstOver, ← length_sums 0 ws, List.findIdx_lt_length]
  exact ⟨_, hlast, by simpa using h⟩

/-- **A place and what chooses it**: the numbers between its sum and the one before. -/
theorem firstOver_eq_iff (h : i < ws.length) :
    firstOver d ws = i ↔ (ws.take i).sum ≤ d ∧ d < (ws.take (i + 1)).sum := by
  have hsum : ∀ j, (hj : j < (sums 0 ws).length) → (sums 0 ws)[j] = (ws.take (j + 1)).sum := by
    intro j hj
    apply Option.some.inj
    rw [← List.getElem?_eq_getElem hj, getElem?_sums (by simpa using hj), Nat.zero_add]
  have hi : i < (sums 0 ws).length := by simpa using h
  rw [firstOver, List.findIdx_eq hi]
  simp only [hsum, decide_eq_true_eq, decide_eq_false_iff_not, not_lt]
  constructor
  · rintro ⟨hupper, hlower⟩
    refine ⟨?_, hupper⟩
    cases i with
    | zero => simp
    | succ i => exact hlower i (Nat.lt_succ_self i)
  · rintro ⟨hlower, hupper⟩
    refine ⟨hupper, fun j hj => ?_⟩
    exact (sum_take_le_sum_take hj ws).trans hlower

/-- **A place is chosen by as many numbers as its weight.** -/
theorem card_firstOver (h : ws[i]? = some w) :
    ((Finset.range ws.sum).filter fun d => firstOver d ws = i).card = w := by
  have hi : i < ws.length := (List.getElem?_eq_some_iff.mp h).1
  have hle : (ws.take (i + 1)).sum ≤ ws.sum := by
    have := sum_take_le_sum_take (Nat.succ_le_of_lt hi) ws
    rwa [List.take_length] at this
  have hinterval : (Finset.range ws.sum).filter (fun d => firstOver d ws = i) =
      Finset.Ico (ws.take i).sum (ws.take (i + 1)).sum := by
    ext d
    simp only [Finset.mem_filter, Finset.mem_range, Finset.mem_Ico, firstOver_eq_iff hi]
    omega
  rw [hinterval, Nat.card_Ico, sum_take_succ h, Nat.add_sub_cancel_left]

end Foundation
end Routn
