import Mathlib.Tactic

/-!
# Occurrences of one list in another

`findFrom pat str pos` is the place of the first occurrence from `pos` on; an empty `pat` occurs
everywhere, also at the end.  `Replaced` says what is left when the occurrences are taken from the
left and do not overlap.
-/

namespace Routn
namespace Foundation

variable {α : Type*} [DecidableEq α]

/-- Where `pat` occurs for the first time. -/
def firstIn (pat : List α) : List α → Option Nat
  | [] => if pat = [] then some 0 else none
  | c :: str => if pat <+: c :: str then some 0 else (firstIn pat str).map (· + 1)

/-- The search in what is behind `pos`. -/
def findFrom (pat str : List α) (pos : Nat) : Option Nat :=
  if pos ≤ str.length then (firstIn pat (str.drop pos)).map (pos + ·) else none

/-- The first occurrence and every one behind it that does not overlap are replaced. -/
inductive Replaced (pat new : List α) : List α → List α → Prop
  | absent {str : List α} (habsent : ∀ i, ¬ pat <+: str.drop i) : Replaced pat new str str
  | first {front back result : List α}
      (hfirst : ∀ i < front.length, ¬ pat <+: (front ++ pat ++ back).drop i)
      (hback : Replaced pat new back result) :
      Replaced pat new (front ++ pat ++ back) (front ++ new ++ result)

variable {pat str : List α}

/-! ## The search -/

theorem not_prefix_of_firstIn (h : firstIn pat str = none) (i : Nat) : ¬ pat <+: str.drop i := by
  induction str generalizing i with
  | nil =>
      have hne : pat ≠ [] := by
        intro hempty
        simp [firstIn, hempty] at h
      simpa using hne
  | cons c str ih =>
      rw [firstIn] at h
      split at h
      · cases h
      · next hnot =>
          cases i with
          | zero => exact hnot
          | succ i => exact ih (by simpa using h) i

/-- What is found is an occurrence, and none is in front of it. -/
theorem split_of_firstIn {i : Nat} (h : firstIn pat str = some i) :
    ∃ front back, str = front ++ pat ++ back ∧ front.length = i ∧
      ∀ j < i, ¬ pat <+: str.drop j := by
  induction str generalizing i with
  | nil =>
      rw [firstIn] at h
      split at h
      · next hempty =>
          cases h
          exact ⟨[], [], by simp [hempty], rfl, by simp⟩
      · cases h
  | cons c str ih =>
      rw [firstIn] at h
      split at h
      · next hhere =>
          cases h
          obtain ⟨back, hback⟩ := hhere
          exact ⟨[], back, by simpa using hback.symm, rfl, by simp⟩
      · next hnot =>
          obtain ⟨k, hk, rfl⟩ := Option.map_eq_some_iff.mp h
          obtain ⟨front, back, hsplit, hlength, hbefore⟩ := ih hk
          refine ⟨c :: front, back, by simp [hsplit], by simp [hlength], fun j hj => ?_⟩
          cases j with
          | zero => exact hnot
          | succ j => exact hbefore j (by omega)

@[simp] theorem findFrom_append (pat front rest : List α) :
    findFrom pat (front ++ rest) front.length = (firstIn pat rest).map (front.length + ·) := by
  simp [findFrom]

theorem firstIn_nil (str : List α) : firstIn [] str = some 0 := by
  cases str <;> simp [firstIn]

/-- The empty list is found where the search begins. -/
theorem findFrom_nil {pos : Nat} (h : pos ≤ str.length) : findFrom [] str pos = some pos := by
  simp [findFrom, firstIn_nil, h]

end Foundation
end Routn
