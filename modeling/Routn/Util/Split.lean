import Mathlib.Tactic

/-!
# `split`

The limit is counted down before it is compared with one.  So a limit of one never meets the
comparison: it is zero the first time, and wraps around.
-/

namespace Routn
namespace Util

/-! ## The two overloads -/

/-- The loop, from what `find` has left on; `str.find(delim, last)` looks at `str.substr(last)`. -/
def splitLoop (isDelim : UInt8 → Bool) : Nat → UInt64 → List UInt8 → List (List UInt8)
  | 0, _, rest => [rest]
  | fuel + 1, max, rest =>
      match rest.findIdx? isDelim with
      | none => [rest]
      | some pos =>
          rest.take pos ::
            if max - 1 = 1 then [rest.drop (pos + 1)]
            else splitLoop isDelim fuel (max - 1) (rest.drop (pos + 1))

/-- `split(str, delim, max)`. -/
def split (str : List UInt8) (delim : UInt8) (max : UInt64) : List (List UInt8) :=
  if str.isEmpty then [] else splitLoop (· == delim) (str.length + 1) max str

/-- `split(str, delims, max)`. -/
def splitAny (str delims : List UInt8) (max : UInt64) : List (List UInt8) :=
  if str.isEmpty then [] else splitLoop (delims.contains ·) (str.length + 1) max str

/-! ## What is asked of the pieces -/

/-- The pieces, with a delimiter between one and the next, are the string. -/
inductive Joins (isDelim : UInt8 → Bool) : List (List UInt8) → List UInt8 → Prop
  | last (piece : List UInt8) : Joins isDelim [piece] piece
  | cut {piece rest : List UInt8} {pieces : List (List UInt8)} {c : UInt8}
      (hdelim : isDelim c = true) (hrest : Joins isDelim pieces rest) :
      Joins isDelim (piece :: pieces) (piece ++ c :: rest)

/-- No delimiter is in it. -/
def Whole (isDelim : UInt8 → Bool) (piece : List UInt8) : Prop := ∀ c ∈ piece, isDelim c = false

structure Splits (isDelim : UInt8 → Bool) (max : Nat) (str : List UInt8)
    (pieces : List (List UInt8)) : Prop where
  joined : Joins isDelim pieces str
  count : pieces.length ≤ max
  inner : ∀ piece ∈ pieces.dropLast, Whole isDelim piece
  last : pieces.length < max → ∀ piece ∈ pieces, Whole isDelim piece

section Loop

variable {isDelim : UInt8 → Bool} {fuel : Nat} {max : UInt64} {rest : List UInt8}

theorem splitLoop_ne_nil : splitLoop isDelim fuel max rest ≠ [] := by
  cases fuel with
  | zero => simp [splitLoop]
  | succ fuel =>
      rw [splitLoop]
      split <;> simp

theorem whole_of_findIdx?_eq_none (h : rest.findIdx? isDelim = none) : Whole isDelim rest := by
  simpa [Whole] using h

section Cut

variable {pos : Nat} (hpos : rest.findIdx? isDelim = some pos)
include hpos

theorem lt_length_of_findIdx? : pos < rest.length :=
  (List.findIdx?_eq_some_iff_getElem.mp hpos).1

theorem whole_take : Whole isDelim (rest.take pos) := by
  have hbefore := (List.findIdx?_eq_some_iff_getElem.mp hpos).2.2
  intro c hc
  obtain ⟨i, hi, rfl⟩ := List.mem_take_iff_getElem.mp hc
  simpa using hbefore i (by omega)

theorem not_whole : ¬ Whole isDelim rest := by
  intro hwhole
  simp [List.findIdx?_eq_none_iff.mpr hwhole] at hpos

/-- The delimiter that was found stands between the piece and what is left. -/
theorem Joins.cut_at {pieces : List (List UInt8)}
    (hrest : Joins isDelim pieces (rest.drop (pos + 1))) :
    Joins isDelim (rest.take pos :: pieces) rest := by
  have hlt := lt_length_of_findIdx? hpos
  have hdelim : isDelim rest[pos] = true := (List.findIdx?_eq_some_iff_getElem.mp hpos).2.1
  have hcut : Joins isDelim (rest.take pos :: pieces)
      (rest.take pos ++ rest[pos] :: rest.drop (pos + 1)) := .cut hdelim hrest
  rwa [List.getElem_cons_drop, List.take_append_drop] at hcut

end Cut

theorem toNat_pred (hmax : 1 ≤ max.toNat) : (max - 1).toNat = max.toNat - 1 := by
  rw [UInt64.toNat_sub_of_le _ _ (UInt64.le_iff_toNat_le.mpr (by simpa using hmax))]
  simp

/-- **The loop with a limit of two or more.** -/
theorem splits_splitLoop (hfuel : rest.length < fuel) (hmax : 2 ≤ max.toNat) :
    Splits isDelim max.toNat rest (splitLoop isDelim fuel max rest) := by
  induction fuel generalizing max rest with
  | zero => exact absurd hfuel (Nat.not_lt_zero _)
  | succ fuel ih =>
      rw [splitLoop]
      cases hpos : rest.findIdx? isDelim with
      | none =>
          have hwhole := whole_of_findIdx?_eq_none hpos
          exact {
            joined := .last rest
            count := by simp; omega
            inner := by simp
            last := by simpa using fun _ => hwhole }
      | some pos =>
          have hwhole := whole_take hpos
          have hpred : (max - 1).toNat = max.toNat - 1 := toNat_pred (by omega)
          by_cases hone : max - 1 = 1
          · -- The limit is two: what is left is the last piece, whatever is in it.
            have htwo : max.toNat = 2 := by
              have hnat := congrArg UInt64.toNat hone
              simp [hpred] at hnat
              omega
            simp only [if_pos hone]
            exact {
              joined := (Joins.last _).cut_at hpos
              count := by simp [htwo]
              inner := by simpa using hwhole
              last := by simp [htwo] }
          · have hmore : 2 ≤ (max - 1).toNat := by
              have hne : (max - 1).toNat ≠ 1 := fun h => hone (UInt64.toNat_inj.mp h)
              omega
            have hshort : (rest.drop (pos + 1)).length < fuel := by
              have hlt := lt_length_of_findIdx? hpos
              simp
              omega
            have hrest := ih hshort hmore
            simp only [if_neg hone]
            exact {
              joined := hrest.joined.cut_at hpos
              count := by
                have hcount := hrest.count
                simp
                omega
              inner := by
                rw [List.dropLast_cons_of_ne_nil splitLoop_ne_nil]
                simpa using ⟨hwhole, hrest.inner⟩
              last := by
                intro hfew
                simp only [List.length_cons] at hfew
                simpa using ⟨hwhole, hrest.last (by omega)⟩ }

/-- With a limit of one the first cut makes the limit zero, and there are two pieces or more. -/
theorem splits_splitLoop_one (hfuel : rest.length < fuel) :
    Splits isDelim 1 rest (splitLoop isDelim fuel 1 rest) ↔ Whole isDelim rest := by
  cases fuel with
  | zero => exact absurd hfuel (Nat.not_lt_zero _)
  | succ fuel =>
      rw [splitLoop]
      cases hpos : rest.findIdx? isDelim with
      | none =>
          have hwhole := whole_of_findIdx?_eq_none hpos
          have hsplits : Splits isDelim 1 rest [rest] := {
            joined := .last rest
            count := by simp
            inner := by simp
            last := by simp }
          simp [hwhole, hsplits]
      | some pos =>
          have hcount (pieces : List (List UInt8)) (hpieces : pieces ≠ []) :
              ¬ Splits isDelim 1 rest (rest.take pos :: pieces) := by
            intro hsplits
            apply hpieces
            simpa using hsplits.count
          have hzero : ¬ (1 : UInt64) - 1 = 1 := by decide
          simpa only [if_neg hzero, not_whole hpos, iff_false] using hcount _ splitLoop_ne_nil

/-- **What a limit does.** -/
theorem splits_iff (hfuel : rest.length < fuel) (hmax : 1 ≤ max.toNat) :
    Splits isDelim max.toNat rest (splitLoop isDelim fuel max rest) ↔
      max ≠ 1 ∨ Whole isDelim rest := by
  by_cases hone : max = 1
  · subst hone
    simpa using splits_splitLoop_one hfuel
  · have hne : max.toNat ≠ 1 := fun h => hone (UInt64.toNat_inj.mp h)
    simpa [hone] using splits_splitLoop hfuel (by omega)

end Loop

/-! ## `split` -/

/-- **Splitting with a limit**, in both overloads. -/
theorem split_iff {str : List UInt8} (hne : str ≠ []) {max : UInt64} (hmax : 1 ≤ max.toNat)
    (delim : UInt8) (delims : List UInt8) :
    (Splits (· == delim) max.toNat str (split str delim max) ↔
      max ≠ 1 ∨ Whole (· == delim) str) ∧
    (Splits (delims.contains ·) max.toNat str (splitAny str delims max) ↔
      max ≠ 1 ∨ Whole (delims.contains ·) str) := by
  have hempty : ¬ str.isEmpty = true := fun h => hne (List.isEmpty_iff.mp h)
  rw [split, splitAny, if_neg hempty, if_neg hempty]
  exact ⟨splits_iff (Nat.lt_succ_self _) hmax, splits_iff (Nat.lt_succ_self _) hmax⟩

/-- `split_iff` for `a,b` and a limit of two. -/
theorem split_iff_two :
    Splits (· == 44) 2 [97, 44, 98] (split [97, 44, 98] 44 2) ∧
      Splits ([44].contains ·) 2 [97, 44, 98] (splitAny [97, 44, 98] [44] 2) := by
  have hboth := @split_iff [97, 44, 98] (by decide) 2 (by decide) 44 [44]
  exact ⟨hboth.1.mpr (.inl (by decide)), hboth.2.mpr (.inl (by decide))⟩

/-- **A limit of one**: two pieces. -/
theorem not_splits_one : ¬ Splits (· == 44) 1 [97, 44, 98] (split [97, 44, 98] 44 1) := by
  intro hsplits
  exact absurd hsplits.count (by decide)

end Util
end Routn
