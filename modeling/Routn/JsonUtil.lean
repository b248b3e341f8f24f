import Mathlib.Tactic

/-!
# `JsonUtil`

`Escape` counts how long its result is, makes a string of that length, and appends what it escapes
to it: `resize` where it should reserve.  So what is escaped stands behind as many null bytes.
-/

namespace Routn
namespace JsonUtil

/-- The characters that have an escape: `\f`, `\t`, `\r`, `\n`, `\b`, `"` and the backslash. -/
def special : List UInt8 := [12, 9, 13, 10, 8, 34, 92]

/-! ## The code -/

/-- The cases of `NeedEscape`. -/
def needs : UInt8 → Bool
  | 12 | 9 | 13 | 10 | 8 | 34 | 92 => true
  | _ => false

def NeedEscape (v : List UInt8) : Bool := v.any needs

/-- The cases of the first pass. -/
def width : UInt8 → Nat
  | 12 | 9 | 13 | 10 | 8 | 34 | 92 => 2
  | _ => 1

/-- The cases of the second. -/
def written : UInt8 → List UInt8
  | 12 => [92, 102]
  | 9 => [92, 116]
  | 13 => [92, 114]
  | 10 => [92, 110]
  | 8 => [92, 98]
  | 34 => [92, 34]
  | 92 => [92, 92]
  | c => [c]

def Escape (v : List UInt8) : List UInt8 :=
  let size := (v.map width).sum
  if size = v.length then v else v.foldl (fun rt c => rt ++ written c) (List.replicate size 0)

/-! ## Unescaping -/

/-- The character that a letter behind a backslash stands for. -/
def meant : UInt8 → Option UInt8
  | 102 => some 12
  | 116 => some 9
  | 114 => some 13
  | 110 => some 10
  | 98 => some 8
  | 34 => some 34
  | 92 => some 92
  | _ => none

/-- The seven escapes are interpreted. -/
def unescape : List UInt8 → Option (List UInt8)
  | [] => some []
  | [c] => if c = 92 then none else some [c]
  | c :: letter :: rest =>
      if c = 92 then (meant letter).bind fun d => (unescape rest).map (d :: ·)
      else (unescape (letter :: rest)).map (c :: ·)

/-- Outside of escapes there is none of the seven. -/
def Clean : List UInt8 → Prop
  | [] => True
  | [c] => c ∉ special
  | c :: letter :: rest => if c = 92 then Clean rest else c ∉ special ∧ Clean (letter :: rest)

structure EscapeRight (v : List UInt8) : Prop where
  undone : unescape (Escape v) = some v
  clean : Clean (Escape v)
  length : (Escape v).length = v.length + v.countP (· ∈ special)
  same : Escape v = v ↔ NeedEscape v = false

/-! ## The cases agree -/

section Cases

variable {c : UInt8} {rest : List UInt8}

theorem needs_iff : needs c = true ↔ c ∈ special := by
  unfold needs special
  split <;> simp_all

theorem width_eq : width c = if c ∈ special then 2 else 1 := by
  unfold width special
  split <;> simp_all

theorem length_written : (written c).length = width c := by
  unfold written width
  split <;> rfl

theorem unescape_cons (h : c ≠ 92) : unescape (c :: rest) = (unescape rest).map (c :: ·) := by
  cases rest <;> simp [unescape, h]

theorem clean_cons (h : c ≠ 92) : Clean (c :: rest) ↔ c ∉ special ∧ Clean rest := by
  cases rest <;> simp [Clean, h]

theorem unescape_written : unescape (written c ++ rest) = (unescape rest).map (c :: ·) := by
  unfold written
  split
  case h_8 => exact unescape_cons (by assumption)
  all_goals simp [unescape, meant]

theorem clean_written : Clean (written c ++ rest) ↔ Clean rest := by
  unfold written
  split
  case h_8 =>
      have hplain : c ∉ special := by simp_all [special]
      simp [clean_cons (show c ≠ 92 by assumption), hplain]
  all_goals simp [Clean]

end Cases

/-! ## The passes -/

section Passes

variable (v : List UInt8)

/-- The size of the first pass. -/
theorem sum_width : (v.map width).sum = v.length + v.countP (· ∈ special) := by
  induction v with
  | nil => rfl
  | cons c v ih =>
      by_cases hc : c ∈ special
      · simp [ih, width_eq, hc]
        omega
      · simp [ih, width_eq, hc]
        omega

theorem NeedEscape_eq_false_iff : NeedEscape v = false ↔ ∀ c ∈ v, c ∉ special := by
  simp [NeedEscape, ← needs_iff]

/-- What the second pass appends is undone by unescaping. -/
theorem unescape_flatMap : unescape (v.flatMap written) = some v := by
  induction v with
  | nil => rfl
  | cons c v ih => rw [List.flatMap_cons, unescape_written, ih, Option.map_some]

theorem clean_flatMap : Clean (v.flatMap written) := by
  induction v with
  | nil => trivial
  | cons c v ih => exact clean_written.mpr ih

/-- A string with nothing to escape. -/
theorem flatMap_written (h : ∀ c ∈ v, c ∉ special) : v.flatMap written = v := by
  induction v with
  | nil => rfl
  | cons c v ih =>
      have hplain : written c = [c] := by
        have hc := h c List.mem_cons_self
        unfold written special at *
        split <;> simp_all
      rw [List.flatMap_cons, hplain, ih fun d hd => h d (List.mem_cons_of_mem _ hd)]
      rfl

theorem size_eq_length_iff : (v.map width).sum = v.length ↔ ∀ c ∈ v, c ∉ special := by
  simp [sum_width]

theorem Escape_of_plain (h : ∀ c ∈ v, c ∉ special) : Escape v = v :=
  if_pos ((size_eq_length_iff v).mpr h)

theorem foldl_written (rt : List UInt8) :
    v.foldl (fun rt c => rt ++ written c) rt = rt ++ v.flatMap written := by
  induction v generalizing rt with
  | nil => exact (List.append_nil rt).symm
  | cons c v ih => rw [List.foldl_cons, ih, List.flatMap_cons, List.append_assoc]

/-- **What `Escape` gives** where there is something to escape: null bytes in front. -/
theorem Escape_of_special (h : ¬ ∀ c ∈ v, c ∉ special) :
    Escape v = List.replicate (v.length + v.countP (· ∈ special)) 0 ++ v.flatMap written := by
  have hsize : (v.map width).sum ≠ v.length := mt (size_eq_length_iff v).mp h
  rw [Escape, if_neg hsize, foldl_written, sum_width]

/-- The result is twice as long as it should be. -/
theorem length_Escape (h : ¬ ∀ c ∈ v, c ∉ special) :
    (Escape v).length = 2 * (v.length + v.countP (· ∈ special)) := by
  rw [Escape_of_special v h, List.length_append, List.length_replicate, List.length_flatMap]
  simp only [length_written, sum_width]
  omega

theorem Escape_eq_self_iff : Escape v = v ↔ NeedEscape v = false := by
  rw [NeedEscape_eq_false_iff]
  constructor
  · intro hsame
    by_contra hsome
    have hlength := length_Escape v hsome
    rw [hsame] at hlength
    have hempty : v = [] := List.length_eq_zero_iff.mp (by omega)
    exact hsome (by simp [hempty])
  · intro hnone
    exact Escape_of_plain v hnone

theorem clean_Escape : Clean (Escape v) := by
  by_cases hnone : ∀ c ∈ v, c ∉ special
  · rw [Escape_of_plain v hnone, ← flatMap_written v hnone]
    exact clean_flatMap v
  · rw [Escape_of_special v hnone]
    generalize v.length + v.countP (· ∈ special) = n
    induction n with
    | zero => exact clean_flatMap v
    | succ n ih =>
        rw [List.replicate_succ, List.cons_append, clean_cons (by decide)]
        exact ⟨by decide, ih⟩

end Passes

/-- **`Escape` is right** exactly for what it returns as it is.  Of the four parts `clean` and
`same` hold for every string. -/
theorem escape_iff (v : List UInt8) : EscapeRight v ↔ ∀ c ∈ v, c ∉ special := by
  constructor
  · intro hright
    by_contra hsome
    have hlength := hright.length
    rw [length_Escape v hsome] at hlength
    have hempty : v = [] := List.length_eq_zero_iff.mp (by omega)
    exact hsome (by simp [hempty])
  · intro hnone
    have hsame : Escape v = v := Escape_of_plain v hnone
    exact {
      undone := by
        rw [hsame]
        conv_lhs => rw [← flatMap_written v hnone]
        exact unescape_flatMap v
      clean := clean_Escape v
      length := by simpa [hsame] using hnone
      same := Escape_eq_self_iff v }

/-- One quote: two null bytes in front of its escape. -/
theorem not_escapeRight_quote : ¬ EscapeRight [34] := by
  intro hright
  exact absurd hright.undone (by decide)

end JsonUtil
end Routn
