import Mathlib.Tactic
import Routn.Foundation.Occurrence

/-!
# `replace`

Each of the three loops searches behind what it has put in.  What is left of the string gets shorter
with every occurrence, as long as an occurrence is not empty.
-/

namespace Routn
namespace Util

open Foundation

/-! ## The overloads -/

/-- The loop of `replace(str1, find, replaceWith)` with two characters. -/
def replaceCharLoop (find replaceWith : UInt8) :
    Nat → List UInt8 → Option Nat → Option (List UInt8)
  | _, str, none => some str
  | 0, _, some _ => none
  | fuel + 1, str, some index =>
      let str := str.set index replaceWith
      replaceCharLoop find replaceWith fuel str (findFrom [find] str (index + 1))

/-- The loop with a character and a string. -/
def replaceCharByStringLoop (find : UInt8) (replaceWith : List UInt8) :
    Nat → List UInt8 → Option Nat → Option (List UInt8)
  | _, str, none => some str
  | 0, _, some _ => none
  | fuel + 1, str, some index =>
      let str := str.take index ++ replaceWith ++ str.drop (index + 1)
      replaceCharByStringLoop find replaceWith fuel str
        (findFrom [find] str (index + replaceWith.length))

/-- The loop with two strings. -/
def replaceStringLoop (find replaceWith : List UInt8) :
    Nat → List UInt8 → Option Nat → Option (List UInt8)
  | _, str, none => some str
  | 0, _, some _ => none
  | fuel + 1, str, some index =>
      let str := str.take index ++ replaceWith ++ str.drop (index + find.length)
      replaceStringLoop find replaceWith fuel str (findFrom find str (index + replaceWith.length))

/-- The arguments of the overloads, but for the string. -/
inductive Overload
  | chars (find replaceWith : UInt8)
  | charByString (find : UInt8) (replaceWith : List UInt8)
  | strings (find replaceWith : List UInt8)
deriving DecidableEq, Repr

namespace Overload

/-- What is searched for. -/
def find : Overload → List UInt8
  | chars find _ => [find]
  | charByString find _ => [find]
  | strings find _ => find

def replaceWith : Overload → List UInt8
  | chars _ replaceWith => [replaceWith]
  | charByString _ replaceWith => replaceWith
  | strings _ replaceWith => replaceWith

end Overload

/-- `replace`, with a bound on the number of its iterations; `none` when it goes on. -/
def replace (fuel : Nat) (str1 : List UInt8) : Overload → Option (List UInt8)
  | .chars find replaceWith =>
      replaceCharLoop find replaceWith fuel str1 (findFrom [find] str1 0)
  | .charByString find replaceWith =>
      replaceCharByStringLoop find replaceWith fuel str1 (findFrom [find] str1 0)
  | .strings find replaceWith =>
      replaceStringLoop find replaceWith fuel str1 (findFrom find str1 0)

/-- The loop comes to its end, with the occurrences replaced. -/
structure Replaces (str : List UInt8) (call : Overload) : Prop where
  terminates : ∃ fuel, (replace fuel str call).isSome
  replaced : ∀ fuel result, replace fuel str call = some result →
    Replaced call.find call.replaceWith str result

/-! ## One loop for all -/

section Loops

variable {find replaceWith : List UInt8} {c r : UInt8} {fuel : Nat} {str : List UInt8}

theorem replaceCharByStringLoop_eq (fuel : Nat) (str : List UInt8) (index : Option Nat) :
    replaceCharByStringLoop c replaceWith fuel str index =
      replaceStringLoop [c] replaceWith fuel str index := by
  induction fuel generalizing str index with
  | zero => cases index <;> rfl
  | succ fuel ih =>
      cases index with
      | none => rfl
      | some index => simp [replaceCharByStringLoop, replaceStringLoop, ih]

/-- What has been found is in the string. -/
theorem lt_length_of_findFrom (hne : find ≠ []) {pos index : Nat}
    (h : findFrom find str pos = some index) : index < str.length := by
  rw [findFrom] at h
  split at h
  · obtain ⟨k, hk, rfl⟩ := Option.map_eq_some_iff.mp h
    obtain ⟨front, back, hsplit, hlength, -⟩ := split_of_firstIn hk
    have hcount := congrArg List.length hsplit
    have hpos := List.length_pos_of_ne_nil hne
    simp only [List.length_drop, List.length_append] at hcount
    omega
  · cases h

theorem replaceCharLoop_eq (fuel : Nat) (str : List UInt8) (pos : Nat) :
    replaceCharLoop c r fuel str (findFrom [c] str pos) =
      replaceStringLoop [c] [r] fuel str (findFrom [c] str pos) := by
  induction fuel generalizing str pos with
  | zero => cases findFrom [c] str pos <;> rfl
  | succ fuel ih =>
      cases hfind : findFrom [c] str pos with
      | none => rfl
      | some index =>
          have hlt := lt_length_of_findFrom (by simp) hfind
          have hset : str.set index r = str.take index ++ [r] ++ str.drop (index + 1) := by
            simp [List.set_eq_take_append_cons_drop, hlt]
          simp only [replaceCharLoop, replaceStringLoop, hset, List.length_singleton, ih]

theorem replace_eq (fuel : Nat) (str : List UInt8) (call : Overload) :
    replace fuel str call = replaceStringLoop call.find call.replaceWith fuel str
      (findFrom call.find str 0) := by
  cases call with
  | chars find replaceWith => exact replaceCharLoop_eq fuel str 0
  | charByString find replaceWith => exact replaceCharByStringLoop_eq fuel str _
  | strings find replaceWith => rfl

/-! ## What the loop does -/

/-- **The loop behind `front`**, which is done: what is left gets shorter. -/
theorem replaceStringLoop_spec (replaceWith : List UInt8) (hne : find ≠ []) (front : List UInt8)
    {rest : List UInt8} (hfuel : rest.length < fuel) :
    ∃ result, replaceStringLoop find replaceWith fuel (front ++ rest)
        (findFrom find (front ++ rest) front.length) = some (front ++ result) ∧
      Replaced find replaceWith rest result := by
  induction fuel generalizing front rest with
  | zero => exact absurd hfuel (Nat.not_lt_zero _)
  | succ fuel ih =>
      rw [findFrom_append]
      cases hfirst : firstIn find rest with
      | none => exact ⟨rest, rfl, .absent (not_prefix_of_firstIn hfirst)⟩
      | some k =>
          obtain ⟨skipped, back, rfl, rfl, hbefore⟩ := split_of_firstIn hfirst
          have hpos := List.length_pos_of_ne_nil hne
          have hshort : back.length < fuel := by
            simp only [List.length_append] at hfuel
            omega
          obtain ⟨result, hloop, hreplaced⟩ := ih (front ++ skipped ++ replaceWith) hshort
          refine ⟨skipped ++ replaceWith ++ result, ?_, .first hbefore hreplaced⟩
          simp only [Option.map_some, replaceStringLoop]
          have htake : (front ++ (skipped ++ find ++ back)).take (front.length + skipped.length) =
              front ++ skipped := by
            rw [← List.length_append, List.append_assoc skipped, ← List.append_assoc,
              List.take_left]
          have hdrop : (front ++ (skipped ++ find ++ back)).drop
              (front.length + skipped.length + find.length) = back := by
            simp [← List.append_assoc, ← List.length_append]
          rw [htake, hdrop, ← List.length_append, ← List.length_append, hloop]
          simp

/-- More iterations do not change what a loop gives. -/
theorem replaceStringLoop_mono {index : Option Nat} {result : List UInt8} {fuel' : Nat}
    (hle : fuel ≤ fuel')
    (h : replaceStringLoop find replaceWith fuel str index = some result) :
    replaceStringLoop find replaceWith fuel' str index = some result := by
  induction fuel generalizing str index fuel' with
  | zero =>
      cases index with
      | none => simpa [replaceStringLoop] using h
      | some index => simp [replaceStringLoop] at h
  | succ fuel ih =>
      cases index with
      | none => simpa [replaceStringLoop] using h
      | some index =>
          obtain ⟨fuel', rfl⟩ := Nat.exists_eq_add_of_lt (Nat.lt_of_succ_le hle)
          simp only [replaceStringLoop] at h ⊢
          exact ih (by omega) h

/-- With nothing to search for, each iteration finds the end of what it has put in. -/
theorem replaceStringLoop_nil (fuel : Nat) {str : List UInt8} {index : Nat}
    (hindex : index ≤ str.length) :
    replaceStringLoop [] replaceWith fuel str (some index) = none := by
  induction fuel generalizing str index with
  | zero => rfl
  | succ fuel ih =>
      have hle : index + replaceWith.length ≤
          (str.take index ++ replaceWith ++ str.drop (index + 0)).length := by
        simp
        omega
      simp only [replaceStringLoop, List.length_nil, findFrom_nil hle]
      exact ih hle

end Loops

/-- **`replace`**: all overloads do what they should for whatever there is to search for, and never
end when that is nothing. -/
theorem replace_iff (str : List UInt8) (call : Overload) :
    Replaces str call ↔ call.find ≠ [] := by
  constructor
  · rintro ⟨⟨fuel, hsome⟩, -⟩ hnil
    rw [replace_eq, hnil, findFrom_nil (Nat.zero_le _),
      replaceStringLoop_nil fuel (Nat.zero_le _)] at hsome
    cases hsome
  · intro hne
    obtain ⟨result, hloop, hreplaced⟩ :=
      replaceStringLoop_spec call.replaceWith hne [] (Nat.lt_succ_self str.length)
    simp only [List.nil_append, List.length_nil] at hloop
    constructor
    · exact ⟨_, by rw [replace_eq, hloop]; rfl⟩
    · intro fuel result' hresult
      rw [replace_eq] at hresult
      have hmore := replaceStringLoop_mono (Nat.le_max_left fuel (str.length + 1)) hresult
      have hsame := replaceStringLoop_mono (Nat.le_max_right fuel (str.length + 1)) hloop
      obtain rfl := Option.some.inj (hsame.symm.trans hmore)
      exact hreplaced

/-- `replace("a", "", "b")` does not end. -/
theorem not_replaces_empty : ¬ Replaces [97] (.strings [] [98]) := by
  rintro ⟨⟨fuel, hsome⟩, -⟩
  simp only [replace, findFrom_nil (Nat.zero_le _),
    replaceStringLoop_nil fuel (Nat.zero_le _)] at hsome
  cases hsome

end Util
end Routn
