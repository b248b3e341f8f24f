import Mathlib.Data.List.Basic
import Mathlib.Tactic

/-!
# Cases by ranges

A case compares a key with ranges and takes the target of the first edge that holds it.  Where the
keys fall into kinds, each of them an interval or several, what holds of a kind and a target can be
checked on the ranges: no key has to be looked at.
-/

namespace Routn
namespace Foundation

/-- A check of all bytes, one after the other. -/
theorem forall_byte {p : UInt8 → Bool} (h : (List.range 256).all (fun n => p (.ofNat n)) = true)
    (c : UInt8) : p c = true := by
  have hall := List.all_eq_true.mp h c.toNat (List.mem_range.mpr c.toNat_lt)
  rwa [UInt8.ofNat_toNat] at hall

namespace Ranges

variable {κ γ : Type*}

/-- Some range of the edge holds the key. -/
def covers (k : Int) (edge : List (Int × Int) × γ) : Bool :=
  edge.1.any fun r => decide (r.1 ≤ k ∧ k ≤ r.2)

def select (edges : List (List (Int × Int) × γ)) (k : Int) : Option γ :=
  (edges.find? (covers k)).map (·.2)

/-- The kinds, each with an interval. -/
abbrev Kinds (κ : Type*) := List (κ × Int × Int)

/-- An interval of the kind holds the key. -/
def Kinds.Holds (kinds : Kinds κ) (kind : κ) (k : Int) : Prop :=
  ∃ row ∈ kinds, row.1 = kind ∧ row.2.1 ≤ k ∧ k ≤ row.2.2

/-- What is checked of each kind whose interval meets a range of an edge, and its target. -/
def checked (kinds : Kinds κ) (edges : List (List (Int × Int) × γ)) (P : κ → γ → Bool) : Bool :=
  edges.all fun edge => edge.1.all fun r => kinds.all fun row =>
    !decide (row.2.1 ≤ r.2 ∧ r.1 ≤ row.2.2) || P row.1 edge.2

theorem of_checked {kinds : Kinds κ} {edges : List (List (Int × Int) × γ)} {P : κ → γ → Bool}
    {kind : κ} {k : Int} {target : γ} (h : checked kinds edges P = true)
    (hkind : kinds.Holds kind k) (hselect : select edges k = some target) :
    P kind target = true := by
  have ⟨edge, hedge, htarget⟩ := Option.map_eq_some_iff.mp hselect
  have hcovers : covers k edge = true := List.find?_some hedge
  have ⟨r, hr, hcovers⟩ := List.any_eq_true.mp hcovers
  have ⟨row, hrow, hname, hlow, hhigh⟩ := hkind
  have hmem := List.mem_of_find?_eq_some hedge
  have hrow := List.all_eq_true.mp (List.all_eq_true.mp (List.all_eq_true.mp h edge hmem) r hr)
    row hrow
  have ⟨hlow', hhigh'⟩ := of_decide_eq_true hcovers
  have hmeets : row.2.1 ≤ r.2 ∧ r.1 ≤ row.2.2 := ⟨by omega, by omega⟩
  rw [decide_eq_true hmeets, Bool.not_true, Bool.false_or, hname, htarget] at hrow
  exact hrow

end Ranges
end Foundation
end Routn
