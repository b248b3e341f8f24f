import Mathlib.Data.List.AList
import Mathlib.Tactic

/-!
# Maps of maps

A map from keys to maps, as it is used for a table with two keys: a value stands under an outer and
an inner key.  An insertion makes the inner map when it is needed, and `erase` drops an inner map
that has become empty.  `get_insert` and `get_erase` say what the two do to the values, and `Trim`
says that no inner map is empty.  `foldl_writes` is about loops that write one value.
-/

namespace Routn
namespace Foundation

abbrev Map (ι α : Type) : Type := AList fun _ : ι => α

abbrev NestedMap (κ ι α : Type) : Type := Map κ (Map ι α)

namespace NestedMap

variable {κ ι α : Type} [DecidableEq κ] [DecidableEq ι]

def get (m : NestedMap κ ι α) (k : κ) (i : ι) : Option α := (m.lookup k).bind (·.lookup i)

/-- `m[k]`. -/
def inner (m : NestedMap κ ι α) (k : κ) : Map ι α := (m.lookup k).getD ∅

/-- `m[k][i] = a`. -/
def insert (m : NestedMap κ ι α) (k : κ) (i : ι) (a : α) : NestedMap κ ι α :=
  AList.insert k ((m.inner k).insert i a) m

/-- `m[k].erase(i)`, and the inner map is erased when it is empty. -/
def erase (m : NestedMap κ ι α) (k : κ) (i : ι) : NestedMap κ ι α :=
  let rest := (m.inner k).erase i
  if rest.keys = [] then AList.erase k m else AList.insert k rest m

/-- No inner map is empty. -/
def Trim (m : NestedMap κ ι α) : Prop := ∀ k inner, m.lookup k = some inner → inner.keys ≠ []

variable {m : NestedMap κ ι α} {k k' : κ} {i i' : ι} {a : α}

theorem lookup_inner : (m.inner k).lookup i = m.get k i := by
  unfold inner get
  cases m.lookup k with
  | none => simp
  | some inner => rfl

theorem get_empty : get (∅ : NestedMap κ ι α) k i = none := by
  simp [get]

theorem get_insert :
    (m.insert k i a).get k' i' = if k' = k ∧ i' = i then some a else m.get k' i' := by
  by_cases hk : k' = k
  · subst hk
    have hget : (m.insert k' i a).get k' i' = ((m.inner k').insert i a).lookup i' := by
      simp [get, insert]
    rw [hget]
    by_cases hi : i' = i
    · subst hi
      simp
    · rw [AList.lookup_insert_ne hi, lookup_inner, if_neg fun h => hi h.2]
  · rw [if_neg fun h => hk h.1]
    unfold get insert
    rw [AList.lookup_insert_ne hk]

theorem get_erase :
    (m.erase k i).get k' i' = if k' = k ∧ i' = i then none else m.get k' i' := by
  by_cases hk : k' = k
  · subst hk
    -- In both cases the inner map is the old one without the key.
    have hget : (m.erase k' i).get k' i' = ((m.inner k').erase i).lookup i' := by
      unfold erase get
      dsimp only
      split
      · next hempty =>
          have hnot : i' ∉ (m.inner k').erase i := by
            rw [AList.mem_keys, hempty]
            exact List.not_mem_nil
          rw [AList.lookup_erase, AList.lookup_eq_none.mpr hnot]
          rfl
      · rw [AList.lookup_insert]
        rfl
    rw [hget]
    by_cases hi : i' = i
    · subst hi
      simp
    · rw [AList.lookup_erase_ne hi, lookup_inner, if_neg fun h => hi h.2]
  · rw [if_neg fun h => hk h.1]
    unfold get erase
    dsimp only
    split
    · rw [AList.lookup_erase_ne hk]
    · rw [AList.lookup_insert_ne hk]

omit [DecidableEq ι] in
theorem trim_empty : Trim (∅ : NestedMap κ ι α) := by
  intro k inner h
  simp at h

theorem Trim.insert (hm : Trim m) : Trim (m.insert k i a) := by
  intro k' inner h
  unfold NestedMap.insert at h
  by_cases hk : k' = k
  · subst hk
    rw [AList.lookup_insert] at h
    obtain rfl := Option.some.inj h
    simp
  · rw [AList.lookup_insert_ne hk] at h
    exact hm k' inner h

theorem Trim.erase (hm : Trim m) : Trim (m.erase k i) := by
  intro k' inner h
  unfold NestedMap.erase at h
  dsimp only at h
  split at h
  · by_cases hk : k' = k
    · subst hk
      simp at h
    · rw [AList.lookup_erase_ne hk] at h
      exact hm k' inner h
  · next hrest =>
      by_cases hk : k' = k
      · subst hk
        rw [AList.lookup_insert] at h
        obtain rfl := Option.some.inj h
        exact hrest
      · rw [AList.lookup_insert_ne hk] at h
        exact hm k' inner h

end NestedMap

/-! ## Loops that write one value -/

/-- Where a round writes `b` when its `K` holds, the loop writes it when the `K` of some round
does. -/
theorem foldl_writes {σ ι β : Type} (view : σ → β) {step : σ → ι → σ} {K : ι → Prop}
    [DecidablePred K] {b : β} (hstep : ∀ s i, view (step s i) = if K i then b else view s)
    (is : List ι) (s : σ) :
    view (is.foldl step s) = if ∃ i ∈ is, K i then b else view s := by
  induction is generalizing s with
  | nil => simp
  | cons i is ih =>
      rw [List.foldl_cons, ih, hstep]
      by_cases hrest : ∃ j ∈ is, K j
      · simp [hrest]
      · simp [hrest]

end Foundation
end Routn
