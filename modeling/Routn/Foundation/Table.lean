import Mathlib.Algebra.BigOperators.Group.List.Basic
import Mathlib.Tactic

/-!
# Weights over a table of threads

A concurrent system keeps its threads in a list, and a step replaces one entry.  The first lemmas
say what becomes of the entries.  An accounting invariant adds up a weight over them; the others say
how the sum changes when an entry is replaced or a thread is added, and what the sum says about
single entries.
-/

namespace Routn
namespace Foundation

variable {α : Type*} {f g : α → Nat} {table : List α} {i j : Nat} {a b : α}

/-! ## Replacing one entry -/

/-- An entry of the new table is the new one, or was there before. -/
theorem getElem?_of_set (h : (table.set i b)[j]? = some a) :
    (j = i ∧ a = b) ∨ (j ≠ i ∧ table[j]? = some a) := by
  by_cases heq : j = i
  · subst heq
    obtain ⟨hlt, -⟩ := List.getElem?_eq_some_iff.mp h
    rw [List.getElem?_set_self (by simpa using hlt)] at h
    exact .inl ⟨rfl, (Option.some.inj h).symm⟩
  · rw [List.getElem?_set_ne (Ne.symm heq)] at h
    exact .inr ⟨heq, h⟩

/-- Every entry but the one that is replaced stays. -/
theorem mem_set_of_mem {c : α} (hi : table[i]? = some a) (hc : c ∈ table) :
    c = a ∨ c ∈ table.set i b := by
  obtain ⟨j, hj⟩ := List.mem_iff_getElem?.mp hc
  by_cases heq : i = j
  · subst heq
    exact .inl (Option.some.inj (hj.symm.trans hi))
  · exact .inr (List.mem_of_getElem? ((List.getElem?_set_ne heq).trans hj))

section FlatMap

variable {β : Type*} (entries : α → List β)

/-- What all entries have, with one of them singled out. -/
theorem flatMap_of_getElem? (hi : table[i]? = some a) :
    table.flatMap entries =
      (table.take i).flatMap entries ++ (entries a ++ (table.drop (i + 1)).flatMap entries) := by
  induction table generalizing i with
  | nil => simp at hi
  | cons first table ih =>
      cases i with
      | zero =>
          obtain rfl : first = a := by simpa using hi
          simp
      | succ i => simp [ih (by simpa using hi)]

theorem flatMap_set (hi : table[i]? = some a) (b : α) :
    (table.set i b).flatMap entries =
      (table.take i).flatMap entries ++ (entries b ++ (table.drop (i + 1)).flatMap entries) := by
  induction table generalizing i with
  | nil => simp at hi
  | cons first table ih =>
      cases i with
      | zero => simp
      | succ i => simp [ih (by simpa using hi)]

end FlatMap

/-! ## Weights -/

/-- The weights of all entries added up. -/
def total (f : α → Nat) (table : List α) : Nat := (table.map f).sum

@[simp] theorem total_nil : total f [] = 0 := rfl

@[simp] theorem total_cons : total f (a :: table) = f a + total f table := by
  simp [total]

@[simp] theorem total_append (table' : List α) :
    total f (table ++ table') = total f table + total f table' := by
  simp [total]

/-- Replacing an entry moves the sum by the difference of the two weights. -/
theorem total_set (hi : table[i]? = some a) :
    total f (table.set i b) + f a = total f table + f b := by
  induction table generalizing i with
  | nil => simp at hi
  | cons c table ih =>
      cases i with
      | zero =>
          obtain rfl : c = a := by simpa using hi
          simp only [List.set_cons_zero, total_cons]
          omega
      | succ i =>
          have htail := ih (i := i) (by simpa using hi)
          simp only [List.set_cons_succ, total_cons]
          omega

/-- An entry weighs no more than the table. -/
theorem le_total (hi : table[i]? = some a) : f a ≤ total f table := by
  induction table generalizing i with
  | nil => simp at hi
  | cons c table ih =>
      cases i with
      | zero =>
          obtain rfl : c = a := by simpa using hi
          simp
      | succ i =>
          have htail := ih (i := i) (by simpa using hi)
          simp only [total_cons]
          omega

/-- Two entries weigh no more than the table. -/
theorem add_le_total (hi : table[i]? = some a) (hj : table[j]? = some b) (hne : i ≠ j) :
    f a + f b ≤ total f table := by
  induction table generalizing i j with
  | nil => simp at hi
  | cons c table ih =>
      cases i with
      | zero =>
          cases j with
          | zero => exact absurd rfl hne
          | succ j =>
              obtain rfl : c = a := by simpa using hi
              have hj' : table[j]? = some b := by simpa using hj
              have := le_total (f := f) hj'
              simp only [total_cons]
              omega
      | succ i =>
          cases j with
          | zero =>
              obtain rfl : c = b := by simpa using hj
              have hi' : table[i]? = some a := by simpa using hi
              have := le_total (f := f) hi'
              simp only [total_cons]
              omega
          | succ j =>
              have htail := ih (i := i) (j := j) (by simpa using hi) (by simpa using hj) (by omega)
              simp only [total_cons]
              omega

/-- A pointwise bound on the weights bounds the sums. -/
theorem total_le_total (h : ∀ a, f a ≤ g a) (table : List α) : total f table ≤ total g table := by
  induction table with
  | nil => exact Nat.le_refl 0
  | cons a table ih =>
      have := h a
      simp only [total_cons]
      omega

/-- Under a pointwise bound, the gap at one entry is at most the gap between the sums. -/
theorem total_gap (h : ∀ a, f a ≤ g a) (hi : table[i]? = some a) :
    total f table + g a ≤ total g table + f a := by
  induction table generalizing i with
  | nil => simp at hi
  | cons c table ih =>
      cases i with
      | zero =>
          -- The entry itself closes the gap; the others are bounded one by one.
          obtain rfl : c = a := by simpa using hi
          have := total_le_total h table
          simp only [total_cons]
          omega
      | succ i =>
          have htail := ih (i := i) (by simpa using hi)
          have := h c
          simp only [total_cons]
          omega

/-- The sum of two weights adds up to the two sums. -/
theorem total_add (f g : α → Nat) (table : List α) :
    total (fun a => f a + g a) table = total f table + total g table := by
  induction table with
  | nil => rfl
  | cons a table ih =>
      simp only [total_cons, ih]
      omega

/-- Replacing an entry of the left table. -/
theorem forall₂_set {R : α → α → Prop} {table' : List α} (h : List.Forall₂ R table' table)
    (hi : table[i]? = some a) (hb : R b a) : List.Forall₂ R (table'.set i b) table := by
  induction h generalizing i with
  | nil => simp at hi
  | @cons c' c table' table hc htail ih =>
      cases i with
      | zero =>
          obtain rfl : c = a := by simpa using hi
          exact .cons hb htail
      | succ i => exact .cons hc (ih (by simpa using hi))

/-- An entrywise bound between two tables bounds the sums. -/
theorem total_le_of_forall₂ {table' : List α}
    (h : List.Forall₂ (fun b a => f b ≤ g a) table' table) : total f table' ≤ total g table := by
  induction h with
  | nil => exact Nat.le_refl 0
  | cons hc _ ih =>
      simp only [total_cons]
      omega

/-- A table of entries without weight weighs nothing. -/
theorem total_eq_zero (h : ∀ a ∈ table, f a = 0) : total f table = 0 := by
  induction table with
  | nil => rfl
  | cons a table ih =>
      rw [total_cons, h a (by simp), ih fun b hb => h b (by simp [hb])]

/-- A table in which one entry has all the weight. -/
theorem total_eq_single (hi : table[i]? = some a)
    (hothers : ∀ j b, j ≠ i → table[j]? = some b → f b = 0) : total f table = f a := by
  induction table generalizing i with
  | nil => simp at hi
  | cons c table ih =>
      cases i with
      | zero =>
          obtain rfl : c = a := by simpa using hi
          have htail : total f table = 0 := by
            refine total_eq_zero fun b hb => ?_
            obtain ⟨j, hj⟩ := List.mem_iff_getElem?.mp hb
            exact hothers (j + 1) b (Nat.succ_ne_zero j) (by simpa using hj)
          rw [total_cons, htail, Nat.add_zero]
      | succ i =>
          have hhead := hothers 0 c (Nat.succ_ne_zero i).symm rfl
          have htail := ih (by simpa using hi) fun j b hne hj =>
            hothers (j + 1) b (by omega) (by simpa using hj)
          rw [total_cons, hhead, htail, Nat.zero_add]

/-- A table that weighs something has an entry that does. -/
theorem exists_of_total_ne_zero (h : total f table ≠ 0) :
    ∃ (i : Nat) (a : α), table[i]? = some a ∧ f a ≠ 0 := by
  by_contra hnone
  push Not at hnone
  refine h (total_eq_zero fun a ha => ?_)
  obtain ⟨i, hi⟩ := List.mem_iff_getElem?.mp ha
  exact hnone i a hi

end Foundation
end Routn
