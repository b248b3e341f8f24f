import Mathlib.Data.List.TakeWhile
import Mathlib.Tactic

/-!
# Ordered sets as lists

An ordered set whose elements are compared by a key.  The elements stand in a list, and the
operations search it from the front for the first element that is not less than a given key: they
are told where an element is by the comparisons alone, as a search tree is.  When the list is not
sorted they may miss an element that is there.

The key of an element may change.  It is safe to change it while the element is not in the list
(`Sorted.congr`), and `Sorted.not_mem_erase` says that an element which was found is not in the list
after it has been erased.
-/

namespace Routn
namespace Foundation

/-- What `std::set` asks of its comparison. -/
structure StrictOrder {κ : Type*} (less : κ → κ → Bool) : Prop where
  irrefl : ∀ k, less k k = false
  trans : ∀ {i j k}, less i j = true → less j k = true → less i k = true
  connected : ∀ {i j}, less i j = false → less j i = false → i = j

namespace OrderedSet

variable {α κ : Type*} (less : κ → κ → Bool) (key : α → κ)

/-- The elements in front of `lower_bound`. -/
def before (k : κ) (elements : List α) : List α := elements.takeWhile fun a => less (key a) k

/-- The elements from `lower_bound` on. -/
def lowerBound (k : κ) (elements : List α) : List α := elements.dropWhile fun a => less (key a) k

/-- The element equivalent to the key. -/
def find (k : κ) (elements : List α) : Option α :=
  (lowerBound less key k elements).head?.filter fun a => !less k (key a)

/-- An element that is already there is not inserted again. -/
def insert (a : α) (elements : List α) : List α :=
  match find less key (key a) elements with
  | some _ => elements
  | none => before less key (key a) elements ++ a :: lowerBound less key (key a) elements

/-- `erase(find(k))` of a key that is found. -/
def erase (k : κ) (elements : List α) : List α :=
  before less key k elements ++ (lowerBound less key k elements).tail

/-- The elements stand in the order of their keys, each once. -/
def Sorted (elements : List α) : Prop := elements.Pairwise fun a b => less (key a) (key b) = true

variable {less key} {k : κ} {a b : α} {elements : List α}

/-! ## Membership -/

variable (less key) in
theorem before_append_lowerBound (k : κ) (elements : List α) :
    before less key k elements ++ lowerBound less key k elements = elements :=
  List.takeWhile_append_dropWhile

theorem less_of_mem_before (h : a ∈ before less key k elements) : less (key a) k = true :=
  List.mem_takeWhile_imp (p := fun a => less (key a) k) h

theorem mem_of_mem_before (h : a ∈ before less key k elements) : a ∈ elements :=
  (List.takeWhile_sublist _).subset h

theorem mem_of_mem_lowerBound (h : a ∈ lowerBound less key k elements) : a ∈ elements :=
  (List.dropWhile_sublist _).subset h

theorem mem_of_mem_erase (h : b ∈ erase less key k elements) : b ∈ elements := by
  rcases List.mem_append.mp h with hbefore | htail
  · exact mem_of_mem_before hbefore
  · exact mem_of_mem_lowerBound (List.mem_of_mem_tail htail)

theorem mem_of_mem_insert (h : b ∈ insert less key a elements) : b = a ∨ b ∈ elements := by
  rw [insert] at h
  cases hfind : find less key (key a) elements with
  | some found =>
      rw [hfind] at h
      exact .inr h
  | none =>
      rw [hfind] at h
      rcases List.mem_append.mp h with hbefore | htail
      · exact .inr (mem_of_mem_before hbefore)
      · rcases List.mem_cons.mp htail with heq | hrest
        · exact .inl heq
        · exact .inr (mem_of_mem_lowerBound hrest)

/-- The first element from `lower_bound` on is not less than the key. -/
theorem not_less_of_lowerBound {rest : List α} (h : lowerBound less key k elements = a :: rest) :
    less (key a) k = false := by
  have := List.head?_dropWhile_not (fun a => less (key a) k) elements
  rw [lowerBound] at h
  simpa [h] using this

/-- What is found is the first element from `lower_bound` on. -/
theorem lowerBound_of_find (h : find less key k elements = some a) :
    less k (key a) = false ∧ ∃ rest, lowerBound less key k elements = a :: rest := by
  obtain ⟨hhead, hless⟩ := Option.filter_eq_some_iff.mp h
  exact ⟨by simpa using hless, List.head?_eq_some_iff.mp hhead⟩

theorem mem_of_find (h : find less key k elements = some a) : a ∈ elements := by
  obtain ⟨-, rest, hbound⟩ := lowerBound_of_find h
  exact mem_of_mem_lowerBound (hbound ▸ List.mem_cons_self)

/-- A new element is put between the others. -/
theorem perm_insert (hnew : find less key (key a) elements = none) :
    (insert less key a elements).Perm (a :: elements) := by
  rw [insert, hnew]
  have hsplit := before_append_lowerBound less key (key a) elements
  conv_rhs => rw [← hsplit]
  exact List.perm_middle

/-! ## Sorted lists -/

/-- Keys may change as long as those of the elements do not. -/
theorem Sorted.congr {key' : α → κ} (h : Sorted less key elements)
    (hkey : ∀ a ∈ elements, key' a = key a) : Sorted less key' elements := by
  rw [Sorted, List.pairwise_iff_forall_sublist] at h ⊢
  intro a b hab
  rw [hkey a (hab.subset (by simp)), hkey b (hab.subset (by simp))]
  exact h hab

theorem Sorted.erase (h : Sorted less key elements) (k : κ) :
    Sorted less key (erase less key k elements) := by
  have hsublist : List.Sublist (OrderedSet.erase less key k elements) elements := by
    conv_rhs => rw [← before_append_lowerBound less key k elements]
    exact (List.Sublist.refl _).append (List.tail_sublist _)
  exact h.sublist hsublist

section StrictOrder

variable (hless : StrictOrder less)
include hless

theorem key_of_find (h : find less key k elements = some a) : key a = k := by
  obtain ⟨hle, rest, hbound⟩ := lowerBound_of_find h
  exact hless.connected (not_less_of_lowerBound hbound) hle

theorem Sorted.nodup (h : Sorted less key elements) : elements.Nodup := by
  refine h.imp ?_
  rintro a b hab rfl
  rw [hless.irrefl] at hab
  cases hab

/-- An element that was found and erased is gone. -/
theorem Sorted.not_mem_erase (h : Sorted less key elements)
    (hfind : find less key k elements = some a) : a ∉ OrderedSet.erase less key k elements := by
  obtain ⟨-, rest, hbound⟩ := lowerBound_of_find hfind
  have hnodup := h.nodup hless
  rw [← before_append_lowerBound less key k elements, hbound] at hnodup
  rw [OrderedSet.erase, hbound, List.tail_cons]
  exact (List.nodup_middle.mp hnodup).notMem

/-- An element of a sorted list is found by its key. -/
theorem Sorted.find_of_mem (h : Sorted less key elements) (ha : a ∈ elements) :
    find less key (key a) elements = some a := by
  have hsplit := before_append_lowerBound less key (key a) elements
  rw [← hsplit] at ha h
  have hbound : a ∈ lowerBound less key (key a) elements := by
    refine (List.mem_append.mp ha).resolve_left fun hbefore => ?_
    have hbelow := less_of_mem_before hbefore
    rw [hless.irrefl] at hbelow
    cases hbelow
  cases hcase : lowerBound less key (key a) elements with
  | nil =>
      rw [hcase] at hbound
      cases hbound
  | cons first rest =>
      -- If `a` were behind the first element, that one would be less than it.
      have hfirst : first = a := by
        rw [hcase] at hbound h
        refine ((List.mem_cons.mp hbound).resolve_right fun hrest => ?_).symm
        have hbelow := List.rel_of_pairwise_cons (List.pairwise_append.mp h).2.1 hrest
        rw [not_less_of_lowerBound hcase] at hbelow
        cases hbelow
      rw [find, hcase, hfirst, List.head?_cons, Option.filter_some, hless.irrefl]
      rfl

/-- Everything from `lower_bound` on is greater than a key that is not found. -/
theorem Sorted.less_of_mem_lowerBound (h : Sorted less key elements)
    (hnew : find less key k elements = none) (hb : b ∈ lowerBound less key k elements) :
    less k (key b) = true := by
  have hsorted : Sorted less key (lowerBound less key k elements) :=
    h.sublist (List.dropWhile_sublist _)
  cases hbound : lowerBound less key k elements with
  | nil =>
      rw [hbound] at hb
      cases hb
  | cons first rest =>
      -- The first one is greater, and the others are greater than the first one.
      have hfirst : less k (key first) = true := by
        rw [find, hbound] at hnew
        simpa using hnew
      rw [hbound] at hb hsorted
      rcases List.mem_cons.mp hb with rfl | hrest
      · exact hfirst
      · exact hless.trans hfirst (List.rel_of_pairwise_cons hsorted hrest)

theorem Sorted.insert (h : Sorted less key elements) (a : α) :
    Sorted less key (insert less key a elements) := by
  rw [OrderedSet.insert]
  cases hfind : find less key (key a) elements with
  | some found => exact h
  | none =>
      have habove := fun b => h.less_of_mem_lowerBound hless hfind (b := b)
      have hsplit := before_append_lowerBound less key (key a) elements
      rw [Sorted, ← hsplit, List.pairwise_append] at h
      obtain ⟨hbefore, hbound, hacross⟩ := h
      refine List.pairwise_append.mpr ⟨hbefore, List.pairwise_cons.mpr ⟨habove, hbound⟩, ?_⟩
      intro b hb c hc
      rcases List.mem_cons.mp hc with rfl | hc
      · exact less_of_mem_before hb
      · exact hacross b hb c hc

/-- What is left after an element was found and erased. -/
theorem Sorted.mem_erase_iff (h : Sorted less key elements)
    (hfind : find less key k elements = some a) :
    b ∈ OrderedSet.erase less key k elements ↔ b ≠ a ∧ b ∈ elements := by
  constructor
  · intro hb
    refine ⟨?_, mem_of_mem_erase hb⟩
    rintro rfl
    exact h.not_mem_erase hless hfind hb
  · rintro ⟨hne, hb⟩
    obtain ⟨-, rest, hbound⟩ := lowerBound_of_find hfind
    rw [← before_append_lowerBound less key k elements, hbound] at hb
    rw [OrderedSet.erase, hbound, List.tail_cons]
    simpa [hne] using hb

/-- When different elements have different keys, an insertion leaves the element in the list. -/
theorem mem_insert_iff (hkey : Function.Injective key) :
    b ∈ OrderedSet.insert less key a elements ↔ b = a ∨ b ∈ elements := by
  refine ⟨mem_of_mem_insert, fun hb => ?_⟩
  rw [OrderedSet.insert]
  cases hfind : find less key (key a) elements with
  | some found =>
      rcases hb with rfl | hb
      · exact hkey (key_of_find hless hfind) ▸ mem_of_find hfind
      · exact hb
  | none =>
      have hsplit := before_append_lowerBound less key (key a) elements
      rw [← hsplit, List.mem_append] at hb
      simp only [List.mem_append, List.mem_cons]
      tauto

/-- An inserted element is the first one, or another one is less. -/
theorem head?_insert (hkey : Function.Injective key) (a : α) (elements : List α) :
    (OrderedSet.insert less key a elements).head? = some a ∨
      ∃ b ∈ elements, less (key b) (key a) = true := by
  cases hbefore : before less key (key a) elements with
  | cons b rest =>
      have hb : b ∈ before less key (key a) elements := hbefore ▸ List.mem_cons_self
      exact .inr ⟨b, mem_of_mem_before hb, less_of_mem_before hb⟩
  | nil =>
      left
      rw [OrderedSet.insert]
      cases hfind : find less key (key a) elements with
      | none => simp [hbefore]
      | some found =>
          -- The equivalent element is the element itself, and nothing stands in front of it.
          have hfound : found = a := hkey (key_of_find hless hfind)
          obtain ⟨-, rest, hbound⟩ := lowerBound_of_find hfind
          have hsplit := before_append_lowerBound less key (key a) elements
          rw [hbefore, List.nil_append, hbound] at hsplit
          rw [← hsplit, hfound]
          rfl

end StrictOrder

end OrderedSet
end Foundation
end Routn
