import Mathlib.Data.List.Basic
import Mathlib.Tactic

/-!
# A search for a closed set

From some elements on, successors are followed until no new one is found.  What is found is closed
under successors (`search_closed`): an invariant of everything that can be reached, made by
computation (`exists_closed`).  A large set is found in parts, each from a station on.  The elements
seen are kept by a number, in a tree of its binary digits.
-/

namespace Routn
namespace Foundation

inductive Trie (β : Type*)
  | leaf
  | node (here : List β) (odd even : Trie β)

namespace Trie

variable {β : Type*}

/-- The last digit and what is in front of it; no number in front of 0. -/
def digit (k : Nat) : Option (Bool × Nat) :=
  bif Nat.beq k 0 then none
  else
    bif Nat.beq (Nat.mod k 2) 0 then some (false, Nat.shiftRight k 1 - 1)
    else some (true, Nat.shiftRight k 1)

def here : Trie β → List β
  | leaf => []
  | node here _ _ => here

def odd : Trie β → Trie β
  | leaf => leaf
  | node _ odd _ => odd

def even : Trie β → Trie β
  | leaf => leaf
  | node _ _ even => even

/-- What is kept under the number. -/
def get : Trie β → Nat → List β
  | leaf, _ => []
  | node here odd even, k =>
      match digit k with
      | none => here
      | some (true, k) => odd.get k
      | some (false, k) => even.get k

/-- The depth bounds the number of digits that are told apart. -/
def insert (x : β) : Nat → Trie β → Nat → Trie β
  | 0, t, _ => t
  | d + 1, t, k =>
      match digit k with
      | none => node (x :: t.here) t.odd t.even
      | some (true, k) => node t.here (insert x d t.odd k) t.even
      | some (false, k) => node t.here t.odd (insert x d t.even k)

theorem get_eq (t : Trie β) (k : Nat) :
    t.get k = match digit k with
      | none => t.here
      | some (true, k) => t.odd.get k
      | some (false, k) => t.even.get k := by
  cases t with
  | leaf =>
      rcases digit k with _ | ⟨_ | _, k⟩
      · rfl
      · rfl
      · rfl
  | node => rfl

theorem mem_get_insert {x y : β} {d : Nat} {t : Trie β} {k j : Nat}
    (h : y ∈ (insert x d t k).get j) : y = x ∨ y ∈ t.get j := by
  induction d generalizing t k j with
  | zero => exact .inr h
  | succ d ih =>
      rw [insert, get_eq] at h
      rw [get_eq]
      generalize digit k = place at h
      generalize digit j = wanted at h ⊢
      rcases place with _ | ⟨_ | _, k⟩ <;> rcases wanted with _ | ⟨_ | _, j⟩
      -- Only under the number itself there is something new.
      case none.none => exact List.mem_cons.mp h
      case some.false.some.false => exact ih h
      case some.true.some.true => exact ih h
      all_goals exact .inr h

end Trie

section Search

variable {β : Type*} (succ : β → Option (List β)) (key : β → Nat) (same : β → β → Bool)

/-- At most so many elements are looked at; `none` is an element that is refused, or too many. -/
def search : Nat → List β → Trie β → List β → Option (List β)
  | _, [], _, found => some found
  | 0, _ :: _, _, _ => none
  | n + 1, x :: todo, seen, found =>
      bif (seen.get (key x)).any (same x) then search n todo seen found
      else
        match succ x with
        | none => none
        | some ys => search n (ys ++ todo) (seen.insert x 16 (key x)) (x :: found)

/-- The stations, each the first element of a search of its own. -/
def stationTrie (stations : List β) : Trie β :=
  stations.foldr (fun x t => t.insert x 16 (key x)) .leaf

/-- What is found from a station on, as far as the other ones. -/
def searchFrom (n : Nat) (stations : List β) (s : β) : Option (List β) :=
  match succ s with
  | none => none
  | some ys => search succ key same n ys (stationTrie key stations) [s]

variable {succ key same}

/-- **What a search finds is closed,** but for what it has been told. -/
theorem search_closed (hsame : ∀ x y, same x y = true → x = y) {P : β → Prop} {n : Nat}
    {todo : List β} {seen : Trie β} {found all : List β}
    (h : search succ key same n todo seen found = some all)
    (hseen : ∀ k, ∀ x ∈ seen.get k, x ∈ found ∨ P x)
    (hfound : ∀ x ∈ found, ∃ ys, succ x = some ys ∧ ∀ y ∈ ys, y ∈ found ∨ P y ∨ y ∈ todo) :
    (∀ x ∈ found, x ∈ all) ∧
      ∀ x ∈ all, ∃ ys, succ x = some ys ∧ ∀ y ∈ ys, y ∈ all ∨ P y := by
  induction n generalizing todo seen found with
  | zero =>
      cases todo with
      | nil =>
          obtain rfl := Option.some.inj h
          simpa using hfound
      | cons x todo => cases h
  | succ n ih =>
      cases todo with
      | nil =>
          obtain rfl := Option.some.inj h
          simpa using hfound
      | cons x todo =>
          rw [search] at h
          cases hmem : (seen.get (key x)).any (same x) with
          | true =>
              rw [hmem] at h
              obtain ⟨y, hy, heq⟩ := List.any_eq_true.mp hmem
              obtain rfl := hsame x y heq
              refine ih h hseen fun z hz => ?_
              obtain ⟨ys, hys, hmove⟩ := hfound z hz
              refine ⟨ys, hys, fun w hw => ?_⟩
              rcases hmove w hw with hold | hknown | hnew
              · exact .inl hold
              · exact .inr (.inl hknown)
              · rcases List.mem_cons.mp hnew with rfl | htodo
                · rcases hseen _ w hy with hold | hknown
                  · exact .inl hold
                  · exact .inr (.inl hknown)
                · exact .inr (.inr htodo)
          | false =>
              rw [hmem] at h
              simp only [cond_false] at h
              cases hsucc : succ x with
              | none =>
                  rw [hsucc] at h
                  cases h
              | some ys =>
                  rw [hsucc] at h
                  obtain ⟨hall, hclosed⟩ := ih h
                    (fun k y hy => by
                      rcases Trie.mem_get_insert hy with rfl | hold
                      · exact .inl List.mem_cons_self
                      · exact (hseen k y hold).imp_left (List.mem_cons_of_mem _))
                    (fun z hz => by
                      rcases List.mem_cons.mp hz with rfl | hold
                      · exact ⟨ys, hsucc, fun w hw => .inr (.inr (List.mem_append_left _ hw))⟩
                      · obtain ⟨zs, hzs, hmove⟩ := hfound z hold
                        refine ⟨zs, hzs, fun w hw => ?_⟩
                        rcases hmove w hw with hw | hknown | hw
                        · exact .inl (List.mem_cons_of_mem _ hw)
                        · exact .inr (.inl hknown)
                        · rcases List.mem_cons.mp hw with rfl | htodo
                          · exact .inl List.mem_cons_self
                          · exact .inr (.inr (List.mem_append_right _ htodo)))
                  exact ⟨fun z hz => hall z (List.mem_cons_of_mem _ hz), hclosed⟩

theorem mem_of_stationTrie {stations : List β} {k : Nat} {x : β}
    (h : x ∈ (stationTrie key stations).get k) : x ∈ stations := by
  induction stations with
  | nil => exact nomatch h
  | cons s stations ih =>
      rcases Trie.mem_get_insert h with rfl | hold
      · exact List.mem_cons_self
      · exact List.mem_cons_of_mem _ (ih hold)

/-- **Searches from all stations find a closed set together.** -/
theorem exists_closed (hsame : ∀ x y, same x y = true → x = y) {n : Nat} {stations : List β}
    (h : ∀ s ∈ stations, (searchFrom succ key same n stations s).isSome = true) :
    ∃ reached : β → Prop, (∀ s ∈ stations, reached s) ∧
      ∀ x, reached x → ∃ ys, succ x = some ys ∧ ∀ y ∈ ys, reached y := by
  have hfrom : ∀ s ∈ stations, ∃ all, searchFrom succ key same n stations s = some all ∧
      s ∈ all ∧ ∀ x ∈ all, ∃ ys, succ x = some ys ∧ ∀ y ∈ ys, y ∈ all ∨ y ∈ stations := by
    intro s hs
    obtain ⟨all, hall⟩ := Option.isSome_iff_exists.mp (h s hs)
    have hsearch := hall
    rw [searchFrom] at hsearch
    cases hsucc : succ s with
    | none =>
        rw [hsucc] at hsearch
        cases hsearch
    | some ys =>
        rw [hsucc] at hsearch
        obtain ⟨hfound, hclosed⟩ := search_closed (P := fun x => x ∈ stations) hsame hsearch
          (fun k x hx => .inr (mem_of_stationTrie hx)) fun x hx => by
            obtain rfl := List.mem_singleton.mp hx
            exact ⟨ys, hsucc, fun y hy => .inr (.inr hy)⟩
        exact ⟨all, hall, hfound s List.mem_cons_self, hclosed⟩
  refine ⟨fun x => ∃ s ∈ stations, ∃ all, searchFrom succ key same n stations s = some all ∧
    x ∈ all, fun s hs => ?_, ?_⟩
  · obtain ⟨all, hall, hmem, -⟩ := hfrom s hs
    exact ⟨s, hs, all, hall, hmem⟩
  · rintro x ⟨s, hs, all, hall, hx⟩
    obtain ⟨all', hall', -, hclosed⟩ := hfrom s hs
    obtain rfl := Option.some.inj (hall.symm.trans hall')
    obtain ⟨ys, hys, hmove⟩ := hclosed x hx
    refine ⟨ys, hys, fun y hy => ?_⟩
    rcases hmove y hy with hy | hy
    · exact ⟨s, hs, all, hall, hy⟩
    · obtain ⟨all'', hall'', hmem, -⟩ := hfrom y hy
      exact ⟨y, hy, all'', hall'', hmem⟩

end Search

/-! ## Lists in rows -/

section Rows

variable {β : Type*}

/-- A list cut into rows of a width, and what stands in the last of them. -/
def byRows (width : Nat) (xs : List β) : List (List β) :=
  (List.range (xs.length / width + 1)).map fun i => (xs.drop (width * i)).take width

def getByRows (width : Nat) (rows : List (List β)) (default : β) (i : Nat) : β :=
  (rows.getD (i / width) []).getD (i % width) default

theorem getByRows_byRows {width : Nat} (hwidth : 0 < width) (xs : List β) (default : β) (i : Nat) :
    getByRows width (byRows width xs) default i = xs.getD i default := by
  have hsplit : width * (i / width) + i % width = i := Nat.div_add_mod i width
  have hlt : i % width < width := Nat.mod_lt i hwidth
  rw [getByRows, byRows]
  by_cases hi : i < xs.length
  · have hrow : i / width < xs.length / width + 1 :=
      Nat.lt_succ_of_le (Nat.div_le_div_right (Nat.le_of_lt hi))
    simp [hrow, hlt, hsplit]
  · by_cases hrow : i / width < xs.length / width + 1
    · simp [hrow, hlt, hsplit, hi]
    · simp [hrow, List.getElem?_eq_none (Nat.le_of_not_lt hi)]

end Rows

end Foundation
end Routn
