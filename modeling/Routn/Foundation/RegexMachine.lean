import Mathlib.Tactic
import Routn.Foundation.Ranges
import Routn.Foundation.Regex
import Routn.Foundation.Search

/-!
# A machine against a regular expression

Whether a machine accepts the language of a regular expression is found by searches through the
pairs of a state and the points that belong to it (`final_after_of_reachedFrom`).  The characters
are taken together in cells, each a set of characters that neither the symbols nor the edges of the
machine tell apart.  A set of characters is a number with a bit for each of them.
-/

namespace Routn
namespace Foundation

/-! ## Sets of characters -/

section Bits

variable {β : Type*}

/-- The union of sets. -/
def unionOf (f : β → Nat) (xs : List β) : Nat := xs.foldr (fun x m => Nat.lor (f x) m) 0

theorem testBit_unionOf (f : β → Nat) (xs : List β) (i : Nat) :
    (unionOf f xs).testBit i = xs.any fun x => (f x).testBit i := by
  induction xs with
  | nil => exact Nat.zero_testBit i
  | cons x xs ih =>
      rw [List.any_cons, ← ih]
      exact Nat.testBit_or _ _ i

/-- A set that does not meet the cell has no character of it. -/
theorem testBit_of_disjoint {set cell i : Nat} (h : Nat.beq (Nat.land set cell) 0 = true)
    (hi : cell.testBit i = true) : set.testBit i = false := by
  have hzero : (set &&& cell).testBit i = false := by
    rw [show set &&& cell = 0 from Nat.eq_of_beq_eq_true h]
    exact Nat.zero_testBit i
  rwa [Nat.testBit_and, hi, Bool.and_true] at hzero

/-- A set that holds the cell has all characters of it. -/
theorem testBit_of_holds {set cell i : Nat} (h : Nat.beq (Nat.land set cell) cell = true)
    (hi : cell.testBit i = true) : set.testBit i = true := by
  have hsame : (set &&& cell).testBit i = true := by
    rw [show set &&& cell = cell from Nat.eq_of_beq_eq_true h]
    exact hi
  rw [Nat.testBit_and] at hsame
  exact (Bool.and_eq_true_iff.mp hsame).1

end Bits

namespace Ranges

variable {γ : Type*}

/-- The keys of a range, from `-128` on, as bits. -/
def interval (r : Int × Int) : Nat := 1 <<< (r.2 + 129).toNat - 1 <<< (r.1 + 128).toNat

def bits (ranges : List (Int × Int)) : Nat := unionOf interval ranges

theorem testBit_interval {k : Int} (hk : 0 ≤ k + 128) (r : Int × Int) :
    (interval r).testBit (k + 128).toNat = decide (r.1 ≤ k ∧ k ≤ r.2) := by
  rw [interval, Nat.one_shiftLeft, Nat.one_shiftLeft]
  generalize ha : (r.1 + 128).toNat = a
  generalize hb : (r.2 + 129).toNat = b
  by_cases hle : a ≤ b
  · obtain ⟨n, rfl⟩ := Nat.exists_eq_add_of_le hle
    have hsplit : 2 ^ (a + n) - 2 ^ a = (2 ^ n - 1) * 2 ^ a := by
      rw [Nat.pow_add, Nat.mul_comm (2 ^ a), Nat.sub_mul, Nat.one_mul]
    rw [hsplit, ← Nat.shiftLeft_eq, Nat.testBit_shiftLeft, Nat.testBit_two_pow_sub_one,
      ← Bool.decide_and, decide_eq_decide]
    omega
  · have hzero : 2 ^ b - 2 ^ a = 0 :=
      Nat.sub_eq_zero_of_le (Nat.pow_le_pow_right Nat.two_pos (Nat.le_of_not_le hle))
    rw [hzero, Nat.zero_testBit, eq_comm, decide_eq_false_iff_not]
    omega

theorem testBit_bits {k : Int} (hk : 0 ≤ k + 128) (ranges : List (Int × Int)) :
    (bits ranges).testBit (k + 128).toNat = ranges.any fun r => decide (r.1 ≤ k ∧ k ≤ r.2) := by
  rw [bits, testBit_unionOf]
  simp only [testBit_interval hk]

end Ranges

namespace Regex

variable {σ α ι : Type*}

/-! ## The search -/

/-- The next state on a character, by the edges of a state. -/
def step (edges : List (Nat × Nat)) (i : Nat) : Option Nat :=
  (edges.find? fun e => e.1.testBit i).map Prod.snd

/-- The edge that the characters of the cell take; `none` if they take none, or not all the same. -/
def pick (cell : Nat) : List (Nat × Nat) → Option Nat
  | [] => none
  | (set, q) :: edges =>
      bif Nat.beq (Nat.land set cell) cell then some q
      else bif Nat.beq (Nat.land set cell) 0 then pick cell edges else none

/-- The same pair is not noted twice. -/
def note (q read : Nat) : List (Nat × Nat) → List (Nat × Nat)
  | [] => [(q, read)]
  | x :: xs => bif Nat.beq x.1 q && Nat.beq x.2 read then x :: xs else x :: note q read xs

/-- Where the cells lead from a state with these edges and these points: the next states with the
symbols that are read.  What no edge takes must not be read, and what is read last must end. -/
def moves (final : Nat → Bool) (last : Nat) (edges : List (Nat × Nat)) (taken points : Nat) :
    List (Nat × Nat) → Option (List (Nat × Nat))
  | [] => some []
  | (cell, matching) :: cells =>
      match moves final last edges taken points cells with
      | none => none
      | some ys =>
          bif Nat.beq (Nat.land taken cell) 0 then
            bif Nat.beq (Nat.land points matching) 0 then some ys else none
          else
            match pick cell edges with
            | none => none
            | some q =>
                bif Bool.xor (final q) (Nat.beq (Nat.land (Nat.land points matching) last) 0) then
                  some (note q (Nat.land points matching) ys)
                else none

/-- A machine by its edges, each a set of characters and a state; cells, each with the symbols that
hold its characters; and what follows the symbols. -/
structure Comparison where
  start : Nat
  final : Nat → Bool
  halts : Nat → Bool
  edges : Nat → List (Nat × Nat)
  cells : List (Nat × Nat)
  last : Nat
  follow : Halves

namespace Comparison

variable (m : Comparison)

def succ (x : Nat × Nat) : Option (List (Nat × Nat)) :=
  bif m.halts x.1 then none
  else
    (moves m.final m.last (m.edges x.1) (unionOf Prod.fst (m.edges x.1)) x.2 m.cells).map
      (·.map fun y => (y.1, m.follow.gather y.2))

def same (x y : Nat × Nat) : Bool := Nat.beq x.1 y.1 && Nat.beq x.2 y.2

/-- The pairs that are reached from a station on, as far as the other ones. -/
def reachedFrom (bound : Nat) (stations : List (Nat × Nat)) (s : Nat × Nat) :
    Option (List (Nat × Nat)) :=
  searchFrom m.succ Prod.fst same bound stations s

end Comparison

/-! ## What it has seen -/

theorem step_of_pick {cell q i : Nat} {edges : List (Nat × Nat)} (h : pick cell edges = some q)
    (hi : cell.testBit i = true) : step edges i = some q := by
  induction edges with
  | nil => cases h
  | cons e edges ih =>
      obtain ⟨set, q'⟩ := e
      rw [pick] at h
      cases hholds : Nat.beq (Nat.land set cell) cell with
      | true =>
          rw [hholds] at h
          rw [step, List.find?_cons_of_pos (p := fun e : Nat × Nat => e.1.testBit i)
            (testBit_of_holds hholds hi)]
          exact h
      | false =>
          rw [hholds, cond_false] at h
          cases hdisjoint : Nat.beq (Nat.land set cell) 0 with
          | true =>
              rw [hdisjoint] at h
              have hnot : ¬ set.testBit i = true := by
                rw [testBit_of_disjoint hdisjoint hi]
                exact Bool.false_ne_true
              rw [step, List.find?_cons_of_neg (p := fun e : Nat × Nat => e.1.testBit i) hnot]
              exact ih h
          | false =>
              rw [hdisjoint] at h
              cases h

theorem step_of_not_taken {cell i : Nat} {edges : List (Nat × Nat)}
    (h : Nat.beq (Nat.land (unionOf Prod.fst edges) cell) 0 = true)
    (hi : cell.testBit i = true) : step edges i = none := by
  have hnone := testBit_of_disjoint h hi
  rw [testBit_unionOf, List.any_eq_false] at hnone
  rw [step, List.find?_eq_none.mpr hnone]
  rfl

theorem mem_note {q read : Nat} {y : Nat × Nat} {ys : List (Nat × Nat)} :
    y = (q, read) ∨ y ∈ ys → y ∈ note q read ys := by
  induction ys with
  | nil =>
      rintro (rfl | h)
      · exact List.mem_cons_self
      · cases h
  | cons x ys ih =>
      intro h
      rw [note]
      cases hsame : Nat.beq x.1 q && Nat.beq x.2 read with
      | true =>
          obtain ⟨hq, hread⟩ := Bool.and_eq_true_iff.mp hsame
          rcases h with rfl | h
          · rw [← Nat.eq_of_beq_eq_true hq, ← Nat.eq_of_beq_eq_true hread]
            exact List.mem_cons_self
          · exact h
      | false =>
          rcases h with rfl | h
          · exact List.mem_cons_of_mem _ (ih (.inl rfl))
          · rcases List.mem_cons.mp h with rfl | h
            · exact List.mem_cons_self
            · exact List.mem_cons_of_mem _ (ih (.inr h))

/-- **What the moves say** of a character: nothing is read that no edge takes, and what is read is
noted with the state of the edge, which is final when the end may be there. -/
theorem mem_moves {final : Nat → Bool} {last points cell matching i : Nat}
    {edges cells ys : List (Nat × Nat)}
    (h : moves final last edges (unionOf Prod.fst edges) points cells = some ys)
    (hcell : (cell, matching) ∈ cells) (hi : cell.testBit i = true) :
    (step edges i = none ∧ points &&& matching = 0) ∨
      ∃ q, step edges i = some q ∧ (q, points &&& matching) ∈ ys ∧
        final q = !Nat.beq ((points &&& matching) &&& last) 0 := by
  induction cells generalizing ys with
  | nil => cases hcell
  | cons x cells ih =>
      obtain ⟨cell', matching'⟩ := x
      rw [moves] at h
      cases hrest : moves final last edges (unionOf Prod.fst edges) points cells with
      | none =>
          rw [hrest] at h
          cases h
      | some zs =>
          rw [hrest] at h
          simp only at h
          cases htaken : Nat.beq (Nat.land (unionOf Prod.fst edges) cell') 0 with
          | true =>
              rw [htaken, cond_true] at h
              cases hread : Nat.beq (Nat.land points matching') 0 with
              | true =>
                  rw [hread] at h
                  obtain rfl := Option.some.inj h
                  rcases List.mem_cons.mp hcell with heq | hcell
                  · obtain ⟨rfl, rfl⟩ := Prod.mk.inj heq
                    exact .inl ⟨step_of_not_taken htaken hi, Nat.eq_of_beq_eq_true hread⟩
                  · exact ih hrest hcell
              | false =>
                  rw [hread] at h
                  cases h
          | false =>
              rw [htaken, cond_false] at h
              cases hpick : pick cell' edges with
              | none =>
                  rw [hpick] at h
                  cases h
              | some q =>
                  rw [hpick] at h
                  simp only at h
                  cases hends : Bool.xor (final q)
                      (Nat.beq (Nat.land (Nat.land points matching') last) 0) with
                  | false =>
                      rw [hends] at h
                      cases h
                  | true =>
                      rw [hends] at h
                      obtain rfl := Option.some.inj h
                      rcases List.mem_cons.mp hcell with heq | hcell
                      · obtain ⟨rfl, rfl⟩ := Prod.mk.inj heq
                        refine .inr ⟨q, step_of_pick hpick hi, mem_note (.inl rfl), ?_⟩
                        show final q = !Nat.beq (Nat.land (Nat.land points matching) last) 0
                        revert hends
                        cases final q <;>
                          cases Nat.beq (Nat.land (Nat.land points matching) last) 0 <;> simp
                      · rcases ih hrest hcell with hnone | ⟨q', hstep, hmem, hfinal⟩
                        · exact .inl hnone
                        · exact .inr ⟨q', hstep, mem_note (.inr hmem), hfinal⟩

namespace Comparison

variable {m : Comparison}

theorem eq_of_same {x y : Nat × Nat} (h : same x y = true) : x = y := by
  obtain ⟨hfst, hsnd⟩ := Bool.and_eq_true_iff.mp h
  exact Prod.ext (Nat.eq_of_beq_eq_true hfst) (Nat.eq_of_beq_eq_true hsnd)

/-- **Where the searches end the machine accepts the language of the expression.** -/
theorem final_after_of_reachedFrom {C : Control Nat α ι} {r : Regex σ} {mem : σ → α → Bool}
    {index : α → Nat}
    (hcells : ∀ c, ∃ cell, (cell, r.matching mem c) ∈ m.cells ∧ cell.testBit (index c) = true)
    (hnext : ∀ q c, m.halts q = false →
      (C.next q c).map Prod.snd = step (m.edges q) (index c))
    (hhalts : ∀ q, C.halts q = m.halts q) (hlast : m.last = r.last)
    (hfollow : ∀ read < 2 ^ r.size, m.follow.gather read = (r.after read).1)
    (hrefused : m.final C.refused = false) (hnull : m.final m.start = r.nullable)
    {bound : Nat} {stations : List (Nat × Nat)} (hstart : (m.start, r.first) ∈ stations)
    (h : ∀ s ∈ stations, (m.reachedFrom bound stations s).isSome = true)
    (w : List α) : m.final (C.after m.start w) = true ↔ w ∈ r.language mem := by
  obtain ⟨reached, hfirst, hclosed⟩ := exists_closed (fun _ _ => eq_of_same) h
  have hgo : ∀ q p, reached (q, p) → m.halts q = false := by
    intro q p hmem
    obtain ⟨ys, hsucc, -⟩ := hclosed _ hmem
    cases hq : m.halts q with
    | false => rfl
    | true =>
        rw [succ, hq] at hsucc
        cases hsucc
  refine accepts_iff (R := fun q p => reached (q, p)) ?_ ?_ hrefused (hfirst _ hstart) hnull w
  · intro q p hmem c
    obtain ⟨ys, hsucc, hys⟩ := hclosed _ hmem
    rw [succ, hgo q p hmem, cond_false] at hsucc
    obtain ⟨zs, hzs, rfl⟩ := Option.map_eq_some_iff.mp hsucc
    obtain ⟨cell, hcell, hi⟩ := hcells c
    have hstep := hnext q c (hgo q p hmem)
    have hlt : p &&& r.matching mem c < 2 ^ r.size := Nat.and_lt_two_pow _ (r.matching_lt c)
    rw [Moves]
    rcases mem_moves hzs hcell hi with ⟨hnone, hread⟩ | ⟨q', hsome, hnoted, hfinal⟩
    · rw [hnone, Option.map_eq_none_iff] at hstep
      rw [hstep]
      exact hread
    · rw [hsome] at hstep
      obtain ⟨⟨is, q''⟩, hC, rfl⟩ := Option.map_eq_some_iff.mp hstep
      rw [hC]
      refine ⟨?_, ?_⟩
      · rw [← hfollow _ hlt]
        exact hys _ (List.mem_map_of_mem hnoted)
      · rw [Bool.eq_iff_iff, after_snd, ← hlast, hfinal, Bool.not_eq_true', ← Bool.not_eq_true,
          Nat.beq_eq]
  · intro q p hmem
    rw [hhalts]
    exact hgo q p hmem

end Comparison
end Regex
end Foundation
end Routn
