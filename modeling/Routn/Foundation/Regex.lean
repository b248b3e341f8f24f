import Mathlib.Computability.Language
import Mathlib.Data.Nat.Bitwise
import Mathlib.Tactic
import Routn.Foundation.Control

/-!
# Regular expressions with points

The occurrences of symbols in a regular expression are numbered from the left.  A number whose bits
are points says which of them may be read next: `continues` is what can then be read to the end.
Reading a character keeps the points whose symbol holds it, and `after` moves them on.

A machine that moves with the points accepts the language of the expression (`accepts_iff`).
-/

namespace Routn
namespace Foundation

open Computability

inductive Regex (σ : Type*)
  | eps
  | sym (s : σ)
  | alt (a b : Regex σ)
  | cat (a b : Regex σ)
  | star (a : Regex σ)

namespace Regex

variable {σ α : Type*}

/-! ## Abbreviations -/

def opt (a : Regex σ) : Regex σ := alt a eps

def plus (a : Regex σ) : Regex σ := cat a (star a)

/-- `a{n}`. -/
def rep (a : Regex σ) : Nat → Regex σ
  | 0 => eps
  | n + 1 => cat a (rep a n)

/-- `a{0,n}`. -/
def upTo (a : Regex σ) : Nat → Regex σ
  | 0 => eps
  | n + 1 => opt (cat a (upTo a n))

/-- One of several. -/
def alts : Regex σ → List (Regex σ) → Regex σ
  | a, [] => a
  | a, b :: bs => alt a (alts b bs)

/-- One after the other. -/
def cats : Regex σ → List (Regex σ) → Regex σ
  | a, [] => a
  | a, b :: bs => cat a (cats b bs)

/-! ## Points -/

/-- The number of symbols. -/
def size : Regex σ → Nat
  | eps => 0
  | sym _ => 1
  | alt a b => a.size + b.size
  | cat a b => a.size + b.size
  | star a => a.size

/-- The symbols from the left. -/
def symbols : Regex σ → List σ
  | eps => []
  | sym s => [s]
  | alt a b => a.symbols ++ b.symbols
  | cat a b => a.symbols ++ b.symbols
  | star a => a.symbols

def nullable : Regex σ → Bool
  | eps => true
  | sym _ => false
  | alt a b => a.nullable || b.nullable
  | cat a b => a.nullable && b.nullable
  | star _ => true

/-- The symbols that may be read first. -/
def first : Regex σ → Nat
  | eps => 0
  | sym _ => 1
  | alt a b => a.first + b.first * 2 ^ a.size
  | cat a b => a.first + (if a.nullable then b.first else 0) * 2 ^ a.size
  | star a => a.first

/-- The symbols that may be read next when one of `read` has been read, and whether it may be the
end. -/
def after : Regex σ → Nat → Nat × Bool
  | eps, _ => (0, false)
  | sym _, read => (0, read.testBit 0)
  | alt a b, read =>
      if read = 0 then (0, false)
      else
        let l := a.after (read % 2 ^ a.size)
        let r := b.after (read / 2 ^ a.size)
        (l.1 + r.1 * 2 ^ a.size, l.2 || r.2)
  | cat a b, read =>
      if read = 0 then (0, false)
      else
        let l := a.after (read % 2 ^ a.size)
        let r := b.after (read / 2 ^ a.size)
        (l.1 + (if l.2 then r.1 ||| b.first else r.1) * 2 ^ a.size, (l.2 && b.nullable) || r.2)
  | star a, read =>
      if read = 0 then (0, false)
      else
        let l := a.after read
        (if l.2 then l.1 ||| a.first else l.1, l.2)

section Language

variable (mem : σ → α → Bool)

def language : Regex σ → Language α
  | eps => 1
  | sym s => {w | ∃ c, mem s c = true ∧ w = [c]}
  | alt a b => a.language + b.language
  | cat a b => a.language * b.language
  | star a => a.language∗

/-- The symbols that hold the character. -/
def matching (c : α) : Regex σ → Nat
  | eps => 0
  | sym s => (mem s c).toNat
  | alt a b => a.matching c + b.matching c * 2 ^ a.size
  | cat a b => a.matching c + b.matching c * 2 ^ a.size
  | star a => a.matching c

/-- What can be read from the points on. -/
def continues : Regex σ → Nat → Language α
  | eps, _ => 0
  | sym s, points => {w | points.testBit 0 = true ∧ ∃ c, mem s c = true ∧ w = [c]}
  | alt a b, points => a.continues (points % 2 ^ a.size) + b.continues (points / 2 ^ a.size)
  | cat a b, points =>
      a.continues (points % 2 ^ a.size) * b.language mem + b.continues (points / 2 ^ a.size)
  | star a, points => a.continues points * (a.language mem)∗

end Language

/-! ## Two halves of a number -/

section Halves

variable {n x y : Nat}

theorem add_mul_mod (hx : x < 2 ^ n) : (x + y * 2 ^ n) % 2 ^ n = x := by
  rw [Nat.add_mul_mod_self_right, Nat.mod_eq_of_lt hx]

theorem add_mul_div (hx : x < 2 ^ n) : (x + y * 2 ^ n) / 2 ^ n = y := by
  rw [Nat.add_mul_div_right _ _ (Nat.two_pow_pos n), Nat.div_eq_of_lt hx, Nat.zero_add]

theorem add_mul_lt {m : Nat} (hx : x < 2 ^ n) (hy : y < 2 ^ m) : x + y * 2 ^ n < 2 ^ (n + m) := by
  have hle : (y + 1) * 2 ^ n ≤ 2 ^ m * 2 ^ n := Nat.mul_le_mul_right _ hy
  rw [Nat.pow_add, Nat.mul_comm (2 ^ n)]
  calc
    x + y * 2 ^ n < 2 ^ n + y * 2 ^ n := Nat.add_lt_add_right hx _
    _ = (y + 1) * 2 ^ n := by rw [Nat.add_mul, Nat.one_mul, Nat.add_comm]
    _ ≤ 2 ^ m * 2 ^ n := hle

end Halves

theorem first_lt (r : Regex σ) : r.first < 2 ^ r.size := by
  induction r with
  | eps => exact Nat.one_pos
  | sym s => exact Nat.one_lt_two
  | alt a b iha ihb => exact add_mul_lt iha ihb
  | cat a b iha ihb =>
      refine add_mul_lt iha ?_
      split
      · exact ihb
      · exact Nat.two_pow_pos _
  | star a ih => exact ih

theorem after_zero (r : Regex σ) : r.after 0 = (0, false) := by
  cases r <;> simp [after]

theorem after_alt (a b : Regex σ) (read : Nat) :
    (alt a b).after read =
      ((a.after (read % 2 ^ a.size)).1 + (b.after (read / 2 ^ a.size)).1 * 2 ^ a.size,
        (a.after (read % 2 ^ a.size)).2 || (b.after (read / 2 ^ a.size)).2) := by
  rw [after]
  split
  · next h => rw [h, Nat.zero_mod, Nat.zero_div, after_zero, after_zero, Nat.zero_mul, Bool.or_self]
  · rfl

theorem after_cat (a b : Regex σ) (read : Nat) :
    (cat a b).after read =
      ((a.after (read % 2 ^ a.size)).1 +
          (if (a.after (read % 2 ^ a.size)).2 then (b.after (read / 2 ^ a.size)).1 ||| b.first
            else (b.after (read / 2 ^ a.size)).1) * 2 ^ a.size,
        ((a.after (read % 2 ^ a.size)).2 && b.nullable) || (b.after (read / 2 ^ a.size)).2) := by
  rw [after]
  split
  · next h => simp [h, after_zero]
  · rfl

theorem after_star (a : Regex σ) (read : Nat) :
    (star a).after read =
      (if (a.after read).2 then (a.after read).1 ||| a.first else (a.after read).1,
        (a.after read).2) := by
  rw [after]
  split
  · next h => simp [h, after_zero]
  · rfl

theorem after_lt (r : Regex σ) (read : Nat) : (r.after read).1 < 2 ^ r.size := by
  induction r generalizing read with
  | eps => exact Nat.one_pos
  | sym s => exact Nat.two_pow_pos _
  | alt a b iha ihb =>
      rw [after_alt]
      exact add_mul_lt (iha _) (ihb _)
  | cat a b iha ihb =>
      rw [after_cat]
      refine add_mul_lt (iha _) ?_
      split
      · exact Nat.or_lt_two_pow (ihb _) b.first_lt
      · exact ihb _
  | star a ih =>
      rw [after_star]
      split
      · exact Nat.or_lt_two_pow (ih _) a.first_lt
      · exact ih _

/-! ## What can be read -/

section Reading

variable {mem : σ → α → Bool}

theorem continues_or (r : Regex σ) (p q : Nat) :
    r.continues mem (p ||| q) = r.continues mem p + r.continues mem q := by
  induction r generalizing p q with
  | eps => exact (add_zero _).symm
  | sym s =>
      ext w
      rw [Language.mem_add]
      show _ ∧ _ ↔ _ ∧ _ ∨ _ ∧ _
      rw [Nat.testBit_or, Bool.or_eq_true, or_and_right]
  | alt a b iha ihb =>
      simp only [continues, Nat.or_mod_two_pow, Nat.or_div_two_pow, iha, ihb]
      exact add_add_add_comm _ _ _ _
  | cat a b iha ihb =>
      simp only [continues, Nat.or_mod_two_pow, Nat.or_div_two_pow, iha, ihb, add_mul]
      exact add_add_add_comm _ _ _ _
  | star a ih => simp only [continues, ih, add_mul]

theorem continues_zero (r : Regex σ) : r.continues mem 0 = 0 := by
  induction r with
  | eps => rfl
  | sym s => exact Set.eq_empty_iff_forall_notMem.mpr fun w hw => nomatch hw.1
  | alt a b iha ihb => rw [continues, Nat.zero_mod, Nat.zero_div, iha, ihb, add_zero]
  | cat a b iha ihb => rw [continues, Nat.zero_mod, Nat.zero_div, iha, ihb, zero_mul, add_zero]
  | star a ih => rw [continues, ih, zero_mul]

/-- With the empty word in a language or without it, the star is the same. -/
theorem kstar_one_add (l : Language α) : (l + 1)∗ = l∗ := by
  ext w
  rw [Language.kstar_def_nonempty, Language.kstar_def_nonempty]
  constructor
  · rintro ⟨S, rfl, hS⟩
    refine ⟨S, rfl, fun y hy => ?_⟩
    obtain ⟨hmem, hne⟩ := hS y hy
    rcases hmem with hmem | hmem
    · exact ⟨hmem, hne⟩
    · exact absurd hmem hne
  · rintro ⟨S, rfl, hS⟩
    exact ⟨S, rfl, fun y hy => ⟨.inl (hS y hy).1, (hS y hy).2⟩⟩

/-- The empty word, or nothing. -/
def whenNull (b : Bool) : Language α := if b then 1 else 0

theorem whenNull_or (x y : Bool) :
    (whenNull (x || y) : Language α) = whenNull x + whenNull y := by
  cases x <;> cases y <;> simp [whenNull]

theorem whenNull_and (x y : Bool) :
    (whenNull (x && y) : Language α) = whenNull x * whenNull y := by
  cases x <;> cases y <;> simp [whenNull]

theorem continues_ite (r : Regex σ) (x : Bool) (p : Nat) :
    r.continues mem (if x then p else 0) = whenNull x * r.continues mem p := by
  cases x with
  | false => exact r.continues_zero.trans (zero_mul _).symm
  | true => exact (one_mul _).symm

theorem continues_ite_or (r : Regex σ) (x : Bool) (p q : Nat) :
    r.continues mem (if x then p ||| q else p) =
      r.continues mem p + whenNull x * r.continues mem q := by
  cases x with
  | false => exact ((congrArg _ (zero_mul _)).trans (add_zero _)).symm
  | true => exact (r.continues_or p q).trans (congrArg _ (one_mul _).symm)

theorem kstar_add_whenNull (l : Language α) (x : Bool) : (l + whenNull x)∗ = l∗ := by
  cases x with
  | false => exact congrArg KStar.kstar (add_zero l)
  | true => exact kstar_one_add l

/-- **The language of an expression,** from its first symbols on. -/
theorem language_eq (r : Regex σ) :
    r.language mem = r.continues mem r.first + whenNull r.nullable := by
  induction r with
  | eps => exact (zero_add _).symm
  | sym s =>
      refine .trans ?_ (add_zero _).symm
      ext w
      show _ ↔ Nat.testBit 1 0 = true ∧ _
      exact (and_iff_right rfl).symm
  | alt a b iha ihb =>
      rw [language, iha, ihb, continues, first, add_mul_mod a.first_lt, add_mul_div a.first_lt,
        nullable, whenNull_or]
      exact add_add_add_comm _ _ _ _
  | cat a b iha ihb =>
      rw [continues, first, add_mul_mod a.first_lt, add_mul_div a.first_lt, nullable,
        whenNull_and, continues_ite, add_assoc, ← mul_add, ← ihb, ← add_mul, ← iha]
      rfl
  | star a ih =>
      have hstar : (a.language mem)∗ = (a.continues mem a.first)∗ := by
        rw [ih, kstar_add_whenNull]
      rw [language, continues, first, hstar, add_comm]
      exact (Language.one_add_self_mul_kstar_eq_kstar _).symm

/-- A character is read in front of what a word of a product begins with. -/
theorem cons_mem_mul {l₁ l₁' l : Language α} {x : Bool} {c : α}
    (h : ∀ w, c :: w ∈ l₁ ↔ w ∈ l₁' + whenNull x) (hnil : [] ∉ l₁) (w : List α) :
    c :: w ∈ l₁ * l ↔ w ∈ l₁' * l + whenNull x * l := by
  rw [← add_mul, Language.mem_mul, Language.mem_mul]
  constructor
  · rintro ⟨u, hu, v, hv, huv⟩
    cases u with
    | nil => exact absurd hu hnil
    | cons d u =>
        obtain ⟨rfl, rfl⟩ := List.cons.inj huv
        exact ⟨u, (h u).mp hu, v, hv, rfl⟩
  · rintro ⟨u, hu, v, hv, rfl⟩
    exact ⟨c :: u, (h u).mpr hu, v, hv, rfl⟩

theorem nil_not_mem_continues (r : Regex σ) (p : Nat) : [] ∉ r.continues mem p := by
  induction r generalizing p with
  | eps => exact id
  | sym s =>
      rintro ⟨-, c, -, h⟩
      cases h
  | alt a b iha ihb =>
      rintro (h | h)
      · exact iha _ h
      · exact ihb _ h
  | cat a b iha ihb =>
      rintro (h | h)
      · obtain ⟨u, hu, v, -, huv⟩ := Language.mem_mul.mp h
        rw [(List.append_eq_nil_iff.mp huv).1] at hu
        exact iha _ hu
      · exact ihb _ h
  | star a ih =>
      intro h
      obtain ⟨u, hu, v, -, huv⟩ := Language.mem_mul.mp h
      rw [(List.append_eq_nil_iff.mp huv).1] at hu
      exact ih _ hu

theorem matching_lt (r : Regex σ) (c : α) : r.matching mem c < 2 ^ r.size := by
  induction r with
  | eps => exact Nat.one_pos
  | sym s => exact Bool.toNat_lt _
  | alt a b iha ihb => exact add_mul_lt iha ihb
  | cat a b iha ihb => exact add_mul_lt iha ihb
  | star a ih => exact ih

/-- A character of one kind and a character of another that the symbols treat alike. -/
theorem matching_congr {β : Type*} {mem' : σ → β → Bool} {c : α} {d : β} {r : Regex σ}
    (h : ∀ s ∈ r.symbols, mem s c = mem' s d) : r.matching mem c = r.matching mem' d := by
  induction r with
  | eps => rfl
  | sym s => exact congrArg Bool.toNat (h s List.mem_cons_self)
  | alt a b iha ihb =>
      rw [matching, matching, iha fun s hs => h s (List.mem_append_left _ hs),
        ihb fun s hs => h s (List.mem_append_right _ hs)]
  | cat a b iha ihb =>
      rw [matching, matching, iha fun s hs => h s (List.mem_append_left _ hs),
        ihb fun s hs => h s (List.mem_append_right _ hs)]
  | star a ih => exact ih h

theorem and_mod {n p x y : Nat} (hx : x < 2 ^ n) :
    (p &&& (x + y * 2 ^ n)) % 2 ^ n = p % 2 ^ n &&& x := by
  rw [Nat.and_mod_two_pow, add_mul_mod hx]

theorem and_div {n p x y : Nat} (hx : x < 2 ^ n) :
    (p &&& (x + y * 2 ^ n)) / 2 ^ n = p / 2 ^ n &&& y := by
  rw [Nat.and_div_two_pow, add_mul_div hx]

/-- **Reading a character** moves the points on. -/
theorem cons_mem_continues (r : Regex σ) (p : Nat) (c : α) (w : List α) :
    c :: w ∈ r.continues mem p ↔
      w ∈ r.continues mem (r.after (p &&& r.matching mem c)).1 +
        whenNull (r.after (p &&& r.matching mem c)).2 := by
  induction r generalizing p w with
  | eps => exact or_self_iff.symm
  | sym s =>
      have hread : (p &&& (mem s c).toNat).testBit 0 = (p.testBit 0 && mem s c) := by
        rw [Nat.testBit_and]
        cases mem s c <;> rfl
      rw [matching, after, hread, continues_zero, zero_add]
      constructor
      · rintro ⟨hp, d, hd, heq⟩
        obtain ⟨rfl, rfl⟩ := List.cons.inj heq
        rw [hp, hd]
        rfl
      · intro h
        cases hboth : p.testBit 0 && mem s c with
        | false =>
            rw [hboth] at h
            cases h
        | true =>
            rw [hboth] at h
            obtain ⟨hp, hd⟩ := Bool.and_eq_true_iff.mp hboth
            exact ⟨hp, c, hd, congrArg _ h⟩
  | alt a b iha ihb =>
      have hx : a.matching mem c < 2 ^ a.size := a.matching_lt c
      rw [after_alt, matching, and_mod hx, and_div hx, continues, continues,
        add_mul_mod (a.after_lt _), add_mul_div (a.after_lt _), whenNull_or,
        add_add_add_comm, Language.mem_add, Language.mem_add, iha, ihb]
  | cat a b iha ihb =>
      have hx : a.matching mem c < 2 ^ a.size := a.matching_lt c
      have hfirst := cons_mem_mul (l := b.language mem)
        (iha (p % 2 ^ a.size)) (a.nil_not_mem_continues _) w
      rw [after_cat, matching, and_mod hx, and_div hx, continues, continues,
        add_mul_mod (a.after_lt _), add_mul_div (a.after_lt _), whenNull_or, whenNull_and,
        Language.mem_add, hfirst, ihb, ← Language.mem_add, continues_ite_or, b.language_eq]
      refine Iff.of_eq (congrArg (w ∈ ·) ?_)
      rw [mul_add (whenNull _)]
      abel
  | star a ih =>
      have hfirst := cons_mem_mul (l := (a.language mem)∗) (ih p) (a.nil_not_mem_continues _) w
      have hstar : (a.language mem)∗ = a.continues mem a.first * (a.language mem)∗ + 1 :=
        (star a).language_eq
      rw [after_star, matching, continues, hfirst, continues, continues_ite_or, add_mul, mul_assoc,
        add_assoc]
      nth_rewrite 2 [hstar]
      rw [mul_add, mul_one]

/-- A character that no symbol holds is in no word. -/
theorem not_mem_of_language {r : Regex σ} {x : α} (h : ∀ s ∈ r.symbols, mem s x = false)
    {w : List α} (hw : w ∈ r.language mem) : x ∉ w := by
  induction r generalizing w with
  | eps =>
      rw [language, Language.mem_one] at hw
      rw [hw]
      exact List.not_mem_nil
  | sym s =>
      obtain ⟨c, hc, rfl⟩ := hw
      rw [List.mem_singleton]
      rintro rfl
      exact Bool.false_ne_true ((h s List.mem_cons_self).symm.trans hc)
  | alt a b iha ihb =>
      rcases hw with hw | hw
      · exact iha (fun s hs => h s (List.mem_append_left _ hs)) hw
      · exact ihb (fun s hs => h s (List.mem_append_right _ hs)) hw
  | cat a b iha ihb =>
      obtain ⟨u, hu, v, hv, rfl⟩ := Language.mem_mul.mp hw
      rw [List.mem_append, not_or]
      exact ⟨iha (fun s hs => h s (List.mem_append_left _ hs)) hu,
        ihb (fun s hs => h s (List.mem_append_right _ hs)) hv⟩
  | star a ih =>
      obtain ⟨ws, rfl, hws⟩ := Language.mem_kstar.mp hw
      rw [List.mem_flatten]
      rintro ⟨u, hu, hx⟩
      exact ih h (hws u hu) hx

/-! ## A machine that moves with the points -/

section Machine

variable {δ ι : Type*} {C : Control δ α ι} {final : δ → Bool} {r : Regex σ}

theorem nil_mem_whenNull (x : Bool) : [] ∈ (whenNull x : Language α) ↔ x = true := by
  cases x with
  | false => exact iff_of_false id Bool.false_ne_true
  | true => exact iff_of_true rfl rfl

theorem cons_not_mem_whenNull (x : Bool) (c : α) (w : List α) :
    c :: w ∉ (whenNull x : Language α) := by
  cases x with
  | false => exact id
  | true => exact List.cons_ne_nil c w

/-- The machine does on the character what the points do. -/
def Moves (C : Control δ α ι) (final : δ → Bool) (mem : σ → α → Bool) (r : Regex σ)
    (R : δ → Nat → Prop) (q : δ) (p : Nat) (c : α) : Prop :=
  match C.next q c with
  | none => p &&& r.matching mem c = 0
  | some (_, q') =>
      R q' (r.after (p &&& r.matching mem c)).1 ∧ final q' = (r.after (p &&& r.matching mem c)).2

/-- **From a state that belongs to points the machine accepts what they continue.** -/
theorem final_after_iff {R : δ → Nat → Prop}
    (hmoves : ∀ q p, R q p → ∀ c, Moves C final mem r R q p c)
    (hgo : ∀ q p, R q p → C.halts q = false) (hrefused : final C.refused = false) (w : List α)
    {q : δ} {p : Nat} (hq : R q p) :
    final (C.after q w) = true ↔ w ∈ r.continues mem p + whenNull (final q) := by
  induction w generalizing q p with
  | nil =>
      rw [Language.mem_add, nil_mem_whenNull]
      exact (or_iff_right (r.nil_not_mem_continues p)).symm
  | cons c w ih =>
      have hc := hmoves q p hq c
      rw [Language.mem_add, or_iff_left (cons_not_mem_whenNull _ c w), r.cons_mem_continues]
      rw [Moves] at hc
      cases hnext : C.next q c with
      | none =>
          rw [hnext] at hc
          rw [Control.after_refused (hgo q p hq) hnext, hrefused, hc, after_zero, continues_zero]
          exact iff_of_false Bool.false_ne_true (or_self_iff.not.mpr id)
      | some step =>
          rw [hnext] at hc
          rw [Control.after_step (hgo q p hq) hnext, ih hc.1, hc.2]

/-- **The machine accepts the language of the expression.** -/
theorem accepts_iff {R : δ → Nat → Prop}
    (hmoves : ∀ q p, R q p → ∀ c, Moves C final mem r R q p c)
    (hgo : ∀ q p, R q p → C.halts q = false) (hrefused : final C.refused = false) {q : δ}
    (hq : R q r.first) (hnull : final q = r.nullable) (w : List α) :
    final (C.after q w) = true ↔ w ∈ r.language mem := by
  rw [final_after_iff hmoves hgo hrefused w hq, hnull, ← r.language_eq]

end Machine

end Reading

/-! ## Positions one at a time -/

/-- The symbols that may be read last. -/
def last : Regex σ → Nat
  | eps => 0
  | sym _ => 1
  | alt a b => a.last + b.last * 2 ^ a.size
  | cat a b => (if b.nullable then a.last else 0) + b.last * 2 ^ a.size
  | star a => a.last

theorem last_lt (r : Regex σ) : r.last < 2 ^ r.size := by
  induction r with
  | eps => exact Nat.one_pos
  | sym s => exact Nat.one_lt_two
  | alt a b iha ihb => exact add_mul_lt iha ihb
  | cat a b iha ihb =>
      refine add_mul_lt ?_ ihb
      split
      · exact iha
      · exact Nat.two_pow_pos _
  | star a ih => exact ih

theorem or_eq_zero {x y : Nat} : x ||| y = 0 ↔ x = 0 ∧ y = 0 := by
  constructor
  · intro h
    exact ⟨Nat.le_zero.mp (h ▸ Nat.left_le_or), Nat.le_zero.mp (h ▸ Nat.right_le_or)⟩
  · rintro ⟨rfl, rfl⟩
    rfl

/-- The points of a whole are those of the halves. -/
theorem and_eq_zero_iff {n p x y : Nat} (hx : x < 2 ^ n) :
    p &&& (x + y * 2 ^ n) = 0 ↔ p % 2 ^ n &&& x = 0 ∧ p / 2 ^ n &&& y = 0 := by
  rw [← and_mod hx, ← and_div hx (x := x) (y := y)]
  constructor
  · intro h
    rw [h]
    exact ⟨Nat.zero_mod _, Nat.zero_div _⟩
  · rintro ⟨hmod, hdiv⟩
    rw [← Nat.div_add_mod (p &&& (x + y * 2 ^ n)) (2 ^ n), hmod, hdiv, Nat.mul_zero]

/-- It may be the end when one of the last symbols has been read. -/
theorem after_snd (r : Regex σ) (read : Nat) : (r.after read).2 = true ↔ read &&& r.last ≠ 0 := by
  induction r generalizing read with
  | eps => exact iff_of_false Bool.false_ne_true (not_not.mpr (Nat.and_zero read))
  | sym s =>
      show read.testBit 0 = true ↔ read &&& 1 ≠ 0
      rw [Nat.testBit_zero, decide_eq_true_iff, Nat.and_one_is_mod]
      omega
  | alt a b iha ihb =>
      rw [after_alt, last, Ne, and_eq_zero_iff a.last_lt, Bool.or_eq_true, iha, ihb, not_and_or]
  | cat a b iha ihb =>
      have hlt : (if b.nullable = true then a.last else 0) < 2 ^ a.size := by
        split
        · exact a.last_lt
        · exact Nat.two_pow_pos _
      rw [after_cat, last, Ne, and_eq_zero_iff hlt, Bool.or_eq_true, Bool.and_eq_true, iha, ihb,
        not_and_or]
      cases b.nullable <;> simp
  | star a ih =>
      rw [after_star]
      exact ih read

theorem after_or_snd (r : Regex σ) (p q : Nat) :
    (r.after (p ||| q)).2 = ((r.after p).2 || (r.after q).2) := by
  rw [Bool.eq_iff_iff, Bool.or_eq_true, after_snd, after_snd, after_snd, Nat.and_or_distrib_right,
    Ne, or_eq_zero, not_and_or]

theorem or_add_mul {n x y x' y' : Nat} (hx : x < 2 ^ n) (hx' : x' < 2 ^ n) :
    (x + y * 2 ^ n) ||| (x' + y' * 2 ^ n) = (x ||| x') + (y ||| y') * 2 ^ n := by
  have hor := Nat.or_lt_two_pow hx hx'
  rw [← Nat.div_add_mod ((x + y * 2 ^ n) ||| (x' + y' * 2 ^ n)) (2 ^ n), Nat.or_div_two_pow,
    Nat.or_mod_two_pow, add_mul_mod hx, add_mul_mod hx', add_mul_div hx, add_mul_div hx',
    Nat.mul_comm, Nat.add_comm]

theorem ite_or (x y : Bool) (p q f : Nat) :
    (if x || y then p ||| q ||| f else p ||| q) =
      (if x then p ||| f else p) ||| (if y then q ||| f else q) := by
  apply Nat.eq_of_testBit_eq
  intro i
  cases x <;> cases y <;>
    simp only [Bool.or_false, Bool.or_true, if_true, if_false, Bool.false_eq_true,
      Nat.testBit_or] <;>
    cases p.testBit i <;> cases q.testBit i <;> cases f.testBit i <;> rfl

/-- What follows the symbols of two sets follows one of the two. -/
theorem after_or (r : Regex σ) (p q : Nat) :
    (r.after (p ||| q)).1 = (r.after p).1 ||| (r.after q).1 := by
  induction r generalizing p q with
  | eps => exact (Nat.or_self 0).symm
  | sym s => exact (Nat.or_self 0).symm
  | alt a b iha ihb =>
      rw [after_alt, after_alt, after_alt, or_add_mul (a.after_lt _) (a.after_lt _), ← iha, ← ihb,
        Nat.or_mod_two_pow, Nat.or_div_two_pow]
  | cat a b iha ihb =>
      rw [after_cat, after_cat, after_cat, or_add_mul (a.after_lt _) (a.after_lt _), ← iha,
        ← ite_or, ← ihb, ← after_or_snd, Nat.or_mod_two_pow, Nat.or_div_two_pow]
  | star a ih => rw [after_star, after_star, after_star, ← ite_or, ← ih, ← after_or_snd]

/-- `more` is added where the mask has a bit. -/
def addTo (more : Nat) : Nat → List Nat → List Nat
  | _, [] => []
  | mask, x :: xs => (bif mask.testBit 0 then x ||| more else x) :: addTo more (mask / 2) xs

/-- For each symbol those that may be read next, all in one pass. -/
def follows : Regex σ → List Nat
  | eps => []
  | sym _ => [0]
  | alt a b => a.follows ++ b.follows.map (· <<< a.size)
  | cat a b => addTo (b.first <<< a.size) a.last a.follows ++ b.follows.map (· <<< a.size)
  | star a => addTo a.first a.last a.follows

theorem getElem?_addTo (more mask p : Nat) (xs : List Nat) :
    (addTo more mask xs)[p]? = xs[p]?.map fun x => if mask.testBit p then x ||| more else x := by
  induction xs generalizing mask p with
  | nil => rfl
  | cons x xs ih =>
      cases p with
      | zero =>
          show some _ = some _
          rw [Bool.cond_eq_ite]
      | succ p =>
          show (addTo more (mask / 2) xs)[p]? = xs[p]?.map _
          rw [ih, Nat.testBit_succ]

theorem length_addTo (more mask : Nat) (xs : List Nat) : (addTo more mask xs).length = xs.length := by
  induction xs generalizing mask with
  | nil => rfl
  | cons x xs ih => exact congrArg (· + 1) (ih _)

theorem length_follows (r : Regex σ) : r.follows.length = r.size := by
  induction r with
  | eps => rfl
  | sym s => rfl
  | alt a b iha ihb => rw [follows, List.length_append, List.length_map, iha, ihb, size]
  | cat a b iha ihb =>
      rw [follows, List.length_append, length_addTo, List.length_map, iha, ihb, size]
  | star a ih => rw [follows, length_addTo, ih, size]

theorem testBit_last (r : Regex σ) (p : Nat) : r.last.testBit p = (r.after (2 ^ p)).2 := by
  rw [Bool.eq_iff_iff, after_snd, Nat.two_pow_and]
  cases r.last.testBit p <;> simp

/-- A symbol of one of two halves. -/
theorem two_pow_halves {n p : Nat} :
    (p < n → 2 ^ p % 2 ^ n = 2 ^ p ∧ 2 ^ p / 2 ^ n = 0) ∧
      2 ^ (n + p) % 2 ^ n = 0 ∧ 2 ^ (n + p) / 2 ^ n = 2 ^ p := by
  refine ⟨fun h => ?_, ?_, ?_⟩
  · have hlt : 2 ^ p < 2 ^ n := Nat.pow_lt_pow_right Nat.one_lt_two h
    exact ⟨Nat.mod_eq_of_lt hlt, Nat.div_eq_of_lt hlt⟩
  · rw [Nat.pow_add]
    exact Nat.mul_mod_right _ _
  · rw [Nat.pow_add]
    exact Nat.mul_div_cancel_left _ (Nat.two_pow_pos n)

theorem getElem?_follows (r : Regex σ) {p : Nat} (hp : p < r.size) :
    r.follows[p]? = some (r.after (2 ^ p)).1 := by
  induction r generalizing p with
  | eps => cases hp
  | sym s =>
      obtain rfl := Nat.lt_one_iff.mp hp
      rfl
  | alt a b iha ihb =>
      rw [follows, after_alt]
      by_cases hleft : p < a.size
      · obtain ⟨hmod, hdiv⟩ := two_pow_halves.1 hleft
        rw [List.getElem?_append_left (a.length_follows ▸ hleft), iha hleft, hmod, hdiv, after_zero,
          Nat.zero_mul, Nat.add_zero]
      · obtain ⟨k, rfl⟩ := Nat.exists_eq_add_of_le (Nat.le_of_not_lt hleft)
        obtain ⟨hmod, hdiv⟩ := (two_pow_halves (n := a.size) (p := k)).2
        rw [List.getElem?_append_right (by rw [length_follows]; omega), List.getElem?_map,
          length_follows, Nat.add_sub_cancel_left, ihb (by rw [size] at hp; omega), hmod, hdiv,
          after_zero, Nat.zero_add, Option.map_some, Nat.shiftLeft_eq]
  | cat a b iha ihb =>
      rw [follows, after_cat]
      by_cases hleft : p < a.size
      · obtain ⟨hmod, hdiv⟩ := two_pow_halves.1 hleft
        rw [List.getElem?_append_left (by rw [length_addTo, length_follows]; exact hleft),
          getElem?_addTo, iha hleft, hmod, hdiv, after_zero, testBit_last, Option.map_some,
          Nat.zero_or]
        have hlt := a.after_lt (2 ^ p)
        cases (a.after (2 ^ p)).2 with
        | false => simp
        | true =>
            rw [if_pos rfl, if_pos rfl, Nat.or_comm, ← Nat.shiftLeft_add_eq_or_of_lt hlt,
              Nat.shiftLeft_eq, Nat.add_comm]
      · obtain ⟨k, rfl⟩ := Nat.exists_eq_add_of_le (Nat.le_of_not_lt hleft)
        obtain ⟨hmod, hdiv⟩ := (two_pow_halves (n := a.size) (p := k)).2
        rw [List.getElem?_append_right (by rw [length_addTo, length_follows]; omega),
          List.getElem?_map, length_addTo, length_follows, Nat.add_sub_cancel_left,
          ihb (by rw [size] at hp; omega), hmod, hdiv, after_zero, Nat.zero_add, Option.map_some,
          Nat.shiftLeft_eq]
        rfl
  | star a ih => rw [follows, after_star, getElem?_addTo, ih hp, testBit_last, Option.map_some]

/-- Values by position, in halves of the positions. -/
inductive Halves
  | leaf (value : Nat)
  | node (half : Nat) (low high : Halves)

namespace Halves

def ofList : Nat → List Nat → Halves
  | 0, xs => leaf (xs.headD 0)
  | d + 1, xs =>
      node (1 <<< d) (ofList d (xs.take (1 <<< d))) (ofList d (xs.drop (1 <<< d)))

/-- All values at the positions of a set. -/
def gather : Halves → Nat → Nat
  | leaf value, read => bif Nat.beq read 0 then 0 else value
  | node half low high, read =>
      bif Nat.beq read 0 then 0
      else
        Nat.lor (low.gather (Nat.mod read (Nat.shiftLeft 1 half)))
          (high.gather (Nat.shiftRight read half))

theorem gather_node (half : Nat) (low high : Halves) (read : Nat) :
    (node half low high).gather read =
      bif Nat.beq read 0 then 0
      else low.gather (read % 2 ^ half) ||| high.gather (read / 2 ^ half) := by
  rw [← Nat.shiftRight_eq_div_pow, ← Nat.one_shiftLeft]
  rfl

/-- What respects unions is gathered from the single positions. -/
theorem gather_ofList {f : Nat → Nat} (hzero : f 0 = 0)
    (hor : ∀ x y, f (x ||| y) = f x ||| f y) {d : Nat} {xs : List Nat}
    (hxs : ∀ p < 2 ^ d, xs.getD p 0 = f (2 ^ p)) {read : Nat} (hread : read < 2 ^ 2 ^ d) :
    (ofList d xs).gather read = f read := by
  induction d generalizing f xs read with
  | zero =>
      have hhead : xs.headD 0 = f 1 := by
        rw [← Nat.pow_zero 2, ← hxs 0 Nat.one_pos]
        cases xs <;> rfl
      match read, hread with
      | 0, _ => exact hzero.symm
      | 1, _ => exact hhead
      | n + 2, h => exact absurd h (by simp)
  | succ d ih =>
      have hpow : 2 ^ (d + 1) = 2 ^ d + 2 ^ d := by rw [Nat.pow_succ, Nat.mul_two]
      have hlow : (ofList d (xs.take (1 <<< d))).gather (read % 2 ^ 2 ^ d) =
          f (read % 2 ^ 2 ^ d) := by
        refine ih hzero hor (fun p hp => ?_) (Nat.mod_lt _ (Nat.two_pow_pos _))
        rw [← hxs p (by omega), List.getD_eq_getElem?_getD, List.getD_eq_getElem?_getD,
          List.getElem?_take_of_lt (by rw [Nat.one_shiftLeft]; exact hp)]
      have hhigh : (ofList d (xs.drop (1 <<< d))).gather (read / 2 ^ 2 ^ d) =
          f (read / 2 ^ 2 ^ d * 2 ^ 2 ^ d) := by
        refine ih (f := fun x => f (x * 2 ^ 2 ^ d)) (by rw [Nat.zero_mul, hzero])
          (fun x y => ?_) (fun p hp => ?_) ?_
        · rw [← hor, ← Nat.shiftLeft_eq, ← Nat.shiftLeft_eq, ← Nat.shiftLeft_eq,
            Nat.shiftLeft_or_distrib]
        · rw [← Nat.pow_add, Nat.add_comm p, ← hxs _ (by omega), List.getD_eq_getElem?_getD,
            List.getD_eq_getElem?_getD, List.getElem?_drop, Nat.one_shiftLeft]
        · rw [hpow, Nat.pow_add] at hread
          exact Nat.div_lt_of_lt_mul hread
      rw [Nat.one_shiftLeft] at hlow hhigh
      rw [ofList, gather_node, Nat.one_shiftLeft, hlow, hhigh, ← hor]
      cases hbeq : Nat.beq read 0 with
      | true =>
          obtain rfl := Nat.eq_of_beq_eq_true hbeq
          exact hzero.symm
      | false =>
          refine congrArg f ?_
          rw [Nat.or_comm, Nat.mul_comm,
            ← Nat.two_pow_add_eq_or_of_lt (Nat.mod_lt _ (Nat.two_pow_pos _)), Nat.div_add_mod]

end Halves

/-- **What follows a set of symbols,** from what follows each of them. -/
theorem gather_follows {r : Regex σ} {d : Nat} (hd : r.size ≤ 2 ^ d) {read : Nat}
    (hread : read < 2 ^ r.size) : (Halves.ofList d r.follows).gather read = (r.after read).1 := by
  have hgather : (Halves.ofList d r.follows).gather read = (r.after (read % 2 ^ r.size)).1 := by
    refine Halves.gather_ofList (f := fun x => (r.after (x % 2 ^ r.size)).1)
      (by simp [after_zero]) (fun x y => by simp only [Nat.or_mod_two_pow, after_or])
      (fun p _ => ?_) (hread.trans_le (Nat.pow_le_pow_right Nat.two_pos hd))
    rw [List.getD_eq_getElem?_getD]
    by_cases hp : p < r.size
    · rw [getElem?_follows r hp, Nat.mod_eq_of_lt (Nat.pow_lt_pow_right Nat.one_lt_two hp)]
      rfl
    · obtain ⟨k, rfl⟩ := Nat.exists_eq_add_of_le (Nat.le_of_not_lt hp)
      rw [List.getElem?_eq_none (by rw [length_follows]; omega), two_pow_halves.2.1, after_zero]
      rfl
  rw [hgather, Nat.mod_eq_of_lt hread]

end Regex
end Foundation
end Routn
