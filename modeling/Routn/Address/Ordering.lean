import Mathlib.Data.List.Basic
import Mathlib.Tactic

/-!
# The comparisons of `Address`

An address is the bytes of its `sockaddr`.  `operator<` compares the bytes that both have; when they
agree there it compares the lengths, and returns `true` whatever comes out of that.
-/

namespace Routn
namespace Address

/-- The `getAddrLen()` bytes at `getAddr()`. -/
abbrev Raw := List UInt8

/-- The sign of what `memcmp` returns for the first `n` bytes. -/
def memcmp : Raw → Raw → Nat → Int
  | x :: a, y :: b, n + 1 => if x < y then -1 else if y < x then 1 else memcmp a b n
  | _, _, _ => 0

namespace Raw

/-- `operator<` -/
def less (a b : Raw) : Bool :=
  let minlen := min a.length b.length
  let res := memcmp a b minlen
  if res < 0 then true
  else if res > 0 then false
  else if a.length < b.length then true
  else true

/-- `operator==` -/
def equal (a b : Raw) : Bool := a.length = b.length && memcmp a b a.length = 0

/-! ## What is asked of them -/

/-- One of the three holds, and no two. -/
def Trichotomous (a b : Raw) : Prop :=
  (a.less b ∧ ¬ a.equal b ∧ ¬ b.less a) ∨ (¬ a.less b ∧ a.equal b ∧ ¬ b.less a) ∨
    (¬ a.less b ∧ ¬ a.equal b ∧ b.less a)

def Asymmetric (a b : Raw) : Prop := a.less b → ¬ b.less a

def Transitive (a b c : Raw) : Prop := a.less b → b.less c → a.less c

/-- `operator<` is a strict total order of these addresses. -/
structure StrictTotal (addresses : Set Raw) : Prop where
  irrefl : ∀ a ∈ addresses, ¬ a.less a
  asymm : ∀ a ∈ addresses, ∀ b ∈ addresses, Asymmetric a b
  trans : ∀ a ∈ addresses, ∀ b ∈ addresses, ∀ c ∈ addresses, Transitive a b c
  total : ∀ a ∈ addresses, ∀ b ∈ addresses, Trichotomous a b

/-! ## The first byte that differs -/

/-- There is a byte that differs, and in the first one this address is the smaller one. -/
inductive Smaller : Raw → Raw → Prop
  | head {x y : UInt8} {a b : Raw} (hlt : x < y) : Smaller (x :: a) (y :: b)
  | tail {x : UInt8} {a b : Raw} (hrest : Smaller a b) : Smaller (x :: a) (x :: b)

variable {a b c : Raw} {x y : UInt8}

@[simp] theorem not_smaller_nil : ¬ Smaller [] b := by
  rintro ⟨⟩

@[simp] theorem not_smaller_of_nil : ¬ Smaller a [] := by
  rintro ⟨⟩

@[simp] theorem smaller_cons : Smaller (x :: a) (y :: b) ↔ x < y ∨ x = y ∧ Smaller a b := by
  constructor
  · intro h
    cases h with
    | head hlt => exact .inl hlt
    | tail hrest => exact .inr ⟨rfl, hrest⟩
  · rintro (hlt | ⟨rfl, hrest⟩)
    · exact .head hlt
    · exact .tail hrest

theorem Smaller.asymm (h : Smaller a b) : ¬ Smaller b a := by
  induction h with
  | head hlt =>
      simp only [smaller_cons, not_or, not_and]
      exact ⟨UInt8.lt_asymm hlt, fun heq => absurd heq.symm (UInt8.ne_of_lt hlt)⟩
  | tail hrest ih => simpa using ih

theorem Smaller.incomparable (h : Smaller a b) : ¬ a <+: b ∧ ¬ b <+: a := by
  induction h with
  | head hlt => simp [UInt8.ne_of_lt hlt, (UInt8.ne_of_lt hlt).symm]
  | tail hrest ih => simpa using ih

/-- **What `memcmp` says** of the bytes that both have. -/
theorem memcmp_cases (a b : Raw) :
    (memcmp a b (min a.length b.length) = -1 ∧ Smaller a b) ∨
      (memcmp a b (min a.length b.length) = 0 ∧ (a <+: b ∨ b <+: a)) ∨
      (memcmp a b (min a.length b.length) = 1 ∧ Smaller b a) := by
  induction a generalizing b with
  | nil => simp [memcmp]
  | cons x a ih =>
      cases b with
      | nil => simp [memcmp]
      | cons y b =>
          by_cases hxy : x < y
          · simp [memcmp, hxy]
          · by_cases hyx : y < x
            · simp [memcmp, hxy, hyx]
            · obtain rfl : x = y := UInt8.le_antisymm (UInt8.not_lt.mp hyx) (UInt8.not_lt.mp hxy)
              simpa [memcmp] using ih b

/-! ## The comparisons by the first byte that differs -/

theorem smaller_or : Smaller a b ∨ (a <+: b ∨ b <+: a) ∨ Smaller b a := by
  rcases memcmp_cases a b with ⟨-, h⟩ | ⟨-, h⟩ | ⟨-, h⟩ <;> simp [h]

/-- Every address is less than another one that is not smaller. -/
@[simp] theorem less_iff : a.less b ↔ ¬ Smaller b a := by
  rcases memcmp_cases a b with ⟨hres, h⟩ | ⟨hres, h⟩ | ⟨hres, h⟩
  · simp [less, hres, h.asymm]
  · have hnot : ¬ Smaller b a := by
      intro hsmaller
      rcases h with h | h
      · exact hsmaller.incomparable.2 h
      · exact hsmaller.incomparable.1 h
    simp [less, hres, hnot]
  · simp [less, hres, h]

theorem memcmp_self (a : Raw) (n : Nat) : memcmp a a n = 0 := by
  induction a generalizing n with
  | nil => simp [memcmp]
  | cons x a ih => cases n <;> simp [memcmp, ih]

@[simp] theorem equal_iff : a.equal b ↔ a = b := by
  constructor
  · intro h
    obtain ⟨hlength, hres⟩ : a.length = b.length ∧ memcmp a b a.length = 0 := by
      simpa [equal] using h
    have hcases := memcmp_cases a b
    rw [← hlength, Nat.min_self, hres] at hcases
    obtain hfront | hfront : a <+: b ∨ b <+: a := by simpa using hcases
    · exact List.IsPrefix.eq_of_length hfront hlength
    · exact (List.IsPrefix.eq_of_length hfront hlength.symm).symm
  · rintro rfl
    simp [equal, memcmp_self]

theorem not_smaller_self (a : Raw) : ¬ Smaller a a := fun h => h.asymm h

/-- Neither is smaller: the bytes that both have are the same. -/
theorem prefix_iff : (a <+: b ∨ b <+: a) ↔ ¬ Smaller a b ∧ ¬ Smaller b a := by
  constructor
  · intro hfront
    constructor
    · intro h
      simp [h.incomparable] at hfront
    · intro h
      simp [h.incomparable] at hfront
  · rintro ⟨hab, hba⟩
    simpa [hab, hba] using smaller_or (a := a) (b := b)

theorem trichotomous_iff : Trichotomous a b ↔ ¬ (a <+: b ∨ b <+: a) := by
  rw [prefix_iff]
  have hasymm : Smaller a b → ¬ Smaller b a := Smaller.asymm
  have hself : Smaller a b ∨ Smaller b a → a ≠ b := by
    rintro h rfl
    exact not_smaller_self a (h.elim id id)
  simp only [Trichotomous, less_iff, equal_iff]
  tauto

theorem asymmetric_iff : Asymmetric a b ↔ ¬ (a <+: b ∨ b <+: a) := by
  rw [prefix_iff]
  simp only [Asymmetric, less_iff]
  tauto

/-- Between an address and a smaller one there is only what both start with. -/
theorem between_iff (hca : Smaller c a) :
    ¬ Smaller b a ∧ ¬ Smaller c b ↔ b <+: a ∧ b <+: c := by
  induction hca generalizing b with
  | head hlt =>
      cases b with
      | nil => simp
      | cons z b =>
          simp only [smaller_cons, List.cons_prefix_cons]
          grind
  | tail hrest ih =>
      cases b with
      | nil => simp
      | cons z b =>
          simp only [smaller_cons, List.cons_prefix_cons]
          grind

theorem transitive_iff : Transitive a b c ↔ ¬ (b <+: a ∧ b <+: c ∧ Smaller c a) := by
  simp only [Transitive, less_iff]
  by_cases hca : Smaller c a
  · have hbetween := between_iff (b := b) hca
    tauto
  · tauto

/-- **The order of addresses.**  No address can be in a set that `operator<` orders: it is less than
itself.  Two addresses are told apart when neither starts with the other, and the step from one over
another to a smaller one is made only over what both start with. -/
theorem order_iff (addresses : Set Raw) (a b c : Raw) :
    (StrictTotal addresses ↔ addresses = ∅) ∧
      (Trichotomous a b ↔ ¬ (a <+: b ∨ b <+: a)) ∧
      (Asymmetric a b ↔ ¬ (a <+: b ∨ b <+: a)) ∧
      (Transitive a b c ↔ ¬ (b <+: a ∧ b <+: c ∧ Smaller c a)) := by
  refine ⟨?_, trichotomous_iff, asymmetric_iff, transitive_iff⟩
  constructor
  · intro h
    ext a
    simpa using fun ha => h.irrefl a ha (less_iff.mpr (not_smaller_self a))
  · rintro rfl
    constructor <;> simp

/-- **An IPv4 address** is less than itself. -/
theorem not_strictTotal_ipv4 :
    ¬ StrictTotal {[2, 0, 0, 80, 127, 0, 0, 1, 0, 0, 0, 0, 0, 0, 0, 0]} :=
  fun h => h.irrefl _ rfl (by decide)

end Raw
end Address
end Routn
