import Mathlib.Data.Nat.Bitwise
import Mathlib.Tactic

/-!
# Numbers as bytes

Two positional codings of a natural number: a fixed count of base-256 digits (`bytesLE`, read back
by `natLE`), and the self-delimiting base-128 coding in which every byte but the last has its high
bit set (`leb128`).  Both are stated over unbounded naturals; a user with machine words supplies
the bound.
-/

namespace Routn
namespace Foundation

/-! ## A fixed count of base-256 digits -/

/-- The `k` lowest base-256 digits of `v`, least significant first. -/
def bytesLE : Nat → Nat → List UInt8
  | 0, _ => []
  | k + 1, v => UInt8.ofNat v :: bytesLE k (v / 256)

/-- The number whose base-256 digits, least significant first, are the given bytes. -/
def natLE : List UInt8 → Nat
  | [] => 0
  | b :: bs => b.toNat + 256 * natLE bs

@[simp] theorem length_bytesLE (k v : Nat) : (bytesLE k v).length = k := by
  induction k generalizing v with
  | zero => rfl
  | succ k ih => simp [bytesLE, ih]

theorem natLE_bytesLE (k v : Nat) : natLE (bytesLE k v) = v % 256 ^ k := by
  induction k generalizing v with
  | zero => simp [bytesLE, natLE, Nat.mod_one]
  | succ k ih =>
      have hsplit : v % (256 * 256 ^ k) = v % 256 + 256 * (v / 256 % 256 ^ k) := Nat.mod_mul
      have hhead : (UInt8.ofNat v).toNat = v % 256 := UInt8.toNat_ofNat'
      rw [bytesLE, natLE, ih, hhead, pow_succ', hsplit]

theorem natLE_lt (bs : List UInt8) : natLE bs < 256 ^ bs.length := by
  induction bs with
  | nil => simp [natLE]
  | cons b bs ih =>
      have hb := b.toNat_lt
      rw [natLE, List.length_cons, pow_succ]
      omega

theorem bytesLE_natLE (bs : List UInt8) : bytesLE bs.length (natLE bs) = bs := by
  induction bs with
  | nil => rfl
  | cons b bs ih =>
      have hb := b.toNat_lt
      have hhead : UInt8.ofNat (b.toNat + 256 * natLE bs) = b := by
        apply UInt8.toNat_inj.mp
        rw [UInt8.toNat_ofNat']
        omega
      have htail : (b.toNat + 256 * natLE bs) / 256 = natLE bs := by omega
      rw [List.length_cons, natLE, bytesLE, hhead, htail, ih]

theorem testBit_natLE (bs : List UInt8) (i : Nat) :
    (natLE bs).testBit i = (bs.getD (i / 8) 0).toNat.testBit (i % 8) := by
  induction bs generalizing i with
  | nil => simp [natLE]
  | cons b bs ih =>
      have hsplit : natLE (b :: bs) = 2 ^ 8 * natLE bs + b.toNat := by
        simp [natLE, Nat.add_comm]
      rw [hsplit, Nat.testBit_two_pow_mul_add _ b.toNat_lt]
      by_cases hi : i < 8
      · simp [hi, Nat.div_eq_of_lt hi, Nat.mod_eq_of_lt hi]
      · obtain ⟨j, rfl⟩ : ∃ j, i = j + 8 := ⟨i - 8, by omega⟩
        simp [ih]

theorem getD_bytesLE {k i : Nat} (v : Nat) (hi : i < k) :
    (bytesLE k v).getD i 0 = UInt8.ofNat (v / 256 ^ i) := by
  induction k generalizing i v with
  | zero => exact absurd hi (Nat.not_lt_zero i)
  | succ k ih =>
      cases i with
      | zero => simp [bytesLE]
      | succ i =>
          simp only [bytesLE, List.getD_cons_succ]
          rw [ih _ (by omega), Nat.div_div_eq_div_mul, pow_succ']

theorem testBit_getD_bytesLE {k i j : Nat} (v : Nat) (hi : i < k) (hj : j < 8) :
    ((bytesLE k v).getD i 0).toNat.testBit j = v.testBit (8 * i + j) := by
  have hpow : 256 ^ i = 2 ^ (8 * i) := by rw [pow_mul]; rfl
  rw [getD_bytesLE v hi, UInt8.toNat_ofNat', hpow, Nat.testBit_mod_two_pow,
    Nat.testBit_div_two_pow]
  simp [hj, Nat.add_comm]

/-! ## Base-128 with continuation bits -/

/-- The self-delimiting base-128 coding, least significant group first. -/
def leb128 (v : Nat) : List UInt8 :=
  if v < 128 then [UInt8.ofNat v]
  else UInt8.ofNat (v % 128 + 128) :: leb128 (v / 128)
termination_by v
decreasing_by omega

theorem leb128_of_lt {v : Nat} (hv : v < 128) : leb128 v = [UInt8.ofNat v] := by
  rw [leb128, if_pos hv]

theorem leb128_of_ge {v : Nat} (hv : 128 ≤ v) :
    leb128 v = UInt8.ofNat (v % 128 + 128) :: leb128 (v / 128) := by
  rw [leb128, if_neg (by omega)]

theorem leb128_ne_nil (v : Nat) : leb128 v ≠ [] := by
  rw [leb128]
  split <;> simp

/-! ## The two bit-level forms of the same digits -/

/-- Setting the continuation bit of a seven-bit group is adding `128`. -/
theorem and_127_or_128 (v : Nat) : v &&& 127 ||| 128 = v % 128 + 128 := by
  have hand : v &&& 127 = v % 128 := Nat.and_two_pow_sub_one_eq_mod v 7
  have hor := Nat.two_pow_add_eq_or_of_lt (i := 7) (b := v % 128) (Nat.mod_lt _ (by norm_num)) 1
  rw [hand, Nat.or_comm]
  simpa [Nat.add_comm] using hor.symm

theorem shiftRight_seven (v : Nat) : v >>> 7 = v / 128 := Nat.shiftRight_eq_div_pow v 7

/-- Or-ing a group in above the bits collected so far is adding it. -/
theorem or_shiftLeft_eq_add {low shift group : Nat} (hlow : low < 2 ^ shift) :
    low ||| group <<< shift = low + group * 2 ^ shift := by
  have hor := Nat.two_pow_add_eq_or_of_lt hlow group
  rw [Nat.shiftLeft_eq, Nat.or_comm, mul_comm group, ← hor, Nat.add_comm]

end Foundation
end Routn
