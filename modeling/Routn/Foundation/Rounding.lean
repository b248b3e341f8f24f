import Mathlib.Data.Int.Log
import Mathlib.Data.Rat.Floor
import Mathlib.Tactic

/-!
# Rounding a quotient to a fixed number of significand bits

`roundTo p q` is the round-to-nearest-even value of a non-negative rational `q` with a `p`-bit
significand (no overflow and no subnormals: the exponent is unbounded).  The result the users need
is `ceil_roundTo_div`: rounding a quotient of naturals does not disturb its ceiling as long as the
dividend has at most `p` bits.  The bound is sharp, see `roundTo_two_pow_add_one`.
-/

namespace Routn
namespace Foundation

/-- Nearest integer, ties to even. -/
def roundHalfEven (q : ℚ) : ℤ :=
  let below := ⌊q⌋
  if q - below < 1 / 2 then below
  else if 1 / 2 < q - below then below + 1
  else if below % 2 = 0 then below
  else below + 1

/-- The weight of the last significand bit of `q`. -/
def unitOf (p : Nat) (q : ℚ) : ℚ :=
  2 ^ (Int.log 2 q - ((p : ℤ) - 1))

/-- Round to a `p`-bit significand, ties to even. -/
def roundTo (p : Nat) (q : ℚ) : ℚ :=
  roundHalfEven (q / unitOf p q) * unitOf p q

theorem floor_le_roundHalfEven (q : ℚ) : ⌊q⌋ ≤ roundHalfEven q := by
  unfold roundHalfEven
  dsimp only
  split_ifs <;> omega

@[simp] theorem roundHalfEven_intCast (k : ℤ) : roundHalfEven k = k := by
  simp [roundHalfEven]

/-- Rounding does not pass an integer upwards. -/
theorem roundHalfEven_le {q : ℚ} {k : ℤ} (hq : q ≤ k) : roundHalfEven q ≤ k := by
  have hfloor : ⌊q⌋ ≤ k := Int.floor_le_iff.mpr (by linarith)
  -- Rounding adds at most one to the floor, and nothing to an integer.
  rcases hfloor.lt_or_eq with hlt | heq
  · unfold roundHalfEven
    dsimp only
    split_ifs <;> omega
  · have hqk : q = k := le_antisymm hq (heq ▸ Int.floor_le q)
    rw [hqk, roundHalfEven_intCast]

/-- A value more than half a unit above an integer rounds above it. -/
theorem lt_roundHalfEven {q : ℚ} {k : ℤ} (hq : (k : ℚ) + 1 / 2 < q) : k < roundHalfEven q := by
  have hfloor : k ≤ ⌊q⌋ := Int.le_floor.mpr (by linarith)
  rcases hfloor.lt_or_eq with hlt | heq
  · exact lt_of_lt_of_le hlt (floor_le_roundHalfEven q)
  · have hup : roundHalfEven q = ⌊q⌋ + 1 := by
      unfold roundHalfEven
      dsimp only
      rw [← heq, if_neg (by linarith), if_pos (by linarith)]
    omega

theorem unitOf_pos (p : Nat) (q : ℚ) : 0 < unitOf p q := by
  unfold unitOf
  positivity

/-- The unit is at most `2 ^ (1 - p)` of the value. -/
theorem two_pow_mul_unitOf_le (p : Nat) {q : ℚ} (hq : 0 < q) :
    2 ^ p * unitOf p q ≤ 2 * q := by
  have hlog : (2 : ℚ) ^ Int.log 2 q ≤ q := by
    simpa using Int.zpow_log_le_self (b := 2) (by norm_num) hq
  have hsplit : (2 : ℚ) ^ p * unitOf p q = 2 * 2 ^ Int.log 2 q := by
    unfold unitOf
    rw [← zpow_natCast, ← zpow_add₀ (by norm_num), ← zpow_one_add₀ (by norm_num)]
    congr 1
    ring
  linarith

/-- What is positive is not rounded to zero. -/
theorem roundTo_pos {p : Nat} (hp : 1 ≤ p) {q : ℚ} (hq : 0 < q) : 0 < roundTo p q := by
  have hunit := unitOf_pos p q
  have hle : unitOf p q ≤ q := by
    have hmul := two_pow_mul_unitOf_le p hq
    have htwo : (2 : ℚ) ≤ 2 ^ p := by
      calc
        (2 : ℚ) = 2 ^ 1 := (pow_one 2).symm
        _ ≤ 2 ^ p := pow_le_pow_right₀ (by norm_num) hp
    nlinarith
  have hfloor : 1 ≤ ⌊q / unitOf p q⌋ := by
    rw [Int.le_floor, Int.cast_one]
    exact (one_le_div hunit).mpr hle
  have hround : 1 ≤ roundHalfEven (q / unitOf p q) :=
    hfloor.trans (floor_le_roundHalfEven _)
  have hround' : (1 : ℚ) ≤ roundHalfEven (q / unitOf p q) := by exact_mod_cast hround
  exact mul_pos (by linarith) hunit

/-- Below `2 ^ p` the unit divides every integer. -/
theorem exists_int_div_unitOf {p : Nat} {q : ℚ} (hq : 0 < q) (hlt : q < 2 ^ p) (k : ℤ) :
    ∃ m : ℤ, (k : ℚ) / unitOf p q = m := by
  have hlog : Int.log 2 q < p := by
    rw [← Int.lt_zpow_iff_log_lt (by norm_num) hq]
    exact_mod_cast hlt
  have hpow : unitOf p q = 2 ^ (-(((p : ℤ) - 1 - Int.log 2 q).toNat : ℤ)) := by
    unfold unitOf
    congr 1
    omega
  refine ⟨k * 2 ^ ((p : ℤ) - 1 - Int.log 2 q).toNat, ?_⟩
  rw [hpow, zpow_neg, div_inv_eq_mul, zpow_natCast]
  push_cast
  ring

@[simp] theorem roundTo_zero (p : Nat) : roundTo p 0 = 0 := by
  have hzero : roundHalfEven 0 = 0 := by simpa using roundHalfEven_intCast 0
  simp [roundTo, hzero]

theorem roundTo_le {p : Nat} {q : ℚ} {k : ℤ} (hq : 0 < q) (hlt : q < 2 ^ p) (hk : q ≤ k) :
    roundTo p q ≤ k := by
  obtain ⟨m, hm⟩ := exists_int_div_unitOf hq hlt k
  have hunit := unitOf_pos p q
  have hround : roundHalfEven (q / unitOf p q) ≤ m := by
    apply roundHalfEven_le
    rw [← hm]
    gcongr
  calc
    roundTo p q = roundHalfEven (q / unitOf p q) * unitOf p q := rfl
    _ ≤ m * unitOf p q := by gcongr
    _ = k := by rw [← hm, div_mul_cancel₀ _ hunit.ne']

theorem lt_roundTo {p : Nat} {q : ℚ} {k : ℤ} (hq : 0 < q) (hlt : q < 2 ^ p)
    (hgap : q < 2 ^ p * (q - k)) : k < roundTo p q := by
  obtain ⟨m, hm⟩ := exists_int_div_unitOf hq hlt k
  have hunit := unitOf_pos p q
  -- Half a unit is smaller than the distance to `k`, so rounding cannot bridge it.
  have hhalf : unitOf p q / 2 < q - k := by
    have hle := two_pow_mul_unitOf_le p hq
    have hpow : (0 : ℚ) < 2 ^ p := by positivity
    nlinarith
  have hround : m < roundHalfEven (q / unitOf p q) := by
    apply lt_roundHalfEven
    rw [← hm, div_add_div _ _ hunit.ne' two_ne_zero, div_lt_div_iff₀ (by positivity) hunit]
    nlinarith
  calc
    (k : ℚ) = m * unitOf p q := by rw [← hm, div_mul_cancel₀ _ hunit.ne']
    _ < roundHalfEven (q / unitOf p q) * unitOf p q := by
      gcongr
    _ = roundTo p q := rfl

/-- **Rounding a quotient keeps its ceiling** when the dividend fits into the significand. -/
theorem ceil_roundTo_div {p n d : Nat} (hn : n < 2 ^ p) (hd : 0 < d) :
    ⌈roundTo p ((n : ℚ) / d)⌉ = ⌈(n : ℚ) / d⌉ := by
  rcases Nat.eq_zero_or_pos n with rfl | hpos
  · simp
  have hd' : (0 : ℚ) < d := by exact_mod_cast hd
  have hn' : (n : ℚ) < 2 ^ p := by exact_mod_cast hn
  have hq : (0 : ℚ) < (n : ℚ) / d := div_pos (by exact_mod_cast hpos) hd'
  have hlt : (n : ℚ) / d < 2 ^ p := by
    have hle : (n : ℚ) / d ≤ n := div_le_self (by positivity) (by exact_mod_cast hd)
    linarith
  have hceil := Int.le_ceil ((n : ℚ) / d)
  have hbelow : ((⌈(n : ℚ) / d⌉ - 1 : ℤ) : ℚ) < (n : ℚ) / d := by
    have := Int.ceil_lt_add_one ((n : ℚ) / d)
    push_cast
    linarith
  -- The quotient exceeds the integer below it by at least `1 / d`.
  have hstep : (1 : ℚ) ≤ n - (⌈(n : ℚ) / d⌉ - 1 : ℤ) * d := by
    have hint : ((⌈(n : ℚ) / d⌉ - 1 : ℤ) : ℚ) * d < n := (lt_div_iff₀ hd').mp hbelow
    have hint' : (⌈(n : ℚ) / d⌉ - 1 : ℤ) * (d : ℤ) < (n : ℤ) := by exact_mod_cast hint
    have hone : (1 : ℤ) ≤ (n : ℤ) - (⌈(n : ℚ) / d⌉ - 1 : ℤ) * (d : ℤ) := by omega
    exact_mod_cast hone
  apply le_antisymm
  · exact Int.ceil_le.mpr (roundTo_le hq hlt hceil)
  · have hgt : ((⌈(n : ℚ) / d⌉ - 1 : ℤ) : ℚ) < roundTo p ((n : ℚ) / d) := by
      refine lt_roundTo hq hlt ?_
      have hgap : (n : ℚ) / d - (⌈(n : ℚ) / d⌉ - 1 : ℤ) =
          (n - (⌈(n : ℚ) / d⌉ - 1 : ℤ) * d) / d := by
        field_simp
      rw [hgap, ← mul_div_assoc, div_lt_div_iff_of_pos_right hd']
      nlinarith
    have := Int.lt_ceil.mpr hgt
    omega

/-- An integer of at most `p` bits is its own rounding. -/
theorem roundTo_natCast {p n : Nat} (hn : n < 2 ^ p) : roundTo p n = n := by
  rcases Nat.eq_zero_or_pos n with rfl | hpos
  · simp
  have hq : (0 : ℚ) < n := by exact_mod_cast hpos
  obtain ⟨m, hm⟩ := exists_int_div_unitOf (p := p) hq (by exact_mod_cast hn) n
  have hm' : (n : ℚ) / unitOf p n = m := by exact_mod_cast hm
  rw [roundTo, hm', roundHalfEven_intCast, ← hm', div_mul_cancel₀ _ (unitOf_pos p n).ne']

/-- From `2 ^ p` on the rounding of an integer is an integer, and still at least `2 ^ p`. -/
theorem exists_nat_roundTo_of_ge {p n : Nat} (hp : 0 < p) (hn : 2 ^ p ≤ n) :
    ∃ m : Nat, roundTo p n = m ∧ 2 ^ p ≤ m := by
  have hpos : (0 : ℚ) < n := by
    exact_mod_cast lt_of_lt_of_le (by positivity) hn
  have hlog : (p : ℤ) ≤ Int.log 2 (n : ℚ) := by
    rw [← Int.zpow_le_iff_le_log (by norm_num) hpos]
    exact_mod_cast hn
  obtain ⟨e, he⟩ : ∃ e : Nat, Int.log 2 (n : ℚ) = p + e :=
    ⟨(Int.log 2 (n : ℚ) - p).toNat, by omega⟩
  obtain ⟨p', rfl⟩ : ∃ p' : Nat, p = p' + 1 := ⟨p - 1, by omega⟩
  have hunit : unitOf (p' + 1) n = 2 ^ (e + 1) := by
    unfold unitOf
    rw [he, ← zpow_natCast]
    congr 1
    push_cast
    ring
  have hlow : (2 : ℚ) ^ p' * 2 ^ (e + 1) ≤ n := by
    have hself := Int.zpow_log_le_self (b := 2) (by norm_num) hpos
    rw [he] at hself
    calc
      (2 : ℚ) ^ p' * 2 ^ (e + 1) = ((2 : ℕ) : ℚ) ^ (((p' + 1 : ℕ) : ℤ) + e) := by
        rw [show ((p' + 1 : ℕ) : ℤ) + e = ((p' + (e + 1) : ℕ) : ℤ) by push_cast; ring,
          zpow_natCast, ← pow_add]
        norm_num
      _ ≤ n := hself
  have hround : (2 : ℤ) ^ p' ≤ roundHalfEven ((n : ℚ) / unitOf (p' + 1) n) := by
    refine le_trans (Int.le_floor.mpr ?_) (floor_le_roundHalfEven _)
    rw [hunit, le_div_iff₀ (by positivity)]
    exact_mod_cast hlow
  obtain ⟨r, hr⟩ : ∃ r : Nat, roundHalfEven ((n : ℚ) / unitOf (p' + 1) n) = r :=
    ⟨(roundHalfEven ((n : ℚ) / unitOf (p' + 1) n)).toNat, by
      have : (0 : ℤ) < 2 ^ p' := by positivity
      omega⟩
  refine ⟨r * 2 ^ (e + 1), ?_, ?_⟩
  · rw [roundTo, hr, hunit]
    push_cast
    ring
  · have hr' : 2 ^ p' ≤ r := by
      rw [hr] at hround
      exact_mod_cast hround
    calc
      2 ^ (p' + 1) ≤ 2 ^ p' * 2 ^ (e + 1) := by
        rw [← pow_add]
        exact Nat.pow_le_pow_right (by norm_num) (by omega)
      _ ≤ r * 2 ^ (e + 1) := Nat.mul_le_mul_right _ hr'

/-- A power of two is exact, whatever its size. -/
theorem roundTo_two_pow {p : Nat} (hp : 1 ≤ p) :
    roundTo p ((2 ^ p : Nat) : ℚ) = ((2 ^ p : Nat) : ℚ) := by
  obtain ⟨p', rfl⟩ : ∃ p' : Nat, p = p' + 1 := ⟨p - 1, by omega⟩
  have hlog : Int.log 2 ((2 ^ (p' + 1) : Nat) : ℚ) = (p' + 1 : Nat) := by
    rw [Int.log_natCast, Nat.log_pow (by norm_num)]
  have hunit : unitOf (p' + 1) ((2 ^ (p' + 1) : Nat) : ℚ) = 2 := by
    unfold unitOf
    rw [hlog]
    norm_num
  have hhalf : ((2 ^ (p' + 1) : Nat) : ℚ) / 2 = ((2 ^ p' : ℤ) : ℚ) := by
    push_cast
    ring
  rw [roundTo, hunit, hhalf, roundHalfEven_intCast]
  push_cast
  ring

/-- The first integer with more than `p` bits is lost: it is a tie, and goes to the even side. -/
theorem roundTo_two_pow_add_one {p : Nat} (hp : 2 ≤ p) :
    roundTo p ((2 ^ p + 1 : Nat) : ℚ) = ((2 ^ p : Nat) : ℚ) := by
  obtain ⟨p', rfl⟩ : ∃ p' : Nat, p = p' + 2 := ⟨p - 2, by omega⟩
  have hlog : Int.log 2 ((2 ^ (p' + 2) + 1 : Nat) : ℚ) = (p' + 2 : Nat) := by
    rw [Int.log_natCast]
    congr 1
    rw [Nat.log_eq_iff (by omega)]
    exact ⟨by omega, by rw [pow_succ 2 (p' + 2)]; have := Nat.one_lt_two_pow (n := p' + 2); omega⟩
  have hunit : unitOf (p' + 2) ((2 ^ (p' + 2) + 1 : Nat) : ℚ) = 2 := by
    unfold unitOf
    rw [hlog]
    norm_num
  have hhalf : ((2 ^ (p' + 2) + 1 : Nat) : ℚ) / 2 = ((2 * 2 ^ p' : ℤ) : ℚ) + 1 / 2 := by
    push_cast
    ring
  have hfloor : ⌊((2 * 2 ^ p' : ℤ) : ℚ) + 1 / 2⌋ = 2 * 2 ^ p' := by
    rw [Int.floor_intCast_add]
    norm_num
  have htie : roundHalfEven (((2 * 2 ^ p' : ℤ) : ℚ) + 1 / 2) = 2 * 2 ^ p' := by
    unfold roundHalfEven
    simp only [hfloor, add_sub_cancel_left, lt_irrefl, if_false]
    rw [if_pos (by omega)]
  rw [roundTo, hunit, hhalf, htie]
  push_cast
  ring

end Foundation
end Routn
