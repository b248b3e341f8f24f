import Mathlib.Tactic
import Routn.ByteArray.Flat
import Routn.ByteArray.Reader
import Routn.ByteArray.Writer

/-!
# Signed 64-bit values

`EncodeZigzag64` computes the code of a value in 64 bits, but returns a `uint32_t`.  What
`writeInt64` puts on the wire is the lower half of the code, which is the code itself for the values
of 32 bits; `readInt64` gets back another value of 32 bits for each other one.
-/

namespace Routn

open Foundation

namespace ByteArray

/-! ## The code -/

theorem lt_zero_iff64 (v : Int64) : v < 0 ↔ 2 ^ 63 ≤ v.toUInt64.toNat := by
  have hneg : v.toBitVec.toInt < 0 ↔ 2 ^ 64 ≤ 2 * v.toBitVec.toNat := BitVec.toInt_neg_iff
  have hzero : v < 0 ↔ v.toBitVec.toInt < 0 := Int64.lt_iff_toInt_lt
  rw [hzero, hneg]
  show _ ↔ 2 ^ 63 ≤ v.toBitVec.toNat
  omega

/-- The value of a word. -/
theorem toInt_eq64 (v : Int64) :
    v.toInt = if v.toUInt64.toNat < 2 ^ 63 then (v.toUInt64.toNat : Int)
      else v.toUInt64.toNat - 2 ^ 64 := by
  have hint := BitVec.toInt_eq_toNat_cond v.toBitVec
  show v.toBitVec.toInt = if v.toBitVec.toNat < 2 ^ 63 then (v.toBitVec.toNat : Int)
      else v.toBitVec.toNat - 2 ^ 64
  rw [hint]
  split_ifs <;> omega

/-- The lower half of the code: of `2 v` for `v ≥ 0`, and of `-2 v - 1` below. -/
theorem toNat_encodeZigzag64 (v : Int64) :
    (encodeZigzag64 v).toNat =
      if v.toUInt64.toNat < 2 ^ 63 then 2 * v.toUInt64.toNat % 2 ^ 32
      else (2 * (2 ^ 64 - v.toUInt64.toNat) - 1) % 2 ^ 32 := by
  have hlt := v.toUInt64.toNat_lt
  have hneg := lt_zero_iff64 v
  rw [encodeZigzag64]
  split
  · next h =>
    have hge := hneg.mp h
    have hone : (1 : UInt64).toNat = 1 := rfl
    have htwo : (2 : UInt64).toNat = 2 := rfl
    rw [if_neg (by omega), UInt64.toNat_toUInt32, UInt64.toNat_sub, UInt64.toNat_mul,
      Int64.toUInt64_neg, UInt64.toNat_neg, hone, htwo]
    simp only [UInt64.size]
    omega
  · next h =>
    have hsmall := hneg.not.mp h
    have htwo : (Int64.toUInt64 2).toNat = 2 := rfl
    rw [if_pos (by omega), UInt64.toNat_toUInt32, Int64.toUInt64_mul, UInt64.toNat_mul, htwo]
    omega

/-- **Zigzag on 64 bits** is undone exactly for the values of 32 bits. -/
theorem decodeZigzag64_encodeZigzag64_iff (v : Int64) :
    decodeZigzag64 (encodeZigzag64 v).toUInt64 = v ↔ -2 ^ 31 ≤ v.toInt ∧ v.toInt < 2 ^ 31 := by
  have hlt := v.toUInt64.toNat_lt
  set c := (encodeZigzag64 v).toUInt64 with hc
  have hcode : c.toNat = (encodeZigzag64 v).toNat := UInt32.toNat_toUInt64 _
  have hword : ((c >>> 1) ^^^ -(c &&& 1)).toNat =
      if c.toNat % 2 = 0 then c.toNat / 2 else 2 ^ 64 - 1 - c.toNat / 2 :=
    toNat_zigzag_bits (by norm_num) c.toBitVec
  have heq : decodeZigzag64 c = v ↔ ((c >>> 1) ^^^ -(c &&& 1)).toNat = v.toUInt64.toNat := by
    rw [UInt64.toNat_inj, decodeZigzag64]
    constructor
    · intro h
      rw [← h]
      exact (UInt64.toUInt64_toInt64 _).symm
    · intro h
      rw [h, Int64.toInt64_toUInt64]
  rw [heq, hword, hcode, toNat_encodeZigzag64, toInt_eq64]
  -- Everything is arithmetic on the word now.
  split_ifs <;> omega

/-! ## Writing a value and reading it back -/

/-- Behind the cursor is what has been written there. -/
theorem rest_of_write {ba ba' ba'' : ByteArray} {buf fresh : List UInt8} (h : WellFormed ba)
    (hmem : ba'.mem = splice (ba.mem ++ fresh) ba.position buf)
    (hsize : ba'.size = max ba.size (ba.position + buf.length)) (hmem' : ba''.mem = ba'.mem)
    (hsize' : ba''.size = ba'.size) (hpos' : ba''.position = ba.position) :
    ∃ tail, ba''.rest = buf ++ tail := by
  have hle := h.position_le
  have hcap := h.size_le
  have hlen : ba.position ≤ (ba.mem ++ fresh).length := by
    rw [List.length_append, h.length_mem]
    omega
  have hdrop : ba'.mem.drop ba.position =
      buf ++ (ba.mem ++ fresh).drop (ba.position + buf.length) := by
    rw [hmem, splice, List.append_assoc, List.drop_left' (by rw [List.length_take]; omega)]
  refine ⟨((ba.mem ++ fresh).drop (ba.position + buf.length)).take
    (ba'.size - (ba.position + buf.length)), ?_⟩
  rw [rest, content, hmem', hsize', hpos', List.drop_take, hdrop, List.take_append,
    List.take_of_length_le (by omega)]
  congr 2
  omega

/-- What `writeInt64` puts on the wire. -/
def int64Bytes (v : Int64) : List UInt8 := varintLoop (encodeZigzag64 v).toUInt64.toNat

/-- `writeInt64`, then back to the start of the value, then `readInt64`. -/
def writeReadInt64 (v : Int64) : ByteArrayM Int64 := do
  let start := (← get).position
  writeInt64 v
  setPosition start
  readInt64

/-- The value is read back. -/
def Int64RoundTrips (ba : ByteArray) (v : Int64) : Prop :=
  ∃ ba', writeReadInt64 v ba = .ok v ba'

/-- What is read back: the value that the code on the wire stands for. -/
theorem WellFormed.writeReadInt64 {ba : ByteArray} (h : WellFormed ba) (v : Int64)
    (hroom : ba.position + (int64Bytes v).length ≤ ba.grownCapacity (int64Bytes v).length) :
    ∃ ba', ByteArray.writeReadInt64 v ba =
      .ok (decodeZigzag64 (encodeZigzag64 v).toUInt64) ba' := by
  obtain ⟨ba₁, fresh, hwrite, hwf₁, -, hendian₁, hpos₁, hsize₁, hcap₁, hmem₁⟩ := h.write hroom
  have hstart : ba.position ≤ ba₁.capacity := by
    have hle := hwf₁.position_le
    have hsize := hwf₁.size_le
    omega
  obtain ⟨ba₂, hset, hwf₂, hpos₂, hsize₂, -, hmem₂, hendian₂, -⟩ := hwf₁.setPosition hstart
  obtain ⟨tail, hrest⟩ := rest_of_write h hmem₁ hsize₁ hmem₂ (by omega) hpos₂
  rw [int64Bytes, varintLoop_eq] at hrest
  obtain ⟨ba₃, hread, -, -⟩ := (reads_readUint64.map decodeZigzag64).step hwf₂
    (proper_varint (by norm_num)) (encodeZigzag64 v).toUInt64.toNat_lt hrest
  rw [UInt64.ofNat_toNat] at hread
  exact ⟨ba₃, (bind_ok rfl).trans ((bind_ok hwrite).trans ((bind_ok hset).trans hread))⟩

/-- Without room nothing is read back. -/
theorem Int64RoundTrips.room {ba : ByteArray} {v : Int64} (h : WellFormed ba)
    (hv : Int64RoundTrips ba v) :
    ba.position + (int64Bytes v).length ≤ ba.grownCapacity (int64Bytes v).length := by
  by_contra hshort
  obtain ⟨ba', hrun⟩ := hv
  obtain ⟨ba'', hnull⟩ := h.write_null (Nat.lt_of_not_le hshort)
  obtain ⟨ba₀, ba₁, hget, hrun⟩ := of_bind_ok hrun
  cases hget
  obtain ⟨_, ba₂, hwrite, -⟩ := of_bind_ok hrun
  cases hnull.symm.trans hwrite

/-- What is read back has 32 bits. -/
theorem Int64RoundTrips.range {ba : ByteArray} {v : Int64} (h : WellFormed ba)
    (hv : Int64RoundTrips ba v) : -2 ^ 31 ≤ v.toInt ∧ v.toInt < 2 ^ 31 := by
  obtain ⟨ba'', hread⟩ := h.writeReadInt64 v (hv.room h)
  obtain ⟨ba', hrun⟩ := hv
  rw [hread] at hrun
  exact (decodeZigzag64_encodeZigzag64_iff v).mp (EStateM.Result.ok.inj hrun).1

/-- **When a signed 64-bit value is read back**, from any state: exactly if it is a value of 32 bits
and the array has room for its bytes, as it always has below `2 ^ 53` bytes. -/
theorem int64RoundTrips_iff {ba : ByteArray} (h : WellFormed ba) (v : Int64) :
    Int64RoundTrips ba v ↔ (-2 ^ 31 ≤ v.toInt ∧ v.toInt < 2 ^ 31) ∧
      ba.position + (int64Bytes v).length ≤ ba.grownCapacity (int64Bytes v).length := by
  constructor
  · intro hv
    exact ⟨hv.range h, hv.room h⟩
  · rintro ⟨hrange, hroom⟩
    obtain ⟨ba', hread⟩ := h.writeReadInt64 v hroom
    rw [(decodeZigzag64_encodeZigzag64_iff v).mpr hrange] at hread
    exact ⟨ba', hread⟩

theorem int64RoundTrips_iff_minus_one :
    Int64RoundTrips (new (fun _ _ => 0) 4) (-1) ↔ (-2 ^ 31 ≤ Int64.toInt (-1) ∧
      Int64.toInt (-1) < 2 ^ 31) ∧ (new (fun _ _ => 0) 4).position + (int64Bytes (-1)).length ≤
        (new (fun _ _ => 0) 4).grownCapacity (int64Bytes (-1)).length :=
  int64RoundTrips_iff (new_wellFormed _ (by norm_num)) (-1)

/-- The first value that is lost: `2 ^ 31` has the code `2 ^ 32`, and is read back as zero. -/
theorem not_int64RoundTrips_first : ¬ Int64RoundTrips (new (fun _ _ => 0) 4) 2147483648 := by
  intro hv
  have hlt := (hv.range (new_wellFormed _ (by norm_num))).2
  revert hlt
  decide

end ByteArray
end Routn
