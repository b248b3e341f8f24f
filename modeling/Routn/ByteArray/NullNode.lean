import Mathlib.Tactic
import Routn.ByteArray.RoundTrip
import Routn.Rpc.Message

/-!
# When a reader dereferences a null page pointer

`read` evaluates `_cur->size` before it looks at the number of bytes it was asked for.  `_cur` is
null when the cursor stands at the capacity, so the run below fails exactly when the data fills the
last page and a reader asks for zero bytes after the last of them: an empty string, or a raw read
of length zero, at the end.  The writers fail only when `addCapacity` rounded the page count down,
which takes `2 ^ 53` bytes.
-/

namespace Routn

open Foundation

namespace ByteArray

/-- The values fit their pages, and the readers do not ask for zero bytes at the end of a last page
that is full. -/
def StaysOnPages (base_size : Nat) (littleEndian : Bool) (vs : List Val) : Prop :=
  ∃ cap, capacityOf base_size (orderOf littleEndian) vs = some cap ∧
    ¬ ((encodeVals (orderOf littleEndian) vs).length = cap ∧
      zeroAtEnd (orderOf littleEndian) (vs.map Val.kind) (encodeVals (orderOf littleEndian) vs))

variable (host : ByteOrder) (heap : Nat → Nat → UInt8)

/-- Writing the values and reading them back never follows a null page pointer. -/
def NoNullNode (base_size : Nat) (littleEndian : Bool) (vs : List Val) : Prop :=
  ∀ ba, writeThenRead host vs (freshArray heap base_size littleEndian) ≠ .error .nullNode ba

theorem noNullNode_iff {base_size : Nat} (hbase : 1 ≤ base_size) (littleEndian : Bool)
    (vs : List Val) :
    NoNullNode host heap base_size littleEndian vs ↔ StaysOnPages base_size littleEndian vs := by
  cases hcap : capacityOf base_size (orderOf littleEndian) vs with
  | none =>
      obtain ⟨ba, hnull⟩ := writeThenRead_null host heap hbase littleEndian hcap
      refine iff_of_false (fun hno => hno ba hnull) ?_
      rintro ⟨cap, hsome, -⟩
      rw [hcap] at hsome
      simp at hsome
  | some cap =>
      obtain ⟨ba, hrun, hwf, hendian, hcap', hsize, hrest⟩ :=
        writeThenRead_eq host heap hbase littleEndian hcap
      have hnull := (reads_readVals host (vs.map Val.kind)).nullNode_iff hwf
      rw [← hrun, hendian, hrest, Full, hsize, hcap'] at hnull
      have hstays : StaysOnPages base_size littleEndian vs ↔
          ¬ (zeroAtEnd (orderOf littleEndian) (vs.map Val.kind)
              (encodeVals (orderOf littleEndian) vs) ∧
            (encodeVals (orderOf littleEndian) vs).length = cap) := by
        constructor
        · rintro ⟨cap', hsome, hnot⟩ ⟨hzero, hlen⟩
          rw [hcap, Option.some.injEq] at hsome
          exact hnot ⟨hlen.trans hsome, hzero⟩
        · exact fun hnot => ⟨cap, hcap, fun h => hnot ⟨h.2, h.1⟩⟩
      rw [hstays, ← hnull, NoNullNode, not_exists]

/-- Below `2 ^ 53` bytes the condition speaks about lengths only: the data is not a positive
multiple of the page size, or no reader asks for zero bytes at its end. -/
theorem staysOnPages_iff {base_size : Nat} (hbase : 1 ≤ base_size) (littleEndian : Bool)
    {vs : List Val} (hbound : (encodeVals (orderOf littleEndian) vs).length < 2 ^ 53) :
    StaysOnPages base_size littleEndian vs ↔
      ¬ (0 < (encodeVals (orderOf littleEndian) vs).length ∧
        base_size ∣ (encodeVals (orderOf littleEndian) vs).length ∧
        zeroAtEnd (orderOf littleEndian) (vs.map Val.kind)
          (encodeVals (orderOf littleEndian) vs)) := by
  have hcap := capacityOf_eq hbase (orderOf littleEndian) hbound
  set total := (encodeVals (orderOf littleEndian) vs).length
  have hfull : total = (if total ≤ base_size then base_size
      else pagesFor total base_size * base_size) ↔ 0 < total ∧ base_size ∣ total := by
    split
    · next hle =>
      constructor
      · intro heq
        exact ⟨by omega, by rw [heq]⟩
      · rintro ⟨hpos, hdvd⟩
        exact Nat.le_antisymm hle (Nat.le_of_dvd hpos hdvd)
    · next hgt =>
      constructor
      · intro heq
        exact ⟨by omega, by rw [heq]; exact Nat.dvd_mul_left _ _⟩
      · rintro ⟨-, pages, hpages⟩
        have hle : pagesFor total base_size ≤ pages := by
          rw [pagesFor_le_iff hbase, hpages, Nat.mul_comm]
        have hge := (pagesFor_le_iff hbase).mp (Nat.le_refl (pagesFor total base_size))
        have hmul := Nat.mul_le_mul_right base_size hle
        rw [Nat.mul_comm pages] at hmul
        omega
  constructor
  · rintro ⟨cap, hsome, hnot⟩ ⟨hpos, hdvd, hzero⟩
    rw [hcap, Option.some.injEq] at hsome
    exact hnot ⟨hsome ▸ hfull.mpr ⟨hpos, hdvd⟩, hzero⟩
  · intro hnot
    refine ⟨_, hcap, ?_⟩
    rintro ⟨hlen, hzero⟩
    exact hnot ⟨(hfull.mp hlen).1, (hfull.mp hlen).2, hzero⟩

/-! ## `RockBody::parseFromByteArray` -/

theorem reads_parseBody :
    Reads (RockBody.parseFromByteArray host)
      (fun order bytes => decodeText order (.word 4) RockBody.mk bytes)
      fun order bytes => ZeroLength order (.word 4) bytes :=
  (reads_readStringF32 host).mapText RockBody.mk

/-- **No null page pointer is followed, exactly under these conditions:** by the typed writers and
readers over a fresh array, and by the parser of a message body. -/
theorem nullNode_free_iff {base_size : Nat} (hbase : 1 ≤ base_size) (littleEndian : Bool)
    (vs : List Val) {ba : ByteArray} (hba : WellFormed ba) :
    (NoNullNode host heap base_size littleEndian vs ↔ StaysOnPages base_size littleEndian vs) ∧
    ((∀ ba', RockBody.parseFromByteArray host ba ≠ .error .nullNode ba') ↔
      ¬ (ZeroLength ba.endian (.word 4) ba.rest ∧ ba.Full)) := by
  refine ⟨noNullNode_iff host heap hbase littleEndian vs, ?_⟩
  rw [← (reads_parseBody host).nullNode_iff hba, not_exists]

/-- Both conditions at work: a number on a page of four bytes, and a body parsed from an empty
array. -/
theorem nullNode_free_one_page :
    (NoNullNode .littleEndian (fun _ _ => 0) 4 false [.uint32 7] ↔
      StaysOnPages 4 false [.uint32 7]) ∧
    ((∀ ba', RockBody.parseFromByteArray .littleEndian (new (fun _ _ => 0) 4) ≠
        .error .nullNode ba') ↔
      ¬ (ZeroLength .bigEndian (.word 4) (new (fun _ _ => 0) 4).rest ∧
        (new (fun _ _ => 0) 4).Full)) :=
  nullNode_free_iff .littleEndian (fun _ _ => 0) (by decide) false [.uint32 7]
    (new_wellFormed _ (by decide))

/-- An empty string that ends on a page boundary: its length field fills the page of four bytes,
and the `read` of its zero characters goes through the null `_cur`. -/
theorem not_noNullNode_empty_string :
    ¬ NoNullNode .littleEndian (fun _ _ => 0) 4 false [.stringF32 []] :=
  fun h => h _ rfl

end ByteArray
end Routn
