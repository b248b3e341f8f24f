import Mathlib.Tactic
import Routn.ByteArray.Flat
import Routn.ByteArray.Reader

/-!
# What the writers store

A typed writer passes its buffers to `write`, and which bytes they hold depends on the array only
through the byte order (`writeVal_eq`).  Appending buffers to the data either stores all of them
or dereferences a null node, and which of the two happens is decided by `capacityAfter`, the
capacity the array grows to (`WellFormed.writeChunks`, `WellFormed.writeChunks_null`).

Below `2 ^ 53` bytes the capacity never falls short (`capacityAfter_eq`).
-/

namespace Routn

open Foundation

namespace ByteArray

/-- Pass the buffers to `write`, one after the other. -/
def writeChunks : List (List UInt8) → ByteArrayM Unit
  | [] => return ()
  | c :: cs => do
      write c
      writeChunks cs

theorem writeChunks_singleton (c : List UInt8) : writeChunks [c] = write c := bind_pure_unit

theorem writeChunks_append (cs cs' : List (List UInt8)) :
    writeChunks (cs ++ cs') = writeChunks cs >>= fun _ => writeChunks cs' := by
  induction cs with
  | nil => exact (pure_bind () fun _ => writeChunks cs').symm
  | cons c cs ih =>
      show (write c >>= fun _ => writeChunks (cs ++ cs')) =
        (write c >>= fun _ => writeChunks cs) >>= fun _ => writeChunks cs'
      rw [ih, bind_assoc]

/-! ## The buffers of the writers -/

/-- `write` does not touch the byte order. -/
theorem write_endian {ba ba' : ByteArray} {buf : List UInt8} (h : write buf ba = .ok () ba') :
    ba'.endian = ba.endian := by
  rw [write] at h
  dsimp only at h
  split at h
  · obtain ⟨-, rfl⟩ := EStateM.Result.ok.inj h
    rfl
  · split at h
    · simp at h
    · split at h
      · simp at h
      · obtain ⟨-, rfl⟩ := EStateM.Result.ok.inj h
        exact (addCapacity_frame buf.length ba).2.2.2

theorem writeFixed_eq (host : ByteOrder) (k value : Nat) (ba : ByteArray) :
    writeFixed host k value ba = write (wordBytes ba.endian k value) ba := by
  show write (wordBytes host k (if ba.endian ≠ host then byteswap k value else value)) ba = _
  split
  · next hne => rw [wordBytes_byteswap hne]
  · next heq => rw [not_not.mp heq]

/-- A length, then the bytes. -/
theorem writeText_eq {x : ByteArrayM Unit} {f : Field} {s : List UInt8} {ba : ByteArray}
    (hx : x ba = write (f.encode ba.endian (s.length % f.bound)) ba) :
    (x >>= fun _ => write s) ba = writeChunks (textChunks ba.endian f s) ba := by
  rw [textChunks]
  show _ = (write _ >>= fun _ => writeChunks [s]) ba
  rw [writeChunks_singleton]
  cases hwrite : write (f.encode ba.endian (s.length % f.bound)) ba with
  | ok u ba' => rw [bind_ok (hx.trans hwrite), bind_ok hwrite]
  | error fault ba' => rw [bind_error (hx.trans hwrite), bind_error hwrite]

/-- **A writer stores the encoding of its value** in the byte order of the array. -/
theorem writeVal_eq (host : ByteOrder) (v : Val) (ba : ByteArray) :
    writeVal host v ba = writeChunks (v.chunks ba.endian) ba := by
  have hbyte : ∀ w : UInt8, wordBytes ba.endian 1 w.toNat = [w] := by
    intro w
    cases ba.endian <;> simp [wordBytes, bytesLE]
  have hword : ∀ k n, writeFixed host k n ba = writeChunks [wordBytes ba.endian k n] ba := by
    intro k n
    rw [writeChunks_singleton, writeFixed_eq]
  have hvarint : ∀ n, write (varintLoop n) ba = writeChunks [leb128 n] ba := by
    intro n
    rw [writeChunks_singleton, varintLoop_eq]
  cases v with
  | fint8 v =>
      show write [v.toUInt8] ba = writeChunks [wordBytes ba.endian 1 v.toUInt8.toNat] ba
      rw [writeChunks_singleton, hbyte]
  | fuint8 v =>
      show write [v] ba = writeChunks [wordBytes ba.endian 1 v.toNat] ba
      rw [writeChunks_singleton, hbyte]
  | fint16 v => exact hword 2 v.toUInt16.toNat
  | fuint16 v => exact hword 2 v.toNat
  | fint32 v => exact hword 4 v.toUInt32.toNat
  | fuint32 v => exact hword 4 v.toNat
  | fint64 v => exact hword 8 v.toUInt64.toNat
  | fuint64 v => exact hword 8 v.toNat
  | int32 v => exact hvarint (encodeZigzag32 v).toNat
  | uint32 v => exact hvarint v.toNat
  -- The code of `writeInt64` has 32 bits; widening it does not change the digits.
  | int64 v =>
      have hcode : (encodeZigzag64 v).toUInt64.toNat = (encodeZigzag64 v).toNat :=
        UInt32.toNat_toUInt64 _
      refine (hvarint (encodeZigzag64 v).toUInt64.toNat).trans ?_
      rw [hcode]
      rfl
  | uint64 v => exact hvarint v.toNat
  | float bits => exact hword 4 bits.toNat
  | double bits => exact hword 8 bits.toNat
  | stringF16 s =>
      refine writeText_eq (f := .word 2) ?_
      rw [writeFuint16, writeFixed_eq, UInt16.toNat_ofNat']
      rfl
  | stringF32 s =>
      refine writeText_eq (f := .word 4) ?_
      rw [writeFuint32, writeFixed_eq, UInt32.toNat_ofNat']
      rfl
  | stringF64 s =>
      refine writeText_eq (f := .word 8) ?_
      rw [writeFuint64, writeFixed_eq, UInt64.toNat_ofNat']
      rfl
  | stringVint s =>
      refine writeText_eq (f := .varint 64) ?_
      rw [writeUint64, varintLoop_eq, UInt64.toNat_ofNat']
      rfl
  | bytes buf => exact (congrFun (writeChunks_singleton buf) ba).symm

/-! ## Room -/

/-- The capacity after buffers of these lengths were appended; `none` when the pages that
`addCapacity` adds for one of them do not hold it. -/
def capacityAfter (b : Nat) : Nat → Nat → List Nat → Option Nat
  | cap, _, [] => some cap
  | cap, size, n :: ns =>
      if size + n ≤ nextCapacity b cap size n then
        capacityAfter b (nextCapacity b cap size n) (size + n) ns
      else none

/-- The cursor stands at the end of the data. -/
structure Appending (ba : ByteArray) : Prop where
  wellFormed : WellFormed ba
  position_eq : ba.position = ba.size

/-- One buffer is appended to the data. -/
theorem Appending.write {ba : ByteArray} (h : Appending ba) {buf : List UInt8}
    (hroom : ba.size + buf.length ≤ nextCapacity ba.baseSize ba.capacity ba.size buf.length) :
    ∃ ba', ByteArray.write buf ba = .ok () ba' ∧ Appending ba' ∧ ba'.baseSize = ba.baseSize ∧
      ba'.size = ba.size + buf.length ∧ ba'.endian = ba.endian ∧
      ba'.capacity = nextCapacity ba.baseSize ba.capacity ba.size buf.length ∧
      ba'.content = ba.content ++ buf := by
  have hpos := h.position_eq
  have hsize := h.wellFormed.size_le
  have hlen := h.wellFormed.length_mem
  have hgrown : ba.grownCapacity buf.length =
      nextCapacity ba.baseSize ba.capacity ba.size buf.length := by
    rw [grownCapacity, hpos]
  rw [← hgrown, ← hpos] at hroom
  obtain ⟨ba', fresh, hwrite, hwf, hbase, hendian, hpos', hsize', hcap, hmem⟩ :=
    h.wellFormed.write hroom
  rw [hpos] at hpos' hsize' hmem
  rw [Nat.max_eq_right (by omega)] at hsize'
  refine ⟨ba', hwrite, ⟨hwf, hpos'.trans hsize'.symm⟩, hbase, hsize', hendian, ?_, ?_⟩
  · rw [hcap, hgrown]
    split
    · next hzero => rw [nextCapacity, if_pos (by omega)]
    · rfl
  · rw [content, content, hsize', hmem,
      take_splice_end buf (by rw [List.length_append]; omega),
      List.take_append_of_le_length (by omega)]

theorem Appending.write_null {ba : ByteArray} (h : Appending ba) {buf : List UInt8}
    (hroom : nextCapacity ba.baseSize ba.capacity ba.size buf.length < ba.size + buf.length) :
    ∃ ba', ByteArray.write buf ba = .error .nullNode ba' := by
  refine h.wellFormed.write_null ?_
  rw [grownCapacity, h.position_eq]
  exact hroom

/-- **Appending buffers**, by induction on them: all are stored when the capacity suffices. -/
theorem Appending.writeChunks {ba : ByteArray} (h : Appending ba) {cs : List (List UInt8)} {c : Nat}
    (hcap : capacityAfter ba.baseSize ba.capacity ba.size (cs.map List.length) = some c) :
    ∃ ba', ByteArray.writeChunks cs ba = .ok () ba' ∧ Appending ba' ∧
      ba'.baseSize = ba.baseSize ∧ ba'.size = ba.size + cs.flatten.length ∧
      ba'.endian = ba.endian ∧ ba'.capacity = c ∧ ba'.content = ba.content ++ cs.flatten := by
  induction cs generalizing ba with
  | nil =>
      have hc : ba.capacity = c := Option.some.inj hcap
      exact ⟨ba, rfl, h, rfl, by simp, rfl, hc, by simp⟩
  | cons buf cs ih =>
      rw [List.map_cons, capacityAfter] at hcap
      split at hcap
      · next hroom =>
        -- The first buffer leaves an array that the others are appended to.
        obtain ⟨ba₁, hwrite, h₁, hbase₁, hsize₁, hendian₁, hcap₁, hcontent₁⟩ := h.write hroom
        rw [← hcap₁, ← hsize₁, ← hbase₁] at hcap
        obtain ⟨ba₂, hwrite₂, h₂, hbase₂, hsize₂, hendian₂, hcap₂, hcontent₂⟩ := ih h₁ hcap
        refine ⟨ba₂, (bind_ok hwrite).trans hwrite₂, h₂, hbase₂.trans hbase₁, ?_,
          hendian₂.trans hendian₁, hcap₂, ?_⟩
        · rw [hsize₂, hsize₁, List.flatten_cons, List.length_append]
          omega
        · rw [hcontent₂, hcontent₁, List.flatten_cons, List.append_assoc]
      · simp at hcap

/-- When it does not suffice, a loop of `write` runs off the list of pages. -/
theorem Appending.writeChunks_null {ba : ByteArray} (h : Appending ba) {cs : List (List UInt8)}
    (hcap : capacityAfter ba.baseSize ba.capacity ba.size (cs.map List.length) = none) :
    ∃ ba', ByteArray.writeChunks cs ba = .error .nullNode ba' := by
  induction cs generalizing ba with
  | nil => simp [capacityAfter] at hcap
  | cons buf cs ih =>
      rw [List.map_cons, capacityAfter] at hcap
      split at hcap
      · next hroom =>
        obtain ⟨ba₁, hwrite, h₁, hbase₁, hsize₁, -, hcap₁, -⟩ := h.write hroom
        rw [← hcap₁, ← hsize₁, ← hbase₁] at hcap
        obtain ⟨ba₂, hnull⟩ := ih h₁ hcap
        exact ⟨ba₂, (bind_ok hwrite).trans hnull⟩
      · next hroom =>
        obtain ⟨ba', hnull⟩ := h.write_null (Nat.lt_of_not_le hroom)
        exact ⟨ba', bind_error hnull⟩

/-- Below `2 ^ 53` bytes the capacity is the data rounded up to whole pages, if that is more than
there was. -/
theorem capacityAfter_eq {b cap size : Nat} (hb : 0 < b) (hcap : b ∣ cap) (hsize : size ≤ cap)
    {ns : List Nat} (hbound : size + ns.sum < 2 ^ 53) :
    capacityAfter b cap size ns = some (if size + ns.sum ≤ cap then cap
      else pagesFor (size + ns.sum) b * b) := by
  induction ns generalizing cap size with
  | nil => rw [capacityAfter, List.sum_nil, Nat.add_zero, if_pos hsize]
  | cons n ns ih =>
      rw [List.sum_cons, ← Nat.add_assoc] at hbound ⊢
      have hnext := nextCapacity_eq hb hcap hsize (n := n) (by omega)
      have hroom := nextCapacity_room hb hcap hsize (n := n) (by omega)
      have hdvd : b ∣ nextCapacity b cap size n := by
        rw [hnext]
        split
        · exact hcap
        · exact Nat.dvd_mul_left b _
      rw [capacityAfter, if_pos hroom, ih hdvd hroom hbound, hnext]
      -- Whether the first buffer needs new pages decides what the others find.
      by_cases hfits : size + n ≤ cap
      · rw [if_pos hfits]
      · rw [if_neg hfits, if_neg (by omega : ¬ size + n + ns.sum ≤ cap)]
        split
        · next hle =>
          -- The later buffers stay inside the pages that this one needed.
          have hge : pagesFor (size + n + ns.sum) b ≤ pagesFor (size + n) b :=
            (pagesFor_le_iff hb).mpr hle
          have hle' : pagesFor (size + n) b ≤ pagesFor (size + n + ns.sum) b := by
            refine (pagesFor_le_iff hb).mpr ?_
            have hself := (pagesFor_le_iff hb).mp (Nat.le_refl (pagesFor (size + n + ns.sum) b))
            omega
          rw [Nat.le_antisymm hge hle']
        · rfl

/-- Buffers of less than `2 ^ 53` bytes each are always stored. -/
theorem capacityAfter_of_lt {b cap size : Nat} (hb : 0 < b) (hsize : size ≤ cap) {ns : List Nat}
    (hns : ∀ n ∈ ns, n < 2 ^ 53) : ∃ c, capacityAfter b cap size ns = some c := by
  induction ns generalizing cap size with
  | nil => exact ⟨cap, rfl⟩
  | cons n ns ih =>
      have hn : n < 2 ^ 53 := hns n List.mem_cons_self
      have hroom : size + n ≤ nextCapacity b cap size n := by
        rw [nextCapacity]
        split
        · omega
        · have hpages := (pagesFor_le_iff hb).mp (Nat.le_refl (pagesFor (n - (cap - size)) b))
          rw [pageCount_eq (by omega) hb]
          omega
      rw [capacityAfter, if_pos hroom]
      exact ih hroom fun m hm => hns m (List.mem_cons_of_mem _ hm)

end ByteArray
end Routn
