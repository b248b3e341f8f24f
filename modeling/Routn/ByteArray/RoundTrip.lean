import Mathlib.Tactic
import Routn.ByteArray.Writer

/-!
# Writing values and reading them back

`writeThenRead_eq` reduces the whole run (write the values into a fresh array, go back to the
start, read with the matching readers) to the readers alone, on an array that holds the encoding.
With `decode_encode` this gives the round trip `writeThenRead_roundTrip`.

Three limits come from the source.  The length field of `writeStringF16` and `writeStringF32` keeps
16 and 32 bits of the length.  A string read back must not be empty where it may be the last value,
because `read` has no early return for zero bytes.  From `2 ^ 53` bytes on `addCapacity` may add
too few pages.
-/

namespace Routn

open Foundation

namespace ByteArray

/-- A fresh array with either byte order. -/
def freshArray (heap : Nat → Nat → UInt8) (base_size : Nat) (littleEndian : Bool) : ByteArray :=
  (new heap base_size).setIsLittleEndian littleEndian

/-- The byte order that the flag selects. -/
def orderOf (littleEndian : Bool) : ByteOrder :=
  if littleEndian then .littleEndian else .bigEndian

theorem freshArray_appending (heap : Nat → Nat → UInt8) {base_size : Nat} (hbase : 1 ≤ base_size)
    (littleEndian : Bool) : Appending (freshArray heap base_size littleEndian) := by
  have h := new_wellFormed heap hbase
  exact ⟨⟨h.baseSize_pos, h.uniform, h.root, h.capacity_eq, h.position_le, h.size_le, h.cur_eq⟩,
    rfl⟩

theorem freshArray_endian (heap : Nat → Nat → UInt8) (base_size : Nat) (littleEndian : Bool) :
    (freshArray heap base_size littleEndian).endian = orderOf littleEndian := by
  cases littleEndian <;> rfl

/-! ## A list of writers -/

theorem writeChunks_endian {cs : List (List UInt8)} {ba ba' : ByteArray}
    (h : writeChunks cs ba = .ok () ba') : ba'.endian = ba.endian := by
  induction cs generalizing ba with
  | nil =>
      obtain ⟨-, rfl⟩ := EStateM.Result.ok.inj h
      rfl
  | cons c cs ih =>
      cases hwrite : write c ba with
      | ok u ba₁ =>
          have hrest : writeChunks cs ba₁ = .ok () ba' := (bind_ok hwrite).symm.trans h
          rw [ih hrest, write_endian hwrite]
      | error fault ba₁ =>
          have herror : writeChunks (c :: cs) ba = .error fault ba₁ := bind_error hwrite
          rw [herror] at h
          simp at h

/-- The buffers of a list of values. -/
def chunksOf (order : ByteOrder) (vs : List Val) : List (List UInt8) :=
  vs.flatMap (Val.chunks order)

theorem flatten_chunksOf (order : ByteOrder) (vs : List Val) :
    (chunksOf order vs).flatten = encodeVals order vs := by
  induction vs with
  | nil => rfl
  | cons v vs ih =>
      show (v.chunks order ++ chunksOf order vs).flatten = v.encode order ++ encodeVals order vs
      rw [List.flatten_append, ih]
      rfl

theorem writeVals_eq (host : ByteOrder) (vs : List Val) (ba : ByteArray) :
    writeVals host vs ba = writeChunks (chunksOf ba.endian vs) ba := by
  induction vs generalizing ba with
  | nil => rfl
  | cons v vs ih =>
      have hsplit : writeChunks (chunksOf ba.endian (v :: vs)) =
          writeChunks (v.chunks ba.endian) >>= fun _ => writeChunks (chunksOf ba.endian vs) :=
        writeChunks_append _ _
      rw [hsplit]
      show (writeVal host v >>= fun _ => writeVals host vs) ba = _
      have hfirst := writeVal_eq host v ba
      -- The values behind the first are written in the order that the first one left.
      cases hwrite : writeChunks (v.chunks ba.endian) ba with
      | ok u ba₁ =>
          rw [bind_ok (hfirst.trans hwrite), bind_ok hwrite, ih ba₁, writeChunks_endian hwrite]
      | error fault ba₁ => rw [bind_error (hfirst.trans hwrite), bind_error hwrite]

/-- The capacity after a list of values was written to a fresh array. -/
def capacityOf (base_size : Nat) (order : ByteOrder) (vs : List Val) : Option Nat :=
  capacityAfter base_size base_size 0 ((chunksOf order vs).map List.length)

theorem capacityOf_eq {base_size : Nat} (hbase : 1 ≤ base_size) (order : ByteOrder)
    {vs : List Val} (hbound : (encodeVals order vs).length < 2 ^ 53) :
    capacityOf base_size order vs = some (if (encodeVals order vs).length ≤ base_size then base_size
      else pagesFor (encodeVals order vs).length base_size * base_size) := by
  have hsum : ((chunksOf order vs).map List.length).sum = (encodeVals order vs).length := by
    rw [← flatten_chunksOf, List.length_flatten]
  rw [capacityOf, capacityAfter_eq hbase (Nat.dvd_refl _) (Nat.zero_le _)
    (by rw [hsum, Nat.zero_add]; exact hbound), hsum, Nat.zero_add]

/-! ## The whole run -/

variable (host : ByteOrder) (heap : Nat → Nat → UInt8)

/-- **The run, when the pages suffice:** the readers start on an array that holds the encoding of
the values, and nothing else. -/
theorem writeThenRead_eq {base_size : Nat} (hbase : 1 ≤ base_size) (littleEndian : Bool)
    {vs : List Val} {cap : Nat} (hcap : capacityOf base_size (orderOf littleEndian) vs = some cap) :
    ∃ ba, writeThenRead host vs (freshArray heap base_size littleEndian) =
        readVals host (vs.map Val.kind) ba ∧
      WellFormed ba ∧ ba.endian = orderOf littleEndian ∧ ba.capacity = cap ∧
      ba.size = (encodeVals (orderOf littleEndian) vs).length ∧
      ba.rest = encodeVals (orderOf littleEndian) vs := by
  have hstart := freshArray_appending heap hbase littleEndian
  have hendian := freshArray_endian heap base_size littleEndian
  obtain ⟨ba₁, hwrite, happ, -, hsize, hendian₁, hcap₁, hcontent⟩ := hstart.writeChunks hcap
  -- Writing moves the cursor to the end; `setPosition(0)` takes it back and keeps the data.
  rw [← hendian, ← writeVals_eq host] at hwrite
  obtain ⟨ba₂, hseek, hwf, hpos, hsize₂, hcap₂, hmem, hendian₂, -⟩ :=
    happ.wellFormed.setPosition (Nat.zero_le ba₁.capacity)
  have hzero : (freshArray heap base_size littleEndian).size = 0 := rfl
  have hnil : (freshArray heap base_size littleEndian).content = [] := List.take_zero
  rw [hzero, Nat.zero_add, flatten_chunksOf] at hsize
  rw [hnil, List.nil_append, flatten_chunksOf] at hcontent
  rw [Nat.max_eq_left (Nat.zero_le _)] at hsize₂
  refine ⟨ba₂, ?_, hwf, hendian₂.trans (hendian₁.trans hendian), hcap₂.trans hcap₁,
    hsize₂.trans hsize, ?_⟩
  · rw [writeThenRead, bind_ok hwrite, bind_ok hseek]
  · rw [rest, hpos, List.drop_zero, content, hsize₂, hmem]
    exact hcontent

/-- When they do not, a write dereferences a null node. -/
theorem writeThenRead_null {base_size : Nat} (hbase : 1 ≤ base_size) (littleEndian : Bool)
    {vs : List Val} (hcap : capacityOf base_size (orderOf littleEndian) vs = none) :
    ∃ ba, writeThenRead host vs (freshArray heap base_size littleEndian) = .error .nullNode ba := by
  have hstart := freshArray_appending heap hbase littleEndian
  have hendian := freshArray_endian heap base_size littleEndian
  obtain ⟨ba, hnull⟩ := hstart.writeChunks_null hcap
  rw [← hendian, ← writeVals_eq] at hnull
  exact ⟨ba, bind_error hnull⟩

/-! ## Round trip -/

/-- The values with at least one byte after any length field. -/
def Val.Nonempty : Val → Prop
  | .stringF16 s | .stringF32 s | .stringF64 s | .stringVint s | .bytes s => s ≠ []
  | _ => True

theorem decodeVals_encodeVals (order : ByteOrder) {vs : List Val}
    (hvs : ∀ v ∈ vs, v.Representable) (tail : List UInt8) :
    decodeVals order (vs.map Val.kind) (encodeVals order vs ++ tail) = some (vs, tail) := by
  induction vs with
  | nil => rfl
  | cons v vs ih =>
      have htail := ih fun w hw => hvs w (List.mem_cons_of_mem _ hw)
      show decodeVals order (v.kind :: vs.map Val.kind)
        ((v.encode order ++ encodeVals order vs) ++ tail) = _
      rw [decodeVals, List.append_assoc, decode_encode order (hvs v List.mem_cons_self),
        Option.bind_some]
      show (decodeVals order (vs.map Val.kind) (encodeVals order vs ++ tail)).map _ = _
      rw [htail]
      rfl

theorem length_encode_le (order : ByteOrder) {v : Val} {vs : List Val} (hv : v ∈ vs) :
    (v.encode order).length ≤ (encodeVals order vs).length := by
  induction vs with
  | nil => simp at hv
  | cons w vs ih =>
      rw [show encodeVals order (w :: vs) = w.encode order ++ encodeVals order vs from rfl,
        List.length_append]
      rcases List.mem_cons.mp hv with rfl | hv
      · exact Nat.le_add_right _ _
      · exact (ih hv).trans (Nat.le_add_left _ _)

/-- Only a raw write of nothing has an empty encoding. -/
theorem encode_eq_nil (order : ByteOrder) {v : Val} (hnil : v.encode order = []) :
    ¬ v.Nonempty := by
  have hnum : ∀ {f : Field} (n : Nat), f.Proper → [f.encode order n].flatten ≠ [] := by
    intro f n hf
    rw [List.flatten_singleton]
    exact f.encode_ne_nil order hf n
  have htext : ∀ {f : Field} (s : List UInt8), f.Proper → (textChunks order f s).flatten ≠ [] := by
    intro f s hf heq
    rw [textChunks, List.flatten_cons, List.append_eq_nil_iff] at heq
    exact f.encode_ne_nil order hf _ heq.1
  cases v with
  | bytes buf =>
      rw [show Val.encode order (.bytes buf) = [buf].flatten from rfl, List.flatten_singleton]
        at hnil
      exact fun hne => hne hnil
  | int32 v => exact absurd hnil (hnum (f := .varint 32) _ (proper_varint (by norm_num)))
  | uint32 v => exact absurd hnil (hnum (f := .varint 32) _ (proper_varint (by norm_num)))
  | int64 v => exact absurd hnil (hnum (f := .varint 64) _ (proper_varint (by norm_num)))
  | uint64 v => exact absurd hnil (hnum (f := .varint 64) _ (proper_varint (by norm_num)))
  | stringF16 s => exact absurd hnil (htext (f := .word 2) s (proper_word (by norm_num)))
  | stringF32 s => exact absurd hnil (htext (f := .word 4) s (proper_word (by norm_num)))
  | stringF64 s => exact absurd hnil (htext (f := .word 8) s (proper_word (by norm_num)))
  | stringVint s => exact absurd hnil (htext (f := .varint 64) s (proper_varint (by norm_num)))
  | fint8 v => exact absurd hnil (hnum (f := .word 1) _ (proper_word (by norm_num)))
  | fuint8 v => exact absurd hnil (hnum (f := .word 1) _ (proper_word (by norm_num)))
  | fint16 v => exact absurd hnil (hnum (f := .word 2) _ (proper_word (by norm_num)))
  | fuint16 v => exact absurd hnil (hnum (f := .word 2) _ (proper_word (by norm_num)))
  | fint32 v => exact absurd hnil (hnum (f := .word 4) _ (proper_word (by norm_num)))
  | fuint32 v => exact absurd hnil (hnum (f := .word 4) _ (proper_word (by norm_num)))
  | float v => exact absurd hnil (hnum (f := .word 4) _ (proper_word (by norm_num)))
  | fint64 v => exact absurd hnil (hnum (f := .word 8) _ (proper_word (by norm_num)))
  | fuint64 v => exact absurd hnil (hnum (f := .word 8) _ (proper_word (by norm_num)))
  | double v => exact absurd hnil (hnum (f := .word 8) _ (proper_word (by norm_num)))

/-- The reader of a representable value asks for zero bytes at the end exactly when the value is
empty and nothing follows it. -/
theorem zeroAtEnd_encode (order : ByteOrder) {v : Val} (hv : v.Representable)
    (tail : List UInt8) :
    v.kind.zeroAtEnd order (v.encode order ++ tail) ↔ ¬ v.Nonempty ∧ tail = [] := by
  have htext : ∀ {f : Field} (s : List UInt8), f.Proper → s.length < f.bound →
      (ZeroLength order f ((textChunks order f s).flatten ++ tail) ↔ ¬ s ≠ [] ∧ tail = []) := by
    intro f s hf hs
    rw [ZeroLength, decode_textChunks order hf hs]
    simp only [Option.some.injEq, Prod.mk.injEq, List.append_eq_nil_iff, List.length_eq_zero_iff,
      not_not]
    tauto
  cases v with
  | stringF16 s => exact htext s (proper_word (by norm_num)) hv
  | stringF32 s => exact htext s (proper_word (by norm_num)) hv
  | stringF64 s => exact htext s (proper_word (by norm_num)) hv
  | stringVint s => exact htext s (proper_varint (by norm_num)) hv
  | bytes buf =>
      show (buf.length = 0 ∧ [buf].flatten ++ tail = []) ↔ ¬ buf ≠ [] ∧ tail = []
      rw [List.flatten_singleton, List.append_eq_nil_iff, List.length_eq_zero_iff, not_not]
      tauto
  | _ => exact iff_of_false not_false fun h => h.1 trivial

/-- Of a list of representable values, a reader asks for zero bytes at the end exactly when the
last value is empty. -/
theorem zeroAtEnd_encodeVals (order : ByteOrder) {vs : List Val}
    (hvs : ∀ v ∈ vs, v.Representable) :
    zeroAtEnd order (vs.map Val.kind) (encodeVals order vs) ↔
      ∃ v, vs.getLast? = some v ∧ ¬ v.Nonempty := by
  induction vs with
  | nil => simp [zeroAtEnd]
  | cons v vs ih =>
      have hv := hvs v List.mem_cons_self
      have hdec := decode_encode order hv (encodeVals order vs)
      have hlater := ih fun w hw => hvs w (List.mem_cons_of_mem _ hw)
      have hsplit : zeroAtEnd order ((v :: vs).map Val.kind) (encodeVals order (v :: vs)) ↔
          (¬ v.Nonempty ∧ encodeVals order vs = []) ∨
            zeroAtEnd order (vs.map Val.kind) (encodeVals order vs) := by
        rw [← zeroAtEnd_encode order hv]
        show (_ ∨ ∃ w r, v.kind.decode order (v.encode order ++ encodeVals order vs) = some (w, r) ∧
          zeroAtEnd order (vs.map Val.kind) r) ↔ _
        rw [hdec]
        refine or_congr_right ⟨?_, fun h => ⟨v, _, rfl, h⟩⟩
        rintro ⟨w, r, heq, h⟩
        rw [(Prod.mk.inj (Option.some.inj heq)).2]
        exact h
      rw [hsplit, hlater]
      cases vs with
      | nil => simp [encodeVals]
      | cons w ws =>
          rw [List.getLast?_cons_cons]
          refine ⟨?_, .inr⟩
          rintro (⟨-, hnil⟩ | h)
          · -- Everything behind the empty value is empty, the last value included.
            have hlast : (w :: ws).getLast? = some ((w :: ws).getLast (by simp)) :=
              List.getLast?_eq_some_getLast (by simp)
            refine ⟨_, hlast, encode_eq_nil order ?_⟩
            have hmem := List.getLast_mem (l := w :: ws) (by simp)
            exact List.eq_nil_of_length_eq_zero (Nat.le_zero.mp
              (by simpa [hnil] using length_encode_le order hmem))
          · exact h

theorem not_zeroAtEnd_encodeVals (order : ByteOrder) {vs : List Val}
    (hvs : ∀ v ∈ vs, v.Representable ∧ v.Nonempty) :
    ¬ zeroAtEnd order (vs.map Val.kind) (encodeVals order vs) := by
  rw [zeroAtEnd_encodeVals order fun v hv => (hvs v hv).1]
  rintro ⟨v, hlast, hempty⟩
  exact hempty (hvs v (List.mem_of_getLast? hlast)).2

/-- Writing the values into a fresh array and reading them back returns them, and leaves nothing. -/
def RoundTrips (base_size : Nat) (littleEndian : Bool) (vs : List Val) : Prop :=
  ∃ ba, writeThenRead host vs (freshArray heap base_size littleEndian) = .ok vs ba ∧
    ba.getReadSize = 0

/-- The values that the writers store without loss, as long as the total stays in bounds. -/
def Val.Storable : Val → Prop
  | .int64 _ => False
  | .stringF16 s => s ≠ [] ∧ s.length < 65536
  | .stringF32 s => s ≠ [] ∧ s.length < 2 ^ 32
  | .stringF64 s | .stringVint s | .bytes s => s ≠ []
  | _ => True

/-- The encoding of a string contains the string. -/
theorem length_le_textChunks (order : ByteOrder) (f : Field) (s : List UInt8) :
    s.length ≤ (textChunks order f s).flatten.length := by
  simp [textChunks]

theorem Val.Storable.representable {order : ByteOrder} {v : Val} (hv : v.Storable)
    (hbound : (v.encode order).length < 2 ^ 53) : v.Representable ∧ v.Nonempty := by
  cases v with
  | int64 v => exact hv.elim
  | stringF16 s => exact ⟨hv.2, hv.1⟩
  | stringF32 s => exact ⟨hv.2, hv.1⟩
  | stringF64 s =>
      have hlen := (length_le_textChunks order (.word 8) s).trans_lt hbound
      exact ⟨hlen.trans (by norm_num), hv⟩
  | stringVint s =>
      have hlen := (length_le_textChunks order (.varint 64) s).trans_lt hbound
      exact ⟨hlen.trans (by norm_num), hv⟩
  | bytes s => exact ⟨trivial, hv⟩
  | _ => exact ⟨trivial, trivial⟩

/-- **Typed serialization round trip.** -/
theorem roundTrips_of_storable {base_size : Nat} (hbase : 1 ≤ base_size) (littleEndian : Bool)
    {vs : List Val} (hvs : ∀ v ∈ vs, v.Storable)
    (hbound : (encodeVals (orderOf littleEndian) vs).length < 2 ^ 53) :
    RoundTrips host heap base_size littleEndian vs := by
  have hvals : ∀ v ∈ vs, v.Representable ∧ v.Nonempty := fun v hv =>
    (hvs v hv).representable (lt_of_le_of_lt (length_encode_le _ hv) hbound)
  obtain ⟨ba₁, hrun, hwf, hendian, -, -, hrest⟩ :=
    writeThenRead_eq host heap hbase littleEndian (capacityOf_eq hbase _ hbound)
  have hdec := decodeVals_encodeVals (orderOf littleEndian) (fun v hv => (hvals v hv).1) []
  rw [List.append_nil, ← hrest, ← hendian] at hdec
  have hzero := not_zeroAtEnd_encodeVals (orderOf littleEndian) hvals
  rw [← hrest, ← hendian] at hzero
  obtain ⟨ba₂, hread, hmoved, hrest₂⟩ :=
    (reads_readVals host (vs.map Val.kind)).ok hwf hdec fun hz => hzero hz.1
  refine ⟨ba₂, hrun.trans hread, ?_⟩
  rw [← hmoved.wellFormed.length_rest, hrest₂, List.length_nil]

/-- Three pages of two bytes: a word in either byte order, a base-128 number, the most negative
32-bit number and two strings. -/
theorem roundTrips_mixed : RoundTrips .littleEndian (fun _ _ => 0) 2 true
    [.fint16 (-2), .uint32 300, .int32 (-2147483648), .stringF16 [65], .stringVint [66, 67]] :=
  roundTrips_of_storable .littleEndian (fun _ _ => 0) (by decide) true
    (by simp [Val.Storable]) (by decide +kernel)

/-! ## The limits -/

/-- The length field of `writeStringF32` keeps 32 bits: a string of `2 ^ 32` bytes comes back
empty, and its bytes stay unread. -/
theorem not_roundTrips_wrapped {base_size : Nat} (hbase : 1 ≤ base_size) (littleEndian : Bool)
    {s : List UInt8} (hs : s.length = 2 ^ 32) :
    ¬ RoundTrips host heap base_size littleEndian [.stringF32 s] := by
  set order := orderOf littleEndian with horder
  -- The length field is `2 ^ 32` modulo `2 ^ 32`.
  have hfield : (Field.word 4).decode order ((Field.word 4).encode order 0 ++ s) = some (0, s) :=
    Field.decode_encode order (proper_word (by norm_num)) (by norm_num [Field.bound]) s
  have henc : encodeVals order [.stringF32 s] = (Field.word 4).encode order 0 ++ s := by
    simp [encodeVals, Val.encode, Val.chunks, textChunks, hs, Field.bound]
  have hlen : (encodeVals order [.stringF32 s]).length = 4 + 2 ^ 32 := by
    rw [henc, List.length_append, hs]
    simp [Field.encode]
  have hbound : (encodeVals order [.stringF32 s]).length < 2 ^ 53 := by
    rw [hlen]
    norm_num
  have hcap := capacityOf_eq hbase order hbound
  obtain ⟨ba₁, hrun, hwf, hendian, -, -, hrest⟩ :=
    writeThenRead_eq host heap hbase littleEndian hcap
  have hdec : decodeVals ba₁.endian [.stringF32] ba₁.rest = some ([.stringF32 []], s) := by
    rw [hendian, hrest, henc, decodeVals, Kind.decode, decodeText, hfield]
    simp [decodeRaw, decodeVals]
  have hzero : ¬ zeroAtEnd ba₁.endian [.stringF32] ba₁.rest := by
    rw [hendian, hrest, henc]
    rintro (hzero | ⟨v, r, -, hzero⟩)
    · have hnil : s = [] := (Prod.mk.inj (Option.some.inj (hfield.symm.trans hzero))).2
      rw [hnil] at hs
      simp at hs
    · exact hzero
  obtain ⟨ba₂, hread, hmoved, hrest₂⟩ :=
    (reads_readVals host [.stringF32]).ok hwf hdec fun hz => hzero hz.1
  rintro ⟨ba, hok, hsize⟩
  obtain ⟨-, rfl⟩ := EStateM.Result.ok.inj (hok.symm.trans (hrun.trans hread))
  rw [← hmoved.wellFormed.length_rest, hrest₂, hs] at hsize
  simp at hsize

theorem pageCount_rounds_down : pageCount (2 ^ 53 + 1) 1 = 2 ^ 53 := by
  have hone : roundTo 53 ((1 : Nat) : ℚ) = ((1 : Nat) : ℚ) := roundTo_natCast (by norm_num)
  rw [pageCount, roundTo_two_pow_add_one (by norm_num), hone, Nat.cast_one, div_one,
    roundTo_two_pow (by norm_num), Int.ceil_natCast, Int.toNat_natCast]

/-- With pages of one byte a string of `2 ^ 53 + 1` bytes gets one page too few. -/
theorem not_roundTrips_rounded (littleEndian : Bool) {s : List UInt8}
    (hs : s.length = 2 ^ 53 + 1) : ¬ RoundTrips host heap 1 littleEndian [.stringF64 s] := by
  have hlens : (chunksOf (orderOf littleEndian) [.stringF64 s]).map List.length =
      [8, 2 ^ 53 + 1] := by
    simp [chunksOf, Val.chunks, textChunks, Field.encode, hs]
  have hcap : capacityOf 1 (orderOf littleEndian) [.stringF64 s] = none := by
    -- The length field takes the array to eight pages; the string is short of one page.
    have hfirst : nextCapacity 1 1 0 8 = 8 := by
      rw [nextCapacity_eq (by norm_num) (Nat.dvd_refl 1) (by norm_num) (by norm_num)]
      rfl
    have hsecond : nextCapacity 1 8 8 (2 ^ 53 + 1) = 8 + 2 ^ 53 := by
      rw [nextCapacity, if_neg (by norm_num), Nat.sub_self, Nat.sub_zero, pageCount_rounds_down,
        Nat.mul_one]
    rw [capacityOf, hlens, capacityAfter, hfirst, if_pos (by norm_num), capacityAfter, Nat.zero_add,
      hsecond, if_neg (by norm_num)]
  obtain ⟨ba, hnull⟩ := writeThenRead_null host heap (Nat.le_refl 1) littleEndian hcap
  rintro ⟨ba', hok, -⟩
  rw [hnull] at hok
  simp at hok

theorem roundTrips_fails_past_limits :
    ¬ RoundTrips .littleEndian (fun _ _ => 0) 4096 false [.stringF32 (List.replicate (2 ^ 32) 0)] ∧
    ¬ RoundTrips .littleEndian (fun _ _ => 0) 1 false
        [.stringF64 (List.replicate (2 ^ 53 + 1) 0)] :=
  ⟨not_roundTrips_wrapped .littleEndian (fun _ _ => 0) (by norm_num) false List.length_replicate,
    not_roundTrips_rounded .littleEndian (fun _ _ => 0) false List.length_replicate⟩

end ByteArray
end Routn
