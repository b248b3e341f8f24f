import Mathlib.Tactic
import Routn.Foundation.Sequencing
import Routn.ByteArray.Invariant
import Routn.ByteArray.Wire

/-!
# What the readers see

A reader sees the bytes between the cursor and the end of the data.  `Reads x dec zero` says what
the reader `x` does with them: it returns what the function `dec` decodes, or throws when `dec`
finds the bytes too short.  `zero` holds of the bytes from which `x` asks for zero bytes after it
consumed all of them; when in addition the data fills the last page, that call of `read` goes
through a null `_cur`.

`Reads` is closed under sequencing (`Reads.bind`), so the readers of the source are treated one by
one from `reads_read`, and a list of readers by induction (`reads_readVals`).
-/

namespace Routn

open Foundation

namespace ByteArray

variable {α β : Type}

/-! ## The bytes in front of the cursor -/

/-- The data of the array. -/
def content (ba : ByteArray) : List UInt8 := ba.mem.take ba.size

/-- The data from the cursor on. -/
def rest (ba : ByteArray) : List UInt8 := ba.content.drop ba.position

theorem WellFormed.length_rest {ba : ByteArray} (h : WellFormed ba) :
    ba.rest.length = ba.getReadSize := by
  have hlen := h.length_mem
  have hsize := h.size_le
  rw [rest, content, List.length_drop, List.length_take, getReadSize]
  omega

/-- What a reader leaves alone: everything but the cursor. -/
structure Moved (ba ba' : ByteArray) : Prop where
  wellFormed : WellFormed ba'
  size : ba'.size = ba.size
  capacity : ba'.capacity = ba.capacity
  mem : ba'.mem = ba.mem
  endian : ba'.endian = ba.endian

theorem Moved.refl {ba : ByteArray} (h : WellFormed ba) : Moved ba ba := ⟨h, rfl, rfl, rfl, rfl⟩

theorem Moved.trans {ba ba' ba'' : ByteArray} (h : Moved ba ba') (h' : Moved ba' ba'') :
    Moved ba ba'' where
  wellFormed := h'.wellFormed
  size := h'.size.trans h.size
  capacity := h'.capacity.trans h.capacity
  mem := h'.mem.trans h.mem
  endian := h'.endian.trans h.endian

/-- The data fills the last page to its end. -/
def Full (ba : ByteArray) : Prop := ba.size = ba.capacity

theorem Moved.full_iff {ba ba' : ByteArray} (h : Moved ba ba') : ba'.Full ↔ ba.Full := by
  rw [Full, Full, h.size, h.capacity]

/-- With all data consumed, `_cur` is null exactly when the data fills the last page. -/
theorem WellFormed.position_eq_capacity_iff {ba : ByteArray} (h : WellFormed ba) :
    ba.position = ba.capacity ↔ ba.rest = [] ∧ ba.Full := by
  have hlen := h.length_rest
  have hpos := h.position_le
  have hsize := h.size_le
  rw [← List.length_eq_zero_iff, hlen, getReadSize, Full]
  omega

/-! ## Readers -/

/-- The specification of a reader, by a decoding function and by the bytes on which its last
`read` asks for nothing although nothing is left. -/
structure Reads (x : ByteArrayM α) (dec : ByteOrder → List UInt8 → Option (α × List UInt8))
    (zero : ByteOrder → List UInt8 → Prop) : Prop where
  ok : ∀ {ba a r}, WellFormed ba → dec ba.endian ba.rest = some (a, r) →
    ¬ (zero ba.endian ba.rest ∧ ba.Full) → ∃ ba', x ba = .ok a ba' ∧ Moved ba ba' ∧ ba'.rest = r
  short : ∀ {ba}, WellFormed ba → dec ba.endian ba.rest = none →
    ¬ (zero ba.endian ba.rest ∧ ba.Full) →
      ∃ ba', x ba = .error (.outOfRange "not enouth length") ba'
  null : ∀ {ba}, WellFormed ba → zero ba.endian ba.rest → ba.Full →
    ∃ ba', x ba = .error .nullNode ba'

/-- A reader dereferences a null `_cur` exactly on the bytes that `zero` names, in a full array. -/
theorem Reads.nullNode_iff {x : ByteArrayM α}
    {dec : ByteOrder → List UInt8 → Option (α × List UInt8)} {zero : ByteOrder → List UInt8 → Prop}
    (hx : Reads x dec zero) {ba : ByteArray} (h : WellFormed ba) :
    (∃ ba', x ba = .error .nullNode ba') ↔ zero ba.endian ba.rest ∧ ba.Full := by
  constructor
  · rintro ⟨ba', hnull⟩
    by_contra hzero
    cases hdec : dec ba.endian ba.rest with
    | none =>
        obtain ⟨ba'', hshort⟩ := hx.short h hdec hzero
        rw [hshort] at hnull
        simp at hnull
    | some ar =>
        obtain ⟨ba'', hok, -, -⟩ := hx.ok (a := ar.1) (r := ar.2) h hdec hzero
        rw [hok] at hnull
        simp at hnull
  · rintro ⟨hzero, hfull⟩
    exact hx.null h hzero hfull

theorem reads_pure (a : α) :
    Reads (pure a : ByteArrayM α) (fun _ bytes => some (a, bytes)) fun _ _ => False where
  ok {ba a' r} h hdec _ := by
    obtain ⟨rfl, rfl⟩ := Prod.mk.inj (Option.some.inj hdec)
    exact ⟨ba, rfl, Moved.refl h, rfl⟩
  short _ hdec _ := by simp at hdec
  null _ hzero _ := hzero.elim

/-- `read` with the bytes it returns: the base of every reader. -/
theorem reads_read (n : Nat) :
    Reads (read n) (fun _ bytes => decodeRaw n id bytes) fun _ bytes => n = 0 ∧ bytes = [] where
  ok {ba a r} h hdec hzero := by
    have hlen := h.length_rest
    by_cases hn : n ≤ ba.rest.length
    · rw [decodeRaw, if_pos hn] at hdec
      obtain ⟨rfl, rfl⟩ := Prod.mk.inj (Option.some.inj hdec)
      have hcur : 0 < n ∨ ba.position < ba.capacity := by
        have hiff := h.position_eq_capacity_iff
        have hpos := h.position_le
        have hsize := h.size_le
        by_contra hnot
        have hend : ba.position = ba.capacity := by omega
        exact hzero ⟨⟨by omega, (hiff.mp hend).1⟩, (hiff.mp hend).2⟩
      obtain ⟨ba', hread, hwf, hpos, hsize, hcap, hmem, hendian, -⟩ :=
        h.read (n := n) (by rw [← hlen]; exact hn) hcur
      refine ⟨ba', ?_, ⟨hwf, hsize, hcap, hmem, hendian⟩, ?_⟩
      · -- The bytes returned lie inside the data, so cutting the memory at `size` is harmless.
        have hbytes : (ba.mem.drop ba.position).take n = ba.rest.take n := by
          rw [rest, content, List.drop_take, List.take_take, getReadSize] at *
          rw [Nat.min_eq_left (by omega)]
        rw [hread, hbytes]
        rfl
      · rw [rest, content, hmem, hsize, hpos, rest, content, List.drop_drop]
    · rw [decodeRaw, if_neg hn] at hdec
      simp at hdec
  short {ba} h hdec _ := by
    have hlen := h.length_rest
    by_cases hn : n ≤ ba.rest.length
    · rw [decodeRaw, if_pos hn] at hdec
      simp at hdec
    · exact ⟨ba, read_short (by omega)⟩
  null {ba} h hzero hfull := by
    obtain ⟨rfl, hnil⟩ := hzero
    exact ⟨ba, h.read_null (h.position_eq_capacity_iff.mpr ⟨hnil, hfull⟩)⟩

/-- Sequencing: the second reader sees what the first one left. -/
theorem Reads.bind {x : ByteArrayM α} {f : α → ByteArrayM β}
    {dec : ByteOrder → List UInt8 → Option (α × List UInt8)}
    {dec' : α → ByteOrder → List UInt8 → Option (β × List UInt8)}
    {zero : ByteOrder → List UInt8 → Prop} {zero' : α → ByteOrder → List UInt8 → Prop}
    (hx : Reads x dec zero) (hf : ∀ a, Reads (f a) (dec' a) (zero' a)) :
    Reads (x >>= f) (fun order bytes => (dec order bytes).bind fun ar => dec' ar.1 order ar.2)
      fun order bytes => zero order bytes ∨
        ∃ a r, dec order bytes = some (a, r) ∧ zero' a order r where
  ok {ba b r} h hdec hzero := by
    -- The byte order and the fullness of the array are those before the first reader.
    obtain ⟨⟨a, s⟩, hdec₁, hdec₂⟩ := Option.bind_eq_some_iff.mp hdec
    obtain ⟨ba₁, hok, hmoved, hrest⟩ := hx.ok h hdec₁ fun hz => hzero ⟨.inl hz.1, hz.2⟩
    have hdec₂' : dec' a ba₁.endian ba₁.rest = some (b, r) := by
      rw [hmoved.endian, hrest]
      exact hdec₂
    have hzero₂ : ¬ (zero' a ba₁.endian ba₁.rest ∧ ba₁.Full) := by
      rw [hmoved.endian, hrest, hmoved.full_iff]
      exact fun hz => hzero ⟨.inr ⟨a, s, hdec₁, hz.1⟩, hz.2⟩
    obtain ⟨ba₂, hok', hmoved', hrest'⟩ := (hf a).ok hmoved.wellFormed hdec₂' hzero₂
    exact ⟨ba₂, (bind_ok hok).trans hok', hmoved.trans hmoved', hrest'⟩
  short {ba} h hdec hzero := by
    cases hdec₁ : dec ba.endian ba.rest with
    | none =>
        obtain ⟨ba', hshort⟩ := hx.short h hdec₁ fun hz => hzero ⟨.inl hz.1, hz.2⟩
        exact ⟨ba', bind_error hshort⟩
    | some ar =>
        obtain ⟨a, s⟩ := ar
        obtain ⟨ba₁, hok, hmoved, hrest⟩ := hx.ok h hdec₁ fun hz => hzero ⟨.inl hz.1, hz.2⟩
        rw [hdec₁, Option.bind_some, ← hrest, ← hmoved.endian] at hdec
        have hzero₂ : ¬ (zero' a ba₁.endian ba₁.rest ∧ ba₁.Full) := by
          rw [hmoved.endian, hrest, hmoved.full_iff]
          exact fun hz => hzero ⟨.inr ⟨a, s, hdec₁, hz.1⟩, hz.2⟩
        obtain ⟨ba₂, hshort⟩ := (hf a).short hmoved.wellFormed hdec hzero₂
        exact ⟨ba₂, (bind_ok hok).trans hshort⟩
  null {ba} h hzero hfull := by
    -- A zero-length read at the end of a full array, in the first reader or in the second.
    by_cases hfirst : zero ba.endian ba.rest
    · obtain ⟨ba', hnull⟩ := hx.null h hfirst hfull
      exact ⟨ba', bind_error hnull⟩
    · obtain ⟨a, s, hdec, hsecond⟩ := hzero.resolve_left hfirst
      obtain ⟨ba₁, hok, hmoved, hrest⟩ := hx.ok h hdec fun hz => hfirst hz.1
      rw [← hrest, ← hmoved.endian] at hsecond
      obtain ⟨ba₂, hnull⟩ := (hf a).null hmoved.wellFormed hsecond (hmoved.full_iff.mpr hfull)
      exact ⟨ba₂, (bind_ok hok).trans hnull⟩

/-- Two descriptions of the same reader. -/
theorem Reads.congr {x : ByteArrayM α}
    {dec dec' : ByteOrder → List UInt8 → Option (α × List UInt8)}
    {zero zero' : ByteOrder → List UInt8 → Prop} (hx : Reads x dec zero)
    (hdec : ∀ order bytes, dec' order bytes = dec order bytes)
    (hzero : ∀ order bytes, zero' order bytes ↔ zero order bytes) : Reads x dec' zero' := by
  have hd : dec' = dec := funext fun order => funext (hdec order)
  have hz : zero' = zero := funext fun order => funext fun bytes => propext (hzero order bytes)
  rw [hd, hz]
  exact hx

theorem Reads.map {x : ByteArrayM α} {dec : ByteOrder → List UInt8 → Option (α × List UInt8)}
    {zero : ByteOrder → List UInt8 → Prop} (hx : Reads x dec zero) (g : α → β) :
    Reads (do return g (← x)) (fun order bytes => (dec order bytes).map fun ar => (g ar.1, ar.2))
      zero :=
  (hx.bind fun a => reads_pure (g a)).congr
    (fun order bytes => by
      cases dec order bytes with
      | none => rfl
      | some ar => rfl)
    fun order bytes => by simp

/-! ## Numbers -/

variable (host : ByteOrder)

/-- A reader that never asks for zero bytes, of one number. -/
def ReadsNumber (x : ByteArrayM α) (f : Field) (make : Nat → α) : Prop :=
  Reads x (fun order bytes => decodeNumber order f make bytes) fun _ _ => False

theorem reads_get (g : ByteOrder → α) :
    Reads (do return g (← get).endian) (fun order bytes => some (g order, bytes))
      fun _ _ => False where
  ok {ba a r} h hdec _ := by
    obtain ⟨rfl, rfl⟩ := Prod.mk.inj (Option.some.inj hdec)
    exact ⟨ba, rfl, Moved.refl h, rfl⟩
  short _ hdec _ := by simp at hdec
  null _ hzero _ := hzero.elim

/-- Reading the bytes of a word and swapping them unless the array's order is the machine's gives
the word in the array's order. -/
theorem reads_readFixed {k : Nat} (hk : 0 < k) : ReadsNumber (readFixed host k) (.word k) id := by
  have hswap : ∀ bytes : List UInt8, Reads
      (do
        let ba ← get
        if ba.endian = host then return wordOf host bytes
        return byteswap k (wordOf host bytes) : ByteArrayM Nat)
      (fun order r => some (if order = host then wordOf host bytes
        else byteswap k (wordOf host bytes), r)) fun _ _ => False := by
    intro bytes
    have hget := reads_get fun order => if order = host then wordOf host bytes
      else byteswap k (wordOf host bytes)
    have heq : (do
        let ba ← get
        if ba.endian = host then return wordOf host bytes
        return byteswap k (wordOf host bytes) : ByteArrayM Nat) =
        (do return if (← get).endian = host then wordOf host bytes
          else byteswap k (wordOf host bytes)) := by
      refine bind_congr fun ba => ?_
      split <;> rfl
    rw [heq]
    exact hget
  refine ((reads_read k).bind hswap).congr (fun order bytes => ?_) fun order bytes => ?_
  · rw [decodeNumber, Field.decode, decodeRaw]
    by_cases hlen : k ≤ bytes.length
    · have htake : (bytes.take k).length = k := by
        rw [List.length_take, Nat.min_eq_left hlen]
      rw [if_pos hlen, if_pos hlen, Option.map_some, Option.bind_some]
      by_cases horder : order = host
      · rw [if_pos horder, horder]
        rfl
      · have hword := byteswap_wordOf horder (bytes.take k)
        rw [htake] at hword
        rw [if_neg horder]
        show some (wordOf order (bytes.take k), bytes.drop k) = _
        rw [← hword]
        rfl
    · rw [if_neg hlen, if_neg hlen]
      rfl
  · simp only [false_iff, not_or, not_exists, not_and]
    exact ⟨fun h => absurd h (by omega), fun _ _ _ => not_false⟩

theorem ReadsNumber.map {x : ByteArrayM α} {f : Field} {make : Nat → α}
    (hx : ReadsNumber x f make) (g : α → β) :
    ReadsNumber (do return g (← x)) f fun n => g (make n) := by
  refine (Reads.map hx g).congr (fun order bytes => ?_) fun order bytes => Iff.rfl
  rw [decodeNumber, decodeNumber]
  cases f.decode order bytes with
  | none => rfl
  | some nr => rfl

theorem reads_readFuint8 : ReadsNumber readFuint8 (.word 1) UInt8.ofNat := by
  refine (Reads.map (reads_read 1) fun bytes => bytes.headD 0).congr (fun order bytes => ?_)
    fun order bytes => by simp
  cases bytes with
  | nil => rfl
  | cons b rest =>
      have hword : wordOf order [b] = b.toNat := by
        cases order <;> simp [wordOf, natLE]
      rw [decodeNumber, Field.decode, decodeRaw]
      simp [hword]

theorem reads_readVarintLoop (w : Nat) (shifts : List Nat) (res : Nat) :
    Reads (readVarintLoop w shifts res) (fun _ bytes => decodeVarint w shifts res bytes)
      fun _ _ => False := by
  -- One byte for each shift that is left.
  induction shifts generalizing res with
  | nil => exact reads_pure res
  | cons i is ih =>
      have hbody : ∀ b : UInt8, Reads
          (if b < 0x80 then return res ||| (b.toNat <<< i) % 2 ^ w
            else readVarintLoop w is (res ||| ((b.toNat &&& 0x7f) <<< i) % 2 ^ w) : ByteArrayM Nat)
          (fun _ bytes => if b < 0x80 then some (res ||| (b.toNat <<< i) % 2 ^ w, bytes)
            else decodeVarint w is (res ||| ((b.toNat &&& 0x7f) <<< i) % 2 ^ w) bytes)
          fun _ _ => False := by
        intro b
        by_cases hlast : b < 0x80
        · simp only [if_pos hlast]
          exact reads_pure _
        · simp only [if_neg hlast]
          exact ih _
      refine (reads_readFuint8.bind hbody).congr (fun order bytes => ?_) fun order bytes => by simp
      cases bytes with
      | nil => rfl
      | cons b rest =>
          have hword : wordOf order [b] = b.toNat := by
            cases order <;> simp [wordOf, natLE]
          have hnum : decodeNumber order (.word 1) UInt8.ofNat (b :: rest) = some (b, rest) := by
            rw [decodeNumber, Field.decode]
            simp [hword]
          rw [hnum]
          rfl

theorem reads_readUint32 : ReadsNumber readUint32 (.varint 32) UInt32.ofNat :=
  Reads.map (reads_readVarintLoop 32 (shifts 32) 0) UInt32.ofNat

theorem reads_readUint64 : ReadsNumber readUint64 (.varint 64) UInt64.ofNat :=
  Reads.map (reads_readVarintLoop 64 (shifts 64) 0) UInt64.ofNat

/-! ## Strings -/

/-- The number a field is decoded to fits the field. -/
theorem Field.decode_lt {order : ByteOrder} {f : Field} {bytes r : List UInt8} {n : Nat}
    (h : f.decode order bytes = some (n, r)) : n < f.bound := by
  cases f with
  | word k =>
      rw [Field.decode] at h
      split at h
      · next hlen =>
        obtain ⟨rfl, -⟩ := Prod.mk.inj (Option.some.inj h)
        have hlt := wordOf_lt order (bytes.take k)
        rw [List.length_take, Nat.min_eq_left hlen] at hlt
        exact hlt
      · simp at h
  | varint w =>
      have hloop : ∀ (is : List Nat) (res : Nat) (bytes : List UInt8), res < 2 ^ w →
          decodeVarint w is res bytes = some (n, r) → n < 2 ^ w := by
        intro is
        induction is with
        | nil =>
            intro res bytes hres heq
            obtain ⟨rfl, -⟩ := Prod.mk.inj (Option.some.inj heq)
            exact hres
        | cons i is ih =>
            intro res bytes hres heq
            have hor : ∀ m, (res ||| m % 2 ^ w) < 2 ^ w := fun m =>
              Nat.or_lt_two_pow hres (Nat.mod_lt _ (by positivity))
            cases bytes with
            | nil => simp [decodeVarint] at heq
            | cons b rest =>
                rw [decodeVarint] at heq
                split at heq
                · obtain ⟨rfl, -⟩ := Prod.mk.inj (Option.some.inj heq)
                  exact hor _
                · exact ih _ rest (hor _) heq
      exact hloop (shifts w) 0 bytes (by positivity) h

/-- A length field of zero with nothing behind it. -/
def ZeroLength (order : ByteOrder) (f : Field) (bytes : List UInt8) : Prop :=
  f.decode order bytes = some (0, [])

/-- Read the length, then as many bytes. -/
theorem reads_text {x : ByteArrayM α} {f : Field} {make : Nat → α} (hx : ReadsNumber x f make)
    (toNat : α → Nat) (hback : ∀ n < f.bound, toNat (make n) = n) :
    Reads (do
      let len ← x
      read (toNat len)) (fun order bytes => decodeText order f id bytes)
      fun order bytes => ZeroLength order f bytes := by
  refine (Reads.bind hx fun len => reads_read (toNat len)).congr (fun order bytes => ?_)
    fun order bytes => ?_
  · rw [decodeText, decodeNumber]
    cases hdec : f.decode order bytes with
    | none => rfl
    | some nr =>
        obtain ⟨n, r⟩ := nr
        show decodeRaw n id r = decodeRaw (toNat (make n)) id r
        rw [hback n (Field.decode_lt hdec)]
  · rw [ZeroLength, false_or, decodeNumber]
    cases hdec : f.decode order bytes with
    | none => simp
    | some nr =>
        obtain ⟨n, r⟩ := nr
        have hn := hback n (Field.decode_lt hdec)
        simp [hn, and_comm]

/-- A number in front of the bytes is read off them. -/
theorem ReadsNumber.step {x : ByteArrayM α} {f : Field} {make : Nat → α}
    (hx : ReadsNumber x f make) {ba : ByteArray} (h : WellFormed ba) (hf : f.Proper) {n : Nat}
    (hn : n < f.bound) {tail : List UInt8} (hrest : ba.rest = f.encode ba.endian n ++ tail) :
    ∃ ba', x ba = .ok (make n) ba' ∧ Moved ba ba' ∧ ba'.rest = tail := by
  have hdec : decodeNumber ba.endian f make ba.rest = some (make n, tail) := by
    rw [hrest, decodeNumber, f.decode_encode ba.endian hf hn]
    rfl
  exact hx.ok h hdec fun hzero => hzero.1

/-- A string in front of the bytes is read off them, unless it is empty and nothing follows. -/
theorem Reads.textStep {x : ByteArrayM (List UInt8)} {f : Field}
    (hx : Reads x (fun order bytes => decodeText order f id bytes)
      fun order bytes => ZeroLength order f bytes)
    {ba : ByteArray} (h : WellFormed ba) (hf : f.Proper) {s tail : List UInt8}
    (hs : s.length < f.bound) (hrest : ba.rest = (textChunks ba.endian f s).flatten ++ tail)
    (hne : s ++ tail ≠ []) : ∃ ba', x ba = .ok s ba' ∧ Moved ba ba' ∧ ba'.rest = tail := by
  have hdec : decodeText ba.endian f id ba.rest = some (s, tail) := by
    rw [hrest, decodeText_encode ba.endian hf hs]
    rfl
  refine hx.ok h hdec fun hzero => hne ?_
  have hfield := hzero.1
  rw [ZeroLength, hrest, decode_textChunks ba.endian hf hs] at hfield
  exact (Prod.mk.inj (Option.some.inj hfield)).2

theorem reads_readFuint16 : ReadsNumber (readFuint16 host) (.word 2) UInt16.ofNat :=
  (reads_readFixed host (by norm_num)).map UInt16.ofNat

theorem reads_readFuint32 : ReadsNumber (readFuint32 host) (.word 4) UInt32.ofNat :=
  (reads_readFixed host (by norm_num)).map UInt32.ofNat

theorem reads_readFuint64 : ReadsNumber (readFuint64 host) (.word 8) UInt64.ofNat :=
  (reads_readFixed host (by norm_num)).map UInt64.ofNat

theorem reads_readStringF16 :
    Reads (readStringF16 host) (fun order bytes => decodeText order (.word 2) id bytes)
      fun order bytes => ZeroLength order (.word 2) bytes :=
  reads_text (reads_readFuint16 host) UInt16.toNat fun _ hn => UInt16.toNat_ofNat_of_lt hn

theorem reads_readStringF32 :
    Reads (readStringF32 host) (fun order bytes => decodeText order (.word 4) id bytes)
      fun order bytes => ZeroLength order (.word 4) bytes :=
  reads_text (reads_readFuint32 host) UInt32.toNat fun _ hn => UInt32.toNat_ofNat_of_lt hn

theorem reads_readStringF64 :
    Reads (readStringF64 host) (fun order bytes => decodeText order (.word 8) id bytes)
      fun order bytes => ZeroLength order (.word 8) bytes :=
  reads_text (reads_readFuint64 host) UInt64.toNat fun _ hn => UInt64.toNat_ofNat_of_lt hn

theorem reads_readStringVint :
    Reads readStringVint (fun order bytes => decodeText order (.varint 64) id bytes)
      fun order bytes => ZeroLength order (.varint 64) bytes :=
  reads_text reads_readUint64 UInt64.toNat fun _ hn => UInt64.toNat_ofNat_of_lt hn

/-! ## One value, and a list of values -/

/-- The bytes on which a reader asks for zero bytes at their end. -/
def Kind.zeroAtEnd (order : ByteOrder) : Kind → List UInt8 → Prop
  | .stringF16, left => ZeroLength order (.word 2) left
  | .stringF32, left => ZeroLength order (.word 4) left
  | .stringF64, left => ZeroLength order (.word 8) left
  | .stringVint, left => ZeroLength order (.varint 64) left
  | .bytes n, left => n = 0 ∧ left = []
  | _, _ => False

/-- The readers reach such bytes: all of them before this one are satisfied. -/
def zeroAtEnd (order : ByteOrder) : List Kind → List UInt8 → Prop
  | [], _ => False
  | k :: ks, bytes => k.zeroAtEnd order bytes ∨
      ∃ v r, k.decode order bytes = some (v, r) ∧ zeroAtEnd order ks r

theorem Reads.mapText {x : ByteArrayM (List UInt8)} {f : Field} {zero}
    (hx : Reads x (fun order bytes => decodeText order f id bytes) zero) (g : List UInt8 → α) :
    Reads (do return g (← x)) (fun order bytes => decodeText order f g bytes) zero := by
  refine (Reads.map hx g).congr (fun order bytes => ?_) fun order bytes => Iff.rfl
  rw [decodeText, decodeText]
  cases f.decode order bytes with
  | none => rfl
  | some nr =>
      show decodeRaw nr.1 g nr.2 = (decodeRaw nr.1 id nr.2).map fun ar => (g ar.1, ar.2)
      rw [decodeRaw, decodeRaw]
      split <;> rfl

/-- **What every typed reader does**, by its kind. -/
theorem reads_readVal (k : Kind) :
    Reads (readVal host k) (fun order bytes => k.decode order bytes)
      fun order bytes => k.zeroAtEnd order bytes := by
  cases k with
  | fint8 =>
      have hcast : readFint8 = do return (← readFuint8).toInt8 := by
        rw [readFint8, readFuint8]
        simp only [bind_assoc, pure_bind]
      have hx : ReadsNumber readFint8 (.word 1) fun n => (UInt8.ofNat n).toInt8 := by
        rw [hcast]
        exact reads_readFuint8.map UInt8.toInt8
      exact hx.map Val.fint8
  | fuint8 => exact reads_readFuint8.map Val.fuint8
  | fint16 =>
      have hword := reads_readFixed host (k := 2) (by norm_num)
      exact (hword.map fun n => (UInt16.ofNat n).toInt16).map Val.fint16
  | fuint16 => exact (reads_readFuint16 host).map Val.fuint16
  | fint32 =>
      have hword := reads_readFixed host (k := 4) (by norm_num)
      exact (hword.map fun n => (UInt32.ofNat n).toInt32).map Val.fint32
  | fuint32 => exact (reads_readFuint32 host).map Val.fuint32
  | fint64 =>
      have hword := reads_readFixed host (k := 8) (by norm_num)
      exact (hword.map fun n => (UInt64.ofNat n).toInt64).map Val.fint64
  | fuint64 => exact (reads_readFuint64 host).map Val.fuint64
  | int32 => exact (reads_readUint32.map decodeZigzag32).map Val.int32
  | uint32 => exact reads_readUint32.map Val.uint32
  | int64 => exact (reads_readUint64.map decodeZigzag64).map Val.int64
  | uint64 => exact reads_readUint64.map Val.uint64
  | float => exact (reads_readFuint32 host).map Val.float
  | double => exact (reads_readFuint64 host).map Val.double
  | stringF16 => exact (reads_readStringF16 host).mapText Val.stringF16
  | stringF32 => exact (reads_readStringF32 host).mapText Val.stringF32
  | stringF64 => exact (reads_readStringF64 host).mapText Val.stringF64
  | stringVint => exact reads_readStringVint.mapText Val.stringVint
  | bytes n =>
      refine (Reads.map (reads_read n) Val.bytes).congr (fun order bytes => ?_)
        fun order bytes => Iff.rfl
      show decodeRaw n Val.bytes bytes = (decodeRaw n id bytes).map fun ar => (Val.bytes ar.1, ar.2)
      rw [decodeRaw, decodeRaw]
      split <;> rfl

/-- The readers one after the other, by induction on their list. -/
theorem reads_readVals (ks : List Kind) :
    Reads (readVals host ks) (fun order bytes => decodeVals order ks bytes)
      fun order bytes => zeroAtEnd order ks bytes := by
  induction ks with
  | nil => exact reads_pure []
  | cons k ks ih =>
      have htail : ∀ v, Reads (do return v :: (← readVals host ks))
          (fun order bytes => (decodeVals order ks bytes).map fun ar => (v :: ar.1, ar.2))
          fun order bytes => zeroAtEnd order ks bytes := fun v => Reads.map ih (v :: ·)
      exact ((reads_readVal host k).bind htail).congr (fun order bytes => rfl)
        fun order bytes => Iff.rfl

end ByteArray
end Routn
