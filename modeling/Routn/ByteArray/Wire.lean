import Mathlib.Tactic
import Routn.ByteArray.Typed

/-!
# The wire format of the typed values

What the typed writers and readers mean as functions on byte strings, with no pages and no cursor.
A `Field` is one number on the wire: a word of fixed width in the array's byte order, or a base-128
number.  `Val.chunks` are the buffers that the writer of a value passes to `write`; `Kind.decode`
is what a reader returns and what it leaves of the bytes in front of it.

`decode_encode` is the round trip for every value that its format can represent.
-/

namespace Routn

open Foundation

namespace ByteArray

variable {α : Type}

/-! ## Numbers -/

/-- A number on the wire. -/
inductive Field
  | word (k : Nat)
  | varint (w : Nat)
deriving DecidableEq, Repr

/-- The numbers a field can hold are those below its bound. -/
def Field.bound : Field → Nat
  | .word k => 256 ^ k
  | .varint w => 2 ^ w

/-- A field with at least one bit. -/
def Field.Proper : Field → Prop
  | .word k => 0 < k
  | .varint w => 0 < w

def Field.encode (order : ByteOrder) : Field → Nat → List UInt8
  | .word k, n => wordBytes order k n
  | .varint _, n => leb128 n

/-- The base-128 loop over the shift amounts still to come. -/
def decodeVarint (w : Nat) : List Nat → Nat → List UInt8 → Option (Nat × List UInt8)
  | [], res, bytes => some (res, bytes)
  | _ :: _, _, [] => none
  | i :: is, res, b :: rest =>
      if b < 0x80 then some (res ||| (b.toNat <<< i) % 2 ^ w, rest)
      else decodeVarint w is (res ||| ((b.toNat &&& 0x7f) <<< i) % 2 ^ w) rest

/-- The number in front of the bytes, and the bytes behind it. -/
def Field.decode (order : ByteOrder) : Field → List UInt8 → Option (Nat × List UInt8)
  | .word k, bytes =>
      if k ≤ bytes.length then some (wordOf order (bytes.take k), bytes.drop k) else none
  | .varint w, bytes => decodeVarint w (shifts w) 0 bytes

theorem Field.encode_ne_nil (order : ByteOrder) {f : Field} (hf : f.Proper) (n : Nat) :
    f.encode order n ≠ [] := by
  cases f with
  | word k =>
      intro hnil
      have hlen := length_wordBytes order k n
      rw [show wordBytes order k n = [] from hnil] at hlen
      have hk : 0 < k := hf
      simp at hlen
      omega
  | varint w => exact leb128_ne_nil n

/-- The decoding loop, started in the middle of a number: `res` are the groups read so far, `u` is
what is left of the number.  As long as groups are left the loop has iterations left, because the
whole number has `w` bits. -/
theorem decodeVarint_leb128 {w n s res u : Nat} (tail : List UInt8) (hres : res < 2 ^ (7 * s))
    (hfits : res + u * 2 ^ (7 * s) < 2 ^ w) (hw : w ≤ 7 * (s + n))
    (hleft : 0 < u ∨ 7 * s < w) :
    decodeVarint w ((List.range' s n).map (7 * ·)) res (leb128 u ++ tail) =
      some (res + u * 2 ^ (7 * s), tail) := by
  induction n generalizing s res u with
  | zero =>
      exfalso
      have hpow : 2 ^ w ≤ 2 ^ (7 * s) := Nat.pow_le_pow_right (by norm_num) (by omega)
      have hu : 0 < u := by omega
      have hle : 2 ^ (7 * s) ≤ u * 2 ^ (7 * s) := Nat.le_mul_of_pos_left _ hu
      omega
  | succ n ih =>
      rw [List.range'_succ, List.map_cons]
      by_cases hlast : u < 128
      · have hbyte : (UInt8.ofNat u).toNat = u := by
          rw [UInt8.toNat_ofNat']
          omega
        have hlt : UInt8.ofNat u < 0x80 := by
          rw [UInt8.lt_iff_toNat_lt, hbyte]
          exact hlast
        rw [leb128_of_lt hlast, List.cons_append, decodeVarint, if_pos hlt, hbyte,
          Nat.mod_eq_of_lt (by rw [Nat.shiftLeft_eq]; omega), or_shiftLeft_eq_add hres,
          List.nil_append]
      · have hbyte : (UInt8.ofNat (u % 128 + 128)).toNat = u % 128 + 128 := by
          rw [UInt8.toNat_ofNat']
          omega
        have hge : ¬ UInt8.ofNat (u % 128 + 128) < 0x80 := by
          rw [UInt8.lt_iff_toNat_lt, hbyte]
          show ¬ u % 128 + 128 < 128
          omega
        have hgroup : (u % 128 + 128) &&& 0x7f = u % 128 := by
          rw [show (0x7f : Nat) = 2 ^ 7 - 1 by norm_num, Nat.and_two_pow_sub_one_eq_mod]
          omega
        have hsplit : u * 2 ^ (7 * s) =
            u % 128 * 2 ^ (7 * s) + u / 128 * 2 ^ (7 * (s + 1)) := by
          have hdiv := Nat.div_add_mod u 128
          have hpow : 2 ^ (7 * (s + 1)) = 128 * 2 ^ (7 * s) := by
            rw [Nat.mul_add, pow_add]
            ring
          rw [hpow]
          nth_rewrite 1 [← hdiv]
          ring
        have hlow : u % 128 * 2 ^ (7 * s) < 2 ^ w := by omega
        have hres' : res + u % 128 * 2 ^ (7 * s) < 2 ^ (7 * (s + 1)) := by
          have hpow : 2 ^ (7 * (s + 1)) = 128 * 2 ^ (7 * s) := by
            rw [Nat.mul_add, pow_add]
            ring
          have hmod : u % 128 ≤ 127 := by omega
          have hmul := Nat.mul_le_mul_right (2 ^ (7 * s)) hmod
          omega
        rw [leb128_of_ge (by omega), List.cons_append, decodeVarint, if_neg hge, hbyte, hgroup,
          Nat.mod_eq_of_lt (by rw [Nat.shiftLeft_eq]; exact hlow), or_shiftLeft_eq_add hres,
          ih hres' (by omega) (by omega) (.inl (by omega))]
        congr 2
        omega

/-- **A number that fits its field is read back**, with the bytes behind it untouched. -/
theorem Field.decode_encode (order : ByteOrder) {f : Field} (hf : f.Proper) {n : Nat}
    (hn : n < f.bound) (tail : List UInt8) :
    f.decode order (f.encode order n ++ tail) = some (n, tail) := by
  cases f with
  -- A fixed width: the bytes of the word are the first `k`.
  | word k =>
      have hlen := length_wordBytes order k n
      have hword : wordOf order (wordBytes order k n) = n := by
        rw [wordOf_wordBytes]
        exact Nat.mod_eq_of_lt hn
      show (if k ≤ (wordBytes order k n ++ tail).length then
        some (wordOf order ((wordBytes order k n ++ tail).take k),
          (wordBytes order k n ++ tail).drop k) else none) = some (n, tail)
      have htake : (wordBytes order k n ++ tail).take k = wordBytes order k n := by
        rw [List.take_append_of_le_length (by omega), List.take_of_length_le (by omega)]
      have hdrop : (wordBytes order k n ++ tail).drop k = tail := by
        rw [List.drop_append_of_le_length (by omega), List.drop_of_length_le (by omega),
          List.nil_append]
      rw [if_pos (by rw [List.length_append]; omega), htake, hdrop, hword]
  -- Groups of seven bits, ended by the first byte below `0x80`.
  | varint w =>
      have hw : 0 < w := hf
      have hfits : n < 2 ^ w := hn
      have hloop := decodeVarint_leb128 (w := w) (n := (w + 6) / 7) (s := 0) (u := n) tail
        (show 0 < 2 ^ (7 * 0) by norm_num) (by simpa using hfits) (by omega) (.inr (by omega))
      show decodeVarint w (shifts w) 0 (leb128 n ++ tail) = some (n, tail)
      rw [shifts, List.range_eq_range', hloop]
      simp

/-! ## The loop of the source -/

/-- The writing loop computes the base-128 digits. -/
theorem varintLoop_eq (value : Nat) : varintLoop value = leb128 value := by
  induction value using Nat.strongRecOn with
  | ind value ih =>
      by_cases hsmall : value < 128
      · rw [varintLoop, if_neg (by omega), leb128_of_lt hsmall]
      · rw [varintLoop, if_pos (by omega), leb128_of_ge (by omega), and_127_or_128,
          shiftRight_seven, ih (value / 128) (by omega)]

/-! ## Zigzag -/

theorem lt_zero_iff32 (v : Int32) : v < 0 ↔ 2 ^ 31 ≤ v.toUInt32.toNat := by
  have hneg : v.toBitVec.toInt < 0 ↔ 2 ^ 32 ≤ 2 * v.toBitVec.toNat := BitVec.toInt_neg_iff
  have hzero : v < 0 ↔ v.toBitVec.toInt < 0 := Int32.lt_iff_toInt_lt
  rw [hzero, hneg]
  show _ ↔ 2 ^ 31 ≤ v.toBitVec.toNat
  omega

/-- The code of a value, from its two's complement word: `2 v` for `v ≥ 0`, and `-2 v - 1` below. -/
theorem toNat_encodeZigzag32 (v : Int32) :
    (encodeZigzag32 v).toNat =
      if v.toUInt32.toNat < 2 ^ 31 then 2 * v.toUInt32.toNat
      else 2 * (2 ^ 32 - v.toUInt32.toNat) - 1 := by
  have hlt := v.toUInt32.toNat_lt
  have hneg := lt_zero_iff32 v
  rw [encodeZigzag32]
  -- The sign decides, and then everything is arithmetic modulo `2 ^ 32`.
  split
  · next h =>
    have hge := hneg.mp h
    have hone : (1 : UInt32).toNat = 1 := rfl
    have htwo : (2 : UInt32).toNat = 2 := rfl
    rw [if_neg (by omega), UInt32.toNat_sub, UInt32.toNat_mul, Int32.toUInt32_neg,
      UInt32.toNat_neg, hone, htwo]
    simp only [UInt32.size]
    omega
  · next h =>
    have hsmall := hneg.not.mp h
    have htwo : (Int32.toUInt32 2).toNat = 2 := rfl
    rw [if_pos (by omega), Int32.toUInt32_mul, UInt32.toNat_mul, htwo]
    omega

/-- What the decoder makes of a code: the mask `-(u & 1)` is `0` or all ones. -/
theorem toNat_zigzag_bits {w : Nat} (hw : 0 < w) (u : BitVec w) :
    ((u >>> 1) ^^^ -(u &&& 1#w)).toNat =
      if u.toNat % 2 = 0 then u.toNat / 2 else 2 ^ w - 1 - u.toNat / 2 := by
  have hone : (1#w).toNat = 1 := by
    rw [BitVec.toNat_ofNat]
    exact Nat.mod_eq_of_lt (Nat.one_lt_two_pow hw.ne')
  have hlow : (u &&& 1#w).toNat = u.toNat % 2 := by
    rw [BitVec.toNat_and, hone]
    exact Nat.and_one_is_mod _
  have hshift : (u >>> 1).toNat = u.toNat / 2 := by
    rw [BitVec.toNat_ushiftRight, Nat.shiftRight_eq_div_pow]
  split
  · next heven =>
    have hmask : u &&& 1#w = 0#w := BitVec.eq_of_toNat_eq (by rw [hlow, heven]; simp)
    rw [hmask, BitVec.neg_zero, BitVec.xor_zero, hshift]
  · next hodd =>
    have hmask : u &&& 1#w = 1#w := BitVec.eq_of_toNat_eq (by rw [hlow, hone]; omega)
    rw [hmask, BitVec.neg_one_eq_allOnes, BitVec.xor_allOnes, BitVec.toNat_not, hshift]

theorem toNat_zigzag_word (u : UInt32) :
    ((u >>> 1) ^^^ -(u &&& 1)).toNat =
      if u.toNat % 2 = 0 then u.toNat / 2 else 2 ^ 32 - 1 - u.toNat / 2 :=
  toNat_zigzag_bits (by norm_num) u.toBitVec

/-- Zigzag on 32 bits is undone on the whole range, the minimum included. -/
theorem decodeZigzag32_encodeZigzag32 (v : Int32) : decodeZigzag32 (encodeZigzag32 v) = v := by
  have hlt := v.toUInt32.toNat_lt
  have hword : (encodeZigzag32 v >>> 1) ^^^ -(encodeZigzag32 v &&& 1) = v.toUInt32 := by
    refine UInt32.toNat_inj.mp ?_
    rw [toNat_zigzag_word, toNat_encodeZigzag32]
    split_ifs <;> omega
  rw [decodeZigzag32, hword, Int32.toInt32_toUInt32]

/-! ## Values -/

/-- The buffers of a string: its length, cut to the width of the field, and its bytes. -/
def textChunks (order : ByteOrder) (f : Field) (s : List UInt8) : List (List UInt8) :=
  [f.encode order (s.length % f.bound), s]

/-- The buffers that the writer of a value passes to `write`, in order. -/
def Val.chunks (order : ByteOrder) : Val → List (List UInt8)
  | .fint8 v => [(Field.word 1).encode order v.toUInt8.toNat]
  | .fuint8 v => [(Field.word 1).encode order v.toNat]
  | .fint16 v => [(Field.word 2).encode order v.toUInt16.toNat]
  | .fuint16 v => [(Field.word 2).encode order v.toNat]
  | .fint32 v => [(Field.word 4).encode order v.toUInt32.toNat]
  | .fuint32 v => [(Field.word 4).encode order v.toNat]
  | .fint64 v => [(Field.word 8).encode order v.toUInt64.toNat]
  | .fuint64 v => [(Field.word 8).encode order v.toNat]
  | .int32 v => [(Field.varint 32).encode order (encodeZigzag32 v).toNat]
  | .uint32 v => [(Field.varint 32).encode order v.toNat]
  | .int64 v => [(Field.varint 64).encode order (encodeZigzag64 v).toNat]
  | .uint64 v => [(Field.varint 64).encode order v.toNat]
  | .float bits => [(Field.word 4).encode order bits.toNat]
  | .double bits => [(Field.word 8).encode order bits.toNat]
  | .stringF16 s => textChunks order (.word 2) s
  | .stringF32 s => textChunks order (.word 4) s
  | .stringF64 s => textChunks order (.word 8) s
  | .stringVint s => textChunks order (.varint 64) s
  | .bytes buf => [buf]

/-- The bytes of a value. -/
def Val.encode (order : ByteOrder) (v : Val) : List UInt8 := (v.chunks order).flatten

/-- The bytes of a list of values. -/
def encodeVals (order : ByteOrder) (vs : List Val) : List UInt8 := vs.flatMap (Val.encode order)

def decodeNumber (order : ByteOrder) (f : Field) (make : Nat → α) (bytes : List UInt8) :
    Option (α × List UInt8) :=
  (f.decode order bytes).map fun (n, rest) => (make n, rest)

def decodeRaw (n : Nat) (make : List UInt8 → α) (bytes : List UInt8) :
    Option (α × List UInt8) :=
  if n ≤ bytes.length then some (make (bytes.take n), bytes.drop n) else none

def decodeText (order : ByteOrder) (f : Field) (make : List UInt8 → α) (bytes : List UInt8) :
    Option (α × List UInt8) :=
  (f.decode order bytes).bind fun (n, rest) => decodeRaw n make rest

/-- What a reader returns and what it leaves; `none` when the bytes end inside the value. -/
def Kind.decode (order : ByteOrder) : Kind → List UInt8 → Option (Val × List UInt8)
  | .fint8 => decodeNumber order (.word 1) fun n => .fint8 (UInt8.ofNat n).toInt8
  | .fuint8 => decodeNumber order (.word 1) fun n => .fuint8 (UInt8.ofNat n)
  | .fint16 => decodeNumber order (.word 2) fun n => .fint16 (UInt16.ofNat n).toInt16
  | .fuint16 => decodeNumber order (.word 2) fun n => .fuint16 (UInt16.ofNat n)
  | .fint32 => decodeNumber order (.word 4) fun n => .fint32 (UInt32.ofNat n).toInt32
  | .fuint32 => decodeNumber order (.word 4) fun n => .fuint32 (UInt32.ofNat n)
  | .fint64 => decodeNumber order (.word 8) fun n => .fint64 (UInt64.ofNat n).toInt64
  | .fuint64 => decodeNumber order (.word 8) fun n => .fuint64 (UInt64.ofNat n)
  | .int32 => decodeNumber order (.varint 32) fun n => .int32 (decodeZigzag32 (UInt32.ofNat n))
  | .uint32 => decodeNumber order (.varint 32) fun n => .uint32 (UInt32.ofNat n)
  | .int64 => decodeNumber order (.varint 64) fun n => .int64 (decodeZigzag64 (UInt64.ofNat n))
  | .uint64 => decodeNumber order (.varint 64) fun n => .uint64 (UInt64.ofNat n)
  | .float => decodeNumber order (.word 4) fun n => .float (UInt32.ofNat n)
  | .double => decodeNumber order (.word 8) fun n => .double (UInt64.ofNat n)
  | .stringF16 => decodeText order (.word 2) .stringF16
  | .stringF32 => decodeText order (.word 4) .stringF32
  | .stringF64 => decodeText order (.word 8) .stringF64
  | .stringVint => decodeText order (.varint 64) .stringVint
  | .bytes n => decodeRaw n .bytes

/-- The readers one after the other. -/
def decodeVals (order : ByteOrder) : List Kind → List UInt8 → Option (List Val × List UInt8)
  | [], bytes => some ([], bytes)
  | k :: ks, bytes =>
      (k.decode order bytes).bind fun (v, rest) =>
        (decodeVals order ks rest).map fun (vs, rest') => (v :: vs, rest')

/-- The values that their wire format can represent: the length of a string fits the length field.
`writeInt64` cuts its code to 32 bits, so its values are not among them. -/
def Val.Representable : Val → Prop
  | .int64 _ => False
  | .stringF16 s => s.length < 256 ^ 2
  | .stringF32 s => s.length < 256 ^ 4
  | .stringF64 s => s.length < 256 ^ 8
  | .stringVint s => s.length < 2 ^ 64
  | _ => True

theorem decodeRaw_append (make : List UInt8 → α) (s tail : List UInt8) :
    decodeRaw s.length make (s ++ tail) = some (make s, tail) := by
  rw [decodeRaw, if_pos (by rw [List.length_append]; omega), List.take_left, List.drop_left]

theorem decodeNumber_encode (order : ByteOrder) {f : Field} (hf : f.Proper) {n : Nat}
    (hn : n < f.bound) (make : Nat → α) (tail : List UInt8) :
    decodeNumber order f make ([f.encode order n].flatten ++ tail) = some (make n, tail) := by
  rw [List.flatten_singleton, decodeNumber, f.decode_encode order hf hn]
  rfl

/-- The length field of a string that fits it, in front of the bytes. -/
theorem decode_textChunks (order : ByteOrder) {f : Field} (hf : f.Proper) {s : List UInt8}
    (hs : s.length < f.bound) (tail : List UInt8) :
    f.decode order ((textChunks order f s).flatten ++ tail) = some (s.length, s ++ tail) := by
  rw [textChunks, Nat.mod_eq_of_lt hs]
  simp only [List.flatten_cons, List.flatten_nil, List.append_nil, List.append_assoc]
  exact f.decode_encode order hf hs (s ++ tail)

theorem decodeText_encode (order : ByteOrder) {f : Field} (hf : f.Proper) {s : List UInt8}
    (hs : s.length < f.bound) (make : List UInt8 → α) (tail : List UInt8) :
    decodeText order f make ((textChunks order f s).flatten ++ tail) = some (make s, tail) := by
  rw [decodeText, decode_textChunks order hf hs, Option.bind_some]
  exact decodeRaw_append make s tail

theorem proper_word {k : Nat} (hk : 0 < k) : (Field.word k).Proper := hk

theorem proper_varint {w : Nat} (hw : 0 < w) : (Field.varint w).Proper := hw

/-- **Every representable value is decoded from its encoding**, whatever follows it. -/
theorem decode_encode (order : ByteOrder) {v : Val} (hv : v.Representable) (tail : List UInt8) :
    v.kind.decode order (v.encode order ++ tail) = some (v, tail) := by
  cases v with
  | fint8 v =>
      have hround := decodeNumber_encode order (f := .word 1) (proper_word (by norm_num))
        v.toUInt8.toNat_lt (fun n => Val.fint8 (UInt8.ofNat n).toInt8) tail
      rw [UInt8.ofNat_toNat, Int8.toInt8_toUInt8] at hround
      exact hround
  | fuint8 v =>
      have hround := decodeNumber_encode order (f := .word 1) (proper_word (by norm_num))
        v.toNat_lt (fun n => Val.fuint8 (UInt8.ofNat n)) tail
      rw [UInt8.ofNat_toNat] at hround
      exact hround
  | fint16 v =>
      have hround := decodeNumber_encode order (f := .word 2) (proper_word (by norm_num))
        v.toUInt16.toNat_lt (fun n => Val.fint16 (UInt16.ofNat n).toInt16) tail
      rw [UInt16.ofNat_toNat, Int16.toInt16_toUInt16] at hround
      exact hround
  | fuint16 v =>
      have hround := decodeNumber_encode order (f := .word 2) (proper_word (by norm_num))
        v.toNat_lt (fun n => Val.fuint16 (UInt16.ofNat n)) tail
      rw [UInt16.ofNat_toNat] at hround
      exact hround
  | fint32 v =>
      have hround := decodeNumber_encode order (f := .word 4) (proper_word (by norm_num))
        v.toUInt32.toNat_lt (fun n => Val.fint32 (UInt32.ofNat n).toInt32) tail
      rw [UInt32.ofNat_toNat, Int32.toInt32_toUInt32] at hround
      exact hround
  | fuint32 v =>
      have hround := decodeNumber_encode order (f := .word 4) (proper_word (by norm_num))
        v.toNat_lt (fun n => Val.fuint32 (UInt32.ofNat n)) tail
      rw [UInt32.ofNat_toNat] at hround
      exact hround
  | fint64 v =>
      have hround := decodeNumber_encode order (f := .word 8) (proper_word (by norm_num))
        v.toUInt64.toNat_lt (fun n => Val.fint64 (UInt64.ofNat n).toInt64) tail
      rw [UInt64.ofNat_toNat, Int64.toInt64_toUInt64] at hround
      exact hround
  | fuint64 v =>
      have hround := decodeNumber_encode order (f := .word 8) (proper_word (by norm_num))
        v.toNat_lt (fun n => Val.fuint64 (UInt64.ofNat n)) tail
      rw [UInt64.ofNat_toNat] at hround
      exact hround
  | int32 v =>
      have hround := decodeNumber_encode order (f := .varint 32) (proper_varint (by norm_num))
        (encodeZigzag32 v).toNat_lt (fun n => Val.int32 (decodeZigzag32 (UInt32.ofNat n))) tail
      rw [UInt32.ofNat_toNat, decodeZigzag32_encodeZigzag32] at hround
      exact hround
  | uint32 v =>
      have hround := decodeNumber_encode order (f := .varint 32) (proper_varint (by norm_num))
        v.toNat_lt (fun n => Val.uint32 (UInt32.ofNat n)) tail
      rw [UInt32.ofNat_toNat] at hround
      exact hround
  -- Not representable.
  | int64 v => exact hv.elim
  | uint64 v =>
      have hround := decodeNumber_encode order (f := .varint 64) (proper_varint (by norm_num))
        v.toNat_lt (fun n => Val.uint64 (UInt64.ofNat n)) tail
      rw [UInt64.ofNat_toNat] at hround
      exact hround
  | float bits =>
      have hround := decodeNumber_encode order (f := .word 4) (proper_word (by norm_num))
        bits.toNat_lt (fun n => Val.float (UInt32.ofNat n)) tail
      rw [UInt32.ofNat_toNat] at hround
      exact hround
  | double bits =>
      have hround := decodeNumber_encode order (f := .word 8) (proper_word (by norm_num))
        bits.toNat_lt (fun n => Val.double (UInt64.ofNat n)) tail
      rw [UInt64.ofNat_toNat] at hround
      exact hround
  | stringF16 s =>
      exact decodeText_encode order (f := .word 2) (proper_word (by norm_num)) hv _ tail
  | stringF32 s =>
      exact decodeText_encode order (f := .word 4) (proper_word (by norm_num)) hv _ tail
  | stringF64 s =>
      exact decodeText_encode order (f := .word 8) (proper_word (by norm_num)) hv _ tail
  | stringVint s =>
      exact decodeText_encode order (f := .varint 64) (proper_varint (by norm_num)) hv _ tail
  | bytes buf =>
      show decodeRaw buf.length Val.bytes ([buf].flatten ++ tail) = some (.bytes buf, tail)
      rw [List.flatten_singleton, decodeRaw_append]

end ByteArray
end Routn
