import Mathlib.Tactic

/-!
# `UrlEncode` and `UrlDecode`

Both go over the bytes of a string and copy it when they meet the first byte that they change: the
loops carry the copy, if there is one, and what is in front of the current byte.  `encoded` and
`decoded` are what comes out, without the copy.

A byte is what C++ has as a `char`; `isxdigit` is the one of the C locale.
-/

namespace Routn
namespace Util

/-! ## Tables -/

/-- The table `uri_chars`; the upper half is all zero. -/
def uri_chars : List Nat :=
  [0, 0, 0, 0, 0, 0, 0, 0,  0, 0, 0, 0, 0, 0, 0, 0,
   0, 0, 0, 0, 0, 0, 0, 0,  0, 0, 0, 0, 0, 0, 0, 0,
   0, 0, 0, 0, 0, 0, 0, 0,  0, 0, 0, 0, 0, 1, 1, 0,
   1, 1, 1, 1, 1, 1, 1, 1,  1, 1, 0, 0, 0, 1, 0, 0,
   0, 1, 1, 1, 1, 1, 1, 1,  1, 1, 1, 1, 1, 1, 1, 1,
   1, 1, 1, 1, 1, 1, 1, 1,  1, 1, 1, 0, 0, 0, 0, 1,
   0, 1, 1, 1, 1, 1, 1, 1,  1, 1, 1, 1, 1, 1, 1, 1,
   1, 1, 1, 1, 1, 1, 1, 1,  1, 1, 1, 0, 0, 0, 1, 0] ++ List.replicate 128 0

/-- The table `xdigit_chars`; the upper half is all zero. -/
def xdigit_chars : List Nat :=
  List.replicate 48 0 ++
  [0, 1, 2, 3, 4, 5, 6, 7, 8, 9, 0, 0, 0, 0, 0, 0,
   0, 10, 11, 12, 13, 14, 15, 0, 0, 0, 0, 0, 0, 0, 0, 0,
   0, 0, 0, 0, 0, 0, 0, 0, 0, 0, 0, 0, 0, 0, 0, 0,
   0, 10, 11, 12, 13, 14, 15, 0, 0, 0, 0, 0, 0, 0, 0, 0] ++ List.replicate 144 0

/-- `"0123456789ABCDEF"`. -/
def hexdigits : List UInt8 := [48, 49, 50, 51, 52, 53, 54, 55, 56, 57, 65, 66, 67, 68, 69, 70]

/-- `CHAR_IS_UNRESERVED`. -/
def isUnreserved (c : UInt8) : Bool := uri_chars.getD c.toNat 0 != 0

def isxdigit (c : UInt8) : Bool :=
  (48 ≤ c && c ≤ 57) || (65 ≤ c && c ≤ 70) || (97 ≤ c && c ≤ 102)

/-! ## The loops -/

section

variable (space_as_plus : Bool)

/-- What is appended for a byte that is reserved. -/
def escape (c : UInt8) : List UInt8 :=
  if c = 32 && space_as_plus then [43]
  else [37, hexdigits.getD (c >>> 4).toNat 0, hexdigits.getD (c &&& 0xf).toNat 0]

def encodeLoop : List UInt8 → List UInt8 → Option (List UInt8) → Option (List UInt8)
  | _, [], ss => ss
  | before, c :: rest, ss =>
      if !isUnreserved c then
        encodeLoop (before ++ [c]) rest (some (ss.getD before ++ escape space_as_plus c))
      else encodeLoop (before ++ [c]) rest (ss.map (· ++ [c]))

def UrlEncode (str : List UInt8) : List UInt8 := (encodeLoop space_as_plus [] str none).getD str

/-- The byte of two hexadecimal digits. -/
def unescape (a b : UInt8) : UInt8 :=
  UInt8.ofNat (xdigit_chars.getD a.toNat 0 <<< 4 ||| xdigit_chars.getD b.toNat 0)

/-- The two digits behind a `%`. -/
def hexPair : List UInt8 → Option (UInt8 × UInt8)
  | a :: b :: _ => if isxdigit a && isxdigit b then some (a, b) else none
  | _ => none

/-- The loop of `UrlDecode`, with the number of bytes that it still has to skip. -/
def decodeLoop : Nat → List UInt8 → List UInt8 → Option (List UInt8) → Option (List UInt8)
  | _, _, [], ss => ss
  | skip + 1, before, c :: rest, ss => decodeLoop skip (before ++ [c]) rest ss
  | 0, before, c :: rest, ss =>
      if c = 43 && space_as_plus then
        decodeLoop 0 (before ++ [c]) rest (some (ss.getD before ++ [32]))
      else
        match if c = 37 then hexPair rest else none with
        | some (a, b) => decodeLoop 2 (before ++ [c]) rest (some (ss.getD before ++ [unescape a b]))
        | none => decodeLoop 0 (before ++ [c]) rest (ss.map (· ++ [c]))

def UrlDecode (str : List UInt8) : List UInt8 := (decodeLoop space_as_plus 0 [] str none).getD str

/-! ## What comes out -/

def encoded (str : List UInt8) : List UInt8 :=
  str.flatMap fun c => if isUnreserved c then [c] else escape space_as_plus c

def decoded : Nat → List UInt8 → List UInt8
  | _, [] => []
  | skip + 1, _ :: rest => decoded skip rest
  | 0, c :: rest =>
      if c = 43 && space_as_plus then 32 :: decoded 0 rest
      else
        match if c = 37 then hexPair rest else none with
        | some (a, b) => unescape a b :: decoded 2 rest
        | none => c :: decoded 0 rest

end

variable {space_as_plus : Bool}

/-- A byte that is copied, when there is a copy. -/
theorem getD_map_append (ss : Option (List UInt8)) (before : List UInt8) (c : UInt8) :
    (ss.map (· ++ [c])).getD (before ++ [c]) = ss.getD before ++ [c] := by
  cases ss <;> rfl

theorem encodeLoop_eq (before rest : List UInt8) (ss : Option (List UInt8)) :
    (encodeLoop space_as_plus before rest ss).getD (before ++ rest) =
      ss.getD before ++ encoded space_as_plus rest := by
  induction rest generalizing before ss with
  | nil => simp [encodeLoop, encoded]
  | cons c rest ih =>
      have hsplit : before ++ c :: rest = before ++ [c] ++ rest := by simp
      unfold encodeLoop
      rw [hsplit]
      by_cases hc : isUnreserved c
      · rw [if_neg (by simp [hc]), ih, getD_map_append]
        simp [hc, encoded]
      · rw [if_pos (by simp [hc]), ih]
        simp [hc, encoded]

theorem UrlEncode_eq (str : List UInt8) : UrlEncode space_as_plus str = encoded space_as_plus str :=
  encodeLoop_eq [] str none

/-- Bytes are skipped only when there is a copy. -/
theorem decodeLoop_eq (skip : Nat) (before rest : List UInt8) (ss : Option (List UInt8))
    (hskip : skip ≠ 0 → ss.isSome) :
    (decodeLoop space_as_plus skip before rest ss).getD (before ++ rest) =
      ss.getD before ++ decoded space_as_plus skip rest := by
  induction rest generalizing skip before ss with
  | nil => simp [decodeLoop, decoded]
  | cons c rest ih =>
      have hsplit : before ++ c :: rest = before ++ [c] ++ rest := by simp
      rw [hsplit]
      cases skip with
      | succ skip =>
          obtain ⟨out, rfl⟩ := Option.isSome_iff_exists.mp (hskip (Nat.succ_ne_zero skip))
          rw [decodeLoop, ih skip _ _ fun _ => rfl, decoded]
          rfl
      | zero =>
          unfold decodeLoop decoded
          split
          · rw [ih 0 _ _ fun h => absurd rfl h]
            simp
          · split
            · rw [ih 2 _ _ fun _ => rfl]
              simp
            · rw [ih 0 _ _ fun h => absurd rfl h, getD_map_append]
              simp

theorem UrlDecode_eq (str : List UInt8) :
    UrlDecode space_as_plus str = decoded space_as_plus 0 str :=
  decodeLoop_eq 0 [] str none fun h => absurd rfl h

/-! ## The round trip -/

theorem isUnreserved_plus : isUnreserved 43 = false := by decide

theorem isUnreserved_percent : isUnreserved 37 = false := by decide

/-- The digits of a nibble are read back. -/
theorem hexdigits_spec (n : Fin 16) :
    isxdigit (hexdigits.getD n 0) = true ∧ xdigit_chars.getD (hexdigits.getD n 0).toNat 0 = n := by
  decide +revert

theorem nibbles (c : UInt8) :
    (c >>> 4).toNat = c.toNat / 16 ∧ (c &&& 0xf).toNat = c.toNat % 16 := by
  constructor
  · rw [UInt8.toNat_shiftRight, Nat.shiftRight_eq_div_pow]
    rfl
  · rw [UInt8.toNat_and]
    exact Nat.and_two_pow_sub_one_eq_mod c.toNat 4

theorem unescape_escape (c : UInt8) (rest : List UInt8) :
    hexPair (hexdigits.getD (c >>> 4).toNat 0 :: hexdigits.getD (c &&& 0xf).toNat 0 :: rest) =
      some (hexdigits.getD (c >>> 4).toNat 0, hexdigits.getD (c &&& 0xf).toNat 0) ∧
    unescape (hexdigits.getD (c >>> 4).toNat 0) (hexdigits.getD (c &&& 0xf).toNat 0) = c := by
  have hlt := c.toNat_lt
  obtain ⟨hhigh, hlow⟩ := nibbles c
  obtain ⟨hdigit, hvalue⟩ := hexdigits_spec ⟨c.toNat / 16, by omega⟩
  obtain ⟨hdigit', hvalue'⟩ := hexdigits_spec ⟨c.toNat % 16, by omega⟩
  rw [hhigh, hlow]
  dsimp only at hdigit hdigit' hvalue hvalue'
  constructor
  · rw [hexPair, hdigit, hdigit']
    rfl
  · rw [unescape, hvalue, hvalue', ← Nat.shiftLeft_add_eq_or_of_lt (by omega), Nat.shiftLeft_eq,
      show c.toNat / 16 * 2 ^ 4 + c.toNat % 16 = c.toNat by omega]
    exact UInt8.ofNat_toNat

/-- What is written for a byte is read back as the byte, whatever follows it. -/
theorem decoded_encoded_byte (c : UInt8) (rest : List UInt8) :
    decoded space_as_plus 0
      ((if isUnreserved c then [c] else escape space_as_plus c) ++ rest) =
      c :: decoded space_as_plus 0 rest := by
  by_cases hc : isUnreserved c
  · have hplus : c ≠ 43 := by
      rintro rfl
      simp [isUnreserved_plus] at hc
    have hpercent : c ≠ 37 := by
      rintro rfl
      simp [isUnreserved_percent] at hc
    simp [hc, decoded, hplus, hpercent]
  · rw [if_neg hc, escape]
    by_cases hspace : c = 32 && space_as_plus
    · obtain ⟨hc32, hplus⟩ := Bool.and_eq_true_iff.mp hspace
      rw [of_decide_eq_true hc32, hplus]
      simp [decoded]
    · rw [if_neg hspace]
      obtain ⟨hpair, hbyte⟩ := unescape_escape c rest
      change decoded space_as_plus 0 (37 :: hexdigits.getD (c >>> 4).toNat 0 ::
        hexdigits.getD (c &&& 0xf).toNat 0 :: rest) = _
      rw [decoded, if_neg (by simp), if_pos rfl, hpair]
      change unescape _ _ :: decoded space_as_plus 0 rest = _
      rw [hbyte]

theorem decoded_encoded (str : List UInt8) :
    decoded space_as_plus 0 (encoded space_as_plus str) = str := by
  induction str with
  | nil => rfl
  | cons c str ih =>
      rw [encoded, List.flatMap_cons, decoded_encoded_byte]
      exact congrArg (c :: ·) ih

/-- A string without `%` and `+` is left alone. -/
theorem decoded_of_not_mem {str : List UInt8} (hpercent : 37 ∉ str) (hplus : 43 ∉ str) :
    decoded space_as_plus 0 str = str := by
  induction str with
  | nil => rfl
  | cons c str ih =>
      obtain ⟨hc37, hpercent⟩ := not_or.mp (List.mem_cons.not.mp hpercent)
      obtain ⟨hc43, hplus⟩ := not_or.mp (List.mem_cons.not.mp hplus)
      rw [decoded, if_neg (by simp [Ne.symm hc43]), if_neg (Ne.symm hc37), ih hpercent hplus]

/-- **`UrlDecode` undoes `UrlEncode`**, and leaves alone what has no `%` and no `+`. -/
theorem UrlDecode_UrlEncode (space_as_plus : Bool) :
    (∀ s, UrlDecode space_as_plus (UrlEncode space_as_plus s) = s) ∧
      ∀ s, 37 ∉ s → 43 ∉ s → UrlDecode space_as_plus s = s := by
  constructor
  · intro s
    rw [UrlDecode_eq, UrlEncode_eq, decoded_encoded]
  · intro s hpercent hplus
    rw [UrlDecode_eq, decoded_of_not_mem hpercent hplus]

theorem UrlDecode_hi : UrlDecode true [104, 105] = [104, 105] :=
  (UrlDecode_UrlEncode true).2 [104, 105] (by decide) (by decide)

end Util
end Routn
