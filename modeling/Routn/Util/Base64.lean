import Mathlib.Tactic

/-!
# `base64encode`

The loop packs three bytes into an `unsigned int`, shifts it up where there are less, and looks four
slices of six bits up in the table; a slice that has no bits of the data is written as a `=`.

RFC 4648 is written here over the bits of the data: they are cut into groups of six, the last of
which is filled up with zeros, and the characters are filled up with `=` to a multiple of four.  A
number and its bits are connected by `bits_add`.
-/

namespace Routn
namespace Util

/-! ## The encoder -/

/-- `"ABC..Zabc..z0123456789-_"` or `"ABC..Zabc..z0123456789+/"`. -/
def base64Table (url : Bool) : List UInt8 :=
  [65, 66, 67, 68, 69, 70, 71, 72, 73, 74, 75, 76, 77, 78, 79, 80,
   81, 82, 83, 84, 85, 86, 87, 88, 89, 90, 97, 98, 99, 100, 101, 102,
   103, 104, 105, 106, 107, 108, 109, 110, 111, 112, 113, 114, 115, 116, 117, 118,
   119, 120, 121, 122, 48, 49, 50, 51, 52, 53, 54, 55, 56, 57] ++ if url then [45, 95] else [43, 47]

/-- The loop over the bytes of a block: the packed bytes, how many are missing, and what is left. -/
def packLoop : Nat → UInt32 → List UInt8 → UInt32 × Nat × List UInt8
  | 0, packed, data => (packed, 0, data)
  | missing + 1, packed, [] => (packed, missing + 1, [])
  | missing + 1, packed, c :: data => packLoop missing (packed <<< 8 ||| c.toUInt32) data

/-- The loop over the bytes that are missing. -/
def shiftLoop : Nat → UInt32 → UInt32
  | 0, packed => packed
  | missing + 1, packed => shiftLoop missing (packed <<< 8)

/-- What is appended for a block: `none` when an index is outside of the table. -/
def encodeBlock (url : Bool) (packed : UInt32) (padding : Nat) : Option (List UInt8) := do
  let table := base64Table url
  let c₀ ← table[(packed >>> 18).toNat]?
  let c₁ ← table[((packed >>> 12) &&& 0x3f).toNat]?
  let c₂ ← if padding ≠ 2 then table[((packed >>> 6) &&& 0x3f).toNat]?.map ([·]) else some []
  let c₃ ← if padding = 0 then table[(packed &&& 0x3f).toNat]?.map ([·]) else some []
  return c₀ :: c₁ :: (c₂ ++ c₃ ++ List.replicate padding 61)

/-- The loop over the blocks, with a bound on their number. -/
def encodeBlocks (url : Bool) : Nat → List UInt8 → Option (List UInt8)
  | _, [] => some []
  | 0, _ :: _ => none
  | bound + 1, c :: data => do
      let (packed, padding, rest) := packLoop 3 0 (c :: data)
      let block ← encodeBlock url (shiftLoop padding packed) padding
      return block ++ (← encodeBlocks url bound rest)

def base64encode (url : Bool) (data : List UInt8) : Option (List UInt8) :=
  encodeBlocks url data.length data

/-! ## RFC 4648 -/

/-- The lowest `k` bits of a number, the highest in front. -/
def bits : Nat → Nat → List Bool
  | 0, _ => []
  | k + 1, n => bits k (n / 2) ++ [decide (n % 2 = 1)]

def value (bs : List Bool) : Nat := bs.foldl (fun n b => 2 * n + b.toNat) 0

/-- The bits of the data. -/
def dataBits (data : List UInt8) : List Bool := data.flatMap fun c => bits 8 c.toNat

/-- Groups of six bits, the last one filled up with zeros. -/
def sextets : List Bool → List Nat
  | [] => []
  | a :: b :: c :: d :: e :: f :: rest => value [a, b, c, d, e, f] :: sextets rest
  | rest => [value (rest ++ List.replicate (6 - rest.length) false)]

/-- Groups of eight bits, without what is left over. -/
def octets : List Bool → List UInt8
  | a :: b :: c :: d :: e :: f :: g :: h :: rest =>
      UInt8.ofNat (value [a, b, c, d, e, f, g, h]) :: octets rest
  | _ => []

/-- The characters, filled up with `=`. -/
def rfcEncode (url : Bool) (data : List UInt8) : List UInt8 :=
  let chars := (sextets (dataBits data)).map fun v => (base64Table url).getD v 0
  chars ++ List.replicate ((4 - chars.length % 4) % 4) 61

/-- The bytes behind the characters in front of the padding. -/
def rfcDecode (url : Bool) (text : List UInt8) : Option (List UInt8) :=
  ((text.takeWhile (· ≠ 61)).mapM fun c => (base64Table url).idxOf? c).map fun values =>
    octets (values.flatMap (bits 6))

/-! ## Bits -/

theorem bits_add (j k n : Nat) : bits (j + k) n = bits j (n / 2 ^ k) ++ bits k n := by
  induction k generalizing n with
  | zero => simp [bits]
  | succ k ih =>
      rw [← Nat.add_assoc, bits, ih, bits, Nat.div_div_eq_div_mul, ← Nat.pow_succ',
        List.append_assoc]

theorem bits_mod (k n : Nat) : bits k (n % 2 ^ k) = bits k n := by
  induction k generalizing n with
  | zero => rfl
  | succ k ih =>
      rw [bits, bits, ← ih (n / 2), Nat.pow_succ, Nat.mod_mul_left_div_self, Nat.mod_mul_left_mod]

theorem value_append (bs : List Bool) (b : Bool) : value (bs ++ [b]) = 2 * value bs + b.toNat := by
  simp [value]

theorem value_bits (k n : Nat) : value (bits k n) = n % 2 ^ k := by
  induction k generalizing n with
  | zero => simp [bits, value, Nat.mod_one]
  | succ k ih =>
      rw [bits, value_append, ih, Nat.pow_succ', Nat.mod_mul]
      by_cases hodd : n % 2 = 1
      · simp [hodd]
        omega
      · simp [hodd]
        omega

/-! ## Blocks -/

/-- The bits of a number that are cut into groups. -/
theorem sextets_bits (n : Nat) (rest : List Bool) :
    sextets (bits 6 n ++ rest) = n % 2 ^ 6 :: sextets rest := by
  rw [← value_bits 6 n]
  rfl

theorem octets_bits (n : Nat) (rest : List Bool) :
    octets (bits 8 n ++ rest) = UInt8.ofNat n :: octets rest := by
  have hvalue : UInt8.ofNat (value (bits 8 n)) = UInt8.ofNat n := by
    rw [value_bits, ← UInt8.toNat_inj]
    simp
  rw [← hvalue]
  rfl

theorem bits_append {j m n : Nat} (h : n < 2 ^ m) (k : Nat) :
    bits j k ++ bits m n = bits (j + m) (k * 2 ^ m + n) := by
  have hpos : 0 < 2 ^ m := Nat.two_pow_pos m
  have hdiv : (k * 2 ^ m + n) / 2 ^ m = k := by
    rw [Nat.mul_comm, Nat.mul_add_div hpos, Nat.div_eq_of_lt h, Nat.add_zero]
  have hmod : (k * 2 ^ m + n) % 2 ^ m = n := by
    rw [Nat.mul_comm, Nat.mul_add_mod, Nat.mod_eq_of_lt h]
  rw [bits_add, hdiv, ← bits_mod m (k * 2 ^ m + n), hmod]

/-- Bytes as one number. -/
def packed : List UInt8 → Nat := fun data => data.foldl (fun n c => n * 2 ^ 8 + c.toNat) 0

theorem dataBits_one (a : UInt8) : dataBits [a] = bits 8 (packed [a]) := by
  simp [dataBits, packed]

theorem dataBits_two (a b : UInt8) : dataBits [a, b] = bits 16 (packed [a, b]) := by
  have hb := b.toNat_lt
  have htwo := bits_append (j := 8) (m := 8) hb a.toNat
  simpa [dataBits, packed] using htwo

theorem dataBits_three (a b c : UInt8) (data : List UInt8) :
    dataBits (a :: b :: c :: data) = bits 24 (packed [a, b, c]) ++ dataBits data := by
  have hc := c.toNat_lt
  have hthree := bits_append (j := 16) (m := 8) hc (packed [a, b])
  rw [← dataBits_two] at hthree
  have hsplit : packed [a, b, c] = packed [a, b] * 2 ^ 8 + c.toNat := rfl
  rw [hsplit, ← hthree]
  simp [dataBits]

/-- Zeros behind the bits of a number. -/
theorem bits_replicate (j k n : Nat) :
    bits j n ++ List.replicate k false = bits (j + k) (n * 2 ^ k) := by
  have hzero : List.replicate k false = bits k 0 := by
    induction k with
    | zero => rfl
    | succ k ih =>
        rw [List.replicate_succ', ih, bits]
        rfl
  rw [hzero, bits_append (Nat.two_pow_pos k), Nat.add_zero]

/-- The groups of three bytes. -/
theorem sextets_three (n : Nat) (rest : List Bool) :
    sextets (bits 24 n ++ rest) =
      [n / 2 ^ 18 % 2 ^ 6, n / 2 ^ 12 % 2 ^ 6, n / 2 ^ 6 % 2 ^ 6, n % 2 ^ 6] ++ sextets rest := by
  have hsplit : bits 24 n =
      bits 6 (n / 2 ^ 18) ++ (bits 6 (n / 2 ^ 12) ++ (bits 6 (n / 2 ^ 6) ++ bits 6 n)) := by
    rw [← bits_add 6 6 n, ← bits_add 6 12 n, ← bits_add 6 18 n]
  rw [hsplit]
  simp only [List.append_assoc, sextets_bits]
  rfl

/-- The groups of two bytes. -/
theorem sextets_two (n : Nat) :
    sextets (bits 16 n) = [n / 2 ^ 10 % 2 ^ 6, n / 2 ^ 4 % 2 ^ 6, n * 2 ^ 2 % 2 ^ 6] := by
  have hsplit : bits 16 n = bits 6 (n / 2 ^ 10) ++ (bits 6 (n / 2 ^ 4) ++ bits 4 n) := by
    rw [← bits_add 6 4 n, ← bits_add 6 10 n]
  have hlast : sextets (bits 4 n) = [value (bits 4 n ++ List.replicate 2 false)] := rfl
  rw [hsplit, sextets_bits, sextets_bits, hlast, bits_replicate, value_bits]

/-- The groups of one byte. -/
theorem sextets_one (n : Nat) :
    sextets (bits 8 n) = [n / 2 ^ 2 % 2 ^ 6, n * 2 ^ 4 % 2 ^ 6] := by
  have hlast : sextets (bits 2 n) = [value (bits 2 n ++ List.replicate 4 false)] := rfl
  rw [bits_add 6 2 n, sextets_bits, hlast, bits_replicate, value_bits]

/-- Induction by blocks of three bytes. -/
theorem blocks_induction {P : List UInt8 → Prop} (zero : P []) (one : ∀ a, P [a])
    (two : ∀ a b, P [a, b]) (three : ∀ a b c data, P data → P (a :: b :: c :: data)) :
    ∀ data, P data
  | [] => zero
  | [a] => one a
  | [a, b] => two a b
  | a :: b :: c :: data => three a b c data (blocks_induction zero one two three data)

/-! ## The loop writes what the RFC says -/

/-- The characters of a block without those that are all padding. -/
def chars (url : Bool) (values : List Nat) : List UInt8 :=
  values.map fun v => (base64Table url).getD v 0

theorem table_getElem? (url : Bool) {v : Nat} (h : v < 2 ^ 6) :
    (base64Table url)[v]? = some ((base64Table url).getD v 0) := by
  have hlength : (base64Table url).length = 64 := by cases url <;> rfl
  rw [List.getD_eq_getElem?_getD, List.getElem?_eq_getElem (by omega)]
  rfl

theorem toNat_shift {p : UInt32} (h : p.toNat < 2 ^ 24) : (p <<< 8).toNat = p.toNat * 2 ^ 8 := by
  rw [UInt32.toNat_shiftLeft, Nat.shiftLeft_eq]
  exact Nat.mod_eq_of_lt (by
    change p.toNat * 2 ^ 8 < 2 ^ 32
    omega)

theorem toNat_pack {p : UInt32} (h : p.toNat < 2 ^ 24) (c : UInt8) :
    (p <<< 8 ||| c.toUInt32).toNat = p.toNat * 2 ^ 8 + c.toNat := by
  have hc := c.toNat_lt
  rw [UInt32.toNat_or, toNat_shift h, UInt8.toNat_toUInt32, ← Nat.shiftLeft_eq,
    Nat.shiftLeft_add_eq_or_of_lt hc]

/-- The slices of a packed block. -/
theorem toNat_slice (p : UInt32) (k : UInt32) (hk : k.toNat < 32) :
    ((p >>> k) &&& 0x3f).toNat = p.toNat / 2 ^ k.toNat % 2 ^ 6 := by
  rw [UInt32.toNat_and, UInt32.toNat_shiftRight, Nat.mod_eq_of_lt hk, Nat.shiftRight_eq_div_pow]
  exact Nat.and_two_pow_sub_one_eq_mod _ 6

theorem toNat_first {p : UInt32} (h : p.toNat < 2 ^ 24) :
    (p >>> 18).toNat = p.toNat / 2 ^ 18 % 2 ^ 6 := by
  rw [UInt32.toNat_shiftRight, Nat.shiftRight_eq_div_pow]
  change p.toNat / 2 ^ 18 = _
  omega

theorem toNat_last (p : UInt32) : (p &&& 0x3f).toNat = p.toNat % 2 ^ 6 := by
  rw [UInt32.toNat_and]
  exact Nat.and_two_pow_sub_one_eq_mod _ 6

/-- No index is outside of the table, however many bytes are missing. -/
theorem encodeBlock_eq (url : Bool) {p : UInt32} (h : p.toNat < 2 ^ 24) (padding : Nat) :
    encodeBlock url p padding =
      some (chars url
        ([p.toNat / 2 ^ 18 % 2 ^ 6, p.toNat / 2 ^ 12 % 2 ^ 6] ++
          (if padding ≠ 2 then [p.toNat / 2 ^ 6 % 2 ^ 6] else []) ++
          (if padding = 0 then [p.toNat % 2 ^ 6] else [])) ++
        List.replicate padding 61) := by
  have hsecond : ((p >>> 12) &&& 0x3f).toNat = p.toNat / 2 ^ 12 % 2 ^ 6 :=
    toNat_slice p 12 (by decide)
  have hthird : ((p >>> 6) &&& 0x3f).toNat = p.toNat / 2 ^ 6 % 2 ^ 6 :=
    toNat_slice p 6 (by decide)
  have hlookup : ∀ n, (base64Table url)[n % 2 ^ 6]? =
      some ((base64Table url).getD (n % 2 ^ 6) 0) := fun n =>
    table_getElem? url (Nat.mod_lt n (Nat.two_pow_pos 6))
  rw [encodeBlock, toNat_first h, hsecond, hthird, toNat_last]
  simp only [hlookup]
  by_cases htwo : padding = 2
  · simp [htwo, chars]
  · by_cases hzero : padding = 0
    · simp [hzero, chars]
    · simp [htwo, hzero, chars]

theorem packed_append (data : List UInt8) (c : UInt8) :
    packed (data ++ [c]) = packed data * 2 ^ 8 + c.toNat := by
  simp [packed]

theorem packed_lt (data : List UInt8) : packed data < 2 ^ (8 * data.length) := by
  induction data using List.reverseRecOn with
  | nil => simp [packed]
  | append_singleton data c ih =>
      have hc := c.toNat_lt
      have hpow : 2 ^ (8 * (data ++ [c]).length) = 2 ^ (8 * data.length) * 2 ^ 8 := by
        rw [← Nat.pow_add]
        simp [Nat.mul_add]
      rw [packed_append, hpow]
      omega

/-- The loop over a block packs its bytes behind those in front of it. -/
theorem packLoop_append (missing : Nat) {p : UInt32} {before : List UInt8}
    (data rest : List UInt8) (hp : p.toNat = packed before)
    (hlength : before.length + data.length ≤ 3) :
    ∃ q, packLoop (data.length + missing) p (data ++ rest) = packLoop missing q rest ∧
      q.toNat = packed (before ++ data) := by
  induction data generalizing p before with
  | nil => exact ⟨p, by simp, by simpa using hp⟩
  | cons c data ih =>
      have hbefore : p.toNat < 2 ^ 24 := by
        rw [hp]
        refine (packed_lt before).trans_le (Nat.pow_le_pow_right (by omega) ?_)
        rw [List.length_cons] at hlength
        omega
      have hnext : (p <<< 8 ||| c.toUInt32).toNat = packed (before ++ [c]) := by
        rw [toNat_pack hbefore, packed_append, hp]
      obtain ⟨q, hloop, hq⟩ := ih hnext (by
        simp only [List.length_append, List.length_cons, List.length_nil] at hlength ⊢
        omega)
      refine ⟨q, ?_, by simpa using hq⟩
      rw [← hloop, List.length_cons, Nat.add_right_comm]
      rfl

theorem toNat_shiftLoop {missing : Nat} {p : UInt32} (h : p.toNat < 2 ^ (8 * (3 - missing)))
    (hmissing : missing ≤ 3) :
    (shiftLoop missing p).toNat = p.toNat * 2 ^ (8 * missing) := by
  induction missing generalizing p with
  | zero => simp [shiftLoop]
  | succ missing ih =>
      have hpow : 2 ^ (8 * (3 - missing)) = 2 ^ (8 * (3 - (missing + 1))) * 2 ^ 8 := by
        rw [← Nat.pow_add]
        congr 1
        omega
      have hlt : p.toNat < 2 ^ 24 :=
        h.trans_le (Nat.pow_le_pow_right (by omega) (by omega))
      have hshift : (p <<< 8).toNat < 2 ^ (8 * (3 - missing)) := by
        rw [toNat_shift hlt, hpow]
        omega
      rw [shiftLoop, ih hshift (by omega), toNat_shift hlt, Nat.mul_assoc, ← Nat.pow_add,
        Nat.mul_succ, Nat.add_comm 8]

/-- A block is packed into one number of 24 bits. -/
theorem block_packed (block rest : List UInt8) (missing : Nat)
    (h : block.length + missing = 3) :
    ∃ q, packLoop 3 0 (block ++ rest) = packLoop missing q rest ∧
      (shiftLoop missing q).toNat = packed block * 2 ^ (8 * missing) ∧
      (shiftLoop missing q).toNat < 2 ^ 24 := by
  obtain ⟨q, hloop, hq⟩ := packLoop_append (p := 0) missing block rest
    (show _ = packed [] from rfl) (by simp; omega)
  rw [h] at hloop
  rw [List.nil_append] at hq
  have hlt : q.toNat < 2 ^ (8 * (3 - missing)) := by
    rw [hq, show 3 - missing = block.length by omega]
    exact packed_lt block
  have hshift := toNat_shiftLoop hlt (by omega)
  refine ⟨q, hloop, hshift.trans (by rw [hq]), ?_⟩
  have hpow : 2 ^ 24 = 2 ^ (8 * (3 - missing)) * 2 ^ (8 * missing) := by
    rw [← Nat.pow_add]
    congr 1
    omega
  rw [hshift, hpow]
  exact Nat.mul_lt_mul_of_pos_right hlt (Nat.two_pow_pos _)

theorem encodeBlocks_three (url : Bool) (bound : Nat) (a b c : UInt8) (rest : List UInt8) :
    encodeBlocks url (bound + 1) (a :: b :: c :: rest) =
      (encodeBlocks url bound rest).map
        (chars url (sextets (bits 24 (packed [a, b, c]))) ++ ·) := by
  obtain ⟨q, hloop, hq, hlt⟩ := block_packed [a, b, c] rest 0 rfl
  have hgroups := sextets_three (packed [a, b, c]) []
  rw [List.append_nil] at hgroups
  have hvalue : (shiftLoop 0 q).toNat = packed [a, b, c] := by simpa using hq
  have hpack : packLoop 3 0 (a :: b :: c :: rest) = (q, 0, rest) := by
    simpa [packLoop] using hloop
  have hblock := encodeBlock_eq url hlt 0
  rw [hvalue] at hblock
  rw [encodeBlocks, hpack]
  simp only [hblock, hgroups]
  cases encodeBlocks url bound rest <;> simp [chars, sextets]

theorem encodeBlocks_two (url : Bool) (bound : Nat) (a b : UInt8) :
    encodeBlocks url (bound + 1) [a, b] =
      some (chars url (sextets (bits 16 (packed [a, b]))) ++ [61]) := by
  obtain ⟨q, hloop, hq, hlt⟩ := block_packed [a, b] [] 1 rfl
  have hpack : packLoop 3 0 [a, b] = (q, 1, []) := by
    simpa [packLoop] using hloop
  have hblock := encodeBlock_eq url hlt 1
  have hvalues : [packed [a, b] * 2 ^ 8 / 2 ^ 18 % 2 ^ 6, packed [a, b] * 2 ^ 8 / 2 ^ 12 % 2 ^ 6,
      packed [a, b] * 2 ^ 8 / 2 ^ 6 % 2 ^ 6] = sextets (bits 16 (packed [a, b])) := by
    rw [sextets_two]
    simp only [List.cons.injEq, and_true]
    exact ⟨by omega, by omega, by omega⟩
  rw [hq] at hblock
  rw [encodeBlocks, hpack, ← hvalues]
  simp [hblock, encodeBlocks]

theorem encodeBlocks_one (url : Bool) (bound : Nat) (a : UInt8) :
    encodeBlocks url (bound + 1) [a] =
      some (chars url (sextets (bits 8 (packed [a]))) ++ [61, 61]) := by
  obtain ⟨q, hloop, hq, hlt⟩ := block_packed [a] [] 2 rfl
  have hpack : packLoop 3 0 [a] = (q, 2, []) := by
    simpa [packLoop] using hloop
  have hblock := encodeBlock_eq url hlt 2
  have hvalues : [packed [a] * 2 ^ 16 / 2 ^ 18 % 2 ^ 6, packed [a] * 2 ^ 16 / 2 ^ 12 % 2 ^ 6] =
      sextets (bits 8 (packed [a])) := by
    rw [sextets_one]
    simp only [List.cons.injEq, and_true]
    exact ⟨by omega, by omega⟩
  rw [hq] at hblock
  rw [encodeBlocks, hpack, ← hvalues]
  simp [hblock, encodeBlocks]

theorem rfcEncode_three (url : Bool) (a b c : UInt8) (data : List UInt8) :
    rfcEncode url (a :: b :: c :: data) =
      chars url (sextets (bits 24 (packed [a, b, c]))) ++ rfcEncode url data := by
  have hgroups := sextets_three (packed [a, b, c])
  have hblock := hgroups []
  rw [List.append_nil] at hblock
  rw [rfcEncode, rfcEncode, dataBits_three, hgroups, hblock]
  simp only [chars, sextets, List.append_nil, List.map_append, List.length_append,
    List.length_map, List.length_cons, List.length_nil, Nat.add_mod_left, List.append_assoc]

theorem rfcEncode_nil (url : Bool) : rfcEncode url [] = [] := by
  simp [rfcEncode, dataBits, sextets]

theorem rfcEncode_two (url : Bool) (a b : UInt8) :
    rfcEncode url [a, b] = chars url (sextets (bits 16 (packed [a, b]))) ++ [61] := by
  rw [rfcEncode, dataBits_two, sextets_two]
  rfl

theorem rfcEncode_one (url : Bool) (a : UInt8) :
    rfcEncode url [a] = chars url (sextets (bits 8 (packed [a]))) ++ [61, 61] := by
  rw [rfcEncode, dataBits_one, sextets_one]
  rfl

theorem encodeBlocks_rfc (url : Bool) (data : List UInt8) :
    ∀ bound, data.length ≤ bound → encodeBlocks url bound data = some (rfcEncode url data) := by
  induction data using blocks_induction with
  | zero =>
      intro bound _
      rw [encodeBlocks, rfcEncode_nil]
  | one a =>
      intro bound hbound
      obtain ⟨bound, rfl⟩ := Nat.exists_eq_succ_of_ne_zero (Nat.pos_iff_ne_zero.mp hbound)
      rw [encodeBlocks_one, rfcEncode_one]
  | two a b =>
      intro bound hbound
      cases bound with
      | zero => simp at hbound
      | succ bound => rw [encodeBlocks_two, rfcEncode_two]
  | three a b c data ih =>
      intro bound hbound
      cases bound with
      | zero => simp at hbound
      | succ bound =>
          simp only [List.length_cons] at hbound
          rw [encodeBlocks_three, rfcEncode_three, ih bound (by omega)]
          rfl

theorem length_rfcEncode (url : Bool) (data : List UInt8) :
    (rfcEncode url data).length = 4 * ((data.length + 2) / 3) := by
  induction data using blocks_induction with
  | zero => simp [rfcEncode_nil]
  | one a =>
      rw [rfcEncode_one, sextets_one]
      simp [chars]
  | two a b =>
      rw [rfcEncode_two, sextets_two]
      simp [chars]
  | three a b c data ih =>
      have hgroups := sextets_three (packed [a, b, c]) []
      rw [List.append_nil] at hgroups
      rw [rfcEncode_three, hgroups, List.length_append, ih]
      simp only [chars, sextets, List.map_cons, List.map_nil, List.append_nil, List.length_cons,
        List.length_nil]
      omega

/-! ## Decoding by the RFC -/

theorem bits_value (bs : List Bool) : bits bs.length (value bs) = bs := by
  induction bs using List.reverseRecOn with
  | nil => rfl
  | append_singleton bs b ih =>
      have hbit := Bool.toNat_lt b
      have hhalf : (2 * value bs + b.toNat) / 2 = value bs := by omega
      have hlast : decide ((2 * value bs + b.toNat) % 2 = 1) = b := by
        cases b <;> simp
      rw [List.length_append, List.length_singleton, bits, value_append, hhalf, hlast, ih]

/-- The last group of `sextets`. -/
theorem length_of_short {rest : List Bool}
    (h : ∀ a b c d e f rest', rest = a :: b :: c :: d :: e :: f :: rest' → False) :
    rest.length < 6 := by
  by_contra hlong
  rcases rest with _ | ⟨a, _ | ⟨b, _ | ⟨c, _ | ⟨d, _ | ⟨e, _ | ⟨f, rest⟩⟩⟩⟩⟩⟩
  case cons.cons.cons.cons.cons.cons => exact h a b c d e f rest rfl
  all_goals simp at hlong

/-- Cutting the bits into groups and joining them adds fewer zeros than a byte has. -/
theorem sextets_flatMap (bs : List Bool) :
    ∃ k < 6, (sextets bs).flatMap (bits 6) = bs ++ List.replicate k false := by
  induction bs using sextets.induct with
  | case1 => exact ⟨0, by omega, rfl⟩
  | case2 a b c d e f rest ih =>
      obtain ⟨k, hk, hrest⟩ := ih
      refine ⟨k, hk, ?_⟩
      rw [sextets, List.flatMap_cons, hrest]
      exact congrArg (· ++ (rest ++ List.replicate k false)) (bits_value [a, b, c, d, e, f])
  | case3 rest hne hshort =>
      have hlength : rest.length < 6 := length_of_short hshort
      have hpos : 0 < rest.length := List.length_pos_iff.mpr hne
      refine ⟨6 - rest.length, by omega, ?_⟩
      rw [sextets]
      · have hvalue := bits_value (rest ++ List.replicate (6 - rest.length) false)
        rw [List.length_append, List.length_replicate, Nat.add_sub_cancel' hlength.le] at hvalue
        simpa using hvalue
      · exact hne
      · exact hshort

theorem sextets_lt (bs : List Bool) : ∀ v ∈ sextets bs, v < 2 ^ 6 := by
  have hvalue : ∀ group : List Bool, group.length = 6 → value group < 2 ^ 6 := by
    intro group hgroup
    have hbits := value_bits group.length (value group)
    rw [bits_value, hgroup] at hbits
    omega
  induction bs using sextets.induct with
  | case1 => simp [sextets]
  | case2 a b c d e f rest ih =>
      intro v hv
      rcases List.mem_cons.mp hv with rfl | hv
      · exact hvalue _ rfl
      · exact ih v hv
  | case3 rest hne hshort =>
      intro v hv
      have hlength : rest.length < 6 := length_of_short hshort
      rw [sextets] at hv
      · rw [List.mem_singleton.mp hv]
        exact hvalue _ (by simp; omega)
      · exact hne
      · exact hshort

theorem octets_dataBits (data : List UInt8) {rest : List Bool} (h : rest.length < 8) :
    octets (dataBits data ++ rest) = data := by
  induction data with
  | nil =>
      match rest, h with
      | [], _ | [_], _ | [_, _], _ | [_, _, _], _ | [_, _, _, _], _ | [_, _, _, _, _], _
      | [_, _, _, _, _, _], _ | [_, _, _, _, _, _, _], _ => rfl
  | cons c data ih =>
      have hcons : dataBits (c :: data) = bits 8 c.toNat ++ dataBits data := rfl
      rw [hcons, List.append_assoc, octets_bits, ih, UInt8.ofNat_toNat]

/-- The characters of the alphabet are found, and none of them is the padding. -/
theorem table_idxOf? (url : Bool) {v : Nat} (h : v < 2 ^ 6) :
    (base64Table url).idxOf? ((base64Table url).getD v 0) = some v ∧
      (base64Table url).getD v 0 ≠ 61 := by
  have hall : ∀ url : Bool, ∀ v : Fin 64,
      (base64Table url).idxOf? ((base64Table url).getD v 0) = some v.val ∧
        (base64Table url).getD v 0 ≠ 61 := by decide
  exact hall url ⟨v, h⟩

theorem mapM_chars (url : Bool) {values : List Nat} (h : ∀ v ∈ values, v < 2 ^ 6) :
    (chars url values).mapM (fun c => (base64Table url).idxOf? c) = some values := by
  induction values with
  | nil => rfl
  | cons v values ih =>
      have hv := (table_idxOf? url (h v List.mem_cons_self)).1
      have hvalues := ih fun w hw => h w (List.mem_cons_of_mem v hw)
      simp only [chars, List.map_cons, List.mapM_cons] at hvalues ⊢
      rw [hv, hvalues]
      rfl

theorem rfcDecode_rfcEncode (url : Bool) (data : List UInt8) :
    rfcDecode url (rfcEncode url data) = some data := by
  have hlt := sextets_lt (dataBits data)
  have htext : (rfcEncode url data).takeWhile (· ≠ 61) = chars url (sextets (dataBits data)) := by
    have hchars : ∀ c ∈ chars url (sextets (dataBits data)), decide (c ≠ 61) = true := by
      intro c hc
      obtain ⟨v, hv, rfl⟩ := List.mem_map.mp hc
      exact decide_eq_true (table_idxOf? url (hlt v hv)).2
    rw [rfcEncode]
    change (chars url (sextets (dataBits data)) ++ _).takeWhile _ = _
    rw [List.takeWhile_append_of_pos hchars, List.takeWhile_replicate]
    simp
  obtain ⟨k, hk, hflat⟩ := sextets_flatMap (dataBits data)
  rw [rfcDecode, htext, mapM_chars url hlt, Option.map_some, hflat,
    octets_dataBits data (by simp; omega)]

theorem base64encode_rfc (url : Bool) :
    (∀ data, ∃ out, base64encode url data = some out ∧ out = rfcEncode url data ∧
      out.length = 4 * ((data.length + 2) / 3) ∧ rfcDecode url out = some data) ∧
    Function.Injective (base64encode url) := by
  have hall : ∀ data, base64encode url data = some (rfcEncode url data) := fun data =>
    encodeBlocks_rfc url data data.length le_rfl
  constructor
  · intro data
    exact ⟨rfcEncode url data, hall data, rfl, length_rfcEncode url data,
      rfcDecode_rfcEncode url data⟩
  · intro data data' heq
    rw [hall, hall, Option.some_inj] at heq
    have hdecode := rfcDecode_rfcEncode url data
    rw [heq, rfcDecode_rfcEncode] at hdecode
    exact (Option.some.inj hdecode).symm

end Util
end Routn
