import Routn.Address.Create
import Routn.Address.TextForm

/-!
# `IPv6Address::insert`

The loop leaves out the first run of zero groups and prints the others, with the colons between
them.  It prints them as an `int`, and `std::hex` is not set: a group from ten on is printed with
decimal digits, which stand for more than the group.
-/

namespace Routn
namespace Address
namespace IPv6Address

/-- `((uint16_t *)_addr.sin6_addr.s6_addr)[i]` -/
def word (host : ByteOrder) (_addr : SockAddrIn6) (i : Fin 8) : BitVec 16 :=
  BitVec.ofNat 16 (wordOf host [.ofBitVec (_addr.s6_addr ⟨2 * i, by omega⟩),
    .ofBitVec (_addr.s6_addr ⟨2 * i + 1, by omega⟩)])

def words (host : ByteOrder) (_addr : SockAddrIn6) : List (BitVec 16) :=
  (List.finRange 8).map (word host _addr)

/-- The loop; `previous` is `addr[i - 1]`, when there is one.  What is printed, and `used_zeros`. -/
def insertLoop (host : ByteOrder) :
    Option (BitVec 16) → Bool → List (BitVec 16) → List Char × Bool
  | _, used_zeros, [] => ([], used_zeros)
  | previous, used_zeros, addr :: rest =>
      if addr = 0 ∧ ¬ used_zeros then insertLoop host (some addr) used_zeros rest
      else
        let (zeros, used_zeros) :=
          if previous = some 0 ∧ ¬ used_zeros then ([':'], true) else ([], used_zeros)
        let colon := if previous.isSome then [':'] else []
        let (text, used_zeros) := insertLoop host (some addr) used_zeros rest
        (zeros ++ colon ++ decimal (byteswapWord host addr) ++ text, used_zeros)

/-- What is printed for the words of an address. -/
def printed (host : ByteOrder) (addr : List (BitVec 16)) : List Char :=
  let (text, used_zeros) := insertLoop host none false addr
  if ¬ used_zeros ∧ addr.getLast? = some 0 then text ++ [':', ':'] else text

def insert (host : ByteOrder) (_addr : SockAddrIn6) : List Char :=
  '[' :: printed host (words host _addr) ++ ']' :: ':' ::
    decimal (byteswapWord host _addr.sin6_port)

/-! ## What is asked of it -/

/-- The groups of an address, from its bytes. -/
def groups (addr : SockAddrIn6) : List Nat :=
  (List.finRange 8).map fun i : Fin 8 =>
    (addr.s6_addr ⟨2 * i, by omega⟩).toNat * 256 + (addr.s6_addr ⟨2 * i + 1, by omega⟩).toNat

/-- The text is an address in brackets with the port behind it, and the address in the brackets is
read as this address and as no other. -/
def Readable (addr : SockAddrIn6) (port : BitVec 16) (text : List Char) : Prop :=
  ∃ address, text = '[' :: address ++ ']' :: ':' :: decimal port ∧ Denotes address (groups addr) ∧
    ∀ other, other.length = 8 → Denotes address other → other = groups addr

/-! ## Decimal digits -/

theorem hexValue_digitChar {d : Nat} (hd : d < 10) : hexValue d.digitChar = d := by
  revert d
  decide

theorem isHex_digitChar {d : Nat} (hd : d < 10) : isHex d.digitChar = true := by
  revert d
  decide

theorem ofHex_of_lt {v : Nat} (hv : v < 10) : ofHex (Nat.toDigits 10 v) = v := by
  rw [Nat.toDigits_of_lt_base hv]
  simp [ofHex, ofHexFrom, hexValue_digitChar hv]

/-- Decimal digits, read as hexadecimal ones, stand for more from ten on. -/
theorem le_ofHex (v : Nat) : v ≤ ofHex (Nat.toDigits 10 v) ∧
    (10 ≤ v → v < ofHex (Nat.toDigits 10 v)) := by
  induction v using Nat.strong_induction_on with
  | _ v ih =>
      by_cases hv : v < 10
      · simp [ofHex_of_lt hv, hv]
      · have hdigit : v % 10 < 10 := Nat.mod_lt v (by decide)
        have hfront := (ih (v / 10) (by omega)).1
        have hstep :
            ofHex (Nat.toDigits 10 v) = 16 * ofHex (Nat.toDigits 10 (v / 10)) + v % 10 := by
          rw [Nat.toDigits_of_base_le (by decide) (Nat.not_lt.mp hv)]
          simp [ofHex, ofHexFrom, hexValue_digitChar hdigit]
        omega

theorem isGroup_of_lt {v : Nat} (hv : v < 10) : IsGroup (Nat.toDigits 10 v) := by
  rw [Nat.toDigits_of_lt_base hv]
  constructor <;> simp [isHex_digitChar hv]

theorem colon_not_mem (v : Nat) : ':' ∉ Nat.toDigits 10 v := by
  intro h
  have hdigit := Nat.isDigit_of_mem_toDigits (b := 10) (by decide) (by decide) h
  exact absurd hdigit (by decide)

/-! ## What is printed -/

section Printed

variable (host : ByteOrder)

/-- What a word stands for. -/
def value (addr : BitVec 16) : Nat := (byteswapWord host addr).toNat

/-- What is printed for a word. -/
def piece (addr : BitVec 16) : List Char := decimal (byteswapWord host addr)

@[simp] theorem value_zero : value host 0 = 0 := by
  cases host <;> decide

theorem piece_eq (addr : BitVec 16) : piece host addr = Nat.toDigits 10 (value host addr) := by
  simp [piece, decimal, value]

variable {host} {left right : List (BitVec 16)}

/-- When the zeros are used, every word is printed with a colon in front of it. -/
theorem insertLoop_used (previous : BitVec 16) (addr : List (BitVec 16)) :
    insertLoop host (some previous) true addr =
      ((addr.map (piece host)).flatMap (':' :: ·), true) := by
  induction addr generalizing previous with
  | nil => simp [insertLoop]
  | cons w addr ih => simp [insertLoop, ih, piece]

/-- Zeros are left out. -/
theorem insertLoop_zeros (previous : Option (BitVec 16)) (n : Nat) :
    insertLoop host previous false (List.replicate (n + 1) 0 ++ right) =
      insertLoop host (some 0) false right := by
  induction n generalizing previous with
  | zero => simp [insertLoop]
  | succ n ih => simpa [List.replicate_succ, insertLoop] using ih (some 0)

/-- The first word behind them. -/
theorem insertLoop_behind (hright : ∀ w, right.head? = some w → w ≠ 0#16) :
    insertLoop host (some 0) false right =
      if right = [] then ([], false) else (':' :: ':' :: join (right.map (piece host)), true) := by
  cases right with
  | nil => simp [insertLoop]
  | cons w right =>
      have hw : w ≠ 0#16 := hright w rfl
      simp [insertLoop, hw, insertLoop_used, join, piece]

variable (host) in
/-- The words in front of the first zero, but for the first. -/
theorem insertLoop_front {previous : BitVec 16} (hprevious : previous ≠ 0#16)
    (hleft : ∀ w ∈ left, w ≠ 0#16) (rest : List (BitVec 16)) :
    ∃ last, last ≠ 0#16 ∧ insertLoop host (some previous) false (left ++ rest) =
      ((left.map (piece host)).flatMap (':' :: ·) ++ (insertLoop host (some last) false rest).1,
        (insertLoop host (some last) false rest).2) := by
  induction left generalizing previous with
  | nil => exact ⟨previous, hprevious, by simp⟩
  | cons w left ih =>
      simp only [List.mem_cons, forall_eq_or_imp] at hleft
      obtain ⟨last, hlast, hloop⟩ := ih hleft.1 hleft.2
      exact ⟨last, hlast, by simp [insertLoop, hleft.1, hprevious, hloop, piece]⟩

variable (host) in
/-- All words in front of the first zero. -/
theorem insertLoop_left (hleft : ∀ w ∈ left, w ≠ 0#16) (rest : List (BitVec 16)) :
    ∃ previous, previous ≠ some 0#16 ∧ insertLoop host none false (left ++ rest) =
      (join (left.map (piece host)) ++ (insertLoop host previous false rest).1,
        (insertLoop host previous false rest).2) := by
  cases left with
  | nil => exact ⟨none, by simp, by simp [join]⟩
  | cons w left =>
      simp only [List.mem_cons, forall_eq_or_imp] at hleft
      obtain ⟨last, hlast, hloop⟩ := insertLoop_front host hleft.1 hleft.2 rest
      refine ⟨some last, by simpa using hlast, ?_⟩
      simp [insertLoop, hleft.1, hloop, join, piece]

/-- **What is printed**, when there is no zero. -/
theorem printed_full (hleft : ∀ w ∈ left, w ≠ 0#16) :
    printed host left = join (left.map (piece host)) := by
  obtain ⟨previous, -, hloop⟩ := insertLoop_left host hleft []
  have hlast : ¬ left.getLast? = some 0#16 := fun h => hleft 0#16 (List.mem_of_getLast? h) rfl
  simp only [List.append_nil, insertLoop] at hloop
  simp [printed, hloop, hlast]

/-- **What is printed** around the first zeros. -/
theorem printed_compressed (hleft : ∀ w ∈ left, w ≠ 0#16) (n : Nat)
    (hright : ∀ w, right.head? = some w → w ≠ 0#16) :
    printed host (left ++ (List.replicate (n + 1) 0 ++ right)) =
      join (left.map (piece host)) ++ ':' :: ':' :: join (right.map (piece host)) := by
  obtain ⟨previous, -, hloop⟩ :=
    insertLoop_left host hleft (List.replicate (n + 1) 0 ++ right)
  rw [insertLoop_zeros, insertLoop_behind hright] at hloop
  rw [printed, hloop]
  cases right with
  | nil => simp [List.replicate_succ', join]
  | cons w right => simp

/-- The words in front of the first zeros, and those behind them. -/
theorem zeros_cases (addr : List (BitVec 16)) :
    (∀ w ∈ addr, w ≠ 0#16) ∨ ∃ left n right,
      addr = left ++ (List.replicate (n + 1) 0 ++ right) ∧ (∀ w ∈ left, w ≠ 0#16) ∧
        ∀ w, right.head? = some w → w ≠ 0#16 := by
  induction addr with
  | nil => simp
  | cons w addr ih =>
      by_cases hw : w = 0#16
      · subst hw
        right
        rcases ih with hall | ⟨left, n, right, rfl, hleft, hright⟩
        · exact ⟨[], 0, addr, by simp, by simp, fun w h => hall w (List.mem_of_head? h)⟩
        · cases left with
          | nil => exact ⟨[], n + 1, right, by simp [List.replicate_succ], by simp, hright⟩
          | cons first left =>
              refine ⟨[], 0, _, rfl, by simp, ?_⟩
              simpa using hleft first (by simp)
      · rcases ih with hall | ⟨left, n, right, rfl, hleft, hright⟩
        · exact .inl (by simpa [hw] using hall)
        · exact .inr ⟨w :: left, n, right, by simp, by simpa [hw] using hleft, hright⟩

/-- Groups below ten are printed as what they are. -/
theorem isGroup_piece {addr : List (BitVec 16)} (hsmall : ∀ w ∈ addr, value host w < 10) :
    (∀ s ∈ addr.map (piece host), IsGroup s) ∧
      (addr.map (piece host)).map ofHex = addr.map (value host) := by
  constructor
  · simp only [List.mem_map, forall_exists_index, and_imp, forall_apply_eq_imp_iff₂, piece_eq]
    exact fun w hw => isGroup_of_lt (hsmall w hw)
  · simp only [List.map_map, List.map_inj_left, Function.comp_apply, piece_eq]
    exact fun w hw => ofHex_of_lt (hsmall w hw)

/-- **Small groups** are printed in a valid form. -/
theorem denotes_printed {addr : List (BitVec 16)} (hsmall : ∀ w ∈ addr, value host w < 10) :
    Denotes (printed host addr) (addr.map (value host)) := by
  rcases zeros_cases addr with hall | ⟨left, n, right, rfl, hleft, hright⟩
  · obtain ⟨hgroups, hmap⟩ := isGroup_piece hsmall
    rw [printed_full hall, ← hmap]
    exact .full hgroups
  · simp only [List.mem_append, or_imp, forall_and] at hsmall
    obtain ⟨hgroups, hmap⟩ := isGroup_piece hsmall.1
    obtain ⟨hgroups', hmap'⟩ := isGroup_piece hsmall.2.2
    have hdenotes := Denotes.compressed n hgroups hgroups'
    rw [hmap, hmap'] at hdenotes
    have hzero : value host 0#16 = 0 := value_zero host
    rw [printed_compressed hleft n hright]
    simpa [hzero] using hdenotes

theorem colon_not_mem_piece (addr : List (BitVec 16)) : ∀ s ∈ addr.map (piece host), ':' ∉ s := by
  simp [piece_eq, colon_not_mem]

/-- The digits that are printed, read as hexadecimal ones. -/
theorem weigh_printed (addr : List (BitVec 16)) :
    weigh 0 (printed host addr) =
      (addr.map fun w => ofHex (Nat.toDigits 10 (value host w))).sum := by
  rcases zeros_cases addr with hall | ⟨left, n, right, rfl, hleft, hright⟩
  · rw [printed_full hall, weigh_join (colon_not_mem_piece addr)]
    simp [Function.comp_def, piece_eq]
  · rw [printed_compressed hleft n hright,
      weigh_compressed (colon_not_mem_piece left) (colon_not_mem_piece right)]
    have hzero : ofHex (Nat.toDigits 10 (value host 0)) = 0 := by
      rw [value_zero]
      decide
    simp only [BitVec.ofNat_eq_ofNat] at hzero
    simp [Function.comp_def, piece_eq, hzero]

variable (host) in
/-- **What is printed for a word of ten or more** makes the text stand for something else. -/
theorem denotes_printed_iff (addr : List (BitVec 16)) :
    Denotes (printed host addr) (addr.map (value host)) ↔ ∀ w ∈ addr, value host w < 10 := by
  refine ⟨fun hdenotes w hw => ?_, denotes_printed⟩
  by_contra hge
  have hweigh := hdenotes.weigh_eq
  rw [weigh_printed] at hweigh
  have hlt := List.sum_lt_sum (value host)
    (fun w => ofHex (Nat.toDigits 10 (value host w))) (fun w _ => (le_ofHex (value host w)).1)
    ⟨w, hw, (le_ofHex (value host w)).2 (by omega)⟩
  exact absurd hweigh hlt.ne'

end Printed

/-- The words of an address stand for its groups. -/
theorem map_value_words (host : ByteOrder) (addr : SockAddrIn6) :
    (words host addr).map (value host) = groups addr := by
  rw [words, groups, List.map_map]
  apply List.map_congr_left
  intro i _
  have hhigh := (addr.s6_addr ⟨2 * i, by omega⟩).isLt
  have hlow := (addr.s6_addr ⟨2 * i + 1, by omega⟩).isLt
  have hword := byteswapWord_wordOf host [.ofBitVec (addr.s6_addr ⟨2 * i, by omega⟩),
    .ofBitVec (addr.s6_addr ⟨2 * i + 1, by omega⟩)]
  have hvalue := congrArg BitVec.toNat hword
  simp only [wordOf, Foundation.natLE, List.reverse_cons, List.reverse_nil, List.nil_append,
    List.cons_append, BitVec.toNat_ofNat, List.length_cons, List.length_nil] at hvalue
  rw [Function.comp_apply, value, word]
  refine hvalue.trans ?_
  simp only [UInt8.toNat_ofBitVec]
  omega

/-- **The text of an IPv6 address.** -/
theorem readable_iff (host : ByteOrder) (addr : SockAddrIn6) :
    Readable addr (byteswapWord host addr.sin6_port) (insert host addr) ↔
      ∀ g ∈ groups addr, g < 10 := by
  have hprinted := denotes_printed_iff host (words host addr)
  rw [← map_value_words host addr]
  simp only [List.mem_map, forall_exists_index, and_imp, forall_apply_eq_imp_iff₂]
  rw [← hprinted]
  constructor
  · rintro ⟨address, htext, hdenotes, -⟩
    have haddress : printed host (words host addr) = address := by
      simpa [insert] using htext
    rwa [haddress, map_value_words]
  · intro hdenotes
    refine ⟨printed host (words host addr), rfl, ?_, ?_⟩
    · rwa [← map_value_words host addr]
    · intro other hlength hother
      rw [map_value_words] at hdenotes
      exact hother.unique hdenotes rfl (by simpa [groups] using hlength)

/-- `2001:db8::1` -/
def documentation : SockAddrIn6 :=
  ⟨AF_INET6, 0, fun i => ([0x20, 0x01, 0x0d, 0xb8] : List (BitVec 8)).getD i
    (if i = 15 then 1 else 0)⟩

/-- **`2001:db8::1`** is printed as `[8193:3512::1]:0`, which is another address. -/
theorem not_readable_documentation :
    insert .littleEndian documentation = "[8193:3512::1]:0".toList ∧
      ¬ Readable documentation 0 (insert .littleEndian documentation) := by
  have hinsert : insert .littleEndian documentation = "[8193:3512::1]:0".toList := by decide
  refine ⟨hinsert, ?_⟩
  rintro ⟨address, htext, hdenotes, -⟩
  obtain rfl : "8193:3512::1".toList = address := by
    rw [hinsert] at htext
    exact List.append_cancel_right (List.cons.inj htext).2
  exact absurd hdenotes.weigh_eq (by decide)

end IPv6Address
end Address
end Routn
