import Routn.Address.SockAddr
import Routn.LoadBalance.ServiceItemInfo

/-!
# `Create` of an address from its text

Both swap the port as if it was 32 bits wide and keep the low 16 bits of that, which are zero where
a swap does anything.  `IPv6Address::Create` asks `inet_pton` for an IPv4 address.

`inet_pton` is a function of the system: the bytes it writes, if it writes any.
-/

namespace Routn
namespace Address

open Foundation ServiceItemInfo

/-- `os << v`, for an unsigned number. -/
def decimal {w : Nat} (v : BitVec w) : List Char := Nat.toDigits 10 v.toNat

namespace IPv4Address

def Create (host : ByteOrder) (inet_pton : BitVec 16 → List Char → Option (List UInt8))
    (address : List Char) (port : BitVec 16) : Option SockAddrIn :=
  -- `byteswapOnLittleEndian<uint32_t>`
  let sin_port := (byteswapWord host (port.setWidth 32)).setWidth 16
  match inet_pton AF_INET address with
  | none => none
  | some bytes => some ⟨AF_INET, sin_port, BitVec.ofNat 32 (wordOf host bytes)⟩

def getPort (host : ByteOrder) (_addr : SockAddrIn) : BitVec 32 :=
  (byteswapWord host _addr.sin_port).setWidth 32

/-- `insert`, which `toString` calls. -/
def toString (host : ByteOrder) (_addr : SockAddrIn) : List Char :=
  let addr := byteswapWord host _addr.s_addr
  decimal ((addr >>> 24) &&& 0xff) ++ '.' :: decimal ((addr >>> 16) &&& 0xff) ++
    '.' :: decimal ((addr >>> 8) &&& 0xff) ++ '.' :: decimal (addr &&& 0xff) ++
    ':' :: decimal (byteswapWord host _addr.sin_port)

end IPv4Address

namespace IPv6Address

def Create (host : ByteOrder) (inet_pton : BitVec 16 → List Char → Option (List UInt8))
    (address : List Char) (port : BitVec 16) : Option SockAddrIn6 :=
  let sin6_port := (byteswapWord host (port.setWidth 32)).setWidth 16
  match inet_pton AF_INET address with
  | none => none
  | some bytes => some ⟨AF_INET6, sin6_port, fun i => (bytes.getD i 0).toBitVec⟩

def getPort (host : ByteOrder) (_addr : SockAddrIn6) : BitVec 32 :=
  (byteswapWord host _addr.sin6_port).setWidth 32

end IPv6Address

/-! ## What is asked of them -/

/-- What is known of `inet_pton`: an IPv4 address is written byte by byte, and what is the text of
an IPv6 address is refused as the text of an IPv4 address. -/
structure Pton (inet_pton : BitVec 16 → List Char → Option (List UInt8)) : Prop where
  quad : ∀ q : Quad, inet_pton AF_INET q.text = some [q.a, q.b, q.c, q.d]
  other : ∀ address, (inet_pton AF_INET6 address).isSome → inet_pton AF_INET address = none

/-- The address and the port are kept. -/
def IPv4Address.Keeps (host : ByteOrder) (q : Quad) (port : BitVec 16)
    (addr : Option SockAddrIn) : Prop :=
  ∃ a, addr = some a ∧ a.sin_family = AF_INET ∧ getPort host a = port.setWidth 32 ∧
    toString host a = q.text ++ ':' :: decimal port

def IPv6Address.Keeps (host : ByteOrder) (port : BitVec 16) (addr : Option SockAddrIn6) : Prop :=
  ∃ a, addr = some a ∧ a.sin6_family = AF_INET6 ∧ getPort host a = port.setWidth 32

/-! ## The port -/

/-- The upper half of a swapped port is kept on no machine, and it is where the port is. -/
theorem narrowed_port (host : ByteOrder) (port : BitVec 16) :
    (byteswapWord host (port.setWidth 32)).setWidth 16 =
      if host = .bigEndian then port else 0 := by
  apply BitVec.eq_of_getLsbD_eq
  intro i hi
  have hbit : (byteswapWord host (port.setWidth 32)).getLsbD i = _ :=
    getLsbD_byteswapWord (port.setWidth 32) (by decide) (by omega)
  rw [BitVec.getLsbD_setWidth, hbit]
  cases host
  · have hlt : 8 * (32 / 8 - 1 - i / 8) + i % 8 < 32 := by omega
    have hge : 16 ≤ 8 * (32 / 8 - 1 - i / 8) + i % 8 := by omega
    simp [swappedBit, hlt, BitVec.getLsbD_of_ge port _ hge]
  · have hlt : i < 32 := by omega
    simp [swappedBit, hi, hlt]

/-- **What comes out of the port.** -/
theorem getPort_narrowed (host : ByteOrder) (port : BitVec 16) :
    byteswapWord host ((byteswapWord host (port.setWidth 32)).setWidth 16) =
      if host = .bigEndian then port else 0 := by
  rw [narrowed_port]
  cases host
  · simp only [reduceCtorEq, if_false]
    decide
  · simp [byteswapWord, byteswapOnLittleEndian]

/-! ## The text -/

theorem byteswapWord_quad (host : ByteOrder) (q : Quad) :
    byteswapWord host (BitVec.ofNat 32 (wordOf host [q.a, q.b, q.c, q.d])) =
      BitVec.ofNat 32 (wordOf .bigEndian [q.a, q.b, q.c, q.d]) :=
  byteswapWord_wordOf host [q.a, q.b, q.c, q.d]

theorem decimal_byte {addr : BitVec 32} (byte : UInt8) {n : Nat}
    (h : addr.toNat / 2 ^ n % 2 ^ 8 = byte.toNat) :
    decimal ((addr >>> n) &&& 0xff) = Nat.toDigits 10 byte.toNat := by
  have hmask : ((addr >>> n) &&& 0xff).toNat = addr.toNat / 2 ^ n % 2 ^ 8 := by
    rw [BitVec.toNat_and, BitVec.toNat_ushiftRight, Nat.shiftRight_eq_div_pow]
    exact Nat.and_two_pow_sub_one_eq_mod _ 8
  rw [decimal, hmask, ← h]

/-- The four numbers of an address are its bytes. -/
theorem toString_quad (host : ByteOrder) (q : Quad) (family sin_port : BitVec 16) :
    IPv4Address.toString host
        ⟨family, sin_port, BitVec.ofNat 32 (wordOf host [q.a, q.b, q.c, q.d])⟩ =
      q.text ++ ':' :: decimal (byteswapWord host sin_port) := by
  have ha := q.a.toNat_lt
  have hb := q.b.toNat_lt
  have hc := q.c.toNat_lt
  have hd := q.d.toNat_lt
  have hvalue : (BitVec.ofNat 32 (wordOf .bigEndian [q.a, q.b, q.c, q.d])).toNat =
      q.d.toNat + 256 * (q.c.toNat + 256 * (q.b.toNat + 256 * q.a.toNat)) := by
    simp only [wordOf, List.reverse_cons, List.reverse_nil, List.nil_append, List.cons_append,
      natLE, BitVec.toNat_ofNat]
    omega
  have hzero (v : BitVec 32) : v &&& (0xff : BitVec 32) = (v >>> 0) &&& 0xff := by simp
  simp only [IPv4Address.toString, byteswapWord_quad]
  rw [hzero (BitVec.ofNat 32 _), decimal_byte q.a (by omega),
    decimal_byte q.b (by omega), decimal_byte q.c (by omega),
    decimal_byte q.d (by omega)]
  simp [Quad.text, List.intercalate]

/-! ## `Create` -/

section Create

variable {inet_pton : BitVec 16 → List Char → Option (List UInt8)}

theorem IPv4Address.keeps_iff (hpton : Pton inet_pton) (host : ByteOrder) (q : Quad)
    (port : BitVec 16) :
    Keeps host q port (Create host inet_pton q.text port) ↔ host = .bigEndian ∨ port = 0 := by
  have hwidth (v : BitVec 16) : v.setWidth 32 = port.setWidth 32 ↔ v = port := by
    rw [← BitVec.toNat_inj, ← BitVec.toNat_inj]
    simp
    omega
  simp only [Create, hpton.quad, Keeps, Option.some.injEq, exists_eq_left', true_and,
    IPv4Address.getPort, getPort_narrowed, hwidth, toString_quad]
  cases host
  · simp only [reduceCtorEq, if_false, false_or]
    constructor
    · rintro ⟨hport, -⟩
      exact hport.symm
    · rintro rfl
      exact ⟨rfl, rfl⟩
  · simp

theorem IPv6Address.not_keeps (hpton : Pton inet_pton) (host : ByteOrder) (port : BitVec 16)
    {address : List Char} (htext : (inet_pton AF_INET6 address).isSome) :
    ¬ Keeps host port (Create host inet_pton address port) := by
  simp [Create, hpton.other address htext, Keeps]

/-- **Creation from text.**  An IPv4 address comes with its port where a swap does nothing or the
port is zero, and no IPv6 address comes at all. -/
theorem create_iff (hpton : Pton inet_pton) (host : ByteOrder) (port : BitVec 16) :
    (∀ q : Quad, IPv4Address.Keeps host q port (IPv4Address.Create host inet_pton q.text port) ↔
      host = .bigEndian ∨ port = 0) ∧
    ∀ address, (inet_pton AF_INET6 address).isSome →
      ¬ IPv6Address.Keeps host port (IPv6Address.Create host inet_pton address port) :=
  ⟨fun q => IPv4Address.keeps_iff hpton host q port,
    fun _ htext => IPv6Address.not_keeps hpton host port htext⟩

end Create

/-- An `inet_pton` for IPv4 addresses and `::`. -/
def pton (family : BitVec 16) (address : List Char) : Option (List UInt8) :=
  if family = AF_INET then
    match (address.splitOn '.').map fun number => Nat.ofDigitChars 10 number 0 with
    | [a, b, c, d] => some [.ofNat a, .ofNat b, .ofNat c, .ofNat d]
    | _ => none
  else if address = [':', ':'] then some (List.replicate 16 0)
  else none

theorem pton_pton : Pton pton where
  quad q := by
    have hdot : ∀ l ∈ [Nat.toDigits 10 q.a.toNat, Nat.toDigits 10 q.b.toNat,
        Nat.toDigits 10 q.c.toNat, Nat.toDigits 10 q.d.toNat], '.' ∉ l := by
      have hdigits : ∀ n, '.' ∉ Nat.toDigits 10 n := by
        intro n hn
        have hdigit := Nat.isDigit_of_mem_toDigits (b := 10) (by decide) (by decide) hn
        exact absurd hdigit (by decide)
      simp [hdigits]
    rw [pton, Quad.text, List.splitOn_intercalate '.' hdot (List.cons_ne_nil _ _)]
    simp [Nat.ofDigitChars_ten_toDigits]
  other address h := by
    have hfamily : ¬ AF_INET6 = AF_INET := by decide
    obtain rfl : address = [':', ':'] := by
      by_contra hne
      simp [pton, hfamily, hne] at h
    decide

/-- `create_iff` for port zero. -/
theorem create_iff_zero :
    IPv4Address.Keeps .littleEndian ⟨127, 0, 0, 1⟩ 0
        (IPv4Address.Create .littleEndian pton (Quad.text ⟨127, 0, 0, 1⟩) 0) ∧
      ¬ IPv6Address.Keeps .littleEndian 0
        (IPv6Address.Create .littleEndian pton [':', ':'] 0) := by
  have hboth := create_iff pton_pton .littleEndian 0
  exact ⟨(hboth.1 ⟨127, 0, 0, 1⟩).mpr (.inr rfl), hboth.2 [':', ':'] (by decide)⟩

/-- **Port 80** becomes zero, and `::` becomes no address. -/
theorem not_keeps_eighty :
    ¬ IPv4Address.Keeps .littleEndian ⟨127, 0, 0, 1⟩ 80
        (IPv4Address.Create .littleEndian pton (Quad.text ⟨127, 0, 0, 1⟩) 80) ∧
      IPv6Address.Create .littleEndian pton [':', ':'] 80 = none := by
  constructor
  · rw [IPv4Address.keeps_iff pton_pton]
    decide
  · decide

end Address
end Routn
