import Routn.Endian

/-!
# `IPv4Address` and `IPv6Address`

What the two classes keep: a `sockaddr_in` and a `sockaddr_in6`.  A word of more than one byte is
kept as the machine has it, and passes through `byteswapOnLittleEndian` on its way in and out;
`host` is the byte order of the machine.
-/

namespace Routn
namespace Address

def AF_INET : BitVec 16 := 2

def AF_INET6 : BitVec 16 := 10

/-- `byteswapOnLittleEndian` of a word of `w` bits. -/
def byteswapWord (host : ByteOrder) {w : Nat} (v : BitVec w) : BitVec w :=
  BitVec.ofNat w (byteswapOnLittleEndian host (w / 8) v.toNat)

/-- `sockaddr_in` -/
structure SockAddrIn where
  sin_family : BitVec 16
  sin_port : BitVec 16
  s_addr : BitVec 32
deriving DecidableEq, Repr

/-- `sockaddr_in6`, without `sin6_flowinfo` and `sin6_scope_id`. -/
structure SockAddrIn6 where
  sin6_family : BitVec 16
  sin6_port : BitVec 16
  s6_addr : Fin 16 → BitVec 8
deriving DecidableEq

/-- The bit of a word that a bit of the swapped word is. -/
def swappedBit (host : ByteOrder) (w i : Nat) : Nat :=
  match host with
  | .littleEndian => 8 * (w / 8 - 1 - i / 8) + i % 8
  | .bigEndian => i

variable {host : ByteOrder} {w i : Nat}

@[simp] theorem swappedBit_lt (host : ByteOrder) (hw : 8 ∣ w) (hi : i < w) :
    swappedBit host w i < w := by
  cases host
  · simp only [swappedBit]
    omega
  · exact hi

@[simp] theorem swappedBit_swappedBit (hw : 8 ∣ w) (hi : i < w) :
    swappedBit host w (swappedBit host w i) = i := by
  cases host
  · simp only [swappedBit]
    omega
  · simp [swappedBit]

/-- A swap moves the bits of a word. -/
theorem getLsbD_byteswapWord (v : BitVec w) (hw : 8 ∣ w) (hi : i < w) :
    (byteswapWord host v).getLsbD i = v.getLsbD (swappedBit host w i) := by
  simp only [byteswapWord, BitVec.getLsbD_ofNat, hi, decide_true, Bool.true_and]
  cases host
  · have hbits : i < 8 * (w / 8) := by omega
    simp [byteswapOnLittleEndian, testBit_byteswap v.toNat hbits, swappedBit, BitVec.getLsbD]
  · simp [byteswapOnLittleEndian, swappedBit, BitVec.getLsbD]

/-- A word that is swapped twice is itself. -/
@[simp] theorem byteswapWord_byteswapWord (v : BitVec w) (hw : 8 ∣ w) :
    byteswapWord host (byteswapWord host v) = v := by
  apply BitVec.eq_of_getLsbD_eq
  intro i hi
  rw [getLsbD_byteswapWord _ hw hi, getLsbD_byteswapWord _ hw (swappedBit_lt host hw hi),
    swappedBit_swappedBit hw hi]

/-- Bytes in memory are read most significant byte first. -/
theorem byteswapWord_wordOf (host : ByteOrder) (bytes : List UInt8) :
    byteswapWord host (BitVec.ofNat (8 * bytes.length) (wordOf host bytes)) =
      BitVec.ofNat (8 * bytes.length) (wordOf .bigEndian bytes) := by
  have hpow : 256 ^ bytes.length = 2 ^ (8 * bytes.length) := by
    rw [pow_mul]
    rfl
  have hlt := wordOf_lt host bytes
  rw [hpow] at hlt
  have hwidth : 8 * bytes.length / 8 = bytes.length := by omega
  rw [byteswapWord, BitVec.toNat_ofNat, Nat.mod_eq_of_lt hlt, hwidth,
    byteswapOnLittleEndian_wordOf]

end Address
end Routn
