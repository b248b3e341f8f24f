import Mathlib.Tactic
import Routn.Foundation.Digits

/-!
# Byte order

`Endian.h`: the order of the bytes of a word in memory, and the swaps between the two orders.  The
order of the machine (`ROUTN_BYTE_ORDER`) is a parameter `host` throughout; a `k`-byte word is the
natural number its bits denote.
-/

namespace Routn

open Foundation

/-- `ROUTN_LITTLE_ENDIAN` and `ROUTN_BIG_ENDIAN`. -/
inductive ByteOrder
  | littleEndian
  | bigEndian
deriving DecidableEq, Repr

/-- The `k` bytes of a word, as memory of the given order holds them. -/
def wordBytes : ByteOrder → Nat → Nat → List UInt8
  | .littleEndian, k, value => bytesLE k value
  | .bigEndian, k, value => (bytesLE k value).reverse

/-- The word that bytes in the given order denote. -/
def wordOf : ByteOrder → List UInt8 → Nat
  | .littleEndian, bytes => natLE bytes
  | .bigEndian, bytes => natLE bytes.reverse

/-- `byteswap`: `bswap_16`, `bswap_32` or `bswap_64` by the width of the type. -/
def byteswap (k value : Nat) : Nat := natLE (bytesLE k value).reverse

/-- `byteswapOnLittleEndian`. -/
def byteswapOnLittleEndian (host : ByteOrder) (k value : Nat) : Nat :=
  if host = .bigEndian then value else byteswap k value

@[simp] theorem length_wordBytes (order : ByteOrder) (k value : Nat) :
    (wordBytes order k value).length = k := by
  cases order <;> simp [wordBytes]

theorem wordOf_wordBytes (order : ByteOrder) (k value : Nat) :
    wordOf order (wordBytes order k value) = value % 256 ^ k := by
  cases order with
  | littleEndian => exact natLE_bytesLE k value
  | bigEndian =>
      show natLE (bytesLE k value).reverse.reverse = value % 256 ^ k
      rw [List.reverse_reverse, natLE_bytesLE]

theorem wordBytes_wordOf (order : ByteOrder) (bytes : List UInt8) :
    wordBytes order bytes.length (wordOf order bytes) = bytes := by
  cases order with
  | littleEndian => exact bytesLE_natLE bytes
  | bigEndian =>
      have h := bytesLE_natLE bytes.reverse
      rw [List.length_reverse] at h
      show (bytesLE bytes.length (natLE bytes.reverse)).reverse = bytes
      rw [h, List.reverse_reverse]

theorem wordOf_lt (order : ByteOrder) (bytes : List UInt8) :
    wordOf order bytes < 256 ^ bytes.length := by
  cases order with
  | littleEndian => exact natLE_lt bytes
  | bigEndian =>
      have h := natLE_lt bytes.reverse
      rwa [List.length_reverse] at h

/-- The low `k` bytes of a word are all that `wordBytes` sees. -/
theorem wordBytes_mod (order : ByteOrder) (k value : Nat) :
    wordBytes order k (value % 256 ^ k) = wordBytes order k value := by
  have hlow : bytesLE k (value % 256 ^ k) = bytesLE k value := by
    rw [← natLE_bytesLE]
    nth_rewrite 1 [← length_bytesLE k value]
    exact bytesLE_natLE _
  cases order with
  | littleEndian => exact hlow
  | bigEndian => exact congrArg List.reverse hlow

theorem bytesLE_byteswap (k value : Nat) :
    bytesLE k (byteswap k value) = (bytesLE k value).reverse := by
  have h := bytesLE_natLE (bytesLE k value).reverse
  rwa [List.length_reverse, length_bytesLE] at h

/-- Storing a swapped word stores the bytes in the other order. -/
theorem wordBytes_byteswap {host order : ByteOrder} (hne : order ≠ host) (k value : Nat) :
    wordBytes host k (byteswap k value) = wordBytes order k value := by
  cases host with
  | littleEndian =>
      cases order with
      | littleEndian => exact absurd rfl hne
      | bigEndian => exact bytesLE_byteswap k value
  | bigEndian =>
      cases order with
      | littleEndian =>
          show (bytesLE k (byteswap k value)).reverse = bytesLE k value
          rw [bytesLE_byteswap, List.reverse_reverse]
      | bigEndian => exact absurd rfl hne

/-- Swapping a loaded word reads the bytes in the other order. -/
theorem byteswap_wordOf {host order : ByteOrder} (hne : order ≠ host) (bytes : List UInt8) :
    byteswap bytes.length (wordOf host bytes) = wordOf order bytes := by
  cases host with
  | littleEndian =>
      cases order with
      | littleEndian => exact absurd rfl hne
      | bigEndian =>
          show natLE (bytesLE bytes.length (natLE bytes)).reverse = natLE bytes.reverse
          rw [bytesLE_natLE]
  | bigEndian =>
      cases order with
      | littleEndian =>
          have h := bytesLE_natLE bytes.reverse
          rw [List.length_reverse] at h
          show natLE (bytesLE bytes.length (natLE bytes.reverse)).reverse = natLE bytes
          rw [h, List.reverse_reverse]
      | bigEndian => exact absurd rfl hne

/-- A word that `byteswapOnLittleEndian` has passed through is stored most significant byte first,
whatever the machine. -/
theorem wordBytes_byteswapOnLittleEndian (host : ByteOrder) (k value : Nat) :
    wordBytes host k (byteswapOnLittleEndian host k value) = wordBytes .bigEndian k value := by
  unfold byteswapOnLittleEndian
  split
  · next h => rw [h]
  · next h => exact wordBytes_byteswap (fun heq => h heq.symm) k value

theorem byteswapOnLittleEndian_wordOf (host : ByteOrder) (bytes : List UInt8) :
    byteswapOnLittleEndian host bytes.length (wordOf host bytes) = wordOf .bigEndian bytes := by
  unfold byteswapOnLittleEndian
  split
  · next h => rw [h]
  · next h => exact byteswap_wordOf (fun heq => h heq.symm) bytes

theorem testBit_byteswap {k i : Nat} (value : Nat) (hi : i < 8 * k) :
    (byteswap k value).testBit i = value.testBit (8 * (k - 1 - i / 8) + i % 8) := by
  have hbyte : i / 8 < (bytesLE k value).length := by
    rw [length_bytesLE]
    omega
  have hreverse : (bytesLE k value).reverse.getD (i / 8) 0 =
      (bytesLE k value).getD (k - 1 - i / 8) 0 := by
    simp [List.getD_eq_getElem?_getD, List.getElem?_reverse hbyte]
  rw [byteswap, testBit_natLE, hreverse, testBit_getD_bytesLE value (by omega) (by omega)]

end Routn
