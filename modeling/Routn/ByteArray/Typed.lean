import Mathlib.Tactic
import Routn.ByteArray.Basic

/-!
# The typed writers and readers of `ByteArray`

Fixed-width integers go through the byte order flag, `writeUint32`/`writeUint64` and the zigzag
writers through the base-128 loop, strings through a length field and a raw write.  `writeFixed`,
`readFixed`, `varintLoop` and `readVarintLoop` are the bodies the members share; each member is
that body at its own width.

A signed value is the two's complement word it is stored as, and the signed overflows of the zigzag
encoders wrap.  `readString*` resizes its buffer before it reads; that allocation succeeds here, so
a length field that is too large is reported by `read`.
-/

namespace Routn

open Foundation

namespace ByteArray

variable (host : ByteOrder)

/-! ## Fixed width -/

/-- Swap unless the array's byte order is the machine's, then write the bytes of the word. -/
def writeFixed (k value : Nat) : ByteArrayM Unit := do
  let ba ← get
  let value := if ba.endian ≠ host then byteswap k value else value
  write (wordBytes host k value)

/-- The body of the `XX` macro of the readers. -/
def readFixed (k : Nat) : ByteArrayM Nat := do
  let bytes ← read k
  let v := wordOf host bytes
  let ba ← get
  if ba.endian = host then return v
  return byteswap k v

def writeFint8 (value : Int8) : ByteArrayM Unit := write [value.toUInt8]
def writeFuint8 (value : UInt8) : ByteArrayM Unit := write [value]
def writeFint16 (value : Int16) : ByteArrayM Unit := writeFixed host 2 value.toUInt16.toNat
def writeFuint16 (value : UInt16) : ByteArrayM Unit := writeFixed host 2 value.toNat
def writeFint32 (value : Int32) : ByteArrayM Unit := writeFixed host 4 value.toUInt32.toNat
def writeFuint32 (value : UInt32) : ByteArrayM Unit := writeFixed host 4 value.toNat
def writeFint64 (value : Int64) : ByteArrayM Unit := writeFixed host 8 value.toUInt64.toNat
def writeFuint64 (value : UInt64) : ByteArrayM Unit := writeFixed host 8 value.toNat

def readFuint8 : ByteArrayM UInt8 := do
  let bytes ← read 1
  return bytes.headD 0

def readFint8 : ByteArrayM Int8 := do
  let bytes ← read 1
  return (bytes.headD 0).toInt8

def readFint16 : ByteArrayM Int16 := do return (UInt16.ofNat (← readFixed host 2)).toInt16
def readFuint16 : ByteArrayM UInt16 := do return UInt16.ofNat (← readFixed host 2)
def readFint32 : ByteArrayM Int32 := do return (UInt32.ofNat (← readFixed host 4)).toInt32
def readFuint32 : ByteArrayM UInt32 := do return UInt32.ofNat (← readFixed host 4)
def readFint64 : ByteArrayM Int64 := do return (UInt64.ofNat (← readFixed host 8)).toInt64
def readFuint64 : ByteArrayM UInt64 := do return UInt64.ofNat (← readFixed host 8)

/-! ## Variable width -/

def encodeZigzag32 (v : Int32) : UInt32 :=
  if v < 0 then (-v).toUInt32 * 2 - 1 else (v * 2).toUInt32

/-- `EncodeZigzag64`.  Its return type is `uint32_t`: the upper half of the code is cut off. -/
def encodeZigzag64 (v : Int64) : UInt32 :=
  if v < 0 then ((-v).toUInt64 * 2 - 1).toUInt32 else (v * 2).toUInt64.toUInt32

def decodeZigzag32 (v : UInt32) : Int32 := ((v >>> 1) ^^^ -(v &&& 1)).toInt32

def decodeZigzag64 (v : UInt64) : Int64 := ((v >>> 1) ^^^ -(v &&& 1)).toInt64

/-- The bytes that the loop of `writeUint32` and `writeUint64` puts into `tmp`. -/
def varintLoop (value : Nat) : List UInt8 :=
  if value ≥ 0x80 then UInt8.ofNat (value &&& 0x7f ||| 0x80) :: varintLoop (value >>> 7)
  else [UInt8.ofNat value]
termination_by value
decreasing_by
  rw [Nat.shiftRight_eq_div_pow]
  omega

def writeUint32 (value : UInt32) : ByteArrayM Unit := write (varintLoop value.toNat)
def writeUint64 (value : UInt64) : ByteArrayM Unit := write (varintLoop value.toNat)
def writeInt32 (value : Int32) : ByteArrayM Unit := writeUint32 (encodeZigzag32 value)
def writeInt64 (value : Int64) : ByteArrayM Unit := writeUint64 (encodeZigzag64 value).toUInt64

/-- The values of `i` in `for (int i = 0; i < w; i += 7)`. -/
def shifts (w : Nat) : List Nat := (List.range ((w + 6) / 7)).map (7 * ·)

/-- The loop of `readUint32` and `readUint64`; `res` is a `w`-bit word. -/
def readVarintLoop (w : Nat) : List Nat → Nat → ByteArrayM Nat
  | [], res => return res
  | i :: is, res => do
      let b ← readFuint8
      if b < 0x80 then return res ||| (b.toNat <<< i) % 2 ^ w
      else readVarintLoop w is (res ||| ((b.toNat &&& 0x7f) <<< i) % 2 ^ w)

def readUint32 : ByteArrayM UInt32 := do return UInt32.ofNat (← readVarintLoop 32 (shifts 32) 0)
def readUint64 : ByteArrayM UInt64 := do return UInt64.ofNat (← readVarintLoop 64 (shifts 64) 0)
def readInt32 : ByteArrayM Int32 := do return decodeZigzag32 (← readUint32)
def readInt64 : ByteArrayM Int64 := do return decodeZigzag64 (← readUint64)

/-! ## Floating point: the bits are copied -/

def writeFloat (bits : UInt32) : ByteArrayM Unit := writeFuint32 host bits
def writeDouble (bits : UInt64) : ByteArrayM Unit := writeFuint64 host bits
def readFloat : ByteArrayM UInt32 := readFuint32 host
def readDouble : ByteArrayM UInt64 := readFuint64 host

/-! ## Strings -/

def writeStringF16 (value : List UInt8) : ByteArrayM Unit := do
  writeFuint16 host (UInt16.ofNat value.length)
  write value

def writeStringF32 (value : List UInt8) : ByteArrayM Unit := do
  writeFuint32 host (UInt32.ofNat value.length)
  write value

def writeStringF64 (value : List UInt8) : ByteArrayM Unit := do
  writeFuint64 host (UInt64.ofNat value.length)
  write value

def writeStringVint (value : List UInt8) : ByteArrayM Unit := do
  writeUint64 (UInt64.ofNat value.length)
  write value

def writeStringWithoutLength (value : List UInt8) : ByteArrayM Unit := write value

def readStringF16 : ByteArrayM (List UInt8) := do
  let len ← readFuint16 host
  read len.toNat

def readStringF32 : ByteArrayM (List UInt8) := do
  let len ← readFuint32 host
  read len.toNat

def readStringF64 : ByteArrayM (List UInt8) := do
  let len ← readFuint64 host
  read len.toNat

def readStringVint : ByteArrayM (List UInt8) := do
  let len ← readUint64
  read len.toNat

/-! ## One value, and a list of values -/

/-- A value together with the writer it goes through.  `bytes` is a raw `write(buf, n)`, or
`writeStringWithoutLength`. -/
inductive Val
  | fint8 (v : Int8)
  | fuint8 (v : UInt8)
  | fint16 (v : Int16)
  | fuint16 (v : UInt16)
  | fint32 (v : Int32)
  | fuint32 (v : UInt32)
  | fint64 (v : Int64)
  | fuint64 (v : UInt64)
  | int32 (v : Int32)
  | uint32 (v : UInt32)
  | int64 (v : Int64)
  | uint64 (v : UInt64)
  | float (bits : UInt32)
  | double (bits : UInt64)
  | stringF16 (s : List UInt8)
  | stringF32 (s : List UInt8)
  | stringF64 (s : List UInt8)
  | stringVint (s : List UInt8)
  | bytes (buf : List UInt8)
deriving DecidableEq, Repr

/-- A reader.  The matching reader of a raw write is `read(buf, n)` with the same `n`. -/
inductive Kind
  | fint8 | fuint8 | fint16 | fuint16 | fint32 | fuint32 | fint64 | fuint64
  | int32 | uint32 | int64 | uint64 | float | double
  | stringF16 | stringF32 | stringF64 | stringVint
  | bytes (n : Nat)
deriving DecidableEq, Repr

/-- The reader that matches the writer of a value. -/
def Val.kind : Val → Kind
  | .fint8 _ => .fint8
  | .fuint8 _ => .fuint8
  | .fint16 _ => .fint16
  | .fuint16 _ => .fuint16
  | .fint32 _ => .fint32
  | .fuint32 _ => .fuint32
  | .fint64 _ => .fint64
  | .fuint64 _ => .fuint64
  | .int32 _ => .int32
  | .uint32 _ => .uint32
  | .int64 _ => .int64
  | .uint64 _ => .uint64
  | .float _ => .float
  | .double _ => .double
  | .stringF16 _ => .stringF16
  | .stringF32 _ => .stringF32
  | .stringF64 _ => .stringF64
  | .stringVint _ => .stringVint
  | .bytes buf => .bytes buf.length

def writeVal : Val → ByteArrayM Unit
  | .fint8 v => writeFint8 v
  | .fuint8 v => writeFuint8 v
  | .fint16 v => writeFint16 host v
  | .fuint16 v => writeFuint16 host v
  | .fint32 v => writeFint32 host v
  | .fuint32 v => writeFuint32 host v
  | .fint64 v => writeFint64 host v
  | .fuint64 v => writeFuint64 host v
  | .int32 v => writeInt32 v
  | .uint32 v => writeUint32 v
  | .int64 v => writeInt64 v
  | .uint64 v => writeUint64 v
  | .float bits => writeFloat host bits
  | .double bits => writeDouble host bits
  | .stringF16 s => writeStringF16 host s
  | .stringF32 s => writeStringF32 host s
  | .stringF64 s => writeStringF64 host s
  | .stringVint s => writeStringVint s
  | .bytes buf => writeStringWithoutLength buf

def readVal : Kind → ByteArrayM Val
  | .fint8 => do return .fint8 (← readFint8)
  | .fuint8 => do return .fuint8 (← readFuint8)
  | .fint16 => do return .fint16 (← readFint16 host)
  | .fuint16 => do return .fuint16 (← readFuint16 host)
  | .fint32 => do return .fint32 (← readFint32 host)
  | .fuint32 => do return .fuint32 (← readFuint32 host)
  | .fint64 => do return .fint64 (← readFint64 host)
  | .fuint64 => do return .fuint64 (← readFuint64 host)
  | .int32 => do return .int32 (← readInt32)
  | .uint32 => do return .uint32 (← readUint32)
  | .int64 => do return .int64 (← readInt64)
  | .uint64 => do return .uint64 (← readUint64)
  | .float => do return .float (← readFloat host)
  | .double => do return .double (← readDouble host)
  | .stringF16 => do return .stringF16 (← readStringF16 host)
  | .stringF32 => do return .stringF32 (← readStringF32 host)
  | .stringF64 => do return .stringF64 (← readStringF64 host)
  | .stringVint => do return .stringVint (← readStringVint)
  | .bytes n => do return .bytes (← read n)

/-- Write the values one after the other. -/
def writeVals : List Val → ByteArrayM Unit
  | [] => return ()
  | v :: vs => do
      writeVal host v
      writeVals vs

/-- Run the readers one after the other; an exception ends the sequence. -/
def readVals : List Kind → ByteArrayM (List Val)
  | [] => return []
  | k :: ks => do
      let v ← readVal host k
      let vs ← readVals ks
      return v :: vs

/-- Write the values, go back to the start, and read them with the matching readers. -/
def writeThenRead (vs : List Val) : ByteArrayM (List Val) := do
  writeVals host vs
  setPosition 0
  readVals host (vs.map Val.kind)

end ByteArray
end Routn
