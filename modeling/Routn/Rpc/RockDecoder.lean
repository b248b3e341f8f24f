import Mathlib.Tactic
import Routn.Rpc.Message
import Routn.Streams.SocketStream

/-!
# `RockMessageDecoder`

A message on the wire is a header of eight bytes (two magic bytes, a version, a flag and the length
of the body in big-endian order) and a body.  `serializeTo` and `parseFrom` work on the
connection of `SocketStream`; the header is built in its buffer and the body in its `ByteArray`.

The two configuration values, the byte order of the machine, the contents of fresh memory and the
gzip functions of `ZLIBStream` are fields of `RockMessageDecoder`.  The bound on the number of
calls in each transfer loop is `fuel`; `none` says that it was used up.
-/

open Routn.ByteArray

namespace Routn

open Foundation

/-! ## The header -/

def s_rock_magic : List UInt8 := [0x12, 0x21]

/-- `RockMsgHeader`.  The length is an `int32_t`, kept as its two's complement word. -/
structure RockMsgHeader where
  magic : List UInt8 := s_rock_magic
  version : UInt8 := 1
  flag : UInt8 := 0
  length : UInt32 := 0
deriving DecidableEq, Repr

/-- The header in memory. -/
def RockMsgHeader.bytes (host : ByteOrder) (header : RockMsgHeader) : List UInt8 :=
  header.magic ++ [header.version, header.flag] ++ wordBytes host 4 header.length.toNat

/-- The header that eight bytes of memory hold. -/
def RockMsgHeader.ofBytes (host : ByteOrder) (bytes : List UInt8) : RockMsgHeader where
  magic := bytes.take 2
  version := bytes.getD 2 0
  flag := bytes.getD 3 0
  length := UInt32.ofNat (wordOf host (bytes.drop 4))

/-! ## The decoder -/

/-- What a gzip stream makes of the data of an array. -/
inductive GzipResult
  | writeFailed
  | flushFailed
  | done (ba : ByteArray)

structure RockMessageDecoder where
  host : ByteOrder
  max_length : UInt32 := 1024 * 1024 * 64
  gzip_min_length : UInt32 := 1024 * 1024 * 64
  gzip : ByteArray → GzipResult
  gunzip : ByteArray → GzipResult
  heap : Nat → Nat → Nat → UInt8

namespace RockMessageDecoder

variable (d : RockMessageDecoder) (chunk : Nat → Nat) (fuel : Nat)

/-- The end of `serializeTo`: write the header, then the rest of the array. -/
def sendFrame (flag : UInt8) (length : UInt32) : ConnM (Option Int) := do
  let header : RockMsgHeader :=
    { flag, length := UInt32.ofNat (byteswapOnLittleEndian d.host 4 length.toNat) }
  modify fun c => { c with buffer := header.bytes d.host }
  let rt ← (SocketStream.stream chunk).writeFixSize fuel 8
  match rt with
  | none => return none
  | some rt =>
      if rt ≤ 0 then return some (-3)
      else
        let c ← get
        let rt ← (SocketStream.stream chunk).writeFixSizeBA fuel c.ba.getReadSize
        match rt with
        | none => return none
        | some rt =>
            -- An empty rest has nothing to send, and its zero is taken for an error as well.
            if rt ≤ 0 then return some (-4)
            else
              let c ← get
              return some (toInt (8 + c.ba.size))

/-- `serializeTo`.  `toByteArray()` returns a null pointer when serialization failed, and the next
line uses it. -/
def serializeTo (msg : RockMessage) : ConnM (Option Int) := do
  let c ← get
  match msg.toByteArray d.host (d.heap c.calls) with
  | .error fault => throw fault
  | .ok none => throw .nullNode
  | .ok (some ba) =>
      modify fun c => { c with ba }
      SocketStream.onBA (setPosition 0)
      let c ← get
      let length := UInt32.ofNat c.ba.size
      -- The body is compressed into a second array, which takes the place of the first.
      if length ≥ d.gzip_min_length then
        match d.gzip c.ba with
        | .writeFailed => return some (-1)
        | .flushFailed => return some (-2)
        | .done zba =>
            modify fun c => { c with ba := zba }
            sendFrame d chunk fuel 0x1 (UInt32.ofNat zba.size)
      else sendFrame d chunk fuel 0 length

/-- The type byte selects the class of the message, whose parser reads the rest. -/
def parseMessage (host : ByteOrder) : ByteArrayM (Option RockMessage) := do
  let type ← readFuint8
  if type = Message.REQUEST then return (← RockRequest.parseFromByteArray host).map .request
  else if type = Message.RESPONSE then
    return (← RockResponse.parseFromByteArray host).map .response
  else if type = Message.NOTIFY then return (← RockNotify.parseFromByteArray host).map .notify
  -- Any other type is unknown.
  else return none

/-- The part of `parseFrom` behind the header. -/
def parseBody (flag : UInt8) (length : UInt32) : ConnM (Option (Option RockMessage)) := do
  modify fun c => { c with ba := ByteArray.new (d.heap c.calls) 4096 }
  let rt ← (SocketStream.stream chunk).readFixSizeBA fuel (toSize length.toInt32.toInt)
  match rt with
  | none => return none
  | some rt =>
      if rt ≤ 0 then return some none
      else
        SocketStream.onBA (setPosition 0)
        if flag &&& 0x1 ≠ 0 then
          let c ← get
          match d.gunzip c.ba with
          | .done zba =>
              modify fun c => { c with ba := zba }
              return some (← SocketStream.onBA (parseMessage d.host))
          | _ => return some none
        else return some (← SocketStream.onBA (parseMessage d.host))

/-- The checks of the header, and what follows them. -/
def parseFrame (header : RockMsgHeader) : ConnM (Option (Option RockMessage)) :=
  if header.magic ≠ s_rock_magic then return some none
  else if header.version ≠ 0x1 then return some none
  else
    let length := UInt32.ofNat (byteswapOnLittleEndian d.host 4 header.length.toNat)
    if length ≥ d.max_length then return some none
    else parseBody d chunk fuel header.flag length

/-- `parseFrom`; the inner `none` is the null pointer. -/
def parseFrom : ConnM (Option (Option RockMessage)) :=
  catchAll (do
    -- The header is read over a default one in the memory of the machine.
    let header : RockMsgHeader := {}
    modify fun c => { c with buffer := header.bytes d.host }
    let rt ← (SocketStream.stream chunk).readFixSize fuel 8
    match rt with
    | none => return none
    | some rt =>
        if rt ≤ 0 then return some none
        else
          let c ← get
          parseFrame d chunk fuel (RockMsgHeader.ofBytes d.host c.buffer)) (some none)

end RockMessageDecoder
end Routn
