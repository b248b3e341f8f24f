import Mathlib.Tactic
import Routn.Endian
import Routn.Streams.Duplex

/-!
# `WSSession`: messages over a WebSocket

The frame head (`WSFrameHead`), the sender `WSSendMessage`, the control frames of `WSPing` and
`WSPong`, and the receiver `WSRecvMessage`.  An iteration of the receiver is cut where it begins to
read payload: `readHeading` reads and checks what comes before it, `readPayload` is the rest.

The machine is little-endian: the bit-fields of a head are allocated from the low bit of the first
byte on.  `maxSize` is the value of `websocket.message.max_size`.
-/

namespace Routn
namespace Http

open Foundation Duplex

/-! ## The head of a frame -/

/-- The bit-fields of the two bytes in front of every frame. -/
structure WSFrameHead where
  opcode : BitVec 4
  rsv3 : Bool := false
  rsv2 : Bool := false
  rsv1 : Bool := false
  fin : Bool
  payload : BitVec 7
  mask : Bool
deriving DecidableEq, Repr

namespace WSFrameHead

def CONTINUE : BitVec 4 := 0
def TEXT_FRAME : BitVec 4 := 1
def BIN_FRAME : BitVec 4 := 2
def CLOSE : BitVec 4 := 8
def PING : BitVec 4 := 9
def PONG : BitVec 4 := 10

/-- The head as the 16-bit word that its two bytes are. -/
def toWord (head : WSFrameHead) : Nat :=
  head.opcode.toNat + 16 * head.rsv3.toNat + 32 * head.rsv2.toNat + 64 * head.rsv1.toNat +
    128 * head.fin.toNat + 256 * head.payload.toNat + 32768 * head.mask.toNat

def ofWord (word : Nat) : WSFrameHead where
  opcode := BitVec.ofNat 4 word
  rsv3 := word / 16 % 2 = 1
  rsv2 := word / 32 % 2 = 1
  rsv1 := word / 64 % 2 = 1
  fin := word / 128 % 2 = 1
  payload := BitVec.ofNat 7 (word / 256)
  mask := word / 32768 % 2 = 1

/-- The head in memory. -/
def bytes (head : WSFrameHead) : List UInt8 := wordBytes .littleEndian 2 head.toWord

def ofBytes (bytes : List UInt8) : WSFrameHead := ofWord (wordOf .littleEndian bytes)

theorem toWord_lt (head : WSFrameHead) : head.toWord < 256 ^ 2 := by
  have h3 := head.rsv3.toNat_lt
  have h2 := head.rsv2.toNat_lt
  have h1 := head.rsv1.toNat_lt
  have hfin := head.fin.toNat_lt
  have hmask := head.mask.toNat_lt
  have hopcode := head.opcode.isLt
  have hpayload := head.payload.isLt
  rw [toWord]
  omega

@[simp] theorem length_bytes (head : WSFrameHead) : head.bytes.length = 2 :=
  length_wordBytes _ _ _

theorem ofWord_toWord (head : WSFrameHead) : ofWord head.toWord = head := by
  obtain ⟨opcode, rsv3, rsv2, rsv1, fin, payload, mask⟩ := head
  have hflag : ∀ {word : Nat} {flag : Bool}, word % 2 = flag.toNat →
      decide (word % 2 = 1) = flag := by
    intro word flag h
    cases flag <;> simp [h]
  have h3 := rsv3.toNat_lt
  have h2 := rsv2.toNat_lt
  have h1 := rsv1.toNat_lt
  have hfin := fin.toNat_lt
  have hmask := mask.toNat_lt
  have hopcode := opcode.isLt
  have hpayload := payload.isLt
  simp only [ofWord, toWord, mk.injEq]
  refine ⟨BitVec.eq_of_toNat_eq ?_, hflag ?_, hflag ?_, hflag ?_, hflag ?_,
    BitVec.eq_of_toNat_eq ?_, hflag ?_⟩
  · rw [BitVec.toNat_ofNat]
    omega
  · omega
  · omega
  · omega
  · omega
  · rw [BitVec.toNat_ofNat]
    omega
  · omega

@[simp] theorem ofBytes_bytes (head : WSFrameHead) : ofBytes head.bytes = head := by
  rw [ofBytes, bytes, wordOf_wordBytes, Nat.mod_eq_of_lt head.toWord_lt, ofWord_toWord]

theorem toWord_ofWord {word : Nat} (hword : word < 256 ^ 2) : (ofWord word).toWord = word := by
  have hflag : ∀ n : Nat, (decide (n % 2 = 1)).toNat = n % 2 := by
    intro n
    rcases Nat.mod_two_eq_zero_or_one n with h | h <;> simp [h]
  simp only [toWord, ofWord, hflag, BitVec.toNat_ofNat]
  omega

/-- Any two bytes are a head. -/
theorem bytes_ofBytes {bytes : List UInt8} (hlen : bytes.length = 2) :
    (ofBytes bytes).bytes = bytes := by
  have hword := wordOf_lt .littleEndian bytes
  rw [hlen] at hword
  rw [WSFrameHead.bytes, ofBytes, toWord_ofWord hword, ← hlen, wordBytes_wordOf]

end WSFrameHead

/-! ## Masks -/

/-- `data[j] ^= mask[(i + j) % 4]` for every `j`. -/
def xorMask (mask : List UInt8) (i : Nat) (data : List UInt8) : List UInt8 :=
  data.mapIdx fun j byte => byte ^^^ mask.getD ((i + j) % 4) 0

@[simp] theorem length_xorMask (mask : List UInt8) (i : Nat) (data : List UInt8) :
    (xorMask mask i data).length = data.length := List.length_mapIdx

theorem xorMask_cons (mask : List UInt8) (i : Nat) (byte : UInt8) (data : List UInt8) :
    xorMask mask i (byte :: data) =
      (byte ^^^ mask.getD (i % 4) 0) :: xorMask mask (i + 1) data := by
  rw [xorMask, List.mapIdx_cons]
  congr 2
  funext j byte
  rw [show i + (j + 1) = i + 1 + j by omega]

/-- Masking twice is the identity. -/
theorem xorMask_xorMask (mask : List UInt8) (i : Nat) (data : List UInt8) :
    xorMask mask i (xorMask mask i data) = data := by
  induction data generalizing i with
  | nil => rfl
  | cons byte data ih =>
      rw [xorMask_cons, xorMask_cons, ih, UInt8.xor_assoc, UInt8.xor_self, UInt8.xor_zero]

/-! ## Sending -/

structure WSFrameMessage where
  opcode : Int
  data : List UInt8
deriving DecidableEq, Repr

section Session

variable (chunk : Nat → Nat)

/-- The payload field for a message of `size` bytes. -/
def payloadField (size : Nat) : BitVec 7 :=
  if size < 126 then BitVec.ofNat 7 size else if size < 65536 then 126 else 127

/-- The length bytes behind a head: none, or the size in network byte order. -/
def writeLength (payload : BitVec 7) (size : Nat) (garbage : UInt64) :
    EStateM StreamFault Duplex Int :=
  if payload = 126 then
    let len := byteswapOnLittleEndian .littleEndian 2 (size % 2 ^ 16)
    writeFixSize chunk (wordBytes .littleEndian 2 len)
  else if payload = 127 then
    -- `uint64_t len = byteswapOnLittleEndian(len)`: the variable in its own initialiser, which
    -- holds `garbage`.
    let len := byteswapOnLittleEndian .littleEndian 8 garbage.toNat
    writeFixSize chunk (wordBytes .littleEndian 8 len)
  else return 1

def writeMask (client : Bool) (mask : List UInt8) : EStateM StreamFault Duplex Int :=
  if client then writeFixSize chunk mask else return 1

/-- `WSSendMessage`: the `int32_t` it returns, and the message, which a client masks in place.
`rand_val` is what `rand()` returns. -/
def WSSendMessage (rand_val : UInt32) (garbage : UInt64) (msg : WSFrameMessage)
    (client fin : Bool) : EStateM StreamFault Duplex (Int × WSFrameMessage) := do
  let size := msg.data.length
  let head : WSFrameHead := {
    fin := fin
    opcode := BitVec.ofNat 4 (msg.opcode % 16).toNat
    mask := client
    payload := payloadField size }
  if (← writeFixSize chunk head.bytes) ≤ 0 then
    close
    return (-1, msg)
  else if (← writeLength chunk head.payload size garbage) ≤ 0 then
    close
    return (-1, msg)
  else
    let mask := wordBytes .littleEndian 4 rand_val.toNat
    let msg := { msg with data := if client then xorMask mask 0 msg.data else msg.data }
    if (← writeMask chunk client mask) ≤ 0 then
      close
      return (-1, msg)
    else if (← writeFixSize chunk msg.data) ≤ 0 then
      close
      return (-1, msg)
    else return (toInt (size + 2), msg)

/-- `WSPing` and `WSPong`: a head alone. -/
def sendControl (opcode : BitVec 4) : EStateM StreamFault Duplex Int := do
  let head : WSFrameHead := { fin := true, opcode := opcode, mask := false, payload := 0 }
  let v ← writeFixSize chunk head.bytes
  if v ≤ 0 then
    close
    return v
  else return v

def WSPing : EStateM StreamFault Duplex Int := sendControl chunk WSFrameHead.PING

def WSPong : EStateM StreamFault Duplex Int := sendControl chunk WSFrameHead.PONG

/-! ## Receiving -/

/-- How an iteration of `WSRecvMessage` stands when it comes to the payload. -/
inductive Heading
  | leave
  /-- No payload is read; the next head is. -/
  | skip
  | frame (head : WSFrameHead) (length : Nat) (mask : List UInt8)
deriving DecidableEq, Repr

/-- The length of a frame; `none` is a `break`. -/
def readLength (payload : BitVec 7) : EStateM StreamFault Duplex (Option Nat) :=
  if payload = 126 then do
    let (rt, len) ← readFixSize chunk (List.replicate 2 0) 0 2
    if rt ≤ 0 then return none
    else return some (byteswapOnLittleEndian .littleEndian 2 (wordOf .littleEndian len))
  else if payload = 127 then do
    let (rt, len) ← readFixSize chunk (List.replicate 8 0) 0 8
    if rt ≤ 0 then return none
    else return some (byteswapOnLittleEndian .littleEndian 8 (wordOf .littleEndian len))
  else return some payload.toNat

/-- The mask of a frame; `none` is a `break`. -/
def readMask (masked : Bool) : EStateM StreamFault Duplex (Option (List UInt8)) :=
  if masked then do
    let (rt, mask) ← readFixSize chunk (List.replicate 4 0) 0 4
    if rt ≤ 0 then return none
    else return some mask
  else return some (List.replicate 4 0)

/-- A data frame up to its payload. -/
def readFrame (maxSize : UInt32) (client : Bool) (curLen : Int) (head : WSFrameHead) :
    EStateM StreamFault Duplex Heading :=
  if !client && !head.mask then return .leave
  else do
    match ← readLength chunk head.payload with
    | none => return .leave
    | some length =>
        -- `cur_len + length` is a `uint64_t`.
        if maxSize.toNat ≤ (toSize curLen + length) % 2 ^ 64 then return .leave
        else
          match ← readMask chunk head.mask with
          | none => return .leave
          | some mask => return .frame head length mask

/-- The iteration up to the payload. -/
def readHeading (maxSize : UInt32) (client : Bool) (curLen : Int) :
    EStateM StreamFault Duplex Heading := do
  let (rt, bytes) ← readFixSize chunk (List.replicate 2 0) 0 2
  if rt ≤ 0 then return .leave
  else
    let head := WSFrameHead.ofBytes bytes
    if head.opcode = WSFrameHead.PING then
      -- Neither the mask nor the payload of a control frame is read.
      if (← WSPong chunk) ≤ 0 then return .leave
      else return .skip
    else if head.opcode = WSFrameHead.PONG then return .skip
    else if head.opcode = WSFrameHead.CONTINUE ∨ head.opcode = WSFrameHead.TEXT_FRAME ∨
        head.opcode = WSFrameHead.BIN_FRAME then
      readFrame chunk maxSize client curLen head
    else return .skip

/-- `data.resize(n)`. -/
def resize (data : List UInt8) (n : Nat) : List UInt8 :=
  data.take n ++ List.replicate (n - data.length) 0

/-- The decoding loop from `i` on, with `count` iterations to go.  The index `cur_len + i` is an
`int`. -/
def unmask (curLen : Int) (mask : List UInt8) :
    Nat → Nat → List UInt8 → EStateM StreamFault Duplex (List UInt8)
  | 0, _, data => return data
  | count + 1, i, data =>
      if 0 ≤ curLen + i ∧ curLen + i < data.length ∧ curLen + i < 2 ^ 31 then
        unmask curLen mask count (i + 1)
          (data.modify (curLen + i).toNat fun byte => byte ^^^ mask.getD (i % 4) 0)
      else throw .outOfBounds

/-- The payload of a masked frame is decoded in place. -/
def decode (masked : Bool) (curLen : Int) (mask : List UInt8) (length : Nat) (data : List UInt8) :
    EStateM StreamFault Duplex (List UInt8) :=
  if masked then unmask curLen mask (toInt length).toNat 0 data else return data

/-- The local variables of `WSRecvMessage`. -/
structure Received where
  opcode : Int := 0
  data : List UInt8 := []
  curLen : Int := 0
deriving DecidableEq, Repr

/-- The payload of a frame, up to the test of `fin`; `none` is a `break`. -/
def readPayload (recv : Received) (head : WSFrameHead) (length : Nat) (mask : List UInt8) :
    EStateM StreamFault Duplex (Option Received) := do
  let resized := resize recv.data ((toSize recv.curLen + length) % 2 ^ 64)
  let (rt, data) ← readFixSize chunk resized (toSize recv.curLen) length
  if rt ≤ 0 then return none
  else
    let data ← decode head.mask recv.curLen mask length data
    return some {
      opcode :=
        if recv.opcode = 0 ∧ head.opcode ≠ WSFrameHead.CONTINUE then head.opcode.toNat
        else recv.opcode
      data := data
      curLen := toInt ((toSize recv.curLen + length) % 2 ^ 64) }

/-- How an iteration ends. -/
inductive Turn
  | again (recv : Received)
  | message (msg : WSFrameMessage)
  | leave
deriving DecidableEq, Repr

/-- One iteration. -/
def turn (maxSize : UInt32) (client : Bool) (recv : Received) :
    EStateM StreamFault Duplex Turn := do
  match ← readHeading chunk maxSize client recv.curLen with
  | .leave => return .leave
  | .skip => return .again recv
  | .frame head length mask =>
      match ← readPayload chunk recv head length mask with
      | none => return .leave
      | some recv =>
          if head.fin then return .message ⟨recv.opcode, recv.data⟩
          else return .again recv

def recvLoop (maxSize : UInt32) (client : Bool) :
    Nat → Received → EStateM StreamFault Duplex (Option WSFrameMessage)
  | 0, _ => throw .noReturn
  | fuel + 1, recv => do
      match ← turn chunk maxSize client recv with
      | .again recv => recvLoop maxSize client fuel recv
      | .message msg => return some msg
      | .leave =>
          close
          return none

/-- `WSRecvMessage`.  Every iteration takes a head off the stream, or is the last. -/
def WSRecvMessage (maxSize : UInt32) (client : Bool) :
    EStateM StreamFault Duplex (Option WSFrameMessage) := do
  recvLoop chunk maxSize client ((← get).inbound.length + 1) {}

end Session

end Http
end Routn
