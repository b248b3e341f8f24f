import Mathlib.Tactic
import Routn.ByteArray.Typed

/-!
# The messages of the Rock protocol

The base classes `Request`, `Response` and `Notify` (`Protocol.cpp`) and the body `RockBody`, and
the three message classes that combine a base class with a body (`RockProtocol.cpp`).  The virtual
`getType()` that the base classes write in front of their fields is a parameter.

A parser returns the message it filled, or `none` where the source returns `false`.
-/

open Routn.ByteArray

namespace Routn

/-! ## Base classes -/

namespace Message

def REQUEST : UInt8 := 1
def RESPONSE : UInt8 := 2
def NOTIFY : UInt8 := 3

end Message

structure Request where
  sn : UInt32 := 0
  cmd : UInt32 := 0
deriving DecidableEq, Repr

structure Response where
  sn : UInt32 := 0
  cmd : UInt32 := 0
  result : UInt32 := 404
  resStr : List UInt8 := "unavaliable".toUTF8.toList
deriving DecidableEq, Repr

structure Notify where
  notify : UInt32 := 0
deriving DecidableEq, Repr

def Request.serializeToByteArray (getType : UInt8) (m : Request) : ByteArrayM Bool := do
  writeFuint8 getType
  writeUint32 m.sn
  writeUint32 m.cmd
  return true

def Request.parseFromByteArray : ByteArrayM Request := do
  let sn ← readUint32
  let cmd ← readUint32
  return { sn, cmd }

def Response.serializeToByteArray (getType : UInt8) (m : Response) : ByteArrayM Bool := do
  writeFuint8 getType
  writeUint32 m.sn
  writeUint32 m.cmd
  writeUint32 m.result
  writeStringVint m.resStr
  return true

def Response.parseFromByteArray : ByteArrayM Response := do
  let sn ← readUint32
  let cmd ← readUint32
  let result ← readUint32
  let resStr ← readStringVint
  return { sn, cmd, result, resStr }

def Notify.serializeToByteArray (getType : UInt8) (m : Notify) : ByteArrayM Bool := do
  writeFuint8 getType
  writeUint32 m.notify
  return true

def Notify.parseFromByteArray : ByteArrayM Notify := do
  let notify ← readUint32
  return { notify }

/-! ## Bodies and messages -/

variable (host : ByteOrder)

structure RockBody where
  body : List UInt8 := []
deriving DecidableEq, Repr

def RockBody.serializeToByteArray (m : RockBody) : ByteArrayM Bool := do
  writeStringF32 host m.body
  return true

def RockBody.parseFromByteArray : ByteArrayM RockBody := do
  let body ← readStringF32 host
  return { body }

structure RockRequest extends Request, RockBody
deriving DecidableEq, Repr

structure RockResponse extends Response, RockBody
deriving DecidableEq, Repr

structure RockNotify extends Notify, RockBody
deriving DecidableEq, Repr

/-- `try { x } catch (...) { return fallback; }`: a null dereference is not an exception. -/
def catchAll {σ α : Type} (x : EStateM Fault σ α) (fallback : α) : EStateM Fault σ α := fun s =>
  match x s with
  | .error (.outOfRange _) s' => .ok fallback s'
  | r => r

def RockRequest.serializeToByteArray (m : RockRequest) : ByteArrayM Bool :=
  catchAll (do
    let v ← m.toRequest.serializeToByteArray Message.REQUEST
    let v' ← m.toRockBody.serializeToByteArray host
    return v && v') false

def RockRequest.parseFromByteArray : ByteArrayM (Option RockRequest) :=
  catchAll (do
    let base ← Request.parseFromByteArray
    let body ← RockBody.parseFromByteArray host
    return some { base, body with }) none

def RockResponse.serializeToByteArray (m : RockResponse) : ByteArrayM Bool :=
  catchAll (do
    let v ← m.toResponse.serializeToByteArray Message.RESPONSE
    let v' ← m.toRockBody.serializeToByteArray host
    return v && v') false

def RockResponse.parseFromByteArray : ByteArrayM (Option RockResponse) :=
  catchAll (do
    let base ← Response.parseFromByteArray
    let body ← RockBody.parseFromByteArray host
    return some { base, body with }) none

def RockNotify.serializeToByteArray (m : RockNotify) : ByteArrayM Bool :=
  catchAll (do
    let v ← m.toNotify.serializeToByteArray Message.NOTIFY
    let v' ← m.toRockBody.serializeToByteArray host
    return v && v') false

def RockNotify.parseFromByteArray : ByteArrayM (Option RockNotify) :=
  catchAll (do
    let base ← Notify.parseFromByteArray
    let body ← RockBody.parseFromByteArray host
    return some { base, body with }) none

/-- A message, by its concrete type. -/
inductive RockMessage
  | request (m : RockRequest)
  | response (m : RockResponse)
  | notify (m : RockNotify)
deriving DecidableEq, Repr

def RockMessage.serializeToByteArray : RockMessage → ByteArrayM Bool
  | .request m => m.serializeToByteArray host
  | .response m => m.serializeToByteArray host
  | .notify m => m.serializeToByteArray host

/-- `Message::toByteArray`: into an array with the default page size, and the byte order it starts
with. -/
def RockMessage.toByteArray (heap : Nat → Nat → UInt8) (m : RockMessage) :
    Except Fault (Option ByteArray) :=
  match m.serializeToByteArray host (ByteArray.new heap 4096) with
  | .ok true ba => .ok (some ba)
  | .ok false _ => .ok none
  | .error fault _ => .error fault

end Routn
