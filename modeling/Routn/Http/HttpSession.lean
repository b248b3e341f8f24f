import Mathlib.Tactic
import Routn.Http.HttpParser
import Routn.Streams.Duplex

/-!
# `HttpSession::recvRequest`

The loop reads into a buffer and hands what is there to the parser until the head is complete; the
body is taken from what is left in the buffer and then from the stream.  The buffer is local to the
call.
-/

namespace Routn
namespace Http
namespace HttpSession

open Foundation

/-- What the memory of the buffer and of the parser holds before they are written. -/
structure Uninit where
  buffer : List UInt8
  queryStart : Nat
  uriRelaxed : Bool
deriving DecidableEq, Repr

/-- What a call returns; `threw` is an exception that leaves it. -/
inductive Received
  | request (r : HttpRequest)
  | nullptr
  | threw
deriving DecidableEq, Repr

/-- How the loop ends. -/
inductive HeadEnd
  | threw
  | failed
  | head (data : List UInt8) (offset : Nat) (parser : HttpRequestParser)
deriving DecidableEq, Repr

/-- How an iteration ends. -/
inductive Turn
  | again (data : List UInt8) (offset : Nat) (parser : HttpRequestParser)
  | leave (e : HeadEnd)
deriving DecidableEq, Repr

/-- An iteration after its read; `len` bytes of `data` are filled. -/
def turn (buffSize : Nat) (data : List UInt8) (len : Nat) (parser : HttpRequestParser) : Turn :=
  match parser.execute data len with
  | none => .leave .threw
  | some (nparse, data, parser) =>
      if parser.hasError then .leave .failed
      else if ((len - nparse : Nat) : Int) = toInt buffSize then .leave .failed
      else if parser.isFinished ≠ 0 then .leave (.head data (len - nparse) parser)
      else .again data (len - nparse) parser

section Receiving

variable (chunk : Nat → Nat)

/-- The loop, with a bound on the number of its iterations. -/
def recvHead (buffSize : Nat) :
    Nat → List UInt8 → Nat → HttpRequestParser → EStateM StreamFault Duplex HeadEnd
  | 0, _, _, _ => throw .noReturn
  | fuel + 1, data, offset, parser => do
      modify fun d => { d with memory := data }
      let len ← Duplex.read chunk 0 offset (buffSize - offset)
      if len ≤ 0 then return .failed
      else
        match turn buffSize (← get).memory (offset + len.toNat) parser with
        | .again data offset parser => recvHead buffSize fuel data offset parser
        | .leave e => return e

/-- `setBody(body)` and `init()`. -/
def finish (r : HttpRequest) (body : List UInt8) : HttpRequest := { r with body := body }.init

/-- The body: what is in the buffer, then `readFixSize`.  Memory for it is taken to be there. -/
def recvBody (length : Int) (data : List UInt8) (offset : Nat) (r : HttpRequest) :
    EStateM StreamFault Duplex Received :=
  if 0 < length then do
    let len := if offset ≤ length.toNat then offset else length.toNat
    let body := splice (List.replicate length.toNat 0) 0 (data.take len)
    if 0 < length - offset then
      let (rt, body) ← Duplex.readFixSize chunk body len (length - offset).toNat
      if rt ≤ 0 then
        Duplex.close
        return .nullptr
      else return .request (finish r body)
    else return .request (finish r body)
  else return .request r.init

/-- `recvRequest()`; `buffSize` is `GetHttpRequestBufferSize()`. -/
def recvRequest (lexicalCast : List UInt8 → Option UInt64) (buffSize : Nat) (mem : Uninit) :
    EStateM StreamFault Duplex Received := do
  let parser : HttpRequestParser :=
    { parser := { queryStart := mem.queryStart, uriRelaxed := mem.uriRelaxed } }
  -- Each iteration but the last takes a byte at least.
  match ← recvHead chunk buffSize ((← get).inbound.length + 1) mem.buffer 0 parser with
  | .threw => return .threw
  | .failed =>
      Duplex.close
      return .nullptr
  | .head data offset parser =>
      let length : Int := (parser.data.contentLength lexicalCast).toBitVec.toInt
      recvBody chunk length data offset parser.data

end Receiving

end HttpSession
end Http
end Routn
