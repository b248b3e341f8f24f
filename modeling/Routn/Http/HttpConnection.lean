import Mathlib.Tactic
import Routn.Http.ResponseParser
import Routn.Streams.Duplex

/-!
# `HttpConnection::recvResponse`

The head is read as a request's is.  A body is taken by its announced length, or chunk by chunk: the
parser is set up anew for each size line, and the payload is taken from the buffer and then from the
stream.  The buffer has one byte more than is read into it, for the zero that is put behind what is
there.
-/

namespace Routn
namespace Http
namespace HttpConnection

open Foundation

/-- What a call returns; `threw` is an exception that leaves it. -/
inductive Received
  | response (r : HttpResponse)
  | nullptr
  | threw
deriving DecidableEq, Repr

/-- How a loop that parses ends. -/
inductive ParseEnd
  | threw
  | failed
  | finished (data : List UInt8) (len : Nat) (parser : HttpResponseParser)
deriving DecidableEq, Repr

/-- How an iteration ends. -/
inductive Turn
  | again (data : List UInt8) (len : Nat) (parser : HttpResponseParser)
  | leave (e : ParseEnd)
deriving DecidableEq, Repr

/-- How the body ends. -/
inductive BodyEnd
  | threw
  /-- The stream ended inside the body, and is not closed. -/
  | nullptr
  /-- The stream is closed. -/
  | failed
  /-- The chunks are read; an extension of one may have set a header. -/
  | body (body : List UInt8) (parser : HttpResponseParser)
deriving DecidableEq, Repr

/-- An iteration behind its read; `len` bytes of `data` are filled. -/
def turn (buffSize : Nat) (chunk : Bool) (data : List UInt8) (len : Nat)
    (parser : HttpResponseParser) : Turn :=
  match parser.execute (splice data len [0]) len chunk with
  | none => .leave .threw
  | some (nparse, data, parser) =>
      if parser.hasError then .leave .failed
      else if ((len - nparse : Nat) : Int) = toInt buffSize then .leave .failed
      else if parser.isFinished ≠ 0 then .leave (.finished data (len - nparse) parser)
      else .again data (len - nparse) parser

section Receiving

variable (chunk : Nat → Nat)

/-- A loop that reads and parses, with a bound on the number of its iterations.  `skip` says that
the first iteration parses what is in the buffer. -/
def parseLoop (buffSize : Nat) (chunked : Bool) :
    Nat → Bool → List UInt8 → Nat → HttpResponseParser → EStateM StreamFault Duplex ParseEnd
  | 0, _, _, _, _ => throw .noReturn
  | fuel + 1, true, data, len, parser =>
      match turn buffSize chunked data len parser with
      | .again data len parser => parseLoop buffSize chunked fuel false data len parser
      | .leave e => return e
  | fuel + 1, false, data, len, parser => do
      modify fun d => { d with memory := data }
      let ret ← Duplex.read chunk 0 len (buffSize - len)
      if ret ≤ 0 then return .failed
      else
        match turn buffSize chunked (← get).memory (len + ret.toNat) parser with
        | .again data len parser => parseLoop buffSize chunked fuel false data len parser
        | .leave e => return e

/-- `while(left > 0)`: what is appended to the body, `none` when the stream ends. -/
def leftLoop (buffSize : Nat) :
    Nat → Int → List UInt8 → EStateM StreamFault Duplex (Option (List UInt8))
  | 0, left, _ => if 0 < left then throw .noReturn else return some []
  | fuel + 1, left, data =>
      if 0 < left then do
        modify fun d => { d with memory := data }
        let ret ← Duplex.read chunk 0 0 (if toInt buffSize < left then buffSize else left.toNat)
        if ret ≤ 0 then return none
        else do
          let data := (← get).memory
          match ← leftLoop buffSize fuel (left - ret) data with
          | none => return none
          | some more => return some (data.take ret.toNat ++ more)
      else return some []

/-- `body.append(data, n)` for an `int`; a negative one is a `size_t` that is too large, and
`std::length_error` is thrown. -/
def append (body data : List UInt8) (n : Int) : Option (Except StreamFault (List UInt8)) :=
  if n < 0 then none
  else if data.length < n.toNat then some (.error .outOfBounds)
  else some (.ok (body ++ data.take n.toNat))

/-- What is behind a size line: the body, and the buffer with its `len` bytes, or how the loop
ends. -/
def takeChunk (buffSize : Nat) (body data : List UInt8) (len : Nat) (contentLen : Int) :
    EStateM StreamFault Duplex (Except BodyEnd (List UInt8 × List UInt8 × Nat)) := do
  -- The sum of two `int`s.
  let contentEnd : Int := (contentLen + 2 + 2 ^ 31) % 2 ^ 32 - 2 ^ 31
  if contentEnd ≤ len then
    match append body data contentLen with
    | none => return .error .threw
    | some (.error fault) => throw fault
    | some (.ok body) =>
        let rest := (data.take len).drop contentEnd.toNat
        return .ok (body, splice data 0 rest, len - contentEnd.toNat)
  else
    -- `len = 0` comes before `left` is computed from it.
    match ← leftLoop chunk buffSize ((← get).inbound.length + 1) contentEnd data with
    | none => return .error .nullptr
    | some more =>
        let body := body ++ data.take len ++ more
        if body.length < 2 then return .error .threw
        else return .ok (body.take (body.length - 2), (← get).memory, 0)

/-- The loop over the chunks. -/
def chunkLoop (buffSize : Nat) :
    Nat → List UInt8 → List UInt8 → Nat → HttpResponseParser → EStateM StreamFault Duplex BodyEnd
  | 0, _, _, _, _ => throw .noReturn
  | fuel + 1, body, data, len, parser => do
      match ← parseLoop chunk buffSize true ((← get).inbound.length + 2) (decide (len ≠ 0)) data len
          parser with
      | .threw => return .threw
      | .failed => return .failed
      | .finished data len parser =>
          match ← takeChunk chunk buffSize body data len parser.parser.contentLen with
          | .error e => return e
          | .ok (body, data, len) =>
              if parser.parser.chunksDone then return .body body parser
              else chunkLoop buffSize fuel body data len parser

/-- What is done to the body at the end, when it is not empty.  `uncompress` is `ZLIBStream` on the
bytes; `none` where the encoding is neither `gzip` nor `deflate`. -/
def decode (uncompress : Bool → List UInt8 → List UInt8) (r : HttpResponse) (body : List UInt8) :
    List UInt8 :=
  let encoding := r.getHeader (chars ['c', 'o', 'n', 't', 'e', 'n', 't', '-', 'e', 'n', 'c', 'o',
    'd', 'i', 'n', 'g'])
  if strcasecmpEq encoding (chars ['g', 'z', 'i', 'p']) then uncompress true body
  else if strcasecmpEq encoding (chars ['d', 'e', 'f', 'l', 'a', 't', 'e']) then
    uncompress false body
  else body

/-- A body of the announced length.  It is a second variable `body`: the first one stays empty, and
this one is not decoded. -/
def recvBody (length : Int) (data : List UInt8) (offset : Nat) (r : HttpResponse) :
    EStateM StreamFault Duplex Received :=
  if 0 < length then do
    let len := if offset ≤ length.toNat then offset else length.toNat
    let body := splice (List.replicate length.toNat 0) 0 (data.take len)
    if 0 < length - offset then
      let (rt, body) ← Duplex.readFixSize chunk body len (length - offset).toNat
      if rt ≤ 0 then
        Duplex.close
        return .nullptr
      else return .response (r.setBody body)
    else return .response (r.setBody body)
  else return .response r

/-- `recvResponse()`; `buffSize` is `GetHttpResponseBufferSize()` and `mem` is what the buffer holds
before it is written. -/
def recvResponse (lexicalCast : List UInt8 → Option UInt64)
    (uncompress : Bool → List UInt8 → List UInt8) (buffSize : Nat) (mem : List UInt8) :
    EStateM StreamFault Duplex Received := do
  match ← parseLoop chunk buffSize false ((← get).inbound.length + 1) false mem 0 {} with
  | .threw => return .threw
  | .failed =>
      Duplex.close
      return .nullptr
  | .finished data offset parser =>
      if parser.parser.chunked then
        match ← chunkLoop chunk buffSize (offset + (← get).inbound.length + 1) [] data offset
            parser with
        | .threw => return .threw
        | .nullptr => return .nullptr
        | .failed =>
            Duplex.close
            return .nullptr
        | .body body parser =>
            let r := parser.data.setBody body
            if body.isEmpty then return .response r
            else return .response (r.setBody (decode uncompress r body))
      else
        let length : Int := (parser.data.contentLength lexicalCast).toBitVec.toInt
        recvBody chunk length data offset parser.data

end Receiving

end HttpConnection
end Http
end Routn
