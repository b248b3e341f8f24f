import Mathlib.Tactic
import Routn.Http.ClientTable
import Routn.Http.HttpParser
import Routn.Http.HttpResponse
import Routn.Streams.Stream

/-!
# `httpclient_parser_execute` and `HttpResponseParser`

As for a request, the machine runs over a buffer and a callback gets a pointer into it.  The numbers
are read from the buffer by `strtol` and `atoi`, which stop at the first character that is no digit;
the machine calls them where a digit stands.

Left out are the members that nothing here looks at (`body_start`, `status`, `nread`), the callbacks
that do nothing, and the log.
-/

namespace Routn
namespace Http

open Foundation Client

/-- The value of a digit. -/
def digitValue (c : UInt8) : Nat :=
  if isdigit c then c.toNat - 48
  else if 65 ≤ c ∧ c ≤ 90 then c.toNat - 55
  else if 97 ≤ c ∧ c ≤ 122 then c.toNat - 87
  else 36

/-- `strtol(s, NULL, base)` on a digit; it stops at `LONG_MAX`. -/
def strtol (s : List UInt8) (base : Nat) : Nat :=
  min ((s.takeWhile fun c => decide (digitValue c < base)).foldl
    (fun n c => n * base + digitValue c) 0) (2 ^ 63 - 1)

/-- `atoi(s)` on a digit, as the bits of the `int`. -/
def atoi (s : List UInt8) : UInt32 := UInt32.ofNat (strtol s 10)

structure HttpclientParser where
  cs : Nat := httpclientParserStart
  contentLen : Int := -1
  chunked : Bool := false
  chunksDone : Bool := false
  close : Bool := false
  mark : Nat := 0
  fieldStart : Nat := 0
  fieldLen : Nat := 0
deriving DecidableEq, Repr

structure HttpResponseParser where
  parser : HttpclientParser := {}
  data : HttpResponse := {}
  error : Nat := 0
deriving DecidableEq, Repr

namespace HttpResponseParser

/-! ## The callbacks -/

def onResponseReason (start : List UInt8) (length : Nat) (P : HttpResponseParser) :
    Option HttpResponseParser :=
  (stdString start length).map fun v => { P with data := P.data.setReason v }

def onResponseStatus (start : List UInt8) (P : HttpResponseParser) : HttpResponseParser :=
  { P with data := P.data.setStatus ⟨atoi start⟩ }

def onResponseVersion (start : List UInt8) (length : Nat) (P : HttpResponseParser) :
    HttpResponseParser :=
  if strncmpEq start (chars ['H', 'T', 'T', 'P', '/', '1', '.', '1']) length then
    { P with data := P.data.setVersion 0x11 }
  else if strncmpEq start (chars ['H', 'T', 'T', 'P', '/', '1', '.', '0']) length then
    { P with data := P.data.setVersion 0x10 }
  else { P with error := 1001 }

def onResponseHttpField (field : List UInt8) (flen : Nat) (value : List UInt8) (vlen : Nat)
    (P : HttpResponseParser) : Option HttpResponseParser :=
  if flen = 0 then some P
  else
    (stdString field flen).bind fun key =>
      (stdString value vlen).map fun val => { P with data := P.data.setHeader key val }

/-! ## The actions -/

/-- An action at position `fpc` of the buffer; `none` when a callback throws. -/
def act (buffer : List UInt8) (fpc : Nat) (P : HttpResponseParser) :
    Action → Option HttpResponseParser
  | .mark => some { P with parser := { P.parser with mark := fpc } }
  | .startField => some { P with parser := { P.parser with fieldStart := fpc } }
  | .writeField =>
      some { P with parser := { P.parser with fieldLen := LEN P.parser.fieldStart fpc } }
  | .startValue => some { P with parser := { P.parser with mark := fpc } }
  | .writeContentLen =>
      some { P with parser := { P.parser with
        contentLen := toInt (strtol (buffer.drop P.parser.mark) 10) } }
  | .writeConnectionClose => some { P with parser := { P.parser with close := true } }
  | .writeValue =>
      onResponseHttpField (buffer.drop P.parser.fieldStart) P.parser.fieldLen
        (buffer.drop P.parser.mark) (LEN P.parser.mark fpc) P
  | .reasonPhrase => onResponseReason (buffer.drop P.parser.mark) (LEN P.parser.mark fpc) P
  | .statusCode => some (onResponseStatus (buffer.drop P.parser.mark) P)
  | .httpVersion => some (onResponseVersion (buffer.drop P.parser.mark) (LEN P.parser.mark fpc) P)
  | .chunkSize =>
      let contentLen := toInt (strtol (buffer.drop P.parser.mark) 16)
      some { P with parser := { P.parser with
        chunked := true, contentLen := contentLen, chunksDone := decide (contentLen ≤ 0) } }
  | .transChunked => some { P with parser := { P.parser with chunked := true } }
  | .done => some P

/-- The parser with the position `fpc` in the buffer. -/
def store (buffer : List UInt8) : Store UInt8 Action (Nat × HttpResponseParser) where
  exec := fun action g => (act buffer g.1 g.2 action).map fun P => (g.1, P)
  tick := fun _ g => (g.1 + 1, g.2)

/-! ## The members -/

/-- `httpclient_parser_init(&_parser)`. -/
def init (P : HttpResponseParser) : HttpResponseParser := { P with parser := {} }

/-- The members that `httpclient_parser_execute` sets first. -/
def restart (P : HttpResponseParser) : HttpResponseParser :=
  { P with parser := { P.parser with mark := 0, fieldLen := 0, fieldStart := 0 } }

def setState (P : HttpResponseParser) (cs : Nat) : HttpResponseParser :=
  { P with parser := { P.parser with cs := cs } }

/-- The `check`s at the end; where one fails the call returns -1. -/
def checks (P : HttpResponseParser) (len : Nat) : Prop :=
  P.parser.mark < len ∧ P.parser.fieldLen ≤ len ∧ P.parser.fieldStart < len

instance (P : HttpResponseParser) (len : Nat) : Decidable (P.checks len) :=
  inferInstanceAs (Decidable (_ ∧ _))

/-- `httpclient_parser_execute(&_parser, buffer, len, 0)`: what it returns, and the parser. -/
def httpclientParserExecute (buffer : List UInt8) (len : Nat) (P : HttpResponseParser) :
    Option (Int × HttpResponseParser) :=
  (control.run (store buffer) (buffer.take len) P.parser.cs (0, P.restart)).map fun r =>
    let P := r.2.2.2.setState r.2.1
    (if P.checks len then (r.2.2.1 : Int) else -1, P)

/-- `execute(data, len, chunk)`: what it returns, the bytes at `data` after `memmove`, and the
parser.  With -1 the `memmove` would start in front of the buffer; that is a fault, as a throw
is. -/
def execute (data : List UInt8) (len : Nat) (chunk : Bool) (P : HttpResponseParser) :
    Option (Nat × List UInt8 × HttpResponseParser) :=
  (httpclientParserExecute data len (if chunk then P.init else P)).bind fun r =>
    if r.1 = -1 then none
    else some (r.1.toNat, splice data 0 ((data.take len).drop r.1.toNat), r.2)

/-- `httpclient_parser_finish`, where one final state counts. -/
def isFinished (P : HttpResponseParser) : Int :=
  if P.parser.cs = httpclientParserError then -1
  else if P.parser.cs = httpclientParserFirstFinal then 1
  else 0

def hasError (P : HttpResponseParser) : Bool :=
  P.error ≠ 0 || P.parser.cs = httpclientParserError

end HttpResponseParser
end Http
end Routn
