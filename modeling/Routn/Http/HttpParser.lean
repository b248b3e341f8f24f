import Mathlib.Tactic
import Routn.Foundation.Control
import Routn.Foundation.Splice
import Routn.Http.Http11Table
import Routn.Http.HttpRequest

/-!
# `http_parser_execute` and `HttpRequestParser`

The parser runs the machine over a buffer and keeps where a token began as a position in that
buffer; a callback gets a pointer into the buffer and a length.  `http_parser_execute` sets the
positions back to zero each time it is called, and keeps the state of the machine.

Left out are the members of `http_parser` that `HttpRequestParser` does not look at (`body_start`,
`content_len`, `xml_sent`, `json_sent`), the callbacks that do nothing, and the log.
-/

namespace Routn
namespace Http

open Foundation Machine

/-- `uri_relaxed` and `query_start` are not set by `http_parser_init`. -/
structure HttpParser where
  cs : Nat := httpParserStart
  mark : Nat := 0
  fieldStart : Nat := 0
  fieldLen : Nat := 0
  queryStart : Nat
  uriRelaxed : Bool
deriving DecidableEq, Repr

structure HttpRequestParser where
  parser : HttpParser
  data : HttpRequest := {}
  error : Nat := 0
deriving DecidableEq, Repr

/-- `LEN(AT, FPC)`, a `size_t`. -/
def LEN (start fpc : Nat) : Nat := (fpc + 2 ^ 64 - start) % 2 ^ 64

/-- `std::string(start, length)`.  A length that does not stay in the buffer has wrapped around,
and the constructor throws `std::length_error`. -/
def stdString (start : List UInt8) (length : Nat) : Option (List UInt8) :=
  if length ≤ start.length then some (start.take length) else none

namespace HttpRequestParser

/-! ## The callbacks -/

def onRequestMethod (start : List UInt8) (P : HttpRequestParser) : HttpRequestParser :=
  if charsToHttpMethod start = .INVALID_METHOD then { P with error := 1000 }
  else { P with data := { P.data with method := charsToHttpMethod start } }

def onRequestFragment (start : List UInt8) (length : Nat) (P : HttpRequestParser) :
    Option HttpRequestParser :=
  (stdString start length).map fun v => { P with data := { P.data with fragment := v } }

def onRequestPath (start : List UInt8) (length : Nat) (P : HttpRequestParser) :
    Option HttpRequestParser :=
  (stdString start length).map fun v => { P with data := { P.data with path := v } }

def onRequestQuery (start : List UInt8) (length : Nat) (P : HttpRequestParser) :
    Option HttpRequestParser :=
  (stdString start length).map fun v => { P with data := { P.data with query := v } }

def onRequestVersion (start : List UInt8) (length : Nat) (P : HttpRequestParser) :
    HttpRequestParser :=
  if strncmpEq start (chars ['H', 'T', 'T', 'P', '/', '1', '.', '1']) length then
    { P with data := { P.data with version := 0x11 } }
  else if strncmpEq start (chars ['H', 'T', 'T', 'P', '/', '1', '.', '0']) length then
    { P with data := { P.data with version := 0x10 } }
  else { P with error := 1001 }

def onRequestHttpField (field : List UInt8) (flen : Nat) (value : List UInt8) (vlen : Nat)
    (P : HttpRequestParser) : Option HttpRequestParser :=
  if flen = 0 then some P
  else
    (stdString field flen).bind fun key =>
      (stdString value vlen).map fun val => { P with data := P.data.setHeader key val }

/-! ## The actions -/

/-- An action at position `fpc` of the buffer; `none` when a callback throws. -/
def act (buffer : List UInt8) (fpc : Nat) (P : HttpRequestParser) :
    Action → Option HttpRequestParser
  | .mark => some { P with parser := { P.parser with mark := fpc } }
  | .startField => some { P with parser := { P.parser with fieldStart := fpc } }
  | .writeField =>
      some { P with parser := { P.parser with fieldLen := LEN P.parser.fieldStart fpc } }
  | .startValue => some { P with parser := { P.parser with mark := fpc } }
  | .writeValue =>
      onRequestHttpField (buffer.drop P.parser.fieldStart) P.parser.fieldLen
        (buffer.drop P.parser.mark) (LEN P.parser.mark fpc) P
  | .requestMethod => some (onRequestMethod (buffer.drop P.parser.mark) P)
  | .requestUri => some P
  | .fragment => onRequestFragment (buffer.drop P.parser.mark) (LEN P.parser.mark fpc) P
  | .startQuery => some { P with parser := { P.parser with queryStart := fpc } }
  | .queryString =>
      onRequestQuery (buffer.drop P.parser.queryStart) (LEN P.parser.queryStart fpc) P
  | .httpVersion => some (onRequestVersion (buffer.drop P.parser.mark) (LEN P.parser.mark fpc) P)
  | .requestPath => onRequestPath (buffer.drop P.parser.mark) (LEN P.parser.mark fpc) P
  | .done => some P
  | .xml => some P
  | .json => some P

/-- The parser with the position `fpc` in the buffer. -/
def store (buffer : List UInt8) : Store UInt8 Action (Nat × HttpRequestParser) where
  exec := fun action g => (act buffer g.1 g.2 action).map fun P => (g.1, P)
  tick := fun _ g => (g.1 + 1, g.2)

/-! ## The members -/

/-- The members that `http_parser_execute` sets first. -/
def restart (P : HttpRequestParser) : HttpRequestParser :=
  { P with parser := { P.parser with mark := 0, fieldLen := 0, fieldStart := 0 } }

/-- `parser->cs = cs`, unless the parser has had an error. -/
def setState (P : HttpRequestParser) (before cs : Nat) : HttpRequestParser :=
  { P with parser := { P.parser with cs := if before = httpParserError then before else cs } }

/-- `http_parser_execute(&_parser, buffer, len, off)`: what it returns, and the parser after it. -/
def httpParserExecute (buffer : List UInt8) (len off : Nat) (P : HttpRequestParser) :
    Option (Nat × HttpRequestParser) :=
  if len = 0 then some (0, P)
  else
    ((control P.parser.uriRelaxed).run (store buffer) ((buffer.take len).drop off) P.parser.cs
      (off, P.restart)).map fun r => (r.2.2.1 - off, r.2.2.2.setState P.parser.cs r.2.1)

/-- `execute(data, len)`: what it returns, the bytes at `data` after `memmove`, and the parser. -/
def execute (data : List UInt8) (len : Nat) (P : HttpRequestParser) :
    Option (Nat × List UInt8 × HttpRequestParser) :=
  (httpParserExecute data len 0 P).map fun r =>
    (r.1, splice data 0 ((data.take len).drop r.1), r.2)

/-- `http_parser_finish`. -/
def isFinished (P : HttpRequestParser) : Int :=
  if P.parser.cs = httpParserError then -1
  else if httpParserFirstFinal ≤ P.parser.cs then 1
  else 0

def hasError (P : HttpRequestParser) : Bool :=
  P.error ≠ 0 || P.parser.cs = httpParserError

end HttpRequestParser
end Http
end Routn
