import Mathlib.Data.List.Basic
import Mathlib.Tactic

/-!
# `HttpRequest`

The request as the parser fills it and the session returns it, with the C functions on characters
it rests on.  The parameters and the cookies are left out: they are parsed later, on demand.
-/

namespace Routn
namespace Http

/-- The characters of a string literal. -/
def chars (s : List Char) : List UInt8 := s.map Char.toUInt8

/-- `strncmp(a, b, n) == 0`; zeros follow the end of a string. -/
def strncmpEq : List UInt8 → List UInt8 → Nat → Bool
  | _, _, 0 => true
  | a, b, n + 1 =>
      a.headD 0 == b.headD 0 && (a.headD 0 == 0 || strncmpEq a.tail b.tail n)

def tolower (c : UInt8) : UInt8 := if 65 ≤ c ∧ c ≤ 90 then c + 32 else c

/-- `strcasecmp(a, b) == 0` on strings without a zero. -/
def strcasecmpEq (a b : List UInt8) : Bool := a.map tolower == b.map tolower

inductive HttpMethod
  | DELETE
  | GET
  | HEAD
  | POST
  | PUT
  | CONNECT
  | OPTIONS
  | TRACE
  | COPY
  | LOCK
  | MKCOL
  | MOVE
  | PROPFIND
  | PROPPATCH
  | SEARCH
  | UNLOCK
  | BIND
  | REBIND
  | UNBIND
  | ACL
  | REPORT
  | MKACTIVITY
  | CHECKOUT
  | MERGE
  | MSEARCH
  | NOTIFY
  | SUBSCRIBE
  | UNSUBSCRIBE
  | PATCH
  | PURGE
  | MKCALENDAR
  | LINK
  | UNLINK
  | SOURCE
  | INVALID_METHOD
deriving DecidableEq, Repr

/-- `HTTP_METHOD_MAP`.  The name of `MSEARCH` is made from the tokens `M - SEARCH`, with blanks. -/
def httpMethodMap : List (HttpMethod × List UInt8) := [
  (.DELETE, chars ['D', 'E', 'L', 'E', 'T', 'E']),
  (.GET, chars ['G', 'E', 'T']),
  (.HEAD, chars ['H', 'E', 'A', 'D']),
  (.POST, chars ['P', 'O', 'S', 'T']),
  (.PUT, chars ['P', 'U', 'T']),
  (.CONNECT, chars ['C', 'O', 'N', 'N', 'E', 'C', 'T']),
  (.OPTIONS, chars ['O', 'P', 'T', 'I', 'O', 'N', 'S']),
  (.TRACE, chars ['T', 'R', 'A', 'C', 'E']),
  (.COPY, chars ['C', 'O', 'P', 'Y']),
  (.LOCK, chars ['L', 'O', 'C', 'K']),
  (.MKCOL, chars ['M', 'K', 'C', 'O', 'L']),
  (.MOVE, chars ['M', 'O', 'V', 'E']),
  (.PROPFIND, chars ['P', 'R', 'O', 'P', 'F', 'I', 'N', 'D']),
  (.PROPPATCH, chars ['P', 'R', 'O', 'P', 'P', 'A', 'T', 'C', 'H']),
  (.SEARCH, chars ['S', 'E', 'A', 'R', 'C', 'H']),
  (.UNLOCK, chars ['U', 'N', 'L', 'O', 'C', 'K']),
  (.BIND, chars ['B', 'I', 'N', 'D']),
  (.REBIND, chars ['R', 'E', 'B', 'I', 'N', 'D']),
  (.UNBIND, chars ['U', 'N', 'B', 'I', 'N', 'D']),
  (.ACL, chars ['A', 'C', 'L']),
  (.REPORT, chars ['R', 'E', 'P', 'O', 'R', 'T']),
  (.MKACTIVITY, chars ['M', 'K', 'A', 'C', 'T', 'I', 'V', 'I', 'T', 'Y']),
  (.CHECKOUT, chars ['C', 'H', 'E', 'C', 'K', 'O', 'U', 'T']),
  (.MERGE, chars ['M', 'E', 'R', 'G', 'E']),
  (.MSEARCH, chars ['M', ' ', '-', ' ', 'S', 'E', 'A', 'R', 'C', 'H']),
  (.NOTIFY, chars ['N', 'O', 'T', 'I', 'F', 'Y']),
  (.SUBSCRIBE, chars ['S', 'U', 'B', 'S', 'C', 'R', 'I', 'B', 'E']),
  (.UNSUBSCRIBE, chars ['U', 'N', 'S', 'U', 'B', 'S', 'C', 'R', 'I', 'B', 'E']),
  (.PATCH, chars ['P', 'A', 'T', 'C', 'H']),
  (.PURGE, chars ['P', 'U', 'R', 'G', 'E']),
  (.MKCALENDAR, chars ['M', 'K', 'C', 'A', 'L', 'E', 'N', 'D', 'A', 'R']),
  (.LINK, chars ['L', 'I', 'N', 'K']),
  (.UNLINK, chars ['U', 'N', 'L', 'I', 'N', 'K']),
  (.SOURCE, chars ['S', 'O', 'U', 'R', 'C', 'E'])]

/-- `CharsToHttpMethod(m)`: the first name that the characters at `m` start with. -/
def charsToHttpMethod (m : List UInt8) : HttpMethod :=
  match httpMethodMap.find? fun entry => strncmpEq entry.2 m entry.2.length with
  | some entry => entry.1
  | none => .INVALID_METHOD

structure HttpRequest where
  method : HttpMethod := .GET
  version : UInt8 := 0x11
  close : Bool := true
  path : List UInt8 := chars ['/']
  query : List UInt8 := []
  fragment : List UInt8 := []
  body : List UInt8 := []
  /-- The map, whose keys are compared by `strcasecmp`; the order of the entries plays no role. -/
  headers : List (List UInt8 × List UInt8) := []
deriving DecidableEq, Repr

namespace HttpRequest

/-- `_headers[key] = val`. -/
def setHeader (r : HttpRequest) (key val : List UInt8) : HttpRequest :=
  if r.headers.any fun entry => strcasecmpEq entry.1 key then
    { r with headers := r.headers.map fun entry =>
        if strcasecmpEq entry.1 key then (entry.1, val) else entry }
  else { r with headers := r.headers ++ [(key, val)] }

def findHeader (r : HttpRequest) (key : List UInt8) : Option (List UInt8) :=
  (r.headers.find? fun entry => strcasecmpEq entry.1 key).map (·.2)

/-- `getHeader(key)`. -/
def getHeader (r : HttpRequest) (key : List UInt8) : List UInt8 := (r.findHeader key).getD []

def init (r : HttpRequest) : HttpRequest :=
  let conn := r.getHeader (chars ['c', 'o', 'n', 'n', 'e', 'c', 't', 'i', 'o', 'n'])
  let keepAlive := chars ['k', 'e', 'e', 'p', '-', 'a', 'l', 'i', 'v', 'e']
  if conn.isEmpty then r else { r with close := !strcasecmpEq conn keepAlive }

/-- `getHeaderAs<uint64_t>("content-length", 0)`; `lexicalCast` is `boost::lexical_cast`, `none`
where it throws. -/
def contentLength (lexicalCast : List UInt8 → Option UInt64) (r : HttpRequest) : UInt64 :=
  ((r.findHeader (chars ['c', 'o', 'n', 't', 'e', 'n', 't', '-', 'l', 'e', 'n', 'g', 't',
    'h'])).bind lexicalCast).getD 0

end HttpRequest

/-! ## The names of the methods -/

theorem strncmpEq_iff {name : List UInt8} (hname : 0 ∉ name) (m : List UInt8) :
    strncmpEq name m name.length = true ↔ name <+: m := by
  induction name generalizing m with
  | nil => exact iff_of_true rfl (List.nil_prefix)
  | cons x xs ih =>
      have hx : 0 ≠ x := List.ne_of_not_mem_cons hname
      have hxs : 0 ∉ xs := List.not_mem_of_not_mem_cons hname
      cases m with
      | nil =>
          refine iff_of_false ?_ (fun h => nomatch List.prefix_nil.mp h)
          simp [strncmpEq, Ne.symm hx]
      | cons y ys =>
          rw [List.cons_prefix_cons, ← ih hxs]
          simp [strncmpEq, Ne.symm hx]

theorem httpMethodMap_nonzero : ∀ entry ∈ httpMethodMap, (0 : UInt8) ∉ entry.2 := by decide

/-- Some name goes on after the token and the blank behind it, so that comparing with it reads what
follows the blank. -/
def peeks (token : List UInt8) : Bool :=
  httpMethodMap.any fun entry => (token ++ [32]).isPrefixOf entry.2

/-- A name that does not go on past the blank is a prefix of the memory or not by the token. -/
theorem prefix_token {name token rest : List UInt8} (hblank : ¬ token ++ [32] <+: name) :
    name <+: token ++ 32 :: rest ↔ name <+: token := by
  constructor
  · intro h
    rcases Nat.lt_or_ge token.length name.length with hlong | hshort
    · refine absurd (List.prefix_of_prefix_length_le ?_ h ?_) hblank
      · exact ⟨rest, by rw [List.append_assoc]; rfl⟩
      · rw [List.length_append]
        exact hlong
    · exact List.prefix_of_prefix_length_le h (List.prefix_append _ _) hshort
  · exact fun h => h.trans (List.prefix_append _ _)

/-- **What follows the blank plays no role**, unless some name goes on there. -/
theorem charsToHttpMethod_token {token rest : List UInt8} (hpeeks : peeks token = false) :
    charsToHttpMethod (token ++ 32 :: rest) = charsToHttpMethod token := by
  have hsame : ∀ entry ∈ httpMethodMap,
      strncmpEq entry.2 (token ++ 32 :: rest) entry.2.length =
        strncmpEq entry.2 token entry.2.length := by
    intro entry hentry
    have hzero := httpMethodMap_nonzero entry hentry
    have hblank : ¬ token ++ [32] <+: entry.2 := by
      intro h
      have hany := List.any_eq_false.mp hpeeks entry hentry
      exact hany (List.isPrefixOf_iff_prefix.mpr h)
    rw [Bool.eq_iff_iff, strncmpEq_iff hzero, strncmpEq_iff hzero]
    exact prefix_token hblank
  have hfind : (httpMethodMap.find? fun entry =>
      strncmpEq entry.2 (token ++ 32 :: rest) entry.2.length) =
      httpMethodMap.find? fun entry => strncmpEq entry.2 token entry.2.length :=
    List.find?_congr hsame
  rw [charsToHttpMethod, hfind, charsToHttpMethod]

end Http
end Routn
