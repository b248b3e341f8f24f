import Mathlib.Tactic
import Routn.Http.RequestDump

/-!
# `HttpResponse`

The response with its setters, and `dump`, which writes it.  `_websocket` is left out: it decides
nothing here.  A date for a cookie is printed by `TimerToString`, which is a parameter.
-/

namespace Routn
namespace Http

/-- A value of the enumeration, whose type is an `int`; the client makes one of any number. -/
structure HttpStatus where
  code : UInt32
deriving DecidableEq, Repr

/-- `HTTP_STATUS_MAP`, the codes with their descriptions. -/
def httpStatusMap : List (HttpStatus × List UInt8) := [
  (⟨100⟩, chars ['C', 'o', 'n', 't', 'i', 'n', 'u', 'e']),
  (⟨101⟩, chars ['S', 'w', 'i', 't', 'c', 'h', 'i', 'n', 'g', ' ', 'P', 'r', 'o', 't', 'o', 'c',
    'o', 'l', 's']),
  (⟨102⟩, chars ['P', 'r', 'o', 'c', 'e', 's', 's', 'i', 'n', 'g']),
  (⟨200⟩, chars ['O', 'K']),
  (⟨201⟩, chars ['C', 'r', 'e', 'a', 't', 'e', 'd']),
  (⟨202⟩, chars ['A', 'c', 'c', 'e', 'p', 't', 'e', 'd']),
  (⟨203⟩, chars ['N', 'o', 'n', ' ', '-', ' ', 'A', 'u', 't', 'h', 'o', 'r', 'i', 't', 'a', 't',
    'i', 'v', 'e', ' ', 'I', 'n', 'f', 'o', 'r', 'm', 'a', 't', 'i', 'o', 'n']),
  (⟨204⟩, chars ['N', 'o', ' ', 'C', 'o', 'n', 't', 'e', 'n', 't']),
  (⟨205⟩, chars ['R', 'e', 's', 'e', 't', ' ', 'C', 'o', 'n', 't', 'e', 'n', 't']),
  (⟨206⟩, chars ['P', 'a', 'r', 't', 'i', 'a', 'l', ' ', 'C', 'o', 'n', 't', 'e', 'n', 't']),
  (⟨207⟩, chars ['M', 'u', 'l', 't', 'i', ' ', '-', ' ', 'S', 't', 'a', 't', 'u', 's']),
  (⟨208⟩, chars ['A', 'l', 'r', 'e', 'a', 'd', 'y', ' ', 'R', 'e', 'p', 'o', 'r', 't', 'e', 'd']),
  (⟨226⟩, chars ['I', 'M', ' ', 'U', 's', 'e', 'd']),
  (⟨300⟩, chars ['M', 'u', 'l', 't', 'i', 'p', 'l', 'e', ' ', 'C', 'h', 'o', 'i', 'c', 'e', 's']),
  (⟨301⟩, chars ['M', 'o', 'v', 'e', 'd', ' ', 'P', 'e', 'r', 'm', 'a', 'n', 'e', 'n', 't', 'l',
    'y']),
  (⟨302⟩, chars ['F', 'o', 'u', 'n', 'd']),
  (⟨303⟩, chars ['S', 'e', 'e', ' ', 'O', 't', 'h', 'e', 'r']),
  (⟨304⟩, chars ['N', 'o', 't', ' ', 'M', 'o', 'd', 'i', 'f', 'i', 'e', 'd']),
  (⟨305⟩, chars ['U', 's', 'e', ' ', 'P', 'r', 'o', 'x', 'y']),
  (⟨307⟩, chars ['T', 'e', 'm', 'p', 'o', 'r', 'a', 'r', 'y', ' ', 'R', 'e', 'd', 'i', 'r', 'e',
    'c', 't']),
  (⟨308⟩, chars ['P', 'e', 'r', 'm', 'a', 'n', 'e', 'n', 't', ' ', 'R', 'e', 'd', 'i', 'r', 'e',
    'c', 't']),
  (⟨400⟩, chars ['B', 'a', 'd', ' ', 'R', 'e', 'q', 'u', 'e', 's', 't']),
  (⟨401⟩, chars ['U', 'n', 'a', 'u', 't', 'h', 'o', 'r', 'i', 'z', 'e', 'd']),
  (⟨402⟩, chars ['P', 'a', 'y', 'm', 'e', 'n', 't', ' ', 'R', 'e', 'q', 'u', 'i', 'r', 'e', 'd']),
  (⟨403⟩, chars ['F', 'o', 'r', 'b', 'i', 'd', 'd', 'e', 'n']),
  (⟨404⟩, chars ['N', 'o', 't', ' ', 'F', 'o', 'u', 'n', 'd']),
  (⟨405⟩, chars ['M', 'e', 't', 'h', 'o', 'd', ' ', 'N', 'o', 't', ' ', 'A', 'l', 'l', 'o', 'w',
    'e', 'd']),
  (⟨406⟩, chars ['N', 'o', 't', ' ', 'A', 'c', 'c', 'e', 'p', 't', 'a', 'b', 'l', 'e']),
  (⟨407⟩, chars ['P', 'r', 'o', 'x', 'y', ' ', 'A', 'u', 't', 'h', 'e', 'n', 't', 'i', 'c', 'a',
    't', 'i', 'o', 'n', ' ', 'R', 'e', 'q', 'u', 'i', 'r', 'e', 'd']),
  (⟨408⟩, chars ['R', 'e', 'q', 'u', 'e', 's', 't', ' ', 'T', 'i', 'm', 'e', 'o', 'u', 't']),
  (⟨409⟩, chars ['C', 'o', 'n', 'f', 'l', 'i', 'c', 't']),
  (⟨410⟩, chars ['G', 'o', 'n', 'e']),
  (⟨411⟩, chars ['L', 'e', 'n', 'g', 't', 'h', ' ', 'R', 'e', 'q', 'u', 'i', 'r', 'e', 'd']),
  (⟨412⟩, chars ['P', 'r', 'e', 'c', 'o', 'n', 'd', 'i', 't', 'i', 'o', 'n', ' ', 'F', 'a', 'i',
    'l', 'e', 'd']),
  (⟨413⟩, chars ['P', 'a', 'y', 'l', 'o', 'a', 'd', ' ', 'T', 'o', 'o', ' ', 'L', 'a', 'r', 'g',
    'e']),
  (⟨414⟩, chars ['U', 'R', 'I', ' ', 'T', 'o', 'o', ' ', 'L', 'o', 'n', 'g']),
  (⟨415⟩, chars ['U', 'n', 's', 'u', 'p', 'p', 'o', 'r', 't', 'e', 'd', ' ', 'M', 'e', 'd', 'i',
    'a', ' ', 'T', 'y', 'p', 'e']),
  (⟨416⟩, chars ['R', 'a', 'n', 'g', 'e', ' ', 'N', 'o', 't', ' ', 'S', 'a', 't', 'i', 's', 'f',
    'i', 'a', 'b', 'l', 'e']),
  (⟨417⟩, chars ['E', 'x', 'p', 'e', 'c', 't', 'a', 't', 'i', 'o', 'n', ' ', 'F', 'a', 'i', 'l',
    'e', 'd']),
  (⟨421⟩, chars ['M', 'i', 's', 'd', 'i', 'r', 'e', 'c', 't', 'e', 'd', ' ', 'R', 'e', 'q', 'u',
    'e', 's', 't']),
  (⟨422⟩, chars ['U', 'n', 'p', 'r', 'o', 'c', 'e', 's', 's', 'a', 'b', 'l', 'e', ' ', 'E', 'n',
    't', 'i', 't', 'y']),
  (⟨423⟩, chars ['L', 'o', 'c', 'k', 'e', 'd']),
  (⟨424⟩, chars ['F', 'a', 'i', 'l', 'e', 'd', ' ', 'D', 'e', 'p', 'e', 'n', 'd', 'e', 'n', 'c',
    'y']),
  (⟨426⟩, chars ['U', 'p', 'g', 'r', 'a', 'd', 'e', ' ', 'R', 'e', 'q', 'u', 'i', 'r', 'e', 'd']),
  (⟨428⟩, chars ['P', 'r', 'e', 'c', 'o', 'n', 'd', 'i', 't', 'i', 'o', 'n', ' ', 'R', 'e', 'q',
    'u', 'i', 'r', 'e', 'd']),
  (⟨429⟩, chars ['T', 'o', 'o', ' ', 'M', 'a', 'n', 'y', ' ', 'R', 'e', 'q', 'u', 'e', 's', 't',
    's']),
  (⟨431⟩, chars ['R', 'e', 'q', 'u', 'e', 's', 't', ' ', 'H', 'e', 'a', 'd', 'e', 'r', ' ', 'F',
    'i', 'e', 'l', 'd', 's', ' ', 'T', 'o', 'o', ' ', 'L', 'a', 'r', 'g', 'e']),
  (⟨451⟩, chars ['U', 'n', 'a', 'v', 'a', 'i', 'l', 'a', 'b', 'l', 'e', ' ', 'F', 'o', 'r', ' ',
    'L', 'e', 'g', 'a', 'l', ' ', 'R', 'e', 'a', 's', 'o', 'n', 's']),
  (⟨500⟩, chars ['I', 'n', 't', 'e', 'r', 'n', 'a', 'l', ' ', 'S', 'e', 'r', 'v', 'e', 'r', ' ',
    'E', 'r', 'r', 'o', 'r']),
  (⟨501⟩, chars ['N', 'o', 't', ' ', 'I', 'm', 'p', 'l', 'e', 'm', 'e', 'n', 't', 'e', 'd']),
  (⟨502⟩, chars ['B', 'a', 'd', ' ', 'G', 'a', 't', 'e', 'w', 'a', 'y']),
  (⟨503⟩, chars ['S', 'e', 'r', 'v', 'i', 'c', 'e', ' ', 'U', 'n', 'a', 'v', 'a', 'i', 'l', 'a',
    'b', 'l', 'e']),
  (⟨504⟩, chars ['G', 'a', 't', 'e', 'w', 'a', 'y', ' ', 'T', 'i', 'm', 'e', 'o', 'u', 't']),
  (⟨505⟩, chars ['H', 'T', 'T', 'P', ' ', 'V', 'e', 'r', 's', 'i', 'o', 'n', ' ', 'N', 'o', 't',
    ' ', 'S', 'u', 'p', 'p', 'o', 'r', 't', 'e', 'd']),
  (⟨506⟩, chars ['V', 'a', 'r', 'i', 'a', 'n', 't', ' ', 'A', 'l', 's', 'o', ' ', 'N', 'e', 'g',
    'o', 't', 'i', 'a', 't', 'e', 's']),
  (⟨507⟩, chars ['I', 'n', 's', 'u', 'f', 'f', 'i', 'c', 'i', 'e', 'n', 't', ' ', 'S', 't', 'o',
    'r', 'a', 'g', 'e']),
  (⟨508⟩, chars ['L', 'o', 'o', 'p', ' ', 'D', 'e', 't', 'e', 'c', 't', 'e', 'd']),
  (⟨510⟩, chars ['N', 'o', 't', ' ', 'E', 'x', 't', 'e', 'n', 'd', 'e', 'd']),
  (⟨511⟩, chars ['N', 'e', 't', 'w', 'o', 'r', 'k', ' ', 'A', 'u', 't', 'h', 'e', 'n', 't', 'i',
    'c', 'a', 't', 'i', 'o', 'n', ' ', 'R', 'e', 'q', 'u', 'i', 'r', 'e', 'd'])]

/-- `HttpStatusToString(s)`. -/
def httpStatusToString (s : HttpStatus) : List UInt8 :=
  (httpStatusMap.lookup s).getD
    (chars ['<', 'u', 'n', 'k', 'n', 'o', 'w', 'n', '-', 's', 't', 'a', 't', 'u', 's', '>'])

/-- What `strcasecmp` compares. -/
def folded (key : List UInt8) : List Nat := key.map fun c => (tolower c).toNat

/-- `CaseInsensitiveLess`: `strcasecmp(lhs, rhs) < 0`. -/
def strcasecmpLt (lhs rhs : List UInt8) : Bool := decide (folded lhs < folded rhs)

/-- `headers[key] = val` in a map with that order; a key that is there stays as it is. -/
def setEntry (key val : List UInt8) :
    List (List UInt8 × List UInt8) → List (List UInt8 × List UInt8)
  | [] => [(key, val)]
  | entry :: headers =>
      if strcasecmpLt entry.1 key then entry :: setEntry key val headers
      else if strcasecmpEq entry.1 key then (entry.1, val) :: headers
      else (key, val) :: entry :: headers

structure HttpResponse where
  status : HttpStatus := ⟨200⟩
  version : UInt8 := 0x11
  close : Bool := true
  body : List UInt8 := []
  reason : List UInt8 := []
  /-- The map, in its order. -/
  headers : List (List UInt8 × List UInt8) := []
  cookies : List (List UInt8) := []
deriving DecidableEq, Repr

/-! ## The map -/

section Map

variable {key key' val : List UInt8} {headers : List (List UInt8 × List UInt8)}

theorem strcasecmpEq_iff {a b : List UInt8} : strcasecmpEq a b = true ↔ folded a = folded b := by
  have hmap : ∀ key : List UInt8, folded key = (key.map tolower).map UInt8.toNat := by
    intro key
    rw [List.map_map]
    rfl
  rw [strcasecmpEq, beq_iff_eq, hmap, hmap]
  exact (List.map_injective_iff.mpr fun _ _ h => UInt8.toNat_inj.mp h).eq_iff.symm

theorem strcasecmpLt_iff {a b : List UInt8} : strcasecmpLt a b = true ↔ folded a < folded b :=
  decide_eq_true_iff

theorem strcasecmpLt_trans {a b c : List UInt8} (hab : strcasecmpLt a b = true)
    (hbc : strcasecmpLt b c = true) : strcasecmpLt a c = true :=
  strcasecmpLt_iff.mpr ((strcasecmpLt_iff.mp hab).trans (strcasecmpLt_iff.mp hbc))

/-- A smaller name is another one. -/
theorem strcasecmpEq_of_lt {a b : List UInt8} (hlt : strcasecmpLt a b = true) :
    strcasecmpEq a b = false := by
  rw [Bool.eq_false_iff]
  intro heq
  exact (strcasecmpLt_iff.mp hlt).ne (strcasecmpEq_iff.mp heq)

/-- The entries stand in the order of the map. -/
def Ordered (headers : List (List UInt8 × List UInt8)) : Prop :=
  headers.Pairwise fun a b => strcasecmpLt a.1 b.1 = true

/-- The names after an entry is set. -/
theorem mem_setEntry {entry : List UInt8 × List UInt8} (h : entry ∈ setEntry key val headers) :
    entry = (key, val) ∨ entry ∈ headers ∨ ∃ old ∈ headers, entry = (old.1, val) := by
  induction headers with
  | nil => exact .inl (List.mem_singleton.mp h)
  | cons first headers ih =>
      rw [setEntry] at h
      split at h
      · rcases List.mem_cons.mp h with rfl | h
        · exact .inr (.inl List.mem_cons_self)
        · rcases ih h with h | h | ⟨old, hold, h⟩
          · exact .inl h
          · exact .inr (.inl (List.mem_cons_of_mem _ h))
          · exact .inr (.inr ⟨old, List.mem_cons_of_mem _ hold, h⟩)
      · split at h
        · rcases List.mem_cons.mp h with h | h
          · exact .inr (.inr ⟨first, List.mem_cons_self, h⟩)
          · exact .inr (.inl (List.mem_cons_of_mem _ h))
        · rcases List.mem_cons.mp h with h | h
          · exact .inl h
          · exact .inr (.inl h)

theorem Ordered.setEntry (h : Ordered headers) : Ordered (setEntry key val headers) := by
  induction headers with
  | nil => exact List.pairwise_singleton _ _
  | cons first headers ih =>
      obtain ⟨hfirst, hrest⟩ := List.pairwise_cons.mp h
      rw [Http.setEntry]
      split
      · next hless =>
          refine List.pairwise_cons.mpr ⟨fun entry hentry => ?_, ih hrest⟩
          rcases mem_setEntry hentry with rfl | hentry | ⟨old, hold, rfl⟩
          · exact hless
          · exact hfirst entry hentry
          · exact hfirst old hold
      · next hnot =>
          split
          · exact List.pairwise_cons.mpr ⟨hfirst, hrest⟩
          · next hother =>
              have hless : strcasecmpLt key first.1 = true := by
                rw [strcasecmpLt_iff] at hnot ⊢
                rw [strcasecmpEq_iff] at hother
                exact lt_of_le_of_ne (not_lt.mp hnot) (Ne.symm hother)
              refine List.pairwise_cons.mpr ⟨fun entry hentry => ?_, h⟩
              rcases List.mem_cons.mp hentry with rfl | hentry
              · exact hless
              · exact strcasecmpLt_trans hless (hfirst entry hentry)

/-- An entry that is greater than all others comes last. -/
theorem setEntry_last (h : ∀ entry ∈ headers, strcasecmpLt entry.1 key = true) :
    setEntry key val headers = headers ++ [(key, val)] := by
  induction headers with
  | nil => rfl
  | cons first headers ih =>
      rw [setEntry, if_pos (h first List.mem_cons_self),
        ih fun entry hentry => h entry (List.mem_cons_of_mem _ hentry)]
      rfl

/-- What is found after an entry is set. -/
theorem find?_setEntry (key' : List UInt8) :
    ((setEntry key val headers).find? fun entry => strcasecmpEq entry.1 key').map (·.2) =
      if strcasecmpEq key key' then some val
      else (headers.find? fun entry => strcasecmpEq entry.1 key').map (·.2) := by
  induction headers with
  | nil =>
      rw [setEntry, List.find?_cons]
      cases strcasecmpEq key key' <;> rfl
  | cons first headers ih =>
      rw [setEntry]
      split
      · next hless =>
          rw [List.find?_cons, List.find?_cons]
          cases hfound : strcasecmpEq first.1 key' with
          | true =>
              rw [if_neg]
              intro hkey
              have hsame := (strcasecmpEq_iff.mp hfound).trans (strcasecmpEq_iff.mp hkey).symm
              exact (strcasecmpLt_iff.mp hless).ne hsame
          | false => exact ih
      · split
        · next hsame =>
            have hboth : strcasecmpEq first.1 key' = strcasecmpEq key key' := by
              rw [Bool.eq_iff_iff, strcasecmpEq_iff, strcasecmpEq_iff, strcasecmpEq_iff.mp hsame]
            rw [List.find?_cons, List.find?_cons, hboth]
            cases strcasecmpEq key key' <;> rfl
        · rw [List.find?_cons (a := (key, val))]
          cases strcasecmpEq key key' <;> rfl

end Map

namespace HttpResponse

def setStatus (r : HttpResponse) (v : HttpStatus) : HttpResponse := { r with status := v }

def setVersion (r : HttpResponse) (v : UInt8) : HttpResponse := { r with version := v }

def setBody (r : HttpResponse) (v : List UInt8) : HttpResponse := { r with body := v }

def setReason (r : HttpResponse) (v : List UInt8) : HttpResponse := { r with reason := v }

/-- `_headers[key] = val`. -/
def setHeader (r : HttpResponse) (key val : List UInt8) : HttpResponse :=
  { r with headers := setEntry key val r.headers }

def findHeader (r : HttpResponse) (key : List UInt8) : Option (List UInt8) :=
  (r.headers.find? fun entry => strcasecmpEq entry.1 key).map (·.2)

/-- `getHeader(key)`. -/
def getHeader (r : HttpResponse) (key : List UInt8) : List UInt8 := (r.findHeader key).getD []

/-- `getHeaderAs<uint64_t>("content-length", 0)`; `lexicalCast` is `boost::lexical_cast`, `none`
where it throws. -/
def contentLength (lexicalCast : List UInt8 → Option UInt64) (r : HttpResponse) : UInt64 :=
  ((r.findHeader contentLengthName).bind lexicalCast).getD 0

/-- The attributes of a cookie. -/
structure Cookie where
  key : List UInt8
  val : List UInt8
  expired : Int := 0
  path : List UInt8 := []
  domain : List UInt8 := []
  secure : Bool := false
deriving DecidableEq, Repr

/-- The text of a cookie; `timerToString` is `TimerToString(expired, "%a, %d %b %Y %H:%M:%S")`. -/
def Cookie.text (timerToString : Int → List UInt8) (c : Cookie) : List UInt8 :=
  c.key ++ chars ['='] ++ c.val ++
    (if 0 < c.expired then
      chars [';', 'e', 'x', 'p', 'i', 'r', 'e', 's', '='] ++ timerToString c.expired ++
        chars [' ', 'G', 'M', 'T']
    else []) ++
    (if c.domain.isEmpty then [] else chars [';', 'd', 'o', 'm', 'a', 'i', 'n', '='] ++ c.domain) ++
    (if c.path.isEmpty then [] else chars [';', 'p', 'a', 't', 'h', '='] ++ c.path) ++
    if c.secure then chars [';', 's', 'e', 'c', 'u', 'r', 'e'] else []

def setCookie (timerToString : Int → List UInt8) (r : HttpResponse) (c : Cookie) : HttpResponse :=
  { r with cookies := r.cookies ++ [c.text timerToString] }

/-- A header as `dump` writes it. -/
def headerLine (entry : List UInt8 × List UInt8) : List UInt8 :=
  entry.1 ++ chars [':', ' '] ++ entry.2 ++ crlf

/-- What `dump(os)` writes up to the body. -/
def dumpHead (r : HttpResponse) : List UInt8 :=
  chars ['H', 'T', 'T', 'P', '/'] ++ decimal (r.version >>> 4).toNat ++ chars ['.'] ++
    decimal (r.version &&& 0x0f).toNat ++ chars [' '] ++ decimal r.status.code.toNat ++
    chars [' '] ++ (if r.reason.isEmpty then httpStatusToString r.status else r.reason) ++ crlf ++
    r.headers.flatMap headerLine ++
    if r.body.isEmpty then crlf
    else contentLengthName ++ chars [':', ' '] ++ decimal r.body.length ++ crlf ++ crlf

/-- `dump(os)`, and so `toString()`. -/
def dump (r : HttpResponse) : List UInt8 := r.dumpHead ++ r.body

/-! ## A response that is put together -/

/-- A call of a setter. -/
inductive Setter
  | status (v : HttpStatus)
  | reason (v : List UInt8)
  | version (v : UInt8)
  | header (key val : List UInt8)
  | cookie (c : Cookie)
  | body (v : List UInt8)
deriving DecidableEq, Repr

def apply (timerToString : Int → List UInt8) (r : HttpResponse) : Setter → HttpResponse
  | .status v => r.setStatus v
  | .reason v => r.setReason v
  | .version v => r.setVersion v
  | .header key val => r.setHeader key val
  | .cookie c => r.setCookie timerToString c
  | .body v => r.setBody v

/-- A new response after some calls. -/
def built (timerToString : Int → List UInt8) (setters : List Setter) : HttpResponse :=
  setters.foldl (apply timerToString) {}

end HttpResponse

end Http
end Routn
