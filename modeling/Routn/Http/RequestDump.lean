import Mathlib.Data.Bool.AllAny
import Mathlib.Tactic
import Routn.Http.Grammar
import Routn.Http.Splitting

/-!
# `HttpRequest::dump`, read back by `HttpSession::recvRequest`

`dump` and the machine are written independently of each other.  For a request whose parts the
grammar allows, `recvRequest` finds in what `dump` writes the parts that were written, and the
header `content-length` that `dump` adds for a body.
-/

namespace Routn
namespace Http

open Foundation Machine Duplex

/-- `os << n` for an unsigned number. -/
def decimal (n : Nat) : List UInt8 := chars (Nat.toDigits 10 n)

/-- `HttpMethodToString(m)`. -/
def httpMethodToString (m : HttpMethod) : List UInt8 :=
  (httpMethodMap.lookup m).getD (chars ['<', 'u', 'n', 'k', 'n', 'o', 'w', 'n', '>'])

def contentLengthName : List UInt8 :=
  chars ['c', 'o', 'n', 't', 'e', 'n', 't', '-', 'l', 'e', 'n', 'g', 't', 'h']

namespace HttpRequest

/-- What `dump(os)` writes up to the body. -/
def dumpHead (r : HttpRequest) : List UInt8 :=
  httpMethodToString r.method ++ chars [' '] ++ r.path ++
    (if r.query.isEmpty then [] else chars ['?']) ++ r.query ++
    (if r.fragment.isEmpty then [] else chars ['#']) ++ r.fragment ++
    chars [' ', 'H', 'T', 'T', 'P', '/'] ++ decimal (r.version >>> 4).toNat ++ chars ['.'] ++
    decimal (r.version &&& 0x0f).toNat ++ crlf ++ r.headers.flatMap headerLine ++
    if r.body.isEmpty then crlf
    else contentLengthName ++ chars [':', ' '] ++ decimal r.body.length ++ crlf ++ crlf

/-- `dump(os)`, and so `toString()`. -/
def dump (r : HttpRequest) : List UInt8 := r.dumpHead ++ r.body

/-- The parts are legal, and the headers are a map, without the one that `dump` generates. -/
structure Legal (relaxed : Bool) (r : HttpRequest) : Prop where
  method : ∀ c ∈ httpMethodToString r.method, 65 ≤ c ∧ c ≤ 90
  version : r.version = 0x11 ∨ r.version = 0x10
  path : PathAbsolute relaxed r.path
  query : Query relaxed r.query
  fragment : Query relaxed r.fragment
  names : ∀ entry ∈ r.headers, FieldName entry.1
  values : ∀ entry ∈ r.headers, FieldValue entry.2
  keys : r.headers.Pairwise fun a b => strcasecmpEq a.1 b.1 = false
  generated : r.findHeader contentLengthName = none

/-- The header that `dump` generates. -/
def generated (r : HttpRequest) : List (List UInt8 × List UInt8) :=
  if r.body.isEmpty then [] else [(contentLengthName, decimal r.body.length)]

/-- The other request has the same parts, and the header that `dump` generates. -/
structure SameParts (r other : HttpRequest) : Prop where
  method : other.method = r.method
  path : other.path = r.path
  query : other.query = r.query
  fragment : other.fragment = r.fragment
  version : other.version = r.version
  body : other.body = r.body
  headers : other.headers = r.headers ++ r.generated

theorem setHeader_absent {r : HttpRequest} {key : List UInt8} (value : List UInt8)
    (habsent : ∀ entry ∈ r.headers, strcasecmpEq entry.1 key = false) :
    r.setHeader key value = { r with headers := r.headers ++ [(key, value)] } := by
  rw [setHeader, if_neg]
  rw [Bool.not_eq_true, List.any_eq_false]
  exact fun entry hentry => Bool.not_eq_true _ ▸ habsent entry hentry

theorem findHeader_eq_none_iff {r : HttpRequest} {key : List UInt8} :
    r.findHeader key = none ↔ ∀ entry ∈ r.headers, strcasecmpEq entry.1 key = false := by
  rw [findHeader, Option.map_eq_none_iff, List.find?_eq_none]
  simp only [Bool.not_eq_true]

/-- Headers with different names are set one after the other. -/
theorem setHeaders_eq {headers : List (List UInt8 × List UInt8)} {r : HttpRequest}
    (hkeys : (r.headers ++ headers).Pairwise fun a b => strcasecmpEq a.1 b.1 = false) :
    r.setHeaders headers = { r with headers := r.headers ++ headers } := by
  induction headers generalizing r with
  | nil => rw [List.append_nil, setHeaders, List.foldl_nil]
  | cons entry headers ih =>
      have habsent : ∀ a ∈ r.headers, strcasecmpEq a.1 entry.1 = false := fun a ha =>
        (List.pairwise_append.mp hkeys).2.2 a ha entry List.mem_cons_self
      have hsplit : r.headers ++ entry :: headers = r.headers ++ [entry] ++ headers :=
        List.append_cons _ _ _
      rw [setHeaders, List.foldl_cons, setHeader_absent entry.2 habsent, hsplit]
      rw [hsplit] at hkeys
      exact ih hkeys

end HttpRequest

theorem toNat_toUInt8_of_isDigit {digit : Char} (hdigit : digit.isDigit = true) :
    digit.toUInt8.toNat = digit.toNat ∧ 48 ≤ digit.toNat ∧ digit.toNat ≤ 57 := by
  obtain ⟨hlow, hhigh⟩ := Bool.and_eq_true_iff.mp hdigit
  have hlow : 48 ≤ digit.val.toNat := UInt32.le_iff_toNat_le.mp (of_decide_eq_true hlow)
  have hhigh : digit.val.toNat ≤ 57 := UInt32.le_iff_toNat_le.mp (of_decide_eq_true hhigh)
  refine ⟨?_, hlow, hhigh⟩
  rw [Char.toUInt8, UInt32.toNat_toUInt8]
  exact Nat.mod_eq_of_lt (by omega)

theorem isdigit_of_mem_decimal {n : Nat} {c : UInt8} (hc : c ∈ decimal n) : isdigit c = true := by
  obtain ⟨digit, hmem, rfl⟩ := List.mem_map.mp hc
  obtain ⟨hnat, hlow, hhigh⟩ :=
    toNat_toUInt8_of_isDigit (Nat.isDigit_of_mem_toDigits (by decide) (by decide) hmem)
  rw [isdigit, Bool.and_eq_true_iff, decide_eq_true_iff, decide_eq_true_iff, UInt8.le_iff_toNat_le,
    UInt8.le_iff_toNat_le, hnat]
  exact ⟨hlow, hhigh⟩

namespace HttpSession

/-! ## What `dump` writes -/

section Writing

variable {relaxed : Bool}

/-- The machine on a method with its blank. -/
def methodScan (relaxed : Bool) : List UInt8 → Bool
  | [] => false
  | c :: w =>
      next relaxed 1 c == some ([.mark], 2) &&
        ((control relaxed).pass 2 w).any fun cs => next relaxed cs 32 == some ([.requestMethod], 3)

/-- A name of upper-case letters is a word that the machine takes for that method. -/
theorem method_table (relaxed : Bool) {m : HttpMethod}
    (hupper : ∀ c ∈ httpMethodToString m, 65 ≤ c ∧ c ≤ 90) :
    methodScan relaxed (httpMethodToString m) = true ∧ m ≠ .INVALID_METHOD ∧
      charsToHttpMethod (httpMethodToString m) = m := by
  revert hupper relaxed
  cases m <;> decide +kernel

theorem act_requestMethod (h : Head) (hvalid : charsToHttpMethod h.mark ≠ .INVALID_METHOD) :
    (h.act .requestMethod).data = { h.data with method := charsToHttpMethod h.mark } ∧
      (h.act .requestMethod).error = h.error := by
  rw [Head.act, Head.setMethod, if_neg hvalid]
  exact ⟨rfl, rfl⟩

theorem scans_method {m : HttpMethod} (hupper : ∀ c ∈ httpMethodToString m, 65 ≤ c ∧ c ≤ 90) :
    Scans relaxed 1 (httpMethodToString m ++ [32]) 3 fun r => { r with method := m } := by
  obtain ⟨hscan, hvalid, hname⟩ := method_table relaxed hupper
  revert hscan hname
  cases httpMethodToString m with
  | nil => exact fun h => nomatch h
  | cons c w =>
      intro hscan hname
      obtain ⟨hstart, hword⟩ := Bool.and_eq_true_iff.mp hscan
      obtain ⟨cs, hpass, hblank⟩ := (Option.any_eq_true _ _).mp hword
      refine .of_run (fun h => ((ticks (c :: w) { h with mark := [] }).act .requestMethod).tick 32)
        (fun more h => ?_) fun h => ?_
      · rw [List.append_assoc, List.cons_append, run_char (beq_iff_eq.mp hstart) (by decide),
          run_word hpass]
        exact run_char (beq_iff_eq.mp hblank) (by decide) more _
      · have hmark : (ticks (c :: w) { h with mark := [] }).mark = c :: w := ticks_mark _ _
        have hact := act_requestMethod (ticks (c :: w) { h with mark := [] })
          (show charsToHttpMethod _ ≠ .INVALID_METHOD by
            rw [hmark, hname]
            exact hvalid)
        rw [hmark, hname, ticks_eq] at hact
        rw [ticks_eq]
        exact hact

/-- The line of the header that is generated, which has a blank behind the colon. -/
def generatedLine (r : HttpRequest) : List UInt8 :=
  if r.body.isEmpty then []
  else contentLengthName ++ chars [':', ' '] ++ decimal r.body.length ++ crlf

theorem fieldName_contentLength : FieldName contentLengthName :=
  ⟨by decide, List.all_eq_true.mp (by decide), by decide⟩

theorem fieldValue_decimal (n : Nat) : FieldValue (decimal n) := by
  refine ⟨?_, ?_, ?_, ?_⟩
  · intro h
    exact Nat.toDigits_ne_nil (List.map_eq_nil_iff.mp h)
  · intro c hc
    have hdigit := isdigit_of_mem_decimal hc
    have hne : ∀ k : UInt8, isdigit k = false → (c == k) = false := by
      intro k hk
      rw [beq_eq_false_iff_ne]
      rintro rfl
      rw [hk] at hdigit
      cases hdigit
    rw [contentChar, httpCtl, hne 0 rfl, hne 127 rfl, bne, hne 10 rfl, bne, hne 13 rfl]
    rfl
  · intro h
    exact absurd (isdigit_of_mem_decimal (List.mem_of_head? h)) (by decide)
  · intro h
    exact absurd (isdigit_of_mem_decimal (List.mem_of_head? h)) (by decide)

theorem blank_table (relaxed : Bool) : next relaxed 15 32 = some ([.startValue], 15) := by
  revert relaxed
  decide +kernel

theorem scans_generated (r : HttpRequest) :
    Scans relaxed 13 (generatedLine r) 13 fun other => other.setHeaders r.generated := by
  rw [generatedLine, HttpRequest.generated]
  split
  · exact Scans.nil relaxed 13
  · refine .of_run (fun h => (((ticks (decimal r.body.length) { ({ ((ticks contentLengthName
      { h with fieldStart := [] }).act .writeField).tick 58 with mark := [] } : Head).tick 32 with
        mark := [] }).act .writeValue).tick 13).tick 10) (fun more h => ?_) fun h => ?_
    · have hline : contentLengthName ++ chars [':', ' '] ++ decimal r.body.length ++ crlf ++ more =
          contentLengthName ++ 58 :: 32 :: (decimal r.body.length ++ 13 :: 10 :: more) := by
        simp only [List.append_assoc]
        rfl
      rw [hline, run_name fieldName_contentLength, run_char (blank_table relaxed) (by decide)]
      exact run_value (fieldValue_decimal _) more _
    · rw [ticks_eq, ticks_eq]
      exact act_writeValue fieldName_contentLength.nonempty

/-- What `dump` writes, by the states in which the machine reads it. -/
theorem dumpHead_eq {r : HttpRequest} {minor : UInt8}
    (hversion : r.version = 0x11 ∧ minor = 49 ∨ r.version = 0x10 ∧ minor = 48) :
    r.dumpHead = (httpMethodToString r.method ++ [32]) ++
      (r.path ++ delimited 63 r.query ++ delimited 35 r.fragment ++ [32]) ++ versionLine minor ++
      r.headers.flatMap headerLine ++ generatedLine r ++ [13, 10] := by
  have hline : chars [' ', 'H', 'T', 'T', 'P', '/'] ++ decimal (r.version >>> 4).toNat ++
      chars ['.'] ++ decimal (r.version &&& 0x0f).toNat ++ crlf = [32] ++ versionLine minor := by
    rcases hversion with ⟨h, rfl⟩ | ⟨h, rfl⟩ <;> rw [h] <;> decide
  have hpart : ∀ (delimiter : UInt8) (part : List UInt8),
      (if part.isEmpty then [] else [delimiter]) ++ part = delimited delimiter part := by
    intro delimiter part
    cases part <;> rfl
  have hend : (if r.body.isEmpty then crlf else contentLengthName ++ chars [':', ' '] ++
      decimal r.body.length ++ crlf ++ crlf) = generatedLine r ++ [13, 10] := by
    rw [generatedLine]
    split <;> rfl
  calc r.dumpHead
      = httpMethodToString r.method ++ chars [' '] ++ r.path ++
          ((if r.query.isEmpty then [] else chars ['?']) ++ r.query) ++
          ((if r.fragment.isEmpty then [] else chars ['#']) ++ r.fragment) ++
          (chars [' ', 'H', 'T', 'T', 'P', '/'] ++ decimal (r.version >>> 4).toNat ++
            chars ['.'] ++ decimal (r.version &&& 0x0f).toNat ++ crlf) ++
          r.headers.flatMap headerLine ++
          (if r.body.isEmpty then crlf else contentLengthName ++ chars [':', ' '] ++
            decimal r.body.length ++ crlf ++ crlf) := by
        simp only [HttpRequest.dumpHead, List.append_assoc]
    _ = httpMethodToString r.method ++ [32] ++ r.path ++ delimited 63 r.query ++
          delimited 35 r.fragment ++ ([32] ++ versionLine minor) ++
          r.headers.flatMap headerLine ++ (generatedLine r ++ [13, 10]) := by
        rw [hline, hend, ← hpart, ← hpart]
        rfl
    _ = _ := by simp only [List.append_assoc]

end Writing

/-! ## Reading it -/

section Reading

variable {relaxed : Bool} {r : HttpRequest}

/-- **The machine reads the parts** that `dump` has written. -/
theorem reads_dump (hlegal : r.Legal relaxed) :
    ∃ h : Head, Reads relaxed r.dump r.body 348 h ∧ h.error = 0 ∧ h.data =
      { method := r.method, version := r.version, path := r.path, query := r.query,
        fragment := r.fragment, headers := r.headers ++ r.generated } := by
  obtain ⟨minor, hversion⟩ : ∃ minor : UInt8,
      r.version = 0x11 ∧ minor = 49 ∨ r.version = 0x10 ∧ minor = 48 := by
    rcases hlegal.version with h | h
    · exact ⟨49, .inl ⟨h, rfl⟩⟩
    · exact ⟨48, .inr ⟨h, rfl⟩⟩
  have hscan := ((((@scans_method relaxed r.method hlegal.method).trans
    (scans_target hlegal.path hlegal.query hlegal.fragment)).trans (scans_version hversion)).trans
      (scans_headers hlegal.names hlegal.values)).trans (scans_generated r)
  obtain ⟨h, hdata, herror, hrun⟩ := hscan {}
  obtain ⟨h', hdata', herror', hend⟩ := run_end relaxed r.body h
  have hkeys : (r.headers ++ r.generated).Pairwise fun a b => strcasecmpEq a.1 b.1 = false := by
    refine List.pairwise_append.mpr ⟨hlegal.keys, ?_, ?_⟩
    · rw [HttpRequest.generated]
      split
      · exact List.Pairwise.nil
      · exact List.pairwise_singleton _ _
    · intro entry hentry other hother
      rw [HttpRequest.generated] at hother
      split at hother
      · cases hother
      · obtain rfl := List.mem_singleton.mp hother
        exact HttpRequest.findHeader_eq_none_iff.mp hlegal.generated entry hentry
  refine ⟨h', ?_, herror'.trans herror, ?_⟩
  · rw [Reads, HttpRequest.dump, dumpHead_eq hversion, List.append_assoc]
    exact (hrun _).trans hend
  · rw [hdata', hdata]
    have hempty : ∀ part : List UInt8, (if part.isEmpty then [] else part) = part := by
      intro part
      cases part <;> rfl
    show (HttpRequest.setHeaders {
      method := r.method
      version := r.version
      path := r.path
      query := if r.query.isEmpty then [] else r.query
      fragment := if r.fragment.isEmpty then [] else r.fragment } r.headers).setHeaders
        r.generated = _
    rw [hempty, hempty]
    refine (congrArg (fun other : HttpRequest => other.setHeaders r.generated)
      (HttpRequest.setHeaders_eq ?_)).trans (HttpRequest.setHeaders_eq ?_)
    · exact (List.pairwise_append.mp hkeys).1
    · exact hkeys

/-- `boost::lexical_cast` reads what `operator<<` writes. -/
def CastsDecimals (lexicalCast : List UInt8 → Option UInt64) : Prop :=
  ∀ n < 2 ^ 64, lexicalCast (decimal n) = some (UInt64.ofNat n)

/-- The length of the body is the one that is announced. -/
theorem bodyLength_dump {lexicalCast : List UInt8 → Option UInt64}
    (hcast : CastsDecimals lexicalCast) (hbody : r.body.length < 2 ^ 31)
    (habsent : r.findHeader contentLengthName = none) {h : Head}
    (hdata : h.data.headers = r.headers ++ r.generated) :
    bodyLength lexicalCast h = r.body.length := by
  have hnone : ∀ entry ∈ r.headers, ¬ strcasecmpEq entry.1 contentLengthName = true := by
    intro entry hentry
    rw [Bool.not_eq_true]
    exact HttpRequest.findHeader_eq_none_iff.mp habsent entry hentry
  have hfind : h.data.findHeader contentLengthName =
      (r.generated.find? fun entry => strcasecmpEq entry.1 contentLengthName).map (·.2) := by
    rw [HttpRequest.findHeader, hdata, List.find?_append, List.find?_eq_none.mpr hnone,
      Option.none_or]
  have hcontent : h.data.contentLength lexicalCast =
      ((h.data.findHeader contentLengthName).bind lexicalCast).getD 0 := rfl
  rw [bodyLength, hcontent, hfind, HttpRequest.generated]
  split
  · next hempty =>
      rw [List.isEmpty_iff.mp hempty]
      rfl
  · have hself : strcasecmpEq contentLengthName contentLengthName = true := by decide
    have hfound : [(contentLengthName, decimal r.body.length)].find?
        (fun entry => strcasecmpEq entry.1 contentLengthName) =
          some (contentLengthName, decimal r.body.length) := List.find?_cons_of_pos hself
    rw [hfound]
    show ((lexicalCast (decimal r.body.length)).getD 0).toBitVec.toInt = _
    rw [hcast _ (by omega)]
    show (BitVec.ofNat 64 r.body.length).toInt = _
    have hnat : (BitVec.ofNat 64 r.body.length).toNat = r.body.length := by
      rw [BitVec.toNat_ofNat]
      exact Nat.mod_eq_of_lt (by omega)
    rw [BitVec.toInt_eq_toNat_of_lt (by omega), hnat]

/-- The first read brings the head: no token is left open. -/
theorem cutsBetween_headRead {lexicalCast : List UInt8 → Option UInt64} {buffSize : Nat}
    {chunk : Nat → Nat} {bytes body : List UInt8} {h : Head}
    (hrequest : IsRequest lexicalCast relaxed bytes body h)
    (hfirst : bytes.length ≤ moved chunk 0 buffSize + body.length) :
    CutsBetween chunk buffSize relaxed 0 bytes := by
  intro k hgo
  cases k with
  | zero => exact (by decide : httpParserStart ∈ betweenTokens)
  | succ k =>
      refine absurd (halted_behind hrequest.reads hrequest.final ?_) hgo
      have hcut := first_le_cut chunk buffSize 0 k
      omega

/-- **The round trip of a request.**  What `dump` writes is read as a request with the same parts,
if the first read brings the head. -/
theorem recvRequest_dump (hlegal : r.Legal relaxed) {lexicalCast : List UInt8 → Option UInt64}
    (hcast : CastsDecimals lexicalCast) {buffSize : Nat} (hbound : buffSize < 2 ^ 31) {mem : Uninit}
    (hmem : mem.Fits buffSize relaxed) {chunk : Nat → Nat}
    (hfirst : r.dumpHead.length ≤ moved chunk 0 buffSize) (hbody : r.body.length < 2 ^ 31) :
    ∃ other, received chunk lexicalCast buffSize mem r.dump = some (.request other) ∧
      r.SameParts other := by
  obtain ⟨h, hreads, herror, hdata⟩ := reads_dump hlegal
  have hlength := bodyLength_dump hcast hbody hlegal.generated (congrArg HttpRequest.headers hdata)
  have hrequest : IsRequest lexicalCast relaxed r.dump r.body h := by
    have hstate := hreads.state
    refine ⟨hstate ▸ hreads, hstate ▸ (by decide : final 348), ?_⟩
    rw [hlength, Int.toNat_natCast]
  have hcuts : CutsBetween chunk buffSize relaxed 0 r.dump := by
    refine cutsBetween_headRead hrequest ?_
    rw [HttpRequest.dump, List.length_append]
    exact Nat.add_le_add_right hfirst _
  have hpos : 0 < buffSize := by
    have hmoved := moved_le chunk 0 buffSize
    have hhead : 0 < r.dumpHead.length := by
      have hblank : chars [' '] ≠ [] := by decide
      simp only [HttpRequest.dumpHead, List.length_append]
      have hlong := List.length_pos_of_ne_nil hblank
      omega
    omega
  rw [received_answer hrequest hpos hbound (peeked_of_error hreads herror) (by omega) hcuts hmem,
    answer, if_neg (fun hne => hne herror), hdata, hlength]
  have hinit : ∀ other : HttpRequest, other.init.method = other.method ∧
      other.init.path = other.path ∧ other.init.query = other.query ∧
      other.init.fragment = other.fragment ∧ other.init.version = other.version ∧
      other.init.body = other.body ∧ other.init.headers = other.headers := by
    intro other
    rw [HttpRequest.init]
    split <;> exact ⟨rfl, rfl, rfl, rfl, rfl, rfl, rfl⟩
  split
  · obtain ⟨hmethod, hpath, hquery, hfragment, hversion, hbody', hheaders⟩ := hinit _
    refine ⟨_, rfl, hmethod, hpath, hquery, hfragment, hversion, hbody'.trans ?_, hheaders⟩
    exact List.take_length
  · next hnone =>
      obtain ⟨hmethod, hpath, hquery, hfragment, hversion, hbody', hheaders⟩ := hinit _
      refine ⟨_, rfl, hmethod, hpath, hquery, hfragment, hversion, hbody'.trans ?_, hheaders⟩
      exact (List.length_eq_zero_iff.mp (by omega)).symm

end Reading

/-! ## A request -/

/-- A request with a query, a fragment, a header and a body. -/
def postRequest : HttpRequest where
  method := .POST
  path := chars ['/', 'a', '%', '4', '1']
  query := chars ['x', '=', '1']
  fragment := chars ['t', 'o', 'p']
  headers := [(chars ['h', 'o', 's', 't'], chars ['m', 'e'])]
  body := [0, 255]

theorem postRequest_legal : postRequest.Legal false where
  method := List.all_iff_forall_prop.mp (by decide)
  version := .inl rfl
  path := by
    refine ⟨chars ['a', '%', '4', '1'], rfl, by decide, ?_⟩
    exact .char (by decide) (.pct (by decide) (by decide) .nil)
  query := .char (by decide) (.char (by decide) (.char (by decide) .nil))
  fragment := .char (by decide) (.char (by decide) (.char (by decide) .nil))
  names := by
    rintro entry (_ | ⟨_, ⟨⟩⟩)
    exact ⟨by decide, List.all_eq_true.mp (by decide), by decide⟩
  values := by
    rintro entry (_ | ⟨_, ⟨⟩⟩)
    exact ⟨by decide, List.all_eq_true.mp (by decide), by decide⟩
  keys := by decide
  generated := by decide

/-- The value of a decimal numeral, which a cast to `uint64_t` stores. -/
def castDecimal (digits : List UInt8) : Option UInt64 :=
  some (UInt64.ofNat (Nat.ofDigitChars 10 (digits.map fun c => Char.ofNat c.toNat) 0))

theorem castsDecimals_castDecimal : CastsDecimals castDecimal := by
  intro n _
  have hchars : (decimal n).map (fun c => Char.ofNat c.toNat) = Nat.toDigits 10 n := by
    rw [decimal, chars, List.map_map]
    refine (List.map_congr_left fun digit hmem => ?_).trans (List.map_id _)
    have hdigit := Nat.isDigit_of_mem_toDigits (by decide) (by decide) hmem
    show Char.ofNat digit.toUInt8.toNat = digit
    rw [(toNat_toUInt8_of_isDigit hdigit).1, Char.ofNat_toNat]
  rw [castDecimal, hchars, Nat.ofDigitChars_ten_toDigits]

/-- `recvRequest_dump` for this request, in reads of 64 and of one byte. -/
theorem recvRequest_dump_post :
    ∃ other, received (fun call => if call = 0 then 64 else 1) castDecimal 4096
      ⟨List.replicate 4096 0, 0, false⟩ postRequest.dump = some (.request other) ∧
        postRequest.SameParts other :=
  recvRequest_dump postRequest_legal castsDecimals_castDecimal (by decide)
    ⟨List.length_replicate, rfl⟩ (by decide) (by decide)

end HttpSession
end Http
end Routn
