import Mathlib.Data.Bool.AllAny
import Mathlib.Tactic
import Routn.Http.ResponseBody
import Routn.Http.ResponseHead

/-!
# `HttpResponse::dump`, read back by `HttpConnection::recvResponse`

What the setters put into a response, what `dump` writes of it, and what the client makes of that
when its first read brings the head.  `dump` never looks at `_cookies`.
-/

namespace Routn
namespace Http

open Foundation Duplex HttpConnection

namespace HttpResponse

/-! ## A response that is put together -/

/-- What is asked of the calls: a reason without a line end, and legal headers without a content
length. -/
def Setter.Legal : Setter → Prop
  | .reason v => ∀ c ∈ v, c ≠ 10 ∧ c ≠ 13
  | .header key val => Client.FieldName key ∧ strcasecmpEq key contentLengthName = false ∧
      Client.FieldValue val
  | _ => True

structure Legal (r : HttpResponse) : Prop where
  reason : ∀ c ∈ r.reason, c ≠ 10 ∧ c ≠ 13
  names : ∀ entry ∈ r.headers, Client.FieldName entry.1
  others : ∀ entry ∈ r.headers, strcasecmpEq entry.1 contentLengthName = false
  values : ∀ entry ∈ r.headers, Client.FieldValue entry.2
  ordered : Ordered r.headers

variable {timerToString : Int → List UInt8}

/-- What holds of each entry of the map and of a new one holds after the new one is set. -/
theorem forall_setEntry {key val : List UInt8} {headers : List (List UInt8 × List UInt8)}
    {p q : List UInt8 → Prop} (hkeys : ∀ entry ∈ headers, p entry.1)
    (hvals : ∀ entry ∈ headers, q entry.2) (hkey : p key) (hval : q val) :
    (∀ entry ∈ setEntry key val headers, p entry.1) ∧
      ∀ entry ∈ setEntry key val headers, q entry.2 := by
  constructor
  · intro entry hentry
    rcases mem_setEntry hentry with rfl | hold | ⟨old, hold, rfl⟩
    · exact hkey
    · exact hkeys entry hold
    · exact hkeys old hold
  · intro entry hentry
    rcases mem_setEntry hentry with rfl | hold | ⟨old, hold, rfl⟩
    · exact hval
    · exact hvals entry hold
    · exact hval

/-- A legal call keeps a response legal. -/
theorem Legal.apply {r : HttpResponse} {setter : Setter} (hr : r.Legal) (hs : setter.Legal) :
    (r.apply timerToString setter).Legal := by
  cases setter with
  | status v => exact ⟨hr.reason, hr.names, hr.others, hr.values, hr.ordered⟩
  | reason v => exact ⟨hs, hr.names, hr.others, hr.values, hr.ordered⟩
  | version v => exact ⟨hr.reason, hr.names, hr.others, hr.values, hr.ordered⟩
  | header key val =>
      obtain ⟨hname, hother, hvalue⟩ := hs
      obtain ⟨hnames, hvalues⟩ := forall_setEntry hr.names hr.values hname hvalue
      exact ⟨hr.reason, hnames,
        (forall_setEntry (p := fun key => strcasecmpEq key contentLengthName = false)
          hr.others hr.values hother hvalue).1, hvalues, hr.ordered.setEntry⟩
  | cookie c => exact ⟨hr.reason, hr.names, hr.others, hr.values, hr.ordered⟩
  | body v => exact ⟨hr.reason, hr.names, hr.others, hr.values, hr.ordered⟩

/-- **A response that is put together by legal calls is legal.** -/
theorem built_legal {setters : List Setter} (hlegal : ∀ setter ∈ setters, setter.Legal) :
    (built timerToString setters).Legal := by
  have hrun : ∀ (setters : List Setter) (r : HttpResponse), r.Legal →
      (∀ setter ∈ setters, setter.Legal) →
        (setters.foldl (HttpResponse.apply timerToString) r).Legal := by
    intro setters
    induction setters with
    | nil => exact fun r hr _ => hr
    | cons setter setters ih =>
        intro r hr hlegal
        exact ih _ (hr.apply (hlegal setter List.mem_cons_self)) fun s hs =>
          hlegal s (List.mem_cons_of_mem _ hs)
  refine hrun setters {} ⟨?_, ?_, ?_, ?_, List.Pairwise.nil⟩ hlegal
  all_goals exact fun _ h => nomatch h

/-! ## What `dump` writes -/

/-- The reason phrase that is written. -/
def phrase (r : HttpResponse) : List UInt8 :=
  if r.reason.isEmpty then httpStatusToString r.status else r.reason

/-- The response with the header that `dump` generates. -/
def announced (r : HttpResponse) : HttpResponse :=
  if r.body.isEmpty then r else r.setHeader contentLengthName (decimal r.body.length)

/-- The fields that are written. -/
def fields (r : HttpResponse) : List (List UInt8 × List UInt8) :=
  r.headers ++ if r.body.isEmpty then [] else [(contentLengthName, decimal r.body.length)]

theorem httpStatusToString_legal (s : HttpStatus) :
    httpStatusToString s ≠ [] ∧ ∀ c ∈ httpStatusToString s, c ≠ 10 ∧ c ≠ 13 := by
  have htable : (httpStatusMap.all fun entry => !entry.2.isEmpty &&
      entry.2.all fun c => c != 10 && c != 13) = true := by
    decide +kernel
  rw [httpStatusToString]
  cases hlookup : httpStatusMap.lookup s with
  | none => exact ⟨by decide, List.all_iff_forall_prop.mp (by decide)⟩
  | some text =>
      obtain ⟨before, rest, hsplit, -⟩ := List.lookup_eq_some_iff.mp hlookup
      have hmem : (s, text) ∈ httpStatusMap := by
        rw [hsplit]
        exact List.mem_append_right _ List.mem_cons_self
      simpa using List.all_eq_true.mp htable _ hmem

theorem Legal.phrase {r : HttpResponse} (hlegal : r.Legal) :
    r.phrase ≠ [] ∧ ∀ c ∈ r.phrase, c ≠ 10 ∧ c ≠ 13 := by
  rw [HttpResponse.phrase]
  split
  · exact httpStatusToString_legal r.status
  · next hsome => exact ⟨fun h => hsome (List.isEmpty_iff.mpr h), hlegal.reason⟩

/-- What `dump` writes, by the lines. -/
theorem dumpHead_eq (r : HttpResponse) :
    r.dumpHead = ((Client.versionText r.version ++ [32]) ++
      (decimal r.status.code.toNat ++ [32]) ++ (r.phrase ++ crlf)) ++
      r.headers.flatMap headerLine ++
      ((if r.body.isEmpty then []
        else contentLengthName ++ chars [':', ' '] ++ decimal r.body.length ++ crlf) ++ crlf) := by
  have hend : (if r.body.isEmpty then crlf else contentLengthName ++ chars [':', ' '] ++
      decimal r.body.length ++ crlf ++ crlf) = (if r.body.isEmpty then []
        else contentLengthName ++ chars [':', ' '] ++ decimal r.body.length ++ crlf) ++ crlf := by
    split <;> rfl
  rw [dumpHead, hend]
  simp only [Client.versionText, HttpResponse.phrase, List.append_assoc]
  rfl

end HttpResponse

namespace Client

/-! ## What the machine makes of it -/

section Machine

variable {r : HttpResponse}

/-- Headers in the order of the map are set one behind the other. -/
theorem seen_headers {headers : List (List UInt8 × List UInt8)} {s : Seen}
    (hordered : Ordered (s.data.headers ++ headers)) :
    headers.foldl Seen.header s = { s with
      data := { s.data with headers := s.data.headers ++ headers }
      chunked := s.chunked || headers.any announcesChunks
      fields := s.fields ++ headers } := by
  induction headers generalizing s with
  | nil =>
      rw [List.append_nil, List.append_nil, List.any_nil, Bool.or_false]
      rfl
  | cons entry headers ih =>
      have hlast : ∀ a ∈ s.data.headers, strcasecmpLt a.1 entry.1 = true := fun a ha =>
        (List.pairwise_append.mp hordered).2.2 a ha entry List.mem_cons_self
      have hset : setEntry entry.1 entry.2 s.data.headers = s.data.headers ++ [entry] :=
        setEntry_last hlast
      have hsplit : s.data.headers ++ entry :: headers = s.data.headers ++ [entry] ++ headers :=
        List.append_cons _ _ _
      have hordered' : Ordered ((s.header entry).data.headers ++ headers) := by
        show Ordered (setEntry entry.1 entry.2 s.data.headers ++ headers)
        rw [hset, ← hsplit]
        exact hordered
      rw [List.foldl_cons, ih hordered']
      show Seen.mk { s.data with headers := setEntry entry.1 entry.2 s.data.headers ++ headers }
        s.error (s.chunked || announcesChunks entry || headers.any announcesChunks)
        (s.fields ++ [entry] ++ headers) = _
      rw [hset, ← hsplit, ← List.append_cons, List.any_cons, Bool.or_assoc]

/-- The final state behind what `dump` writes. -/
def dumpEnd (r : HttpResponse) : Nat :=
  if r.body.isEmpty then headEnd (linesEnd 20 r.headers) else 120

/-- The head of `r` as the client sees it. -/
def dumpSeen (r : HttpResponse) : Seen where
  data := { r.announced with
    version := if known r.version then r.version else 0x11
    close := true
    body := []
    reason := r.phrase
    cookies := [] }
  error := if known r.version then 0 else 1001
  chunked := r.headers.any announcesChunks
  fields := r.fields

/-- **The machine reads what `dump` writes.** -/
theorem reads_dump (hlegal : r.Legal) :
    ∃ h : Head, h.seen = dumpSeen r ∧ ∀ more,
      plain.run Head.store (r.dumpHead ++ more) httpclientParserStart {} =
        some (more, dumpEnd r, h) := by
  obtain ⟨hne, hphrase⟩ := hlegal.phrase
  have hlines := (scans_statusLine r.version r.status hne hphrase).trans
    (scans_headers (by decide) hlegal.names hlegal.others hlegal.values)
  have hmem := linesEnd_mem (show 20 ∈ lineStates by decide) r.headers
  obtain ⟨seen, hseen⟩ : ∃ seen : Seen,
      seen = (Seen.mk {} 0 false []).statusLine r.version r.status r.phrase := ⟨_, rfl⟩
  have hseen' : seen = {
      data := { status := r.status, reason := r.phrase
                version := if known r.version then r.version else 0x11 }
      error := if known r.version then 0 else 1001
      chunked := false
      fields := [] } := by
    rw [hseen, Seen.statusLine]
    split <;> rfl
  have hordered : Ordered (seen.data.headers ++ r.headers) := by
    rw [hseen']
    exact hlegal.ordered
  have hheaders := seen_headers hordered
  rw [hseen'] at hheaders
  have hstart : ∀ more, plain.run Head.store (r.dumpHead ++ more) httpclientParserStart {} =
      plain.run Head.store ((((versionText r.version ++ [32]) ++
        (decimal r.status.code.toNat ++ [32]) ++ (r.phrase ++ crlf)) ++
        r.headers.flatMap HttpResponse.headerLine) ++ ((if r.body.isEmpty then []
          else contentLengthName ++ chars [':', ' '] ++ decimal r.body.length ++ crlf) ++
            13 :: 10 :: more)) 1 {} := by
    intro more
    rw [HttpResponse.dumpHead_eq]
    simp only [List.append_assoc]
    rfl
  cases hbody : r.body.isEmpty with
  | true =>
      obtain ⟨h₁, hseen₁, hrun₁⟩ := hlines {}
      obtain ⟨h₂, hseen₂, hrun₂⟩ := run_end hmem h₁
      refine ⟨h₂, ?_, fun more => ?_⟩
      · rw [hseen₂, hseen₁]
        show r.headers.foldl Seen.header ((Seen.mk {} 0 false []).statusLine _ _ _) = _
        rw [← hseen, hseen', hheaders, dumpSeen, HttpResponse.announced, HttpResponse.fields,
          hbody, if_pos rfl, if_pos rfl, List.append_nil]
        rfl
      · rw [hstart, hbody, if_pos rfl, hrun₁, List.nil_append, hrun₂, dumpEnd, hbody, if_pos rfl]
  | false =>
      obtain ⟨h₁, hseen₁, hrun₁⟩ := (hlines.trans (scans_generated hmem r.body.length)) {}
      obtain ⟨h₂, hseen₂, hrun₂⟩ := run_end (show 20 ∈ lineStates by decide) h₁
      refine ⟨h₂, ?_, fun more => ?_⟩
      · rw [hseen₂, hseen₁]
        show (r.headers.foldl Seen.header
          ((Seen.mk {} 0 false []).statusLine _ _ _)).setField _ _ = _
        rw [← hseen, hseen', hheaders, dumpSeen, HttpResponse.announced, HttpResponse.fields,
          hbody, if_neg Bool.false_ne_true, if_neg Bool.false_ne_true]
        rfl
      · rw [hstart, hbody, if_neg Bool.false_ne_true, ← List.append_assoc, hrun₁, hrun₂, dumpEnd,
          hbody, if_neg Bool.false_ne_true]
        rfl

end Machine

/-! ## What the client makes of it -/

section Reading

/-- What a call returns for a stream; `none` is a fault. -/
def received (chunk : Nat → Nat) (lexicalCast : List UInt8 → Option UInt64)
    (uncompress : Bool → List UInt8 → List UInt8) (buffSize : Nat) (mem bytes : List UInt8) :
    Option Received :=
  match recvResponse chunk lexicalCast uncompress buffSize mem { inbound := bytes } with
  | .ok r _ => some r
  | .error _ _ => none

/-- How many bytes of the body the first read leaves. -/
def left (chunk : Nat → Nat) (buffSize : Nat) (r : HttpResponse) : Nat :=
  r.body.length - (moved chunk 0 buffSize - r.dumpHead.length)

/-- What the parser holds when the first read is parsed. -/
structure FirstRead (chunk : Nat → Nat) (buffSize : Nat) (r : HttpResponse)
    (first data : List UInt8) (P : HttpResponseParser) (d : Duplex) : Prop where
  response : P.data = (dumpSeen r).data
  chunked : P.parser.chunked = (dumpSeen r).chunked
  body : first ++ d.inbound = r.body
  left : d.inbound.length = left chunk buffSize r
  size : data.length = buffSize + 1
  fits : first.length ≤ buffSize
  buffer : data.take first.length = first

variable {r : HttpResponse} {chunk : Nat → Nat} {lexicalCast : List UInt8 → Option UInt64}
  {uncompress : Bool → List UInt8 → List UInt8} {buffSize : Nat} {mem : List UInt8}

theorem dumpEnd_cases (r : HttpResponse) : dumpEnd r ≠ httpclientParserError ∧
    (dumpEnd r = httpclientParserFirstFinal ∨ r.body = []) := by
  rw [dumpEnd, headEnd]
  split
  · next hempty =>
      refine ⟨?_, .inr (List.isEmpty_iff.mp hempty)⟩
      repeat' split
      all_goals decide
  · exact ⟨by decide, .inl rfl⟩

/-- The first loop on what `dump` writes. -/
theorem parseLoop_dump (hlegal : r.Legal) (hbound : buffSize < 2 ^ 31)
    (hmem : mem.length = buffSize + 1) (hfirst : r.dumpHead.length ≤ moved chunk 0 buffSize) :
    (known r.version = true ∧ dumpEnd r = httpclientParserFirstFinal → ∃ first data P d,
      FirstRead chunk buffSize r first data P d ∧
      parseLoop chunk buffSize false (r.dump.length + 1) false mem 0 {} { inbound := r.dump } =
        .ok (.finished data first.length P) d) ∧
    (¬ (known r.version = true ∧ dumpEnd r = httpclientParserFirstFinal) → ∃ d,
      parseLoop chunk buffSize false (r.dump.length + 1) false mem 0 {} { inbound := r.dump } =
        .ok .failed d) := by
  obtain ⟨h, hseen, hrun⟩ := reads_dump hlegal
  obtain ⟨hgo, hbody⟩ := dumpEnd_cases r
  have hblank : chars [' '] ≠ [] := by decide
  have hne : r.dumpHead ≠ [] := by
    intro hempty
    have hlength := congrArg List.length hempty
    have hlong := List.length_pos_of_ne_nil hblank
    simp only [HttpResponse.dumpHead, List.length_append, List.length_nil] at hlength
    omega
  have hlong : 0 < r.dump.length := by
    rw [HttpResponse.dump, List.length_append]
    have hpos := List.length_pos_of_ne_nil hne
    omega
  obtain ⟨first, data, P, d, hfollows, hsplit, hleft, hsize, hfits, htake, hloop⟩ :=
    parseLoop_head hne hrun hgo hmem hbound (d := { inbound := r.dump }) rfl hfirst
  have herror : h.result.error = if known r.version then 0 else 1001 := congrArg Seen.error hseen
  have hdata : h.result.data = (dumpSeen r).data := congrArg Seen.data hseen
  have hchunked : h.result.chunked = (dumpSeen r).chunked := congrArg Seen.chunked hseen
  have hresponse : P.data = h.result.data := congrArg Result.data hfollows.result
  have hflag : P.parser.chunked = h.result.chunked := congrArg Result.chunked hfollows.result
  constructor
  · rintro ⟨hknown, hend⟩
    refine ⟨first, data, P, d, ⟨hresponse.trans hdata, hflag.trans hchunked, hsplit, hleft, hsize,
      hfits, htake⟩, ?_⟩
    rw [hloop, herror, hknown, if_pos rfl, if_neg (fun h => h rfl), if_pos hend]
  · intro hnot
    by_cases hknown : known r.version = true
    · -- The head is complete for the machine, and not for `isFinished`.
      have hend : dumpEnd r ≠ httpclientParserFirstFinal := fun h => hnot ⟨hknown, h⟩
      have hempty : r.body = [] := hbody.resolve_left hend
      rw [hempty, List.append_eq_nil_iff] at hsplit
      obtain ⟨fuel, hfuel⟩ : ∃ fuel, r.dump.length = fuel + 1 := ⟨r.dump.length - 1, by omega⟩
      have hnone : taken chunk buffSize first.length d = 0 := by
        rw [taken, hsplit.2]
        exact Nat.zero_min _
      refine ⟨afterRead chunk buffSize data first.length d, ?_⟩
      rw [hloop, herror, hknown, if_pos rfl, if_neg (fun h => h rfl), if_neg hend, hfuel,
        parseLoop_read hsize hfits, if_pos hnone]
    · refine ⟨d, ?_⟩
      rw [hloop, herror, if_neg hknown, if_pos (by decide)]

/-- The head is not read to its end, or not accepted. -/
theorem received_nullptr (hlegal : r.Legal) (hbound : buffSize < 2 ^ 31)
    (hmem : mem.length = buffSize + 1) (hfirst : r.dumpHead.length ≤ moved chunk 0 buffSize)
    (hnot : ¬ (known r.version = true ∧ dumpEnd r = httpclientParserFirstFinal)) :
    received chunk lexicalCast uncompress buffSize mem r.dump = some .nullptr := by
  obtain ⟨d, hloop⟩ := (parseLoop_dump hlegal hbound hmem hfirst).2 hnot
  have hcall : recvResponse chunk lexicalCast uncompress buffSize mem { inbound := r.dump } =
      .ok .nullptr { d with closed := true } := (bind_ok rfl).trans ((bind_ok hloop).trans rfl)
  rw [received, hcall]

/-- The length of the body is the one that is announced. -/
theorem contentLength_dump (hlegal : r.Legal) (hcast : HttpSession.CastsDecimals lexicalCast)
    (hbody : r.body.length < 2 ^ 63) :
    (((dumpSeen r).data.contentLength lexicalCast).toBitVec.toInt : Int) = r.body.length := by
  have hfind : (dumpSeen r).data.findHeader contentLengthName =
      if r.body.isEmpty then none else some (decimal r.body.length) := by
    have hnone : r.findHeader contentLengthName = none := by
      rw [HttpResponse.findHeader, Option.map_eq_none_iff, List.find?_eq_none]
      intro entry hentry
      rw [hlegal.others entry hentry]
      exact Bool.false_ne_true
    show r.announced.findHeader contentLengthName = _
    rw [HttpResponse.announced]
    split
    · exact hnone
    · refine (find?_setEntry contentLengthName).trans ?_
      exact if_pos (by decide : strcasecmpEq contentLengthName contentLengthName = true)
  rw [HttpResponse.contentLength, hfind]
  split
  · next hempty =>
      rw [List.isEmpty_iff.mp hempty]
      rfl
  · show ((((lexicalCast (decimal r.body.length)).getD 0).toBitVec.toInt : Int)) = _
    rw [hcast _ (by omega)]
    show (BitVec.ofNat 64 r.body.length).toInt = _
    have hnat : (BitVec.ofNat 64 r.body.length).toNat = r.body.length := by
      rw [BitVec.toNat_ofNat]
      exact Nat.mod_eq_of_lt (by omega)
    rw [BitVec.toInt_eq_toNat_of_lt (by omega), hnat]

/-- A body without chunks. -/
theorem received_plain (hlegal : r.Legal) (hcast : HttpSession.CastsDecimals lexicalCast)
    (hbound : buffSize < 2 ^ 31) (hmem : mem.length = buffSize + 1)
    (hfirst : r.dumpHead.length ≤ moved chunk 0 buffSize) (hbody : r.body.length < 2 ^ 63)
    (hend : known r.version = true ∧ dumpEnd r = httpclientParserFirstFinal)
    (hplain : (dumpSeen r).chunked = false) :
    received chunk lexicalCast uncompress buffSize mem r.dump = some
      (if left chunk buffSize r = 0 ∨ 0 < toInt (left chunk buffSize r) then
        .response ((dumpSeen r).data.setBody r.body) else .nullptr) := by
  obtain ⟨first, data, P, d, hread, hloop⟩ := (parseLoop_dump hlegal hbound hmem hfirst).1 hend
  have hlength := contentLength_dump hlegal hcast hbody
  have hcount : first.length + d.inbound.length = r.body.length := by
    rw [← hread.body, List.length_append]
  have hthen : recvResponse chunk lexicalCast uncompress buffSize mem { inbound := r.dump } =
      recvBody chunk (first.length + d.inbound.length : Nat) data first.length P.data d := by
    refine (bind_ok rfl).trans ((bind_ok hloop).trans ?_)
    show (if P.parser.chunked then _ else recvBody chunk
      (P.data.contentLength lexicalCast).toBitVec.toInt data first.length P.data :
        EStateM StreamFault Duplex Received) d = _
    rw [hread.chunked, hplain, if_neg Bool.false_ne_true, hread.response, hlength, hcount]
  rcases Nat.eq_zero_or_pos (first.length + d.inbound.length) with hnone | hsome
  · have hempty : r.body = [] := List.length_eq_zero_iff.mp (by omega)
    have hleft : left chunk buffSize r = 0 := by
      rw [left, hempty]
      exact Nat.zero_sub _
    have hcall : recvBody chunk (first.length + d.inbound.length : Nat) data first.length P.data d =
        .ok (.response P.data) d := by
      rw [hnone]
      rfl
    rw [received, hthen, hcall, if_pos (.inl hleft), hread.response, hempty]
    rfl
  · obtain ⟨d', hcall⟩ := recvBody_announced (r := P.data) hsome (by omega)
      hread.buffer rfl
    rw [received, hthen, hcall, hread.body, hread.left, hread.response]

/-- A body of chunks is shorter than what was written, if it is not decoded. -/
theorem received_chunked (hlegal : r.Legal) (hbound : buffSize + 3 < 2 ^ 31)
    (hmem : mem.length = buffSize + 1) (hfirst : r.dumpHead.length ≤ moved chunk 0 buffSize)
    (hend : known r.version = true ∧ dumpEnd r = httpclientParserFirstFinal)
    (hchunked : (dumpSeen r).chunked = true) {other : HttpResponse}
    (hreceived : received chunk lexicalCast uncompress buffSize mem r.dump =
      some (.response other)) :
    ∃ (data : HttpResponse) (body : List UInt8), body.length < r.body.length ∧
      data.headers = other.headers ∧
      other.body = if body.isEmpty then body else decode uncompress data body := by
  obtain ⟨first, data, P, d, hread, hloop⟩ :=
    (parseLoop_dump hlegal (by omega) hmem hfirst).1 hend
  have hcount : first.length + d.inbound.length = r.body.length := by
    rw [← hread.body, List.length_append]
  rw [received] at hreceived
  cases hcall : recvResponse chunk lexicalCast uncompress buffSize mem { inbound := r.dump } with
  | error fault d' =>
      rw [hcall] at hreceived
      cases hreceived
  | ok e d' =>
      rw [hcall] at hreceived
      cases hreceived
      rw [recvResponse] at hcall
      obtain ⟨d₀, d₁, hget, hcall⟩ := of_bind_ok hcall
      cases hget
      obtain ⟨e, d₁, hparse, hcall⟩ := of_bind_ok hcall
      cases hloop.symm.trans hparse
      dsimp only at hcall
      rw [hread.chunked, hchunked, if_pos rfl] at hcall
      obtain ⟨d₀, d₁, hget, hcall⟩ := of_bind_ok hcall
      cases hget
      obtain ⟨e, d₁, hchunks, hcall⟩ := of_bind_ok hcall
      cases e with
      | threw => cases hcall
      | nullptr => cases hcall
      | failed => cases hcall
      | body body P' =>
          have hshort := chunkLoop_bounds hbound hread.size hread.fits hchunks
          rw [List.length_nil, Nat.zero_add, hcount] at hshort
          dsimp only at hcall
          by_cases hempty : body.isEmpty = true
          · rw [if_pos hempty] at hcall
            cases hcall
            exact ⟨P'.data.setBody body, body, hshort, rfl, (if_pos hempty).symm⟩
          · rw [if_neg hempty] at hcall
            cases hcall
            exact ⟨P'.data.setBody body, body, hshort, rfl, (if_neg hempty).symm⟩

end Reading

/-! ## What is lost -/

def setCookieName : List UInt8 := chars ['S', 'e', 't', '-', 'C', 'o', 'o', 'k', 'i', 'e']

/-- The bytes carry a cookie: the machine reports it as a field of that name. -/
def Carries (bytes text : List UInt8) : Prop :=
  ∃ rest cs h, control.run Head.store bytes httpclientParserStart {} = some (rest, cs, h) ∧
    ∃ field ∈ h.fields, strcasecmpEq field.1 setCookieName = true ∧ field.2 = text

/-- The other response has the parts of `r`, with the header that `dump` adds, and what was written
carries the cookies. -/
structure Recovered (r other : HttpResponse) : Prop where
  version : other.version = r.version
  status : other.status = r.status
  reason : other.reason = r.phrase
  headers : other.headers = r.announced.headers
  body : other.body = r.body
  cookies : ∀ text ∈ r.cookies, Carries r.dump text

/-- A header that ends the head in a state which `isFinished` does not know. -/
def Stuck (entry : List UInt8 × List UInt8) : Prop :=
  entry.2 = [] ∧ (strcasecmpEq entry.1 connectionName = true ∨
    strcasecmpEq entry.1 transferEncodingName = true)

/-- What a response must keep to. -/
structure Transmitted (chunk : Nat → Nat) (buffSize : Nat) (r : HttpResponse) : Prop where
  version : known r.version = true
  /-- A cookie is written by `setHeader` alone. -/
  cookies : ∀ text ∈ r.cookies, ∃ entry ∈ r.headers,
    strcasecmpEq entry.1 setCookieName = true ∧ entry.2 = text
  /-- The body is not written in chunks, whatever the headers say. -/
  plain : ∀ entry ∈ r.headers, announcesChunks entry = false
  ends : r.body = [] → ∀ entry, r.headers.getLast? = some entry → ¬ Stuck entry
  /-- What is returned by `readFixSize` is positive. -/
  length : left chunk buffSize r = 0 ∨ 0 < toInt (left chunk buffSize r)

section Lost

variable {r : HttpResponse}

theorem lineEnd_stuck (entry : List UInt8 × List UInt8) :
    headEnd (lineEnd entry) = httpclientParserFirstFinal ↔ ¬ Stuck entry := by
  obtain ⟨name, value⟩ := entry
  rw [lineEnd, valueEnd, Stuck, ← colonOf_transfer, ← colonOf_connection]
  cases value with
  | nil =>
      rw [List.isEmpty_nil, if_pos rfl]
      by_cases hconnection : colonOf name = 35
      · rw [if_pos hconnection]
        exact iff_of_false (by decide) fun h => h ⟨rfl, .inl hconnection⟩
      · rw [if_neg hconnection]
        by_cases htransfer : colonOf name = 61
        · rw [if_pos htransfer]
          exact iff_of_false (by decide) fun h => h ⟨rfl, .inr htransfer⟩
        · rw [if_neg htransfer]
          exact iff_of_true (by decide) fun h => h.2.elim hconnection htransfer
  | cons c w =>
      rw [List.isEmpty_cons, if_neg Bool.false_ne_true]
      refine iff_of_true ?_ fun h => List.cons_ne_nil c w h.1
      split <;> decide

theorem linesEnd_getLast (cs : Nat) (headers : List (List UInt8 × List UInt8)) :
    linesEnd cs headers = (headers.getLast?.map lineEnd).getD cs := by
  induction headers using List.reverseRecOn with
  | nil => rfl
  | append_singleton headers entry _ =>
      rw [linesEnd, List.foldl_append, List.getLast?_append, List.getLast?_singleton]
      rfl

theorem dumpEnd_iff (r : HttpResponse) : dumpEnd r = httpclientParserFirstFinal ↔
    (r.body = [] → ∀ entry, r.headers.getLast? = some entry → ¬ Stuck entry) := by
  rw [dumpEnd]
  split
  · next hempty =>
      rw [linesEnd_getLast]
      cases hlast : r.headers.getLast? with
      | none => exact iff_of_true rfl fun _ entry h => nomatch h
      | some last =>
          rw [Option.map_some, Option.getD_some, lineEnd_stuck]
          constructor
          · intro hnot _ entry hentry
            rwa [← Option.some.inj hentry]
          · intro h
            exact h (List.isEmpty_iff.mp hempty) last rfl
  · next hsome => exact iff_of_true rfl fun h => absurd (List.isEmpty_iff.mpr h) hsome

/-- The cookies that are carried are values of headers. -/
theorem carries_iff (hlegal : r.Legal) (text : List UInt8) :
    Carries r.dump text ↔
      ∃ entry ∈ r.headers, strcasecmpEq entry.1 setCookieName = true ∧ entry.2 = text := by
  obtain ⟨h, hseen, hrun⟩ := reads_dump hlegal
  have hfields : h.fields = r.fields := congrArg Seen.fields hseen
  have hcontrol : control.run Head.store r.dump httpclientParserStart {} =
      some (r.body, dumpEnd r, h) :=
    Control.run_of_sub (C := control) (D := plain) (fun hnext => next_of_plain hnext) rfl
      (dumpEnd_cases r).1 (hrun r.body)
  constructor
  · rintro ⟨rest, cs, h', hrun', field, hfield, hname, hvalue⟩
    cases hcontrol.symm.trans hrun'
    rw [hfields, HttpResponse.fields, List.mem_append] at hfield
    rcases hfield with hfield | hfield
    · exact ⟨field, hfield, hname, hvalue⟩
    · split at hfield
      · cases hfield
      · obtain rfl := List.mem_singleton.mp hfield
        exact absurd hname (by decide : ¬ strcasecmpEq contentLengthName setCookieName = true)
  · rintro ⟨entry, hentry, hname, hvalue⟩
    refine ⟨r.body, dumpEnd r, h, hcontrol, entry, ?_, hname, hvalue⟩
    rw [hfields, HttpResponse.fields]
    exact List.mem_append_left _ hentry

end Lost

/-! ## The round trip -/

def contentEncodingName : List UInt8 :=
  chars ['c', 'o', 'n', 't', 'e', 'n', 't', '-', 'e', 'n', 'c', 'o', 'd', 'i', 'n', 'g']

/-- The client decodes a body of chunks. -/
def Encoded (r : HttpResponse) : Prop :=
  strcasecmpEq (r.getHeader contentEncodingName) (chars ['g', 'z', 'i', 'p']) = true ∨
    strcasecmpEq (r.getHeader contentEncodingName)
      (chars ['d', 'e', 'f', 'l', 'a', 't', 'e']) = true

section RoundTrip

variable {r : HttpResponse} {chunk : Nat → Nat} {lexicalCast : List UInt8 → Option UInt64}
  {uncompress : Bool → List UInt8 → List UInt8} {buffSize : Nat} {mem : List UInt8}

theorem decode_plain {body : List UInt8} {other : HttpResponse} (hplain : ¬ Encoded other) :
    decode uncompress other body = body := by
  obtain ⟨hgzip, hdeflate⟩ := not_or.mp hplain
  rw [decode]
  exact (if_neg hgzip).trans (if_neg hdeflate)

theorem encoded_announced {other : HttpResponse} (hheaders : other.headers = r.announced.headers) :
    Encoded other ↔ Encoded r := by
  have hannounced : r.announced.findHeader contentEncodingName =
      r.findHeader contentEncodingName := by
    rw [HttpResponse.announced]
    split
    · rfl
    · exact (find?_setEntry contentEncodingName).trans
        (if_neg (by decide : ¬ strcasecmpEq contentLengthName contentEncodingName = true))
  have hfind : other.getHeader contentEncodingName = r.getHeader contentEncodingName := by
    rw [HttpResponse.getHeader, HttpResponse.findHeader, hheaders, ← HttpResponse.findHeader,
      hannounced, HttpResponse.getHeader]
  rw [Encoded, hfind, Encoded]

/-- **What keeps to the conditions is recovered.** -/
theorem recovered_of_transmitted (hlegal : r.Legal)
    (hcast : HttpSession.CastsDecimals lexicalCast) (hbound : buffSize < 2 ^ 31)
    (hmem : mem.length = buffSize + 1) (hfirst : r.dumpHead.length ≤ moved chunk 0 buffSize)
    (hbody : r.body.length < 2 ^ 63) (h : Transmitted chunk buffSize r) :
    ∃ other, received chunk lexicalCast uncompress buffSize mem r.dump =
      some (.response other) ∧ Recovered r other := by
  have hplain : (dumpSeen r).chunked = false := by
    show r.headers.any announcesChunks = false
    rw [List.any_eq_false]
    intro entry hentry
    rw [h.plain entry hentry]
    exact Bool.false_ne_true
  have hreceived : received chunk lexicalCast uncompress buffSize mem r.dump = _ :=
    received_plain hlegal hcast hbound hmem hfirst hbody
      ⟨h.version, (dumpEnd_iff r).mpr h.ends⟩ hplain
  rw [if_pos h.length] at hreceived
  refine ⟨_, hreceived, ?_⟩
  exact {
    version := if_pos h.version
    status := by
      show r.announced.status = r.status
      rw [HttpResponse.announced]
      split <;> rfl
    reason := rfl
    headers := rfl
    body := rfl
    cookies := fun text htext => (carries_iff hlegal text).mpr (h.cookies text htext) }

/-- **What is recovered keeps to the conditions.** -/
theorem transmitted_of_recovered (hlegal : r.Legal)
    (hcast : HttpSession.CastsDecimals lexicalCast) (hbound : buffSize < 2 ^ 31)
    (hmem : mem.length = buffSize + 1) (hfirst : r.dumpHead.length ≤ moved chunk 0 buffSize)
    (hbody : r.body.length < 2 ^ 63)
    (hchunks : r.headers.any announcesChunks = true → ¬ Encoded r ∧ buffSize + 3 < 2 ^ 31)
    {other : HttpResponse} (hreceived : received chunk lexicalCast uncompress buffSize mem r.dump =
      some (.response other)) (hrecovered : Recovered r other) : Transmitted chunk buffSize r := by
  have hend : known r.version = true ∧ dumpEnd r = httpclientParserFirstFinal := by
    by_contra hnot
    rw [received_nullptr hlegal hbound hmem hfirst hnot] at hreceived
    cases hreceived
  have hplain : (dumpSeen r).chunked = false := by
    rw [Bool.eq_false_iff]
    intro hyes
    -- What the chunks hold is shorter than the body.
    obtain ⟨hencoded, hsmall⟩ := hchunks hyes
    obtain ⟨data, body, hshort, hheaders, hother⟩ :=
      received_chunked hlegal hsmall hmem hfirst hend hyes hreceived
    have hnot : ¬ Encoded data := by
      rw [encoded_announced (hheaders.trans hrecovered.headers)]
      exact hencoded
    rw [decode_plain hnot, ite_self, hrecovered.body] at hother
    rw [hother] at hshort
    exact Nat.lt_irrefl _ hshort
  have hleft : left chunk buffSize r = 0 ∨ 0 < toInt (left chunk buffSize r) := by
    by_contra hnot
    rw [received_plain hlegal hcast hbound hmem hfirst hbody hend hplain, if_neg hnot] at hreceived
    cases hreceived
  exact {
    version := hend.1
    cookies := fun text htext => (carries_iff hlegal text).mp (hrecovered.cookies text htext)
    plain := fun entry hentry =>
      Bool.eq_false_iff.mpr (List.any_eq_false.mp hplain entry hentry)
    ends := (dumpEnd_iff r).mp hend.2
    length := hleft }

end RoundTrip

/-- **The round trip of a response.**  A response that legal calls put together, and whose head
comes in one read, is recovered when it keeps to the conditions.  What is recovered keeps to them,
but for a body of chunks that is decoded too. -/
theorem recvResponse_dump {timerToString : Int → List UInt8} {setters : List HttpResponse.Setter}
    (hlegal : ∀ setter ∈ setters, setter.Legal) {lexicalCast : List UInt8 → Option UInt64}
    (hcast : HttpSession.CastsDecimals lexicalCast) (uncompress : Bool → List UInt8 → List UInt8)
    {buffSize : Nat} (hbound : buffSize < 2 ^ 31) {mem : List UInt8}
    (hmem : mem.length = buffSize + 1) {chunk : Nat → Nat} {r : HttpResponse}
    (hr : r = HttpResponse.built timerToString setters)
    (hfirst : r.dumpHead.length ≤ moved chunk 0 buffSize) (hbody : r.body.length < 2 ^ 63) :
    (Transmitted chunk buffSize r → ∃ other,
      received chunk lexicalCast uncompress buffSize mem r.dump = some (.response other) ∧
        Recovered r other) ∧
    ((r.headers.any announcesChunks = true → ¬ Encoded r ∧ buffSize + 3 < 2 ^ 31) →
      (∃ other, received chunk lexicalCast uncompress buffSize mem r.dump =
        some (.response other) ∧ Recovered r other) → Transmitted chunk buffSize r) := by
  have hr : r.Legal := hr ▸ HttpResponse.built_legal hlegal
  constructor
  · exact recovered_of_transmitted hr hcast hbound hmem hfirst hbody
  · rintro hchunks ⟨other, hreceived, hrecovered⟩
    exact transmitted_of_recovered hr hcast hbound hmem hfirst hbody hchunks hreceived hrecovered

/-! ## A response -/

/-- A status, a reason, a header and a body. -/
def plainSetters : List HttpResponse.Setter := [
  .status ⟨404⟩, .version 0x10, .reason (chars ['g', 'o', 'n', 'e']),
  .header (chars ['s', 'e', 'r', 'v', 'e', 'r']) (chars ['r', 'o', 'u', 't', 'n']), .body [0, 255]]

theorem plainSetters_legal : ∀ setter ∈ plainSetters, setter.Legal := by
  simp only [plainSetters, List.forall_mem_cons]
  refine ⟨trivial, trivial, ?_, ⟨?_, by decide, ?_⟩, trivial,
    fun _ h => absurd h List.not_mem_nil⟩
  · exact List.all_iff_forall_prop.mp
      (by decide : ((chars ['g', 'o', 'n', 'e']).all fun c => c ≠ 10 ∧ c ≠ 13) = true)
  · exact ⟨by decide, List.all_eq_true.mp (by decide)⟩
  · refine ⟨List.all_iff_forall_prop.mp (by decide), ?_⟩
    rintro c ⟨⟩
    decide

/-- `recvResponse_dump` for this response, in reads of 64 bytes. -/
theorem recvResponse_dump_plain : ∃ other,
    received (fun _ => 64) HttpSession.castDecimal (fun _ body => body) 4096
      (List.replicate 4097 0) (HttpResponse.built (fun _ => []) plainSetters).dump =
        some (.response other) ∧
      Recovered (HttpResponse.built (fun _ => []) plainSetters) other := by
  refine (recvResponse_dump plainSetters_legal HttpSession.castsDecimals_castDecimal
    (fun _ body => body) (by decide) List.length_replicate rfl (by decide) (by decide)).1 ?_
  exact {
    version := by decide
    cookies := fun _ h => nomatch h
    plain := by decide
    ends := fun h => nomatch h
    length := .inl (by decide) }

/-- **A cookie is lost.** -/
theorem not_recovered_cookie :
    (∀ setter ∈ [HttpResponse.Setter.cookie ⟨[97], [98], 0, [], [], false⟩], setter.Legal) ∧
    ¬ ∃ other, received (fun _ => 64) HttpSession.castDecimal (fun _ body => body) 4096
      (List.replicate 4097 0)
      (HttpResponse.built (fun _ => []) [.cookie ⟨[97], [98], 0, [], [], false⟩]).dump =
        some (.response other) ∧
      Recovered (HttpResponse.built (fun _ => []) [.cookie ⟨[97], [98], 0, [], [], false⟩])
        other := by
  have hlegal : ∀ setter ∈ [HttpResponse.Setter.cookie ⟨[97], [98], 0, [], [], false⟩],
      setter.Legal := by
    intro setter hsetter
    rw [List.mem_singleton.mp hsetter]
    trivial
  refine ⟨hlegal, ?_⟩
  rintro ⟨other, -, hrecovered⟩
  have hcarries := hrecovered.cookies (chars ['a', '=', 'b']) List.mem_cons_self
  obtain ⟨entry, hentry, -⟩ := (carries_iff (HttpResponse.built_legal hlegal) _).mp hcarries
  cases hentry

end Client
end Http
end Routn
