import Mathlib.Tactic
import Routn.Http.ChunkedResponse

/-!
# The content encoding

`recvResponse` decodes what its variable `body` holds.  A body of an announced length is in a second
variable of that name, and is returned as it came.
-/

namespace Routn
namespace Http
namespace Client

open Foundation Duplex HttpConnection

/-! ## What is asked of a body -/

def gzipValue : List UInt8 := chars ['g', 'z', 'i', 'p']

def deflateValue : List UInt8 := chars ['d', 'e', 'f', 'l', 'a', 't', 'e']

/-- The body is the payload, decompressed if the head names one of the two encodings.  In an empty
payload there is nothing to decompress. -/
structure Decoded (uncompress : Bool → List UInt8 → List UInt8) (r : HttpResponse)
    (payload body : List UInt8) : Prop where
  gzip : strcasecmpEq (r.getHeader contentEncodingName) gzipValue = true → payload ≠ [] →
    body = uncompress true payload
  deflate : strcasecmpEq (r.getHeader contentEncodingName) deflateValue = true → payload ≠ [] →
    body = uncompress false payload
  other : ¬ Encoded r ∨ payload = [] → body = payload

/-- It is what `recvResponse` makes of its variable. -/
theorem decoded_iff_decode {uncompress : Bool → List UInt8 → List UInt8} {r : HttpResponse}
    {payload body : List UInt8} : Decoded uncompress r payload body ↔
      body = if payload = [] then [] else decode uncompress r payload := by
  by_cases hempty : payload = []
  · rw [if_pos hempty]
    refine ⟨fun h => (h.other (.inr hempty)).trans hempty, fun h => ⟨?_, ?_, ?_⟩⟩
    · exact fun _ hsome => absurd hempty hsome
    · exact fun _ hsome => absurd hempty hsome
    · exact fun _ => h.trans hempty.symm
  rw [if_neg hempty]
  by_cases hgzip : strcasecmpEq (r.getHeader contentEncodingName) gzipValue = true
  · have hdecode : decode uncompress r payload = uncompress true payload := if_pos hgzip
    have hnot : ¬ strcasecmpEq (r.getHeader contentEncodingName) deflateValue = true := by
      intro hdeflate
      have hsame := (strcasecmpEq_iff.mp hgzip).symm.trans (strcasecmpEq_iff.mp hdeflate)
      exact absurd hsame (by decide)
    rw [hdecode]
    refine ⟨fun h => h.gzip hgzip hempty, fun h => ⟨fun _ _ => h, ?_, ?_⟩⟩
    · exact fun hdeflate => absurd hdeflate hnot
    · exact fun hother => hother.elim (fun hplain => absurd (.inl hgzip) hplain)
        fun hnone => absurd hnone hempty
  by_cases hdeflate : strcasecmpEq (r.getHeader contentEncodingName) deflateValue = true
  · have hdecode : decode uncompress r payload = uncompress false payload :=
      (if_neg hgzip).trans (if_pos hdeflate)
    rw [hdecode]
    refine ⟨fun h => h.deflate hdeflate hempty, fun h => ⟨?_, fun _ _ => h, ?_⟩⟩
    · exact fun h => absurd h hgzip
    · exact fun hother => hother.elim (fun hplain => absurd (.inr hdeflate) hplain)
        fun hnone => absurd hnone hempty
  · have hplain : ¬ Encoded r := not_or.mpr ⟨hgzip, hdeflate⟩
    rw [decode_plain hplain]
    refine ⟨fun h => h.other (.inl hplain), fun h => ⟨?_, ?_, fun _ => h⟩⟩
    · exact fun h => absurd h hgzip
    · exact fun h => absurd h hdeflate

/-! ## A body of an announced length -/

/-- A callback sets no body. -/
theorem body_act {action : Action} {h : Head} :
    (h.act action).result.data.body = h.result.data.body := by
  cases action with
  | httpVersion =>
      rw [Head.act, Head.setVersion]
      split
      · rfl
      · split <;> rfl
  | writeValue =>
      rw [Head.act, Head.setField]
      split <;> rfl
  | writeContentLen => rw [act_length]
  | chunkSize => rw [act_chunkSize]
  | _ => rfl

theorem ReadsHead.body {head : List UInt8} {h : Head} (hreads : ReadsHead head h) :
    h.result.data.body = [] := by
  refine Control.run_invariant (P := fun h : Head => h.result.data.body = []) ?_ (fun hP => hP) _
    rfl (hreads.run [])
  rintro action g g' hP hact
  obtain rfl := Option.some.inj hact
  exact body_act.trans hP

/-- A response that announces the length of its payload. -/
structure SizedResponse (lexicalCast : List UInt8 → Option UInt64) where
  head : List UInt8
  /-- What the machine makes of the head. -/
  reading : Head
  payload : List UInt8
  reads : ReadsHead head reading
  unchunked : reading.result.chunked = false
  announced : ((reading.result.data.contentLength lexicalCast).toBitVec.toInt : Int) =
    payload.length

/-- A payload behind a head that `dump` writes. -/
theorem exists_sized {r : HttpResponse} (hlegal : r.Legal)
    {lexicalCast : List UInt8 → Option UInt64} (hcast : HttpSession.CastsDecimals lexicalCast)
    (hversion : known r.version = true)
    (hends : ∀ entry, r.headers.getLast? = some entry → ¬ Stuck entry)
    (hplain : r.headers.any announcesChunks = false) (hbody : r.body.length < 2 ^ 63) :
    ∃ S : SizedResponse lexicalCast, S.head = r.dumpHead ∧ S.payload = r.body ∧
      S.reading.result.data = (dumpSeen r).data := by
  obtain ⟨h, hseen, hreads⟩ := readsHead_dump hlegal hversion hends
  have hdata : h.result.data = (dumpSeen r).data := congrArg Seen.data hseen
  have hlength := contentLength_dump hlegal hcast hbody
  rw [← hdata] at hlength
  exact ⟨⟨r.dumpHead, h, r.body, hreads, (congrArg Seen.chunked hseen).trans hplain, hlength⟩, rfl,
    rfl, hdata⟩

section Sized

variable {lexicalCast : List UInt8 → Option UInt64} {chunk : Nat → Nat}
  {uncompress : Bool → List UInt8 → List UInt8} {buffSize : Nat} {mem : List UInt8} {d : Duplex}

namespace SizedResponse

variable {S : SizedResponse lexicalCast}

/-- **What `recvResponse` returns**: the payload as it was sent. -/
theorem recvResponse_payload (uncompress : Bool → List UInt8 → List UInt8)
    (hcuts : CutsBetween chunk buffSize d.calls S.head) (hpos : 0 < buffSize)
    (hbound : buffSize < 2 ^ 31) (hfits : S.payload.length < 2 ^ 31)
    (hmem : mem.length = buffSize + 1) (hinbound : d.inbound = S.head ++ S.payload) :
    ∃ r d', recvResponse chunk lexicalCast uncompress buffSize mem d = .ok (.response r) d' ∧
      r.body = S.payload := by
  obtain ⟨k, data, len, P, d₁, hloop, hfound⟩ :=
    parseLoop_found S.reads hcuts hpos hbound hinbound hmem
  have hdata : P.data = S.reading.result.data := congrArg Result.data hfound.follows.result
  have hchunked : P.parser.chunked = false :=
    (congrArg Result.chunked hfound.follows.result).trans S.unchunked
  have hfirst : (data.take len).length = len := by
    have hsize := hfound.size
    have hle := hfound.fits
    rw [List.length_take]
    omega
  have hcount : len + d₁.inbound.length = S.payload.length := by
    rw [← hfound.left, List.length_append, hfirst]
  have hthen : recvResponse chunk lexicalCast uncompress buffSize mem d =
      recvBody chunk (len + d₁.inbound.length : Nat) data len P.data d₁ := by
    refine (bind_ok rfl).trans ((bind_ok hloop).trans ?_)
    show (if P.parser.chunked then _ else recvBody chunk
      (P.data.contentLength lexicalCast).toBitVec.toInt data len P.data :
        EStateM StreamFault Duplex Received) d₁ = _
    rw [hchunked, if_neg Bool.false_ne_true, hdata, S.announced, hcount]
  rcases Nat.eq_zero_or_pos S.payload.length with hnone | hsome
  · refine ⟨P.data, d₁, ?_, ?_⟩
    · rw [hthen, hcount, hnone]
      rfl
    · rw [hdata, S.reads.body, List.length_eq_zero_iff.mp hnone]
  · obtain ⟨d', hcall⟩ : ∃ d', recvBody chunk ((data.take len).length + d₁.inbound.length : Nat)
        data (data.take len).length P.data d₁ =
          .ok (if d₁.inbound.length = 0 ∨ 0 < toInt d₁.inbound.length then
            .response (P.data.setBody (data.take len ++ d₁.inbound)) else .nullptr) d' :=
      recvBody_announced (by omega) (by omega) (by rw [hfirst]) rfl
    have hint : toInt d₁.inbound.length = d₁.inbound.length := by
      rw [toInt]
      omega
    rw [hfirst, if_pos (by omega), hfound.left, ← hthen] at hcall
    exact ⟨_, d', hcall, rfl⟩

end SizedResponse

/-! ## The two framings -/

/-- A payload by itself behind a head that announces its length, or in chunks. -/
inductive Framed (lexicalCast : List UInt8 → Option UInt64)
  | length (S : SizedResponse lexicalCast)
  | chunks (R : ChunkedResponse)

namespace Framed

def bytes : Framed lexicalCast → List UInt8
  | .length S => S.head ++ S.payload
  | .chunks R => R.bytes

def payload : Framed lexicalCast → List UInt8
  | .length S => S.payload
  | .chunks R => R.payload

def head : Framed lexicalCast → HttpResponse
  | .length S => S.reading.result.data
  | .chunks R => R.reading.result.data

/-- What is asked of the reads: for an announced length only that none ends inside a token. -/
def Suits (chunk : Nat → Nat) (buffSize calls : Nat) : Framed lexicalCast → Prop
  | .length S => 0 < buffSize ∧ buffSize < 2 ^ 31 ∧ S.payload.length < 2 ^ 31 ∧
      CutsBetween chunk buffSize calls S.head
  | .chunks R => R.Suits chunk buffSize calls

/-- A response is returned, and its body is decoded. -/
def Returned (chunk : Nat → Nat) (uncompress : Bool → List UInt8 → List UInt8) (buffSize : Nat)
    (mem : List UInt8) (d : Duplex) (f : Framed lexicalCast) : Prop :=
  ∃ r d', recvResponse chunk lexicalCast uncompress buffSize mem d = .ok (.response r) d' ∧
    Decoded uncompress f.head f.payload r.body

/-- The payload comes in chunks, or there is nothing to do to it. -/
def Unaffected (uncompress : Bool → List UInt8 → List UInt8) : Framed lexicalCast → Prop
  | .length S => Decoded uncompress S.reading.result.data S.payload S.payload
  | .chunks _ => True

/-- Without an encoding there is nothing to do. -/
theorem unaffected_of_plain {f : Framed lexicalCast} (hplain : ¬ Encoded f.head) :
    f.Unaffected uncompress := by
  cases f with
  | length S => exact ⟨fun h => absurd (.inl h) hplain, fun h => absurd (.inr h) hplain,
      fun _ => rfl⟩
  | chunks R => trivial

/-- **The encoding depends on the framing.** -/
theorem returned_iff {f : Framed lexicalCast} (h : f.Suits chunk buffSize d.calls)
    (hmem : mem.length = buffSize + 1) (hinbound : d.inbound = f.bytes) :
    f.Returned chunk uncompress buffSize mem d ↔ f.Unaffected uncompress := by
  cases f with
  | length S =>
      obtain ⟨hpos, hbound, hfits, hcuts⟩ := h
      obtain ⟨r, d', hrecv, hbody⟩ := S.recvResponse_payload uncompress hcuts hpos hbound hfits hmem
        hinbound
      constructor
      · rintro ⟨r', d'', hrecv', hdecoded⟩
        cases hrecv.symm.trans hrecv'
        have hsame : Decoded uncompress S.reading.result.data S.payload r.body := hdecoded
        rw [hbody] at hsame
        exact hsame
      · intro hsame
        refine ⟨r, d', hrecv, ?_⟩
        rw [hbody]
        exact hsame
  | chunks R =>
      obtain ⟨r, d', hrecv, hbody, -⟩ := R.recvResponse_payload lexicalCast uncompress h hmem
        hinbound
      exact iff_of_true ⟨r, d', hrecv, decoded_iff_decode.mpr hbody⟩ trivial

end Framed
end Sized

/-! ## A payload -/

/-- The letter `a`, in a stored block. -/
def zippedLetter : List UInt8 :=
  [31, 139, 8, 0, 0, 0, 0, 0, 0, 3, 1, 1, 0, 254, 255, 97, 67, 190, 183, 232, 1, 0, 0, 0]

/-- What `ZLIBStream` makes of it; other input is refused. -/
def unzip (gzip : Bool) (bytes : List UInt8) : List UInt8 :=
  if gzip = true ∧ bytes = zippedLetter then [97] else []

def zippedHead : HttpResponse where
  reason := chars ['O', 'K']
  headers := [(contentEncodingName, gzipValue)]
  body := zippedLetter

def zippedChunks : HttpResponse where
  reason := chars ['O', 'K']
  headers := [(contentEncodingName, gzipValue), (transferEncodingName, chunkedValue)]

theorem legal_zipped : zippedHead.Legal ∧ zippedChunks.Legal := by
  have hreason : ∀ c ∈ chars ['O', 'K'], c ≠ 10 ∧ c ≠ 13 := List.all_iff_forall_prop.mp
    (by decide : ((chars ['O', 'K']).all fun c => c ≠ 10 ∧ c ≠ 13) = true)
  have hencoding : FieldName contentEncodingName ∧ FieldValue gzipValue := by
    refine ⟨⟨by decide, List.all_eq_true.mp (by decide)⟩,
      List.all_iff_forall_prop.mp (by decide), ?_⟩
    rintro c ⟨⟩
    decide
  have hchunks := chunkedHead_legal.names _ List.mem_cons_self
  have hvalue := chunkedHead_legal.values _ List.mem_cons_self
  constructor
  · exact {
      reason := hreason
      names := List.forall_mem_singleton.mpr hencoding.1
      others := by decide
      values := List.forall_mem_singleton.mpr hencoding.2
      ordered := List.pairwise_singleton _ _ }
  · exact {
      reason := hreason
      names := List.forall_mem_cons.mpr ⟨hencoding.1, List.forall_mem_singleton.mpr hchunks⟩
      others := by decide
      values := List.forall_mem_cons.mpr ⟨hencoding.2, List.forall_mem_singleton.mpr hvalue⟩
      ordered := List.pairwise_pair.mpr (by decide) }

def zippedChunk : Chunk where
  size := chars ['1', '8']
  payload := zippedLetter

/-- `returned_iff` for the payload in a chunk. -/
theorem returned_iff_zipped : ∃ R : ChunkedResponse,
    R.bytes = zippedChunks.dumpHead ++ wire [zippedChunk, noBytes] ∧
      (.chunks R : Framed HttpSession.castDecimal).Returned (fun _ => 256) unzip 256
        (List.replicate 257 0) { inbound := R.bytes } := by
  have hencoded : ∀ c ∈ [zippedChunk] ++ [noBytes], c.Encoded := by
    intro c hc
    rcases List.mem_cons.mp hc with rfl | hc
    · exact Chunk.encoded_of_all (by decide) (by decide) (by decide)
    · obtain rfl := List.mem_singleton.mp hc
      exact Chunk.encoded_of_all (by decide) (by decide) (by decide)
  have hends : ∀ entry, zippedChunks.headers.getLast? = some entry → ¬ Stuck entry := by
    rintro entry ⟨⟩ ⟨hempty, -⟩
    cases hempty
  obtain ⟨R, hhead, hchunks, hlast, -⟩ := exists_chunked legal_zipped.2 (by decide) hends
    (by decide) hencoded (by decide) rfl
  have hbytes : R.bytes = zippedChunks.dumpHead ++ wire [zippedChunk, noBytes] := by
    rw [ChunkedResponse.bytes, hhead, hchunks, hlast]
    rfl
  have hone : R.bytes.length ≤ moved (fun _ => 256) 0 256 := by
    rw [hbytes]
    decide
  exact ⟨R, hbytes, (Framed.returned_iff (f := .chunks R)
    (R.suits_of_oneRead (by decide) hone) List.length_replicate rfl).mpr trivial⟩

/-- **By itself it is returned as it came.** -/
theorem not_returned_zipped : ∃ S : SizedResponse HttpSession.castDecimal,
    S.head ++ S.payload = zippedHead.dump ∧
      ¬ (Framed.length S).Returned (fun _ => 256) unzip 256 (List.replicate 257 0)
        { inbound := S.head ++ S.payload } := by
  have hends : ∀ entry, zippedHead.headers.getLast? = some entry → ¬ Stuck entry := by
    rintro entry ⟨⟩ ⟨-, hname⟩
    exact absurd hname (by decide)
  obtain ⟨S, hhead, hpayload, hdata⟩ := exists_sized legal_zipped.1
    HttpSession.castsDecimals_castDecimal (by decide) hends (by decide) (by decide)
  refine ⟨S, by rw [hhead, hpayload]; rfl, ?_⟩
  rintro ⟨r, d', hrecv, hdecoded⟩
  have hone : S.head.length ≤ moved (fun _ => 256) 0 256 := by
    rw [hhead]
    decide
  obtain ⟨r', d'', hrecv', hbody⟩ := S.recvResponse_payload
    (d := { inbound := S.head ++ S.payload }) unzip (cutsBetween_oneRead hone) (by decide)
    (by decide) (by rw [hpayload]; decide) List.length_replicate rfl
  cases hrecv'.symm.trans hrecv
  have hgzip : r.body = unzip true S.payload := hdecoded.gzip (by
    show strcasecmpEq (S.reading.result.data.getHeader contentEncodingName) gzipValue = true
    rw [hdata]
    decide) (by
    show S.payload ≠ []
    rw [hpayload]
    decide)
  rw [hbody, hpayload] at hgzip
  exact absurd hgzip (by decide)

end Client
end Http
end Routn
