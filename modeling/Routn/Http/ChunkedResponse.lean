import Mathlib.Tactic
import Routn.Http.ChunkedBody
import Routn.Http.ResponseDump

/-!
# A response with chunks

`recvResponse` on a response whose body comes in chunks, for reads that are favourable to both of
its loops (`assembled_iff`).  It is not so for all reads (`not_assembled_split`).
-/

namespace Routn
namespace Http
namespace Client

open Foundation Duplex HttpConnection
open HttpSession (cut)

/-- A response as it is sent: chunks that are not empty, and the one that ends them. -/
structure ChunkedResponse where
  head : List UInt8
  /-- What the machine makes of the head. -/
  reading : Head
  chunks : List Chunk
  last : Chunk
  reads : ReadsHead head reading
  chunked : reading.result.chunked = true
  encoded : ∀ c ∈ chunks ++ [last], c.Encoded
  nonempty : ∀ c ∈ chunks, c.payload ≠ []
  ended : last.payload = []

/-- The first read brings the head. -/
theorem cut_of_oneRead {chunk : Nat → Nat} {buffSize calls k : Nat} {head : List UInt8}
    (hone : head.length ≤ moved chunk calls buffSize)
    (hk : cut chunk buffSize calls k < head.length) : k = 0 := by
  cases k with
  | zero => rfl
  | succ k =>
      have hfirst := HttpSession.first_le_cut chunk buffSize calls k
      omega

theorem cutsBetween_oneRead {chunk : Nat → Nat} {buffSize calls : Nat} {head : List UInt8}
    (hone : head.length ≤ moved chunk calls buffSize) : CutsBetween chunk buffSize calls head := by
  intro k hk
  rw [cut_of_oneRead hone hk]
  exact (by decide : httpclientParserStart ∈ betweenTokens)

namespace ChunkedResponse

def bytes (R : ChunkedResponse) : List UInt8 := R.head ++ wire (R.chunks ++ [R.last])

def payload (R : ChunkedResponse) : List UInt8 := (R.chunks.map Chunk.payload).flatten

/-- The reads suit the response: none ends inside a token of the head, each size line is whole where
it is parsed, and of a chunk all or nothing is in the buffer behind it.  Sizes and the buffer are
`int`s. -/
structure Suits (chunk : Nat → Nat) (buffSize calls : Nat) (R : ChunkedResponse) : Prop where
  room : 0 < buffSize
  bound : buffSize < 2 ^ 31
  counted : ∀ c ∈ R.chunks, c.payload.length + 2 < 2 ^ 31
  cuts : CutsBetween chunk buffSize calls R.head
  favourable : ∀ k, cut chunk buffSize calls k < R.head.length →
    R.head.length ≤ cut chunk buffSize calls (k + 1) →
      Favourable chunk buffSize (R.chunks ++ [R.last])
        (min R.bytes.length (cut chunk buffSize calls (k + 1)) - R.head.length) (calls + k + 1)

variable {chunk : Nat → Nat} {lexicalCast : List UInt8 → Option UInt64}
  {uncompress : Bool → List UInt8 → List UInt8} {buffSize : Nat} {mem : List UInt8} {d : Duplex}
  {R : ChunkedResponse}

/-- A response that comes in one read. -/
theorem suits_of_oneRead {calls : Nat} (hbound : buffSize < 2 ^ 31)
    (hone : R.bytes.length ≤ moved chunk calls buffSize) : R.Suits chunk buffSize calls := by
  have hmoved : moved chunk calls buffSize ≤ buffSize := moved_le chunk calls buffSize
  have hhead : 0 < R.head.length := List.length_pos_of_ne_nil R.reads.nonempty
  have hlength : R.bytes.length = R.head.length + (wire (R.chunks ++ [R.last])).length :=
    List.length_append
  refine ⟨by omega, hbound, fun c hc => ?_, cutsBetween_oneRead (by omega), fun k _ _ => ?_⟩
  · have hle := length_bytes_le (List.mem_append_left [R.last] hc)
    have hbytes := c.length_bytes
    omega
  · have hcut := HttpSession.first_le_cut chunk buffSize calls k
    exact favourable_all (by omega)

theorem counted_of_suits (h : R.Suits chunk buffSize d.calls) :
    (∀ c ∈ R.chunks, c.Counted) ∧ R.last.Counted := by
  constructor
  · intro c hc
    exact ⟨R.encoded c (List.mem_append_left _ hc), h.counted c hc⟩
  · refine ⟨R.encoded R.last (List.mem_append_right _ (List.mem_singleton.mpr rfl)), ?_⟩
    rw [R.ended]
    decide

/-- **What `recvResponse` returns**: the payloads, decoded. -/
theorem recvResponse_payload (lexicalCast : List UInt8 → Option UInt64)
    (uncompress : Bool → List UInt8 → List UInt8) (h : R.Suits chunk buffSize d.calls)
    (hmem : mem.length = buffSize + 1) (hinbound : d.inbound = R.bytes) :
    ∃ r d', recvResponse chunk lexicalCast uncompress buffSize mem d = .ok (.response r) d' ∧
      r.body = (if R.payload = [] then []
        else decode uncompress R.reading.result.data R.payload) ∧ d'.inbound = [] := by
  obtain ⟨k, data, len, P, d₁, hloop, hfound⟩ :=
    parseLoop_found R.reads h.cuts h.room h.bound hinbound hmem
  have hdata : P.data = R.reading.result.data := congrArg Result.data hfound.follows.result
  have herror : P.error = 0 :=
    (congrArg Result.error hfound.follows.result).trans R.reads.error
  have hchunked : P.parser.chunked = true :=
    (congrArg Result.chunked hfound.follows.result).trans R.chunked
  have hready : Ready buffSize (wire (R.chunks ++ [R.last])) data len P d₁ :=
    ⟨hfound.size, hfound.fits, hfound.left, herror⟩
  have hfavourable : Favourable chunk buffSize (R.chunks ++ [R.last]) len d₁.calls := by
    have hgiven := h.favourable k hfound.before hfound.ended
    rw [bytes, List.length_append, ← hfound.length, ← hfound.calls] at hgiven
    exact hgiven
  have hcount : R.chunks.length ≤ (wire (R.chunks ++ [R.last])).length :=
    length_le_wire R.chunks R.last
  have hlength : len + d₁.inbound.length = (wire (R.chunks ++ [R.last])).length := by
    have hsize := hfound.size
    have hfits := hfound.fits
    rw [← hfound.left, List.length_append, List.length_take]
    omega
  obtain ⟨hcounted, hlast⟩ := counted_of_suits h
  obtain ⟨P', d', hchunks, hsame, hrest⟩ := chunkLoop_wire hcounted R.nonempty hlast R.ended h.room
    h.bound hready hfavourable (show R.chunks.length < len + d₁.inbound.length + 1 by omega) []
  rw [List.nil_append] at hchunks
  have hthen : recvResponse chunk lexicalCast uncompress buffSize mem d =
      .ok (.response (if R.payload.isEmpty then P'.data.setBody R.payload
        else (P'.data.setBody R.payload).setBody
          (decode uncompress (P'.data.setBody R.payload) R.payload))) d' := by
    rw [recvResponse]
    refine (bind_ok rfl).trans ((bind_ok hloop).trans ?_)
    simp only [hchunked, if_true]
    refine (bind_ok rfl).trans ((bind_ok hchunks).trans ?_)
    rw [← payload]
    dsimp only
    by_cases hempty : R.payload.isEmpty = true
    · rw [if_pos hempty, if_pos hempty]
      rfl
    · rw [if_neg hempty, if_neg hempty]
      rfl
  refine ⟨_, d', hthen, ?_, hrest⟩
  by_cases hempty : R.payload = []
  · rw [if_pos hempty, if_pos (List.isEmpty_iff.mpr hempty), hempty]
    rfl
  · rw [if_neg hempty, if_neg (fun h => hempty (List.isEmpty_iff.mp h)), ← hdata, ← hsame]
    rfl

/-- The response is returned with the payloads as its body, and there is nothing behind it that was
read for it or left. -/
def Assembled (chunk : Nat → Nat) (lexicalCast : List UInt8 → Option UInt64)
    (uncompress : Bool → List UInt8 → List UInt8) (buffSize : Nat) (mem : List UInt8) (d : Duplex)
    (R : ChunkedResponse) : Prop :=
  ∃ r d', recvResponse chunk lexicalCast uncompress buffSize mem d = .ok (.response r) d' ∧
    r.body = R.payload ∧ d'.inbound = []

/-- The encoding that the head names leaves the payload as it is. -/
def Kept (uncompress : Bool → List UInt8 → List UInt8) (R : ChunkedResponse) : Prop :=
  R.payload ≠ [] → decode uncompress R.reading.result.data R.payload = R.payload

/-- Without an encoding it does. -/
theorem kept_of_plain (hplain : ¬ Encoded R.reading.result.data) : R.Kept uncompress :=
  fun _ => decode_plain hplain

/-- **Chunks are put together** when the reads suit them. -/
theorem assembled_iff (h : R.Suits chunk buffSize d.calls) (hmem : mem.length = buffSize + 1)
    (hinbound : d.inbound = R.bytes) :
    R.Assembled chunk lexicalCast uncompress buffSize mem d ↔ R.Kept uncompress := by
  obtain ⟨r, d', hrecv, hbody, hrest⟩ :=
    recvResponse_payload lexicalCast uncompress h hmem hinbound
  constructor
  · rintro ⟨r', d'', hrecv', hbody', -⟩ hpayload
    cases hrecv.symm.trans hrecv'
    rw [if_neg hpayload] at hbody
    exact hbody.symm.trans hbody'
  · intro hkept
    refine ⟨r, d', hrecv, ?_, hrest⟩
    by_cases hpayload : R.payload = []
    · rw [hbody, if_pos hpayload, hpayload]
    · rw [hbody, if_neg hpayload, hkept hpayload]

end ChunkedResponse

/-! ## A head -/

/-- The machine reads a head that `dump` writes. -/
theorem readsHead_dump {r : HttpResponse} (hlegal : r.Legal) (hversion : known r.version = true)
    (hends : ∀ entry, r.headers.getLast? = some entry → ¬ Stuck entry) :
    ∃ h : Head, h.seen = dumpSeen r ∧ ReadsHead r.dumpHead h := by
  obtain ⟨h, hseen, hrun⟩ := reads_dump hlegal
  refine ⟨h, hseen, fun more => ?_, ?_⟩
  · rw [hrun, (dumpEnd_iff r).mpr fun _ => hends]
  · exact (congrArg Seen.error hseen).trans (if_pos hversion)

/-- Chunks behind a head that `dump` writes. -/
theorem exists_chunked {r : HttpResponse} (hlegal : r.Legal) (hversion : known r.version = true)
    (hends : ∀ entry, r.headers.getLast? = some entry → ¬ Stuck entry)
    (hchunked : r.headers.any announcesChunks = true) {chunks : List Chunk} {last : Chunk}
    (hencoded : ∀ c ∈ chunks ++ [last], c.Encoded) (hsome : ∀ c ∈ chunks, c.payload ≠ [])
    (hlast : last.payload = []) :
    ∃ R : ChunkedResponse, R.head = r.dumpHead ∧ R.chunks = chunks ∧ R.last = last ∧
      R.reading.result.data = (dumpSeen r).data := by
  obtain ⟨h, hseen, hreads⟩ := readsHead_dump hlegal hversion hends
  exact ⟨⟨r.dumpHead, h, chunks, last, hreads, (congrArg Seen.chunked hseen).trans hchunked,
    hencoded, hsome, hlast⟩, rfl, rfl, rfl, congrArg Seen.data hseen⟩

/-! ## A response -/

/-- `HTTP/1.1 200 OK`, and the header that announces chunks. -/
def chunkedHead : HttpResponse where
  reason := chars ['O', 'K']
  headers := [(transferEncodingName, chunkedValue)]

theorem chunkedHead_legal : chunkedHead.Legal where
  reason := List.all_iff_forall_prop.mp
    (by decide : ((chars ['O', 'K']).all fun c => c ≠ 10 ∧ c ≠ 13) = true)
  names entry hentry := by
    obtain rfl := List.mem_singleton.mp hentry
    exact ⟨by decide, List.all_eq_true.mp (by decide)⟩
  others := by decide
  values entry hentry := by
    obtain rfl := List.mem_singleton.mp hentry
    refine ⟨List.all_iff_forall_prop.mp (by decide), ?_⟩
    rintro c ⟨⟩
    decide
  ordered := List.pairwise_singleton _ _

def letters : Chunk where
  size := chars ['3']
  payload := chars ['a', 'b', 'c']

def noBytes : Chunk where
  size := chars ['0']
  payload := []

/-- The head with the two chunks behind it. -/
theorem exists_letters : ∃ R : ChunkedResponse,
    R.bytes = chunkedHead.dumpHead ++ wire [letters, noBytes] ∧
      ¬ Encoded R.reading.result.data := by
  have hencoded : ∀ c ∈ [letters] ++ [noBytes], c.Encoded := by
    intro c hc
    rcases List.mem_cons.mp hc with rfl | hc
    · exact Chunk.encoded_of_all (by decide) (by decide) (by decide)
    · obtain rfl := List.mem_singleton.mp hc
      exact Chunk.encoded_of_all (by decide) (by decide) (by decide)
  have hends : ∀ entry, chunkedHead.headers.getLast? = some entry → ¬ Stuck entry := by
    rintro entry ⟨⟩ ⟨hempty, -⟩
    cases hempty
  obtain ⟨R, hhead, hchunks, hlast, hdata⟩ := exists_chunked chunkedHead_legal (by decide) hends
    (by decide) hencoded (by decide) rfl
  refine ⟨R, ?_, ?_⟩
  · rw [ChunkedResponse.bytes, hhead, hchunks, hlast]
    rfl
  · rw [hdata]
    exact not_or.mpr ⟨by decide, by decide⟩

/-- `assembled_iff` for this response, in one read. -/
theorem assembled_iff_letters : ∃ R : ChunkedResponse,
    R.bytes = chunkedHead.dumpHead ++ wire [letters, noBytes] ∧
      R.Assembled (fun _ => 64) HttpSession.castDecimal (fun _ body => body) 64
        (List.replicate 65 0) { inbound := R.bytes } := by
  obtain ⟨R, hbytes, hplain⟩ := exists_letters
  have hone : R.bytes.length ≤ moved (fun _ => 64) 0 64 := by
    rw [hbytes]
    decide
  exact ⟨R, hbytes, (R.assembled_iff (R.suits_of_oneRead (by decide) hone) List.length_replicate
    rfl).mpr (R.kept_of_plain hplain)⟩

/-- **A chunk that a read splits.** -/
theorem not_assembled_split : ∃ R : ChunkedResponse,
    R.bytes = chunkedHead.dumpHead ++ wire [letters, noBytes] ∧
      ¬ R.Assembled (fun n => if n = 0 then 51 else 64) HttpSession.castDecimal
        (fun _ body => body) 64 (List.replicate 65 0) { inbound := R.bytes } := by
  obtain ⟨R, hbytes, -⟩ := exists_letters
  refine ⟨R, hbytes, ?_⟩
  rintro ⟨r, d', hrecv, -⟩
  have hfails : (match recvResponse (fun n => if n = 0 then 51 else 64) HttpSession.castDecimal
      (fun _ body => body) 64 (List.replicate 65 0)
      { inbound := chunkedHead.dumpHead ++ wire [letters, noBytes] } with
    | .ok .nullptr _ => true
    | _ => false) = true := by
    decide +kernel
  rw [← hbytes, hrecv] at hfails
  cases hfails

end Client
end Http
end Routn
