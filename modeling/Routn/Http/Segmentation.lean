import Mathlib.Tactic
import Routn.Http.Reading

/-!
# Where the reads of a request end

`answer` is what a request stands for.  `recvRequest` returns it when the reads of the head end
between tokens and the body is shorter than 2^31 bytes (`recvRequest_reads`), and so all such ways
of splitting a request agree with the one in which it comes in one read.  A read that ends inside a
token loses the beginning of the token.
-/

namespace Routn
namespace Http
namespace HttpSession

open Foundation Machine Duplex

section Answer

variable (lexicalCast : List UInt8 → Option UInt64)

/-- `int64_t length = parser->getContentLength()`. -/
def bodyLength (h : Head) : Int := (h.data.contentLength lexicalCast).toBitVec.toInt

/-- What a head stands for, with the bytes behind it. -/
def answer (h : Head) (rest : List UInt8) : Received :=
  if h.error ≠ 0 then .nullptr
  else if 0 < bodyLength lexicalCast h then
    .request (finish h.data (rest.take (bodyLength lexicalCast h).toNat))
  else .request h.data.init

theorem answer_request {h : Head} (rest : List UInt8) (herror : h.error = 0) :
    ∃ r, answer lexicalCast h rest = .request r := by
  rw [answer, if_neg fun hne => hne herror]
  split
  · exact ⟨_, rfl⟩
  · exact ⟨_, rfl⟩

end Answer

section Body

variable {chunk : Nat → Nat} {lexicalCast : List UInt8 → Option UInt64} {length : Int}
  {data rest : List UInt8} {offset : Nat} {r : HttpRequest} {d : Duplex}

theorem recvBody_none (hlength : ¬ 0 < length) :
    recvBody chunk length data offset r d = .ok (.request r.init) d := by
  rw [recvBody, if_neg hlength]
  rfl

/-- The body is in the buffer. -/
theorem recvBody_buffered (hlength : 0 < length) (hinside : offset ≤ data.length)
    (henough : length ≤ offset) :
    recvBody chunk length data offset r d =
      .ok (.request (finish r (data.take length.toNat))) d := by
  have hlen : (if offset ≤ length.toNat then offset else length.toNat) = length.toNat := by
    split <;> omega
  have htake : (data.take length.toNat).length = length.toNat := by
    rw [List.length_take]
    omega
  have hbody : splice (List.replicate length.toNat 0) 0 (data.take length.toNat) =
      data.take length.toNat := by
    rw [splice, htake, List.drop_of_length_le (by rw [List.length_replicate]; omega)]
    simp
  rw [recvBody, if_pos hlength]
  simp only [hlen, hbody]
  rw [if_neg (by omega)]
  rfl

/-- The body is in the buffer and in the stream. -/
theorem recvBody_read (hlength : 0 < length) (hbound : length < 2 ^ 31)
    (hinside : offset ≤ data.length) (hmore : offset < length)
    (hrest : data.take offset ++ d.inbound = rest) (henough : length ≤ rest.length) :
    ∃ d', recvBody chunk length data offset r d =
        .ok (.request (finish r (rest.take length.toNat))) d' ∧
      d'.At (rest.drop length.toNat) d.outbound d.closed := by
  obtain ⟨n, rfl⟩ : ∃ n : Nat, length = n := ⟨length.toNat, by omega⟩
  rw [Int.toNat_natCast]
  have htake : (data.take offset).length = offset := by
    rw [List.length_take]
    omega
  have hcount : rest.length = offset + d.inbound.length := by
    rw [← hrest, List.length_append, htake]
  have hfirst : (splice (List.replicate n 0) 0 (data.take offset)).length = n := by
    rw [length_splice_of_fits] <;> rw [List.length_replicate]
    omega
  obtain ⟨d', hread, hat⟩ := readFixSize_ok chunk
    (show offset + (n - offset) ≤
      (splice (List.replicate n 0) 0 (data.take offset)).length by omega)
    (show n - offset ≤ d.inbound.length by omega) (by omega)
  have hbody : splice (splice (List.replicate n 0) 0 (data.take offset)) offset
      (d.inbound.take (n - offset)) = rest.take n := by
    have hjoin : splice (splice (List.replicate n 0) 0 (data.take offset))
        (0 + (data.take offset).length) (d.inbound.take (n - offset)) =
          splice (List.replicate n 0) 0 (data.take offset ++ d.inbound.take (n - offset)) :=
      splice_splice _ _ (Nat.zero_le _)
    have hblock : (d.inbound.take (n - offset)).length = n - offset := by
      rw [List.length_take]
      omega
    rw [htake, Nat.zero_add] at hjoin
    rw [hjoin, splice, List.drop_of_length_le]
    · rw [← hrest, List.take_append, htake, List.take_take]
      simp [Nat.min_eq_right (show offset ≤ n by omega)]
    · rw [List.length_replicate, List.length_append, htake, hblock]
      omega
  have hlen : (if offset ≤ n then offset else n) = offset := if_pos (by omega)
  have hdrop : d.inbound.drop (n - offset) = rest.drop n := by
    have hover : (data.take offset).drop n = [] := List.drop_of_length_le (by omega)
    rw [← hrest, List.drop_append, htake, hover, List.nil_append]
  have hsize : ((n : Int) - offset).toNat = n - offset := by omega
  have hrt : ¬ toInt (n - offset) ≤ 0 := by
    rw [toInt_of_lt (by omega)]
    omega
  rw [hdrop] at hat
  refine ⟨d', ?_, hat⟩
  rw [recvBody, if_pos hlength]
  simp only [Int.toNat_natCast, hlen, hsize]
  rw [if_pos (by omega)]
  refine (bind_ok hread).trans ?_
  rw [hbody]
  exact congrFun (if_neg hrt) d'

end Body

section Request

variable {chunk : Nat → Nat} {lexicalCast : List UInt8 → Option UInt64} {buffSize : Nat}
  {relaxed : Bool} {mem : Uninit} {d₀ : Duplex} {rest : List UInt8} {cs : Nat} {h : Head}

/-- What is left in the stream behind a request. -/
structure LeftBehind (chunk : Nat → Nat) (buffSize : Nat) (relaxed : Bool) (d₀ : Duplex)
    (behind : List UInt8) (d : Duplex) : Prop where
  outbound : d.outbound = d₀.outbound
  closed : d.closed = d₀.closed
  /-- The read that ended the head took its bytes for good, those behind the request too. -/
  last : ∃ k, ¬ halted (stateAfter relaxed (d₀.inbound.take (cut chunk buffSize d₀.calls k))) ∧
    d.inbound <:+ d₀.inbound.drop (cut chunk buffSize d₀.calls (k + 1)) ∧
    (behind.length ≤ (d₀.inbound.drop (cut chunk buffSize d₀.calls (k + 1))).length →
      d.inbound = behind)

/-- The body of a head that was found. -/
theorem Found.body {data : List UInt8} {offset : Nat} {P : HttpRequestParser} {d : Duplex}
    (hfound : Found chunk buffSize relaxed d₀ rest h data offset P d) (herror : h.error = 0)
    (hlength : bodyLength lexicalCast h < 2 ^ 31)
    (henough : bodyLength lexicalCast h ≤ rest.length) :
    ∃ d', recvBody chunk (bodyLength lexicalCast h) data offset h.data d =
        .ok (answer lexicalCast h rest) d' ∧
      LeftBehind chunk buffSize relaxed d₀ (rest.drop (bodyLength lexicalCast h).toNat) d' := by
  obtain ⟨k, hk, hlast⟩ := hfound.last
  have htake : (data.take offset).length = offset := by
    rw [List.length_take]
    exact Nat.min_eq_left hfound.inside
  have hcount : rest.length = offset + d.inbound.length := by
    rw [← hfound.left, List.length_append, htake]
  -- Without more reads the stream is as the last read of the head left it.
  have hstays : bodyLength lexicalCast h ≤ offset →
      LeftBehind chunk buffSize relaxed d₀ (rest.drop (bodyLength lexicalCast h).toNat) d := by
    intro hshort
    refine ⟨hfound.outbound, hfound.closed, k, hk, hlast ▸ List.suffix_refl _, ?_⟩
    intro hbehind
    rw [List.length_drop, ← hlast] at hbehind
    have hnone : offset ≤ (bodyLength lexicalCast h).toNat := by omega
    have hsame : offset = (bodyLength lexicalCast h).toNat := by omega
    rw [← hfound.left, ← hsame, List.drop_append, htake, Nat.sub_self,
      List.drop_of_length_le (show (data.take offset).length ≤ offset by omega)]
    rfl
  have hanswer : answer lexicalCast h rest =
      if 0 < bodyLength lexicalCast h then
        .request (finish h.data (rest.take (bodyLength lexicalCast h).toNat))
      else .request h.data.init := if_neg fun hne => hne herror
  rw [hanswer]
  rcases lt_or_ge 0 (bodyLength lexicalCast h) with hsome | hnone
  · rw [if_pos hsome]
    rcases lt_or_ge (offset : Int) (bodyLength lexicalCast h) with hmore | hshort
    · obtain ⟨d', hbody, hat⟩ := recvBody_read (r := h.data) hsome hlength hfound.inside hmore
        hfound.left henough
      refine ⟨d', hbody, ?_⟩
      refine ⟨hat.outbound.trans hfound.outbound, hat.closed.trans hfound.closed, k, hk, ?_,
        fun _ => hat.inbound⟩
      rw [hat.inbound, ← hlast, ← hfound.left, List.drop_append, htake,
        List.drop_of_length_le (show (data.take offset).length ≤ _ by omega), List.nil_append]
      exact List.drop_suffix _ _
    · have hbody : rest.take (bodyLength lexicalCast h).toNat =
          data.take (bodyLength lexicalCast h).toNat := by
        rw [← hfound.left, List.take_append_of_le_length (by omega), List.take_take,
          Nat.min_eq_left (by omega)]
      rw [hbody]
      exact ⟨d, recvBody_buffered hsome hfound.inside hshort, hstays hshort⟩
  · rw [if_neg (not_lt.mpr hnone)]
    exact ⟨d, recvBody_none (not_lt.mpr hnone), hstays (by omega)⟩

/-- **What a call returns** when its reads end between tokens. -/
theorem recvRequest_reads (d₀ : Duplex) (hsize : mem.buffer.length = buffSize)
    (hrelaxed : mem.uriRelaxed = relaxed) (hpos : 0 < buffSize) (hbound : buffSize < 2 ^ 31)
    (hcuts : CutsBetween chunk buffSize relaxed d₀.calls d₀.inbound)
    (hreads : Reads relaxed d₀.inbound rest cs h) (hpeeked : h.peeked = false) (hfinal : final cs)
    (hlength : bodyLength lexicalCast h < 2 ^ 31)
    (henough : bodyLength lexicalCast h ≤ rest.length) :
    ∃ d', recvRequest chunk lexicalCast buffSize mem d₀ = .ok (answer lexicalCast h rest) d' ∧
      (h.error = 0 →
        LeftBehind chunk buffSize relaxed d₀ (rest.drop (bodyLength lexicalCast h).toNat) d') := by
  obtain ⟨e, d, hhead, hgood, hbad⟩ := recvHead_reads hcuts hpos hbound hreads hpeeked
    (Before.init hsize hrelaxed) (Nat.lt_succ_self _)
  by_cases herror : h.error = 0
  · obtain ⟨data, offset, P, rfl, hfound⟩ := hgood ⟨hfinal, herror⟩
    obtain ⟨d', hbody, hleft⟩ := hfound.body herror hlength henough
    refine ⟨d', ?_, fun _ => hleft⟩
    refine (bind_ok rfl).trans ((bind_ok hhead).trans ?_)
    show recvBody chunk (P.data.contentLength lexicalCast).toBitVec.toInt data offset P.data d = _
    rw [hfound.request]
    exact hbody
  · obtain ⟨rfl, -, -⟩ := hbad fun hboth => herror hboth.2
    rw [answer, if_pos herror]
    exact ⟨{ d with closed := true }, (bind_ok rfl).trans ((bind_ok hhead).trans rfl),
      fun hzero => absurd hzero herror⟩

end Request

end HttpSession
end Http
end Routn
