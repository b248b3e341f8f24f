import Mathlib.Tactic
import Routn.Http.ResponseReading

/-!
# The body of a response

A body of an announced length, and how many bytes the loop over chunks can make of those that are
there: it never makes as many.
-/

namespace Routn
namespace Http
namespace Client

open Foundation Duplex HttpConnection

/-! ## A body of an announced length -/

section Announced

variable {chunk : Nat → Nat} {data first rest : List UInt8} {r : HttpResponse} {d : Duplex}

/-- What `readFixSize` returns for the bytes that are not in the buffer decides; it is an `int`. -/
theorem recvBody_announced (hpos : 0 < first.length + rest.length)
    (hlong : first.length + rest.length < 2 ^ 63) (hdata : data.take first.length = first)
    (hinbound : d.inbound = rest) :
    ∃ d', recvBody chunk (first.length + rest.length : Nat) data first.length r d =
      .ok (if rest.length = 0 ∨ 0 < toInt rest.length then .response (r.setBody (first ++ rest))
        else .nullptr) d' := by
  obtain ⟨n, hn⟩ : ∃ n, n = first.length + rest.length := ⟨_, rfl⟩
  have hlen : (if first.length ≤ n then first.length else n) = first.length := if_pos (by omega)
  have hbuffer : splice (List.replicate n 0) 0 first =
      first ++ List.replicate rest.length 0 := by
    rw [splice, List.take_zero, List.nil_append, Nat.zero_add, List.drop_replicate]
    congr 2
    omega
  rw [← hn, recvBody, if_pos (by omega)]
  simp only [Int.toNat_natCast, hlen, hdata, hbuffer]
  by_cases hnone : rest.length = 0
  · rw [if_neg (by omega), if_pos (.inl hnone), hnone, List.length_eq_zero_iff.mp hnone]
    exact ⟨d, rfl⟩
  · have hleft : ((n : Int) - first.length).toNat = rest.length := by omega
    obtain ⟨d', hread, -⟩ := readFixSize_ok chunk
      (show first.length + rest.length ≤ (first ++ List.replicate rest.length 0).length by simp)
      (show rest.length ≤ d.inbound.length by rw [hinbound]) (by omega)
    rw [hinbound, List.take_length] at hread
    have hfilled : splice (first ++ List.replicate rest.length 0) first.length rest =
        first ++ rest := by
      rw [splice, List.take_left, List.drop_of_length_le (by simp), List.append_nil]
    rw [hfilled] at hread
    rw [if_pos (by omega), hleft]
    have hthen : ∀ d' : Duplex, (if toInt rest.length ≤ 0 then do
          Duplex.close
          return .nullptr
        else return .response (r.setBody (first ++ rest)) :
          EStateM StreamFault Duplex Received) d' =
        if 0 < toInt rest.length then .ok (.response (r.setBody (first ++ rest))) d'
        else .ok .nullptr { d' with closed := true } := by
      intro d'
      by_cases hrt : 0 < toInt rest.length
      · rw [if_neg (by omega), if_pos hrt]
        rfl
      · rw [if_pos (by omega), if_neg hrt]
        rfl
    by_cases hrt : 0 < toInt rest.length
    · refine ⟨d', (bind_ok hread).trans ((hthen d').trans ?_)⟩
      rw [if_pos hrt, if_pos (.inr hrt)]
    · refine ⟨{ d' with closed := true }, (bind_ok hread).trans ((hthen d').trans ?_)⟩
      rw [if_neg hrt, if_neg (not_or.mpr ⟨hnone, hrt⟩)]

end Announced

/-! ## How much a body of chunks can hold -/

section Measure

variable {chunk : Nat → Nat} {buffSize len len' : Nat} {data data' : List UInt8} {chunked : Bool}
  {P P' : HttpResponseParser} {d d' : Duplex}

theorem execute_bounds {nparse : Nat} (hle : len ≤ data.length)
    (hexec : P.execute data len chunked = some (nparse, data', P')) :
    data'.length = data.length := by
  obtain ⟨r, -, hr⟩ := Option.bind_eq_some_iff.mp hexec
  split at hr
  · cases hr
  · cases hr
    refine length_splice_of_fits ?_
    rw [List.length_drop, List.length_take]
    omega

/-- What an iteration leaves is in the buffer. -/
theorem turn_bounds (hsize : data.length = buffSize + 1) (hle : len ≤ buffSize)
    (hturn : turn buffSize chunked data len P = .again data' len' P' ∨
      turn buffSize chunked data len P = .leave (.finished data' len' P')) :
    data'.length = buffSize + 1 ∧ len' ≤ len := by
  obtain ⟨hlength, -⟩ := terminated hsize hle
  rw [turn] at hturn
  cases hexec : P.execute (splice data len [0]) len chunked with
  | none =>
      rw [hexec] at hturn
      rcases hturn with h | h <;> cases h
  | some r =>
      obtain ⟨nparse, data₁, P₁⟩ := r
      have hdata := execute_bounds (by omega) hexec
      rw [hexec] at hturn
      have hshape : data' = data₁ ∧ len' = len - nparse := by
        simp only [] at hturn
        split at hturn
        · rcases hturn with h | h <;> cases h
        · split at hturn
          · rcases hturn with h | h <;> cases h
          · split at hturn
            · rcases hturn with h | h
              · cases h
              · cases h
                exact ⟨rfl, rfl⟩
            · rcases hturn with h | h
              · cases h
                exact ⟨rfl, rfl⟩
              · cases h
      obtain ⟨rfl, rfl⟩ := hshape
      exact ⟨hdata.trans hlength, Nat.sub_le _ _⟩

/-- A read moves bytes from the stream into the buffer. -/
theorem afterRead_bounds (hsize : data.length = buffSize + 1) (hle : len ≤ buffSize) (d : Duplex) :
    (afterRead chunk buffSize data len d).memory.length = buffSize + 1 ∧
      len + taken chunk buffSize len d ≤ buffSize ∧
      taken chunk buffSize len d + (afterRead chunk buffSize data len d).inbound.length =
        d.inbound.length := by
  obtain ⟨hmemory, hfits, -⟩ := afterRead_take chunk hsize hle d
  have htaken : taken chunk buffSize len d ≤ d.inbound.length := Nat.min_le_left _ _
  refine ⟨hmemory, hfits, ?_⟩
  show _ + (d.inbound.drop _).length = _
  rw [List.length_drop]
  omega

theorem parseLoop_bounds {fuel : Nat} {skip : Bool} (hsize : data.length = buffSize + 1)
    (hle : len ≤ buffSize)
    (hloop : parseLoop chunk buffSize chunked fuel skip data len P d =
      .ok (.finished data' len' P') d') :
    data'.length = buffSize + 1 ∧ len' ≤ buffSize ∧
      len' + d'.inbound.length ≤ len + d.inbound.length := by
  induction fuel generalizing skip data len P d with
  | zero => cases hloop
  | succ fuel ih =>
      cases skip with
      | true =>
          rw [parseLoop] at hloop
          cases hturn : turn buffSize chunked data len P with
          | again data₁ len₁ P₁ =>
              rw [hturn] at hloop
              obtain ⟨hsize₁, hle₁⟩ := turn_bounds hsize hle (.inl hturn)
              obtain ⟨hdata, hlen, hcount⟩ := ih hsize₁ (by omega) hloop
              exact ⟨hdata, hlen, by omega⟩
          | leave e =>
              rw [hturn] at hloop
              cases hloop
              obtain ⟨hsize₁, hle₁⟩ := turn_bounds hsize hle (.inr hturn)
              exact ⟨hsize₁, by omega, by omega⟩
      | false =>
          obtain ⟨hmemory, hfits, hcount⟩ := afterRead_bounds hsize hle d
          rw [parseLoop_read hsize hle] at hloop
          split at hloop
          · cases hloop
          · cases hturn : turn buffSize chunked (afterRead chunk buffSize data len d).memory
                (len + taken chunk buffSize len d) P with
            | again data₁ len₁ P₁ =>
                rw [hturn] at hloop
                obtain ⟨hsize₁, hle₁⟩ := turn_bounds hmemory hfits (.inl hturn)
                obtain ⟨hdata, hlen, hcount'⟩ := ih hsize₁ (by omega) hloop
                exact ⟨hdata, hlen, by omega⟩
            | leave e =>
                rw [hturn] at hloop
                cases hloop
                obtain ⟨hsize₁, hle₁⟩ := turn_bounds hmemory hfits (.inr hturn)
                exact ⟨hsize₁, by omega, by omega⟩

theorem leftLoop_bounds (hbound : buffSize < 2 ^ 31) {fuel : Nat} {left : Int} {more : List UInt8}
    (hsize : data.length = buffSize + 1)
    (hloop : leftLoop chunk buffSize fuel left data d = .ok (some more) d') :
    more.length + d'.inbound.length ≤ d.inbound.length ∧
      (0 < left → d'.memory.length = buffSize + 1) := by
  induction fuel generalizing left data d more with
  | zero =>
      rw [leftLoop] at hloop
      split at hloop
      · cases hloop
      · cases hloop
        exact ⟨by simp, fun h => absurd h ‹_›⟩
  | succ fuel ih =>
      by_cases hleft : 0 < left
      · obtain ⟨n, hn⟩ : ∃ n, n = asked buffSize left := ⟨_, rfl⟩
        have hle : n ≤ buffSize := hn ▸ (asked_le hleft).1
        rw [leftLoop_read hsize hbound hleft, ← hn] at hloop
        have hcount : taken chunk n 0 d ≤ d.inbound.length ∧ taken chunk n 0 d ≤ n :=
          ⟨Nat.min_le_left _ _, (Nat.min_le_right _ _).trans (moved_le chunk d.calls _)⟩
        have hmemory : (afterRead chunk n data 0 d).memory.length = buffSize + 1 := by
          refine (length_splice_of_fits ?_).trans hsize
          rw [List.length_take]
          omega
        have hinbound : taken chunk n 0 d + (afterRead chunk n data 0 d).inbound.length =
            d.inbound.length := by
          show _ + (d.inbound.drop _).length = _
          rw [List.length_drop]
          omega
        split at hloop
        · cases hloop
        · split at hloop
          · next more₁ d₁ hmore =>
              cases hloop
              obtain ⟨hcount₁, hmemory₁⟩ := ih hmemory hmore
              constructor
              · rw [List.length_append, List.length_take]
                omega
              · intro _
                by_cases hagain : 0 < left - taken chunk n 0 d
                · exact hmemory₁ hagain
                · rw [leftLoop_done (by omega)] at hmore
                  cases hmore
                  exact hmemory
          · cases hloop
          · cases hloop
      · rw [leftLoop_done (by omega)] at hloop
        cases hloop
        exact ⟨by simp, fun h => absurd h hleft⟩

/-- A chunk adds less to the body than it takes from the bytes that are there. -/
theorem takeChunk_bounds (hbound : buffSize + 3 < 2 ^ 31) {body body' : List UInt8}
    {contentLen : Int} (hsize : data.length = buffSize + 1) (hle : len ≤ buffSize)
    (hchunk : takeChunk chunk buffSize body data len contentLen d =
      .ok (.ok (body', data', len')) d') :
    data'.length = buffSize + 1 ∧ len' ≤ buffSize ∧
      body'.length + len' + d'.inbound.length + 2 ≤ body.length + len + d.inbound.length := by
  rw [takeChunk] at hchunk
  split at hchunk
  · next hinside =>
      rw [append] at hchunk
      by_cases hneg : contentLen < 0
      · rw [if_pos hneg] at hchunk
        cases hchunk
      · rw [if_neg hneg] at hchunk
        by_cases hout : data.length < contentLen.toNat
        · rw [if_pos hout] at hchunk
          cases hchunk
        · rw [if_neg hout] at hchunk
          cases hchunk
          have hend : (contentLen + 2 + 2 ^ 31) % 2 ^ 32 - 2 ^ 31 = contentLen + 2 := by omega
          rw [hend] at hinside ⊢
          refine ⟨(length_splice_of_fits ?_).trans hsize, by omega, ?_⟩
          · rw [List.length_drop, List.length_take]
            omega
          · rw [List.length_append, List.length_take]
            omega
  · next houtside =>
      obtain ⟨d₀, d₁, hget, hchunk⟩ := of_bind_ok hchunk
      cases hget
      obtain ⟨more, d₁, hleft, hchunk⟩ := of_bind_ok hchunk
      cases more with
      | none => cases hchunk
      | some more =>
          obtain ⟨hcount, hmemory⟩ := leftLoop_bounds (by omega) hsize hleft
          dsimp only at hchunk
          by_cases hshort : (body ++ data.take len ++ more).length < 2
          · rw [if_pos hshort] at hchunk
            cases hchunk
          · rw [if_neg hshort] at hchunk
            cases hchunk
            refine ⟨hmemory (by omega), Nat.zero_le _, ?_⟩
            simp only [List.length_take, List.length_append] at hshort ⊢
            omega

theorem takeChunk_error {body : List UInt8} {contentLen : Int} {e : BodyEnd}
    (hchunk : takeChunk chunk buffSize body data len contentLen d = .ok (.error e) d') :
    e = .threw ∨ e = .nullptr := by
  rw [takeChunk] at hchunk
  split at hchunk
  · cases happend : append body data contentLen with
    | none =>
        rw [happend] at hchunk
        cases hchunk
        exact .inl rfl
    | some r =>
        rw [happend] at hchunk
        cases r <;> cases hchunk
  · obtain ⟨d₀, d₁, hget, hchunk⟩ := of_bind_ok hchunk
    obtain ⟨more, d₁, hleft, hchunk⟩ := of_bind_ok hchunk
    cases more with
    | none =>
        cases hchunk
        exact .inr rfl
    | some more =>
        dsimp only at hchunk
        split at hchunk
        · cases hchunk
          exact .inl rfl
        · cases hchunk

/-- **The body is shorter than the bytes it is made of.** -/
theorem chunkLoop_bounds (hbound : buffSize + 3 < 2 ^ 31) {fuel : Nat} {body body' : List UInt8}
    (hsize : data.length = buffSize + 1) (hle : len ≤ buffSize)
    (hloop : chunkLoop chunk buffSize fuel body data len P d = .ok (.body body' P') d') :
    body'.length < body.length + len + d.inbound.length := by
  induction fuel generalizing body data len P d with
  | zero => cases hloop
  | succ fuel ih =>
      rw [chunkLoop] at hloop
      obtain ⟨d₀, d₁, hget, hloop⟩ := of_bind_ok hloop
      cases hget
      obtain ⟨e, d₁, hparse, hloop⟩ := of_bind_ok hloop
      cases e with
      | threw => cases hloop
      | failed => cases hloop
      | finished data₁ len₁ P₁ =>
          obtain ⟨hsize₁, hle₁, hcount₁⟩ := parseLoop_bounds hsize hle hparse
          obtain ⟨r, d₂, hchunk, hloop⟩ := of_bind_ok hloop
          cases r with
          | error e =>
              cases hloop
              rcases takeChunk_error hchunk with h | h <;> cases h
          | ok r =>
              obtain ⟨body₂, data₂, len₂⟩ := r
              obtain ⟨hsize₂, hle₂, hcount₂⟩ := takeChunk_bounds hbound hsize₁ hle₁ hchunk
              simp only [] at hloop
              split at hloop
              · cases hloop
                omega
              · have hrest := ih hsize₂ hle₂ hloop
                omega

end Measure

end Client
end Http
end Routn
