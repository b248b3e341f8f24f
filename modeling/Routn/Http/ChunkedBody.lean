import Mathlib.Tactic
import Routn.Http.Grammar
import Routn.Http.ResponseHead
import Routn.Http.ResponseSegments

/-!
# A body in chunks

The second loop of `recvResponse` sets its parser up anew for each size line, and counts the bytes
of a chunk that lie in the buffer as zero when it goes on to read the others.  So it depends on the
reads: it puts the payloads together when each size line is whole where it is parsed, and of each
chunk all or nothing is in the buffer behind it (`Favourable`, `chunkLoop_wire`).
-/

namespace Routn
namespace Http
namespace Client

open Foundation Duplex HttpConnection

/-! ## Chunks -/

def hexDigits : List UInt8 :=
  chars ['0', '1', '2', '3', '4', '5', '6', '7', '8', '9', 'A', 'B', 'C', 'D', 'E', 'F',
    'a', 'b', 'c', 'd', 'e', 'f']

/-- The digits of the size, and the payload. -/
structure Chunk where
  size : List UInt8
  payload : List UInt8

namespace Chunk

def bytes (c : Chunk) : List UInt8 := c.size ++ crlf ++ (c.payload ++ crlf)

/-- The size is that of the payload, in hexadecimal digits. -/
structure Encoded (c : Chunk) : Prop where
  nonempty : c.size ≠ []
  digits : ∀ x ∈ c.size, x ∈ hexDigits
  value : strtol c.size 16 = c.payload.length

theorem encoded_of_all {c : Chunk} (hnonempty : c.size ≠ [])
    (hdigits : (c.size.all fun x => x ∈ hexDigits) = true)
    (hvalue : strtol c.size 16 = c.payload.length) : c.Encoded :=
  ⟨hnonempty, List.all_iff_forall_prop.mp hdigits, hvalue⟩

/-- With the line end it is an `int`. -/
structure Counted (c : Chunk) : Prop extends Encoded c where
  fits : c.payload.length + 2 < 2 ^ 31

theorem length_bytes (c : Chunk) :
    c.bytes.length = c.size.length + 2 + (c.payload.length + 2) := by
  simp only [bytes, crlf, chars, List.length_append, List.length_map, List.length_cons,
    List.length_nil]

end Chunk

def wire (chunks : List Chunk) : List UInt8 := (chunks.map Chunk.bytes).flatten

theorem wire_cons (c : Chunk) (chunks : List Chunk) :
    wire (c :: chunks) = c.size ++ crlf ++ (c.payload ++ crlf ++ wire chunks) := by
  simp [wire, Chunk.bytes]

theorem length_wire_cons (c : Chunk) (chunks : List Chunk) :
    (wire (c :: chunks)).length = c.bytes.length + (wire chunks).length := by
  rw [wire, List.map_cons, List.flatten_cons, List.length_append]
  rfl

theorem length_le_wire (chunks : List Chunk) (last : Chunk) :
    chunks.length ≤ (wire (chunks ++ [last])).length := by
  induction chunks with
  | nil => exact Nat.zero_le _
  | cons c chunks ih =>
      rw [List.cons_append, length_wire_cons, c.length_bytes, List.length_cons]
      omega

theorem length_bytes_le {c : Chunk} {chunks : List Chunk} (hc : c ∈ chunks) :
    c.bytes.length ≤ (wire chunks).length :=
  (List.sublist_flatten_of_mem (List.mem_map_of_mem hc)).length_le

theorem crlf_eq : crlf = [13, 10] := rfl

/-! ## The reads -/

section Reads

variable (chunk : Nat → Nat) (buffSize : Nat)

/-- How many bytes are in the buffer when a size line is parsed, and the number of the next call:
an empty buffer is read into first. -/
def seen (len calls left : Nat) : Nat × Nat :=
  if len = 0 then (min left (moved chunk calls buffSize), calls + 1) else (len, calls)

/-- The number of the next call when `left` bytes have been read with a bound on them. -/
def drained : Nat → Nat → Nat → Nat
  | 0, _, calls => calls
  | fuel + 1, left, calls =>
      if left = 0 then calls
      else drained fuel (left - moved chunk calls (min buffSize left)) (calls + 1)

/-- With `len` bytes in the buffer: each size line is whole where it is parsed, and of a chunk and
its line end all or nothing is behind it. -/
def Favourable : List Chunk → Nat → Nat → Prop
  | [], _, _ => True
  | c :: chunks, len, calls =>
      let view := seen chunk buffSize len calls ((wire (c :: chunks)).length - len)
      c.size.length + 2 ≤ view.1 ∧
        if c.bytes.length ≤ view.1 then Favourable chunks (view.1 - c.bytes.length) view.2
        else view.1 = c.size.length + 2 ∧
          Favourable chunks 0 (drained chunk buffSize (c.payload.length + 2) (c.payload.length + 2)
            view.2)

variable {chunk : Nat → Nat} {buffSize : Nat}

/-- All the chunks are in the buffer. -/
theorem favourable_all {chunks : List Chunk} {len calls : Nat}
    (hall : (wire chunks).length ≤ len) : Favourable chunk buffSize chunks len calls := by
  induction chunks generalizing len with
  | nil => trivial
  | cons c chunks ih =>
      rw [length_wire_cons] at hall
      have hbytes := c.length_bytes
      have hseen : seen chunk buffSize len calls ((wire (c :: chunks)).length - len) =
          (len, calls) := if_neg (by omega)
      rw [Favourable, hseen]
      refine ⟨by omega, ?_⟩
      rw [if_pos (by omega)]
      exact ih (by omega)

end Reads

/-! ## A size line -/

theorem hex_rows : ∀ x ∈ hexDigits, plainNext httpclientParserStart x = some ([.mark], 2) ∧
    plainNext 2 x = some ([], 2) :=
  List.all_iff_forall_prop.mp (by decide : (hexDigits.all fun x =>
    plainNext httpclientParserStart x = some ([.mark], 2) ∧ plainNext 2 x = some ([], 2)) = true)

theorem line_rows : plainNext 2 13 = some ([.chunkSize], 3) ∧
    plainNext 3 10 = some ([.done], 120) := by
  decide

/-- What a size line leaves in the parser. -/
structure Sized (n : Nat) (r r' : Result) : Prop where
  data : r'.data = r.data
  error : r'.error = r.error
  contentLen : r'.contentLen = n
  chunksDone : r'.chunksDone = decide (n = 0)

theorem sized_of_toInt {n : Nat} (hn : n < 2 ^ 31) (r : Result) : Sized n r { r with
    chunked := true
    contentLen := toInt n
    chunksDone := decide (toInt n ≤ 0) } := by
  have hint : toInt n = n := by
    rw [toInt]
    omega
  rw [hint]
  exact ⟨rfl, rfl, rfl, decide_eq_decide.mpr (by omega)⟩

/-- **The machine reads a size line.** -/
theorem run_size {c : Chunk} (hc : c.Counted) (h : Head) :
    ∃ h' : Head, Sized c.payload.length h.result h'.result ∧ ∀ more,
      plain.run Head.store (c.size ++ crlf ++ more) httpclientParserStart h =
        some (more, httpclientParserFirstFinal, h') := by
  obtain ⟨x, w, hsize⟩ := List.exists_cons_of_ne_nil hc.nonempty
  have hdigits := hc.digits
  rw [hsize] at hdigits
  obtain ⟨hfirst, -⟩ := hex_rows x (hdigits x List.mem_cons_self)
  have hpass : plain.pass 2 w = some 2 := Control.pass_loop rfl fun d hd =>
    (hex_rows d (hdigits d (List.mem_cons_of_mem _ hd))).2
  obtain ⟨hreturn, hfeed⟩ := line_rows
  obtain ⟨g, hg⟩ : ∃ g, g = ticks w ((h.act .mark).tick x) := ⟨_, rfl⟩
  have hmark : g.mark = c.size ∧ g.result = h.result := by
    rw [hg, ticks_eq, hsize]
    exact ⟨rfl, rfl⟩
  refine ⟨(((g.act .chunkSize).tick 13).act .done).tick 10, ?_, fun more => ?_⟩
  · have hresult : ((((g.act .chunkSize).tick 13).act .done).tick 10).result =
        (g.act .chunkSize).result := rfl
    rw [hresult, act_chunkSize, hmark.1, hmark.2, hc.value]
    exact sized_of_toInt (by have hfits := hc.fits; omega) h.result
  · have hlast : plain.next 3 10 = some ([.done], httpclientParserFirstFinal) := hfeed
    have hbytes : c.size ++ crlf ++ more = x :: (w ++ 13 :: 10 :: more) := by
      rw [hsize, crlf_eq]
      simp
    rw [hbytes, run_char hfirst rfl, run_word hpass, run_char hreturn rfl,
      Control.run_step hlast rfl, hg]
    rfl

section Iteration

variable {chunk : Nat → Nat} {buffSize len : Nat} {data rest tail : List UInt8} {c : Chunk}
  {P : HttpResponseParser} {d : Duplex}

/-- What is left behind a size line, and the parser. -/
structure Measured (buffSize : Nat) (c : Chunk) (P : HttpResponseParser) (data' rest : List UInt8)
    (P' : HttpResponseParser) : Prop where
  size : data'.length = buffSize + 1
  left : data'.take rest.length = rest
  fits : rest.length ≤ buffSize
  data : P'.data = P.data
  error : P'.error = 0
  contentLen : P'.parser.contentLen = c.payload.length
  chunksDone : P'.parser.chunksDone = decide (c.payload.length = 0)

/-- An iteration that finds a whole size line in the buffer. -/
theorem turn_size (hc : c.Counted) (hP : P.error = 0) (hsize : data.length = buffSize + 1)
    (hle : len ≤ buffSize) (hbound : buffSize < 2 ^ 31)
    (hfirst : data.take len = c.size ++ crlf ++ rest) :
    ∃ data' P', turn buffSize true data len P = .leave (.finished data' rest.length P') ∧
      Measured buffSize c P data' rest P' := by
  have hstart : Follows (if true = true then P.init else P) httpclientParserStart
      { result := { data := P.data, error := 0 } } := by
    refine ⟨rfl, ?_⟩
    rw [if_pos rfl, resultOf, HttpResponseParser.init, hP]
  have hlen : (c.size ++ crlf ++ rest).length = len := by
    rw [← hfirst, List.length_take]
    omega
  have hpos : 0 < len := by
    rw [← hlen, crlf_eq]
    simp
  obtain ⟨h', hsized, hrun⟩ := run_size hc { result := { data := P.data, error := 0 } }
  obtain ⟨P', hturned⟩ := turn_block hstart (by decide : httpclientParserStart ∈ betweenTokens)
    hpos hle hsize hbound (hfirst ▸ hrun rest) (by decide)
  obtain ⟨hlength, -⟩ := terminated hsize hle
  have hroom := hturned.room
  have hresult := hturned.follows.result
  refine ⟨splice (splice data len [0]) 0 rest, P', ?_, ?_⟩
  · rw [hturned.turn, if_neg (not_not.mpr hsized.error), if_pos rfl]
  · exact {
      size := by
        refine (length_splice_of_fits ?_).trans hlength
        omega
      left := take_splice_front _ _
      fits := by omega
      data := (congrArg Result.data hresult).trans hsized.data
      error := (congrArg Result.error hresult).trans hsized.error
      contentLen := (congrArg Result.contentLen hresult).trans hsized.contentLen
      chunksDone := (congrArg Result.chunksDone hresult).trans hsized.chunksDone }

/-- The bytes that are looked at when a size line is parsed, and what is behind them. -/
theorem parseLoop_size (hc : c.Counted) (hP : P.error = 0) (hsize : data.length = buffSize + 1)
    (hle : len ≤ buffSize) (hbound : buffSize < 2 ^ 31)
    (hstream : data.take len ++ d.inbound = c.size ++ crlf ++ tail)
    (hwhole : c.size.length + 2 ≤ (seen chunk buffSize len d.calls d.inbound.length).1)
    (fuel : Nat) :
    ∃ data' rest P' d', parseLoop chunk buffSize true (fuel + 1) (decide (len ≠ 0)) data len P d =
        .ok (.finished data' rest.length P') d' ∧ Measured buffSize c P data' rest P' ∧
      rest ++ d'.inbound = tail ∧
      rest.length = (seen chunk buffSize len d.calls d.inbound.length).1 - (c.size.length + 2) ∧
      d'.calls = (seen chunk buffSize len d.calls d.inbound.length).2 := by
  have hline : (c.size ++ crlf).length = c.size.length + 2 := by
    rw [List.length_append]
    rfl
  -- `front` is what is in the buffer when it is parsed.
  have hfront : ∀ front back : List UInt8, front ++ back = c.size ++ crlf ++ tail →
      c.size.length + 2 ≤ front.length → ∃ rest, front = c.size ++ crlf ++ rest ∧
        rest ++ back = tail ∧ rest.length = front.length - (c.size.length + 2) := by
    intro front back hjoin hlong
    obtain ⟨rest, hrest⟩ : c.size ++ crlf <+: front :=
      List.prefix_of_prefix_length_le ⟨tail, rfl⟩ ⟨back, hjoin⟩ (by omega)
    rw [← hrest, List.append_assoc] at hjoin
    refine ⟨rest, hrest.symm, List.append_cancel_left hjoin, ?_⟩
    rw [← hrest, List.length_append]
    omega
  rcases Nat.eq_zero_or_pos len with rfl | hlen
  · -- The buffer is empty, and a read comes first.
    obtain ⟨t, ht⟩ : ∃ t, taken chunk buffSize 0 d = t := ⟨_, rfl⟩
    have hseen : seen chunk buffSize 0 d.calls d.inbound.length = (t, d.calls + 1) := by
      rw [seen, if_pos rfl, ← ht, taken, Nat.sub_zero]
    rw [hseen] at hwhole ⊢
    obtain ⟨hmemory, hfits, htake⟩ := afterRead_take chunk hsize (Nat.zero_le buffSize) d
    rw [ht] at hfits htake
    rw [Nat.zero_add] at hfits htake
    rw [List.take_zero, List.nil_append] at htake hstream
    have htle : t ≤ d.inbound.length := ht ▸ Nat.min_le_left _ _
    have hcount : (d.inbound.take t).length = t := by
      rw [List.length_take]
      omega
    obtain ⟨rest, hrest, hback, hlength⟩ := hfront (d.inbound.take t) (d.inbound.drop t)
      (by rw [List.take_append_drop]; exact hstream) (by rw [hcount]; exact hwhole)
    obtain ⟨data', P', hturn, hmeasured⟩ := turn_size hc hP hmemory hfits hbound
      (htake.trans hrest)
    refine ⟨data', rest, P', afterRead chunk buffSize data 0 d, ?_, hmeasured, ?_, ?_, rfl⟩
    · rw [show decide ((0 : Nat) ≠ 0) = false from rfl, parseLoop_read hsize (Nat.zero_le _), ht,
        if_neg (by omega), Nat.zero_add, hturn]
    · show rest ++ d.inbound.drop (taken chunk buffSize 0 d) = tail
      rw [ht]
      exact hback
    · rw [hlength, hcount]
  · have hseen : seen chunk buffSize len d.calls d.inbound.length = (len, d.calls) :=
      if_neg hlen.ne'
    rw [hseen] at hwhole ⊢
    have hcount : (data.take len).length = len := by
      rw [List.length_take]
      omega
    obtain ⟨rest, hrest, hback, hlength⟩ := hfront (data.take len) d.inbound hstream
      (by rw [hcount]; exact hwhole)
    obtain ⟨data', P', hturn, hmeasured⟩ := turn_size hc hP hsize hle hbound hrest
    refine ⟨data', rest, P', d, ?_, hmeasured, hback, ?_, rfl⟩
    · rw [decide_eq_true hlen.ne', parseLoop, hturn]
      rfl
    · rw [hlength, hcount]

/-! ## A payload -/

/-- A chunk whose bytes are all in the buffer. -/
theorem takeChunk_inside (chunk : Nat → Nat) (d : Duplex) (body : List UInt8)
    {payload : List UInt8} (hsize : data.length = buffSize + 1)
    (hle : len ≤ buffSize) (hfits : payload.length + 2 < 2 ^ 31)
    (hfirst : data.take len = payload ++ crlf ++ rest) :
    ∃ data', takeChunk chunk buffSize body data len payload.length d =
        .ok (.ok (body ++ payload, data', rest.length)) d ∧
      data'.length = buffSize + 1 ∧ data'.take rest.length = rest ∧ rest.length ≤ buffSize := by
  have hcount : payload.length + 2 + rest.length = len := by
    have hlength := congrArg List.length hfirst
    simp only [List.length_take, List.length_append, crlf_eq, List.length_cons,
      List.length_nil] at hlength
    omega
  have hend : ((payload.length : Int) + 2 + 2 ^ 31) % 2 ^ 32 - 2 ^ 31 =
      (payload.length + 2 : Nat) := by
    omega
  have hpayload : data.take payload.length = payload := by
    have htake := congrArg (List.take payload.length) hfirst
    rw [List.take_take, Nat.min_eq_left (by omega), List.append_assoc, List.take_left] at htake
    exact htake
  have hrest : (data.take len).drop (payload.length + 2) = rest := by
    rw [hfirst, List.drop_left' (by simp [crlf_eq])]
  refine ⟨splice data 0 rest, ?_, (length_splice_of_fits (by omega)).trans hsize,
    take_splice_front _ _, by omega⟩
  have happend : append body data payload.length = some (.ok (body ++ payload)) := by
    rw [append, if_neg (by omega), Int.toNat_natCast, if_neg (by omega), hpayload]
  rw [takeChunk]
  simp only [hend, Int.toNat_natCast, hrest, happend]
  rw [if_pos (by omega), show len - (payload.length + 2) = rest.length by omega]
  rfl

/-- The loop over what is left reads exactly that. -/
theorem leftLoop_all (chunk : Nat → Nat) (hsize : data.length = buffSize + 1) (hpos : 0 < buffSize)
    (hbound : buffSize < 2 ^ 31) {fuel bound left : Nat} (hleft : left ≤ d.inbound.length)
    (hfuel : left ≤ fuel) (hdrained : left ≤ bound) :
    ∃ d', leftLoop chunk buffSize fuel left data d = .ok (some (d.inbound.take left)) d' ∧
      d'.inbound = d.inbound.drop left ∧ d'.calls = drained chunk buffSize bound left d.calls ∧
      (0 < left → d'.memory.length = buffSize + 1) := by
  induction fuel generalizing left data d bound with
  | zero =>
      obtain rfl : left = 0 := Nat.le_zero.mp hfuel
      refine ⟨d, leftLoop_done (le_refl _), rfl, ?_, fun h => absurd h (Nat.lt_irrefl 0)⟩
      cases bound <;> rfl
  | succ fuel ih =>
      rcases Nat.eq_zero_or_pos left with rfl | hgo
      · refine ⟨d, leftLoop_done (le_refl _), rfl, ?_, fun h => absurd h (Nat.lt_irrefl 0)⟩
        cases bound <;> rfl
      · obtain ⟨bound, rfl⟩ : ∃ b, bound = b + 1 := ⟨bound - 1, by omega⟩
        have hasked : asked buffSize (left : Int) = min buffSize left := by
          rw [asked]
          split <;> omega
        have hmovedPos := moved_pos chunk d.calls (show 0 < min buffSize left by omega)
        have hmovedLe := moved_le chunk d.calls (min buffSize left)
        obtain ⟨m, hm⟩ : ∃ m, moved chunk d.calls (min buffSize left) = m := ⟨_, rfl⟩
        rw [hm] at hmovedPos hmovedLe
        have htaken : taken chunk (min buffSize left) 0 d = m := by
          rw [taken, Nat.sub_zero, hm]
          omega
        have hcount : (d.inbound.take m).length = m := by
          rw [List.length_take]
          omega
        have hmemory : (afterRead chunk (min buffSize left) data 0 d).memory =
            splice data 0 (d.inbound.take m) := by
          rw [afterRead, htaken]
        have hinbound : (afterRead chunk (min buffSize left) data 0 d).inbound =
            d.inbound.drop m := by
          rw [afterRead, htaken]
        have hlength : (afterRead chunk (min buffSize left) data 0 d).memory.length =
            buffSize + 1 := by
          rw [hmemory]
          refine (length_splice_of_fits ?_).trans hsize
          omega
        have hfront : (afterRead chunk (min buffSize left) data 0 d).memory.take m =
            d.inbound.take m := by
          have hsplice := take_splice_front data (d.inbound.take m)
          rw [hcount] at hsplice
          rw [hmemory]
          exact hsplice
        have hmore : left - m ≤
            (afterRead chunk (min buffSize left) data 0 d).inbound.length := by
          rw [hinbound, List.length_drop]
          omega
        obtain ⟨d', hloop, hrest, hcalls, hlast⟩ := ih hlength hmore (by omega)
          (show left - m ≤ bound by omega)
        refine ⟨d', ?_, ?_, ?_, fun _ => ?_⟩
        · rw [leftLoop_read hsize hbound (by omega), hasked, htaken, if_neg (by omega),
            show (left : Int) - m = (left - m : Nat) by omega, hloop, hinbound, hfront]
          dsimp only
          rw [← List.take_add, show m + (left - m) = left by omega]
        · rw [hrest, hinbound, List.drop_drop, show m + (left - m) = left by omega]
        · rw [hcalls, drained, if_neg (by omega), hm]
          rfl
        · rcases Nat.eq_zero_or_pos (left - m) with hzero | hmore
          · have hsame : d' = afterRead chunk (min buffSize left) data 0 d := by
              rw [hzero, Nat.cast_zero, leftLoop_done (le_refl _)] at hloop
              exact (EStateM.Result.ok.inj hloop).2.symm
            rw [hsame, hlength]
          · exact hlast hmore

/-- A chunk of which nothing is in the buffer. -/
theorem takeChunk_outside (chunk : Nat → Nat) (body : List UInt8) {payload : List UInt8}
    (hsize : data.length = buffSize + 1)
    (hpos : 0 < buffSize) (hbound : buffSize < 2 ^ 31) (hfits : payload.length + 2 < 2 ^ 31)
    (hinbound : d.inbound = payload ++ crlf ++ tail) :
    ∃ d', takeChunk chunk buffSize body data 0 payload.length d =
        .ok (.ok (body ++ payload, d'.memory, 0)) d' ∧ d'.inbound = tail ∧
      d'.memory.length = buffSize + 1 ∧
      d'.calls = drained chunk buffSize (payload.length + 2) (payload.length + 2) d.calls := by
  have hcount : (payload ++ crlf).length = payload.length + 2 := by
    rw [List.length_append]
    rfl
  have hlength : payload.length + 2 ≤ d.inbound.length := by
    rw [hinbound, List.length_append, hcount]
    omega
  have hend : ((payload.length : Int) + 2 + 2 ^ 31) % 2 ^ 32 - 2 ^ 31 =
      (payload.length + 2 : Nat) := by
    omega
  have hfuel : payload.length + 2 ≤ d.inbound.length + 1 := Nat.le_succ_of_le hlength
  obtain ⟨d', hloop, hrest, hcalls, hmemory⟩ := leftLoop_all chunk hsize hpos hbound hlength hfuel
    (le_refl (payload.length + 2))
  have htake : d.inbound.take (payload.length + 2) = payload ++ crlf := by
    rw [hinbound, ← hcount, List.take_left]
  refine ⟨d', ?_, ?_, hmemory (by omega), hcalls⟩
  · rw [takeChunk]
    simp only [hend]
    rw [if_neg (by omega)]
    refine (bind_ok rfl).trans ((bind_ok hloop).trans ?_)
    rw [htake, List.take_zero, List.append_nil]
    have hbody : (body ++ (payload ++ crlf)).length = body.length + payload.length + 2 := by
      rw [List.length_append, hcount]
      omega
    simp only []
    rw [if_neg (by omega), hbody, show body.length + payload.length + 2 - 2 =
      (body ++ payload).length by rw [List.length_append]; omega, ← List.append_assoc,
      List.take_left]
    rfl
  · rw [hrest, hinbound, ← hcount, List.drop_left]

/-! ## The loop over the chunks -/

/-- What lies in front of a size line: `len` bytes of the buffer and the stream hold the rest. -/
structure Ready (buffSize : Nat) (rest : List UInt8) (data : List UInt8) (len : Nat)
    (P : HttpResponseParser) (d : Duplex) : Prop where
  size : data.length = buffSize + 1
  fits : len ≤ buffSize
  stream : data.take len ++ d.inbound = rest
  error : P.error = 0

/-- **One chunk.** -/
theorem chunkLoop_chunk {chunks : List Chunk} (hc : c.Counted) (hpos : 0 < buffSize)
    (hbound : buffSize < 2 ^ 31) (hready : Ready buffSize (wire (c :: chunks)) data len P d)
    (hfavourable : Favourable chunk buffSize (c :: chunks) len d.calls) (fuel : Nat)
    (body : List UInt8) :
    ∃ data' len' P' d', chunkLoop chunk buffSize (fuel + 1) body data len P d =
        (if c.payload.length = 0 then .ok (.body (body ++ c.payload) P') d'
        else chunkLoop chunk buffSize fuel (body ++ c.payload) data' len' P' d') ∧
      Ready buffSize (wire chunks) data' len' P' d' ∧ P'.data = P.data ∧
      Favourable chunk buffSize chunks len' d'.calls := by
  obtain ⟨hsize, hle, hstream, hP⟩ := hready
  have hlength : (data.take len).length = len := by
    rw [List.length_take]
    omega
  have hleft : (wire (c :: chunks)).length - len = d.inbound.length := by
    rw [← hstream, List.length_append, hlength]
    omega
  rw [Favourable, hleft] at hfavourable
  obtain ⟨hwhole, hnext⟩ := hfavourable
  rw [wire_cons] at hstream
  obtain ⟨data₁, rest, P₁, d₁, hparse, hmeasured, hback, hrest, hcalls⟩ :=
    parseLoop_size hc hP hsize hle hbound hstream hwhole (d.inbound.length + 1)
  rw [← hcalls] at hnext
  have hbytes := c.length_bytes
  obtain ⟨seen₁, hseen⟩ : ∃ n, (seen chunk buffSize len d.calls d.inbound.length).1 = n := ⟨_, rfl⟩
  rw [hseen] at hwhole hnext hrest
  have hloop : ∀ body' data' len' d', takeChunk chunk buffSize body data₁ rest.length
      c.payload.length d₁ = .ok (.ok (body', data', len')) d' →
        chunkLoop chunk buffSize (fuel + 1) body data len P d =
          if c.payload.length = 0 then .ok (.body body' P₁) d'
          else chunkLoop chunk buffSize fuel body' data' len' P₁ d' := by
    intro body' data' len' d' htake
    rw [← hmeasured.contentLen] at htake
    rw [chunkLoop]
    refine (bind_ok rfl).trans ((bind_ok hparse).trans ((bind_ok htake).trans ?_))
    simp only [hmeasured.chunksDone, decide_eq_true_eq]
    split
    · rfl
    · rfl
  split at hnext
  · -- The chunk is in the buffer.
    have hpayload : (c.payload ++ crlf).length = c.payload.length + 2 := by
      rw [List.length_append]
      rfl
    obtain ⟨more, hmore⟩ : c.payload ++ crlf <+: rest :=
      List.prefix_of_prefix_length_le ⟨wire chunks, rfl⟩ ⟨d₁.inbound, hback⟩ (by omega)
    obtain ⟨data', htake, hsize', hdata', hfits'⟩ := takeChunk_inside chunk d₁ body
      hmeasured.size hmeasured.fits hc.fits (hmeasured.left.trans hmore.symm)
    refine ⟨data', more.length, P₁, d₁, hloop _ _ _ _ htake,
      ⟨hsize', hfits', ?_, hmeasured.error⟩, hmeasured.data, ?_⟩
    · rw [← hmore, List.append_assoc] at hback
      rw [hdata']
      exact List.append_cancel_left hback
    · have hcount : more.length = seen₁ - c.bytes.length := by
        have hjoin := congrArg List.length hmore
        rw [List.length_append, hpayload] at hjoin
        omega
      rw [hcount]
      exact hnext
  · -- Nothing of it is.
    obtain ⟨hnone, hnext⟩ := hnext
    obtain rfl : rest = [] := List.length_eq_zero_iff.mp (by omega)
    rw [List.nil_append] at hback
    obtain ⟨d', htake, hinbound, hmemory, hdrained⟩ := takeChunk_outside chunk body
      hmeasured.size hpos hbound hc.fits hback
    refine ⟨d'.memory, 0, P₁, d', hloop _ _ _ _ htake,
      ⟨hmemory, Nat.zero_le _, ?_, hmeasured.error⟩, hmeasured.data, ?_⟩
    · rw [List.take_zero, List.nil_append, hinbound]
    · rw [hdrained]
      exact hnext

/-- **The payloads in their order**, by induction on the chunks. -/
theorem chunkLoop_wire {chunks : List Chunk} {last : Chunk} (hchunks : ∀ c ∈ chunks, c.Counted)
    (hsome : ∀ c ∈ chunks, c.payload ≠ []) (hlast : last.Counted) (hend : last.payload = [])
    (hpos : 0 < buffSize) (hbound : buffSize < 2 ^ 31)
    (hready : Ready buffSize (wire (chunks ++ [last])) data len P d)
    (hfavourable : Favourable chunk buffSize (chunks ++ [last]) len d.calls) {fuel : Nat}
    (hfuel : chunks.length < fuel) (body : List UInt8) :
    ∃ P' d', chunkLoop chunk buffSize fuel body data len P d =
        .ok (.body (body ++ (chunks.map Chunk.payload).flatten) P') d' ∧
      P'.data = P.data ∧ d'.inbound = [] := by
  induction chunks generalizing fuel body data len P d with
  | nil =>
      obtain ⟨fuel, rfl⟩ : ∃ n, fuel = n + 1 := ⟨fuel - 1, by omega⟩
      obtain ⟨data', len', P', d', hloop, hready', hdata, -⟩ :=
        chunkLoop_chunk hlast hpos hbound hready hfavourable fuel body
      rw [hend, List.length_nil, if_pos rfl] at hloop
      have hrest := hready'.stream
      rw [wire, List.map_nil, List.flatten_nil, List.append_eq_nil_iff] at hrest
      exact ⟨P', d', hloop, hdata, hrest.2⟩
  | cons c chunks ih =>
      obtain ⟨fuel, rfl⟩ : ∃ n, fuel = n + 1 := ⟨fuel - 1, by omega⟩
      rw [List.length_cons] at hfuel
      obtain ⟨data', len', P', d', hloop, hready', hdata, hfavourable'⟩ :=
        chunkLoop_chunk (hchunks c List.mem_cons_self) hpos hbound hready hfavourable fuel body
      have hsome' : c.payload.length ≠ 0 := fun hzero =>
        hsome c List.mem_cons_self (List.length_eq_zero_iff.mp hzero)
      rw [if_neg hsome'] at hloop
      obtain ⟨P'', d'', hrest, hdata', hinbound⟩ :=
        ih (fun c hc => hchunks c (List.mem_cons_of_mem _ hc))
          (fun c hc => hsome c (List.mem_cons_of_mem _ hc)) hready' hfavourable'
          (show chunks.length < fuel by omega) (body ++ c.payload)
      refine ⟨P'', d'', ?_, hdata'.trans hdata, hinbound⟩
      rw [hloop, hrest, List.map_cons, List.flatten_cons, List.append_assoc]

end Iteration

end Client
end Http
end Routn
