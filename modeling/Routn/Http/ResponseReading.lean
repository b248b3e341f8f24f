import Mathlib.Tactic
import Routn.Foundation.Sequencing
import Routn.Http.HttpConnection
import Routn.Http.ResponseTokens

/-!
# One iteration of a loop that parses a response

What `execute` finds in a buffer that begins where no token is open, and what the loops of
`recvResponse` make of it.
-/

namespace Routn
namespace Http
namespace Client

open Foundation Duplex HttpConnection

section Block

variable {buffer : List UInt8} {len : Nat} {chunked : Bool} {P : HttpResponseParser} {cs cs' : Nat}
  {h h' : Head} {rest : List UInt8}

/-- The parser that a call of `execute` runs is in the state and has the results of the machine over
tokens. -/
structure Follows (P : HttpResponseParser) (cs : Nat) (h : Head) : Prop where
  state : P.parser.cs = cs
  result : resultOf P = h.result

/-- **A call of `execute` between two tokens.** -/
theorem execute_block (hfollows : Follows (if chunked then P.init else P) cs h)
    (hbetween : cs ∈ betweenTokens) (hlen : 0 < len) (hfits : len ≤ buffer.length)
    (hbound : buffer.length < 2 ^ 64)
    (hrun : plain.run Head.store (buffer.take len) cs h = some (rest, cs', h'))
    (hgo : cs' ≠ httpclientParserError) :
    ∃ P', P.execute buffer len chunked = some (len - rest.length, splice buffer 0 rest, P') ∧
      Follows P' cs' h' ∧ rest.length ≤ len := by
  obtain ⟨P₀, hP₀⟩ : ∃ P₀, (if chunked then P.init else P) = P₀ := ⟨_, rfl⟩
  rw [hP₀] at hfollows
  obtain ⟨hstate, hresult⟩ := hfollows
  have hlive : live cs = [] := if_pos hbetween
  have hsame : Same buffer len (buffer.take len) (0, P₀.restart) h :=
    ⟨rfl, Nat.zero_le len, hfits, ⟨hlen, Nat.zero_le len, hlen⟩, hresult⟩
  obtain ⟨rest₁, cs₁, g₁, h₁, hcode, htokens, hend⟩ :=
    (simulation hbound).run live_stable (buffer.take len) hsame fun r hr => by
      rw [hlive] at hr
      cases hr
  obtain ⟨rfl, rfl, rfl⟩ : rest₁ = rest ∧ cs₁ = cs' ∧ h₁ = h' := by
    rw [hrun] at htokens
    cases htokens
    exact ⟨rfl, rfl, rfl⟩
  have hlength := hend.length
  have hcontrol : control.run (HttpResponseParser.store buffer) (buffer.take len) cs
      (0, P₀.restart) = some (rest₁, cs₁, g₁) :=
    Control.run_of_sub (C := control) (D := plain) (fun hnext => next_of_plain hnext) rfl hgo hcode
  have hexec : P₀.httpclientParserExecute buffer len = some ((g₁.1 : Int), g₁.2.setState cs₁) := by
    have hchecks : (g₁.2.setState cs₁).checks len := hend.checks
    rw [HttpResponseParser.httpclientParserExecute, hstate, hcontrol]
    show some (if (g₁.2.setState cs₁).checks len then _ else _, _) = _
    rw [if_pos hchecks]
  have hposition : len - rest₁.length = g₁.1 := by omega
  refine ⟨g₁.2.setState cs₁, ?_, ⟨rfl, hend.result⟩, by omega⟩
  rw [HttpResponseParser.execute, hP₀, hexec]
  show (if (g₁.1 : Int) = -1 then none else
    some ((g₁.1 : Int).toNat, splice buffer 0 ((buffer.take len).drop (g₁.1 : Int).toNat), _)) = _
  rw [if_neg (by omega), Int.toNat_natCast, hend.ahead, hposition]

theorem hasError_iff (hfollows : Follows P cs h) :
    P.hasError = true ↔ h.result.error ≠ 0 ∨ cs = httpclientParserError := by
  have herror : P.error = h.result.error := congrArg Result.error hfollows.result
  rw [HttpResponseParser.hasError, hfollows.state, herror, Bool.or_eq_true, decide_eq_true_iff,
    decide_eq_true_iff]

theorem isFinished_iff (hfollows : Follows P cs h) (hgo : cs ≠ httpclientParserError) :
    P.isFinished ≠ 0 ↔ cs = httpclientParserFirstFinal := by
  rw [HttpResponseParser.isFinished, hfollows.state, if_neg hgo]
  split
  · exact iff_of_true Int.one_ne_zero ‹_›
  · exact iff_of_false (fun h => h rfl) ‹_›

end Block

/-! ## An iteration -/

section Turn

variable {buffSize len : Nat} {data : List UInt8} {chunked : Bool} {P : HttpResponseParser}
  {cs cs' : Nat} {h h' : Head} {rest : List UInt8}

/-- The zero behind what is there lies in the last byte of the buffer at most. -/
theorem terminated (hsize : data.length = buffSize + 1) (hle : len ≤ buffSize) :
    (splice data len [0]).length = buffSize + 1 ∧
      (splice data len [0]).take len = data.take len := by
  constructor
  · rw [length_splice_of_fits, hsize]
    rw [hsize, List.length_singleton]
    omega
  · rw [splice, List.append_assoc, List.take_append_of_le_length, List.take_take, Nat.min_self]
    rw [List.length_take]
    omega

/-- An iteration that begins between two tokens: what `execute` leaves. -/
structure Turned (buffSize : Nat) (chunked : Bool) (data : List UInt8) (len : Nat)
    (P : HttpResponseParser) (cs' : Nat) (h' : Head) (rest : List UInt8)
    (P' : HttpResponseParser) : Prop where
  follows : Follows P' cs' h'
  room : rest.length < len
  turn : turn buffSize chunked data len P =
    if h'.result.error ≠ 0 then .leave .failed
    else if cs' = httpclientParserFirstFinal then
      .leave (.finished (splice (splice data len [0]) 0 rest) rest.length P')
    else .again (splice (splice data len [0]) 0 rest) rest.length P'

/-- **An iteration between two tokens.** -/
theorem turn_block (hfollows : Follows (if chunked then P.init else P) cs h)
    (hbetween : cs ∈ betweenTokens) (hlen : 0 < len) (hle : len ≤ buffSize)
    (hsize : data.length = buffSize + 1) (hbound : buffSize < 2 ^ 31)
    (hrun : plain.run Head.store (data.take len) cs h = some (rest, cs', h'))
    (hgo : cs' ≠ httpclientParserError) :
    ∃ P', Turned buffSize chunked data len P cs' h' rest P' := by
  obtain ⟨hlength, htake⟩ := terminated hsize hle
  obtain ⟨P', hexec, hfollows', hrest⟩ := execute_block hfollows hbetween hlen
    (show len ≤ (splice data len [0]).length by omega) (by omega) (htake.symm ▸ hrun) hgo
  have hroom : rest.length < len := by
    obtain ⟨c, block, hblock⟩ : ∃ c block, data.take len = c :: block := by
      refine List.exists_cons_of_length_pos ?_
      rw [List.length_take]
      omega
    rw [hblock] at hrun
    have hconsumed := Control.run_consumes hrun Head.store_total hgo
    have hcount := congrArg List.length hblock
    rw [List.length_take, List.length_cons] at hcount
    omega
  refine ⟨P', hfollows', hroom, ?_⟩
  rw [HttpConnection.turn, hexec]
  show (if P'.hasError then _ else _) = _
  by_cases herror : h'.result.error ≠ 0
  · rw [if_pos ((hasError_iff hfollows').mpr (.inl herror)), if_pos herror]
  · have hnoerror : ¬ P'.hasError = true := by
      rw [hasError_iff hfollows']
      exact not_or.mpr ⟨herror, hgo⟩
    have hfull : ¬ ((len - (len - rest.length) : Nat) : Int) = toInt buffSize := by
      rw [toInt]
      omega
    rw [if_neg hnoerror, if_neg hfull, if_neg herror, Nat.sub_sub_self hrest]
    simp only [isFinished_iff hfollows' hgo]

end Turn

/-! ## A read -/

section Read

variable (chunk : Nat → Nat) (buffSize : Nat)

/-- How many bytes the next read behind `len` bytes gives. -/
def taken (len : Nat) (d : Duplex) : Nat :=
  min d.inbound.length (moved chunk d.calls (buffSize - len))

/-- The stream after that read into `data`. -/
def afterRead (data : List UInt8) (len : Nat) (d : Duplex) : Duplex :=
  { d with
    inbound := d.inbound.drop (taken chunk buffSize len d)
    memory := splice data len (d.inbound.take (taken chunk buffSize len d))
    calls := d.calls + 1 }

variable {chunk buffSize} {fuel len : Nat} {data : List UInt8} {d : Duplex} {chunked : Bool}
  {P : HttpResponseParser}

/-- **An iteration that reads.** -/
theorem parseLoop_read (hsize : data.length = buffSize + 1) (hle : len ≤ buffSize) :
    parseLoop chunk buffSize chunked (fuel + 1) false data len P d =
      if taken chunk buffSize len d = 0 then .ok .failed (afterRead chunk buffSize data len d)
      else
        match turn buffSize chunked (afterRead chunk buffSize data len d).memory
            (len + taken chunk buffSize len d) P with
        | .again data' len' P' =>
            parseLoop chunk buffSize chunked fuel false data' len' P'
              (afterRead chunk buffSize data len d)
        | .leave e => .ok e (afterRead chunk buffSize data len d) := by
  have hread : Duplex.read chunk 0 len (buffSize - len) { d with memory := data } =
      .ok (taken chunk buffSize len d : Nat) (afterRead chunk buffSize data len d) := by
    refine (read_ok chunk ?_).trans ?_
    · show 0 + len + (buffSize - len) ≤ data.length
      omega
    · rw [Nat.zero_add]
      rfl
  refine (bind_ok rfl).trans ((bind_ok hread).trans ?_)
  by_cases hnone : taken chunk buffSize len d = 0
  · rw [if_pos hnone, hnone]
    rfl
  · rw [if_neg (show ¬ ((taken chunk buffSize len d : Nat) : Int) ≤ 0 by omega), if_neg hnone]
    refine (bind_ok rfl).trans ?_
    rw [Int.toNat_natCast]
    split
    · next hturn =>
        rw [hturn]
    · next hturn =>
        rw [hturn]
        rfl

/-- The buffer after a read: what was there, and what was read behind it. -/
theorem afterRead_take (chunk : Nat → Nat) (hsize : data.length = buffSize + 1)
    (hle : len ≤ buffSize) (d : Duplex) :
    (afterRead chunk buffSize data len d).memory.length = buffSize + 1 ∧
      len + taken chunk buffSize len d ≤ buffSize ∧
      (afterRead chunk buffSize data len d).memory.take (len + taken chunk buffSize len d) =
        data.take len ++ d.inbound.take (taken chunk buffSize len d) := by
  have hmoved := moved_le chunk d.calls (buffSize - len)
  have hcount : (d.inbound.take (taken chunk buffSize len d)).length =
      taken chunk buffSize len d := by
    rw [List.length_take]
    exact Nat.min_eq_left (Nat.min_le_left _ _)
  have hasked : taken chunk buffSize len d ≤ buffSize - len :=
    (Nat.min_le_right _ _).trans hmoved
  refine ⟨(length_splice_of_fits ?_).trans hsize, by omega, ?_⟩
  · rw [hcount]
    omega
  · have hend : (splice data len (d.inbound.take (taken chunk buffSize len d))).take
        (len + (d.inbound.take (taken chunk buffSize len d)).length) =
          data.take len ++ d.inbound.take (taken chunk buffSize len d) :=
      take_splice_end _ (by omega)
    rw [hcount] at hend
    exact hend

/-- What an iteration leaves in the buffer. -/
theorem take_splice_front (data rest : List UInt8) :
    (splice data 0 rest).take rest.length = rest := by
  have hend : (splice data 0 rest).take (0 + rest.length) = data.take 0 ++ rest :=
    take_splice_end rest (Nat.zero_le _)
  rw [Nat.zero_add, List.take_zero, List.nil_append] at hend
  exact hend

/-- **A head in one read.** -/
theorem parseLoop_head {head body : List UInt8} {cs : Nat} {h : Head} (hne : head ≠ [])
    (hrun : ∀ more, plain.run Head.store (head ++ more) httpclientParserStart {} =
      some (more, cs, h)) (hgo : cs ≠ httpclientParserError)
    (hsize : data.length = buffSize + 1) (hbound : buffSize < 2 ^ 31)
    (hinbound : d.inbound = head ++ body) (hcover : head.length ≤ moved chunk d.calls buffSize) :
    ∃ first data' P' d', Follows P' cs h ∧ first ++ d'.inbound = body ∧
      d'.inbound.length = body.length - (moved chunk d.calls buffSize - head.length) ∧
      data'.length = buffSize + 1 ∧ first.length ≤ buffSize ∧ data'.take first.length = first ∧
      parseLoop chunk buffSize false (fuel + 1) false data 0 {} d =
        if h.result.error ≠ 0 then .ok .failed d'
        else if cs = httpclientParserFirstFinal then .ok (.finished data' first.length P') d'
        else parseLoop chunk buffSize false fuel false data' first.length P' d' := by
  obtain ⟨hmemory, hfits, htake⟩ := afterRead_take chunk hsize (Nat.zero_le buffSize) d
  obtain ⟨n, hn⟩ : ∃ n, n = taken chunk buffSize 0 d := ⟨_, rfl⟩
  have hn' : n = min (head.length + body.length) (moved chunk d.calls buffSize) := by
    rw [hn, taken, hinbound, List.length_append, Nat.sub_zero]
  have hhead : 0 < head.length := List.length_pos_of_ne_nil hne
  rw [← hn, Nat.zero_add] at hfits htake
  have hblock : d.inbound.take n = head ++ body.take (n - head.length) := by
    rw [hinbound, List.take_append, List.take_of_length_le (by omega)]
  rw [hblock, List.take_zero, List.nil_append] at htake
  have hstart : Follows (if false = true then ({} : HttpResponseParser).init else {})
      httpclientParserStart {} := ⟨rfl, rfl⟩
  obtain ⟨P', hturned⟩ := turn_block hstart (by decide : httpclientParserStart ∈ betweenTokens)
    (show 0 < n by omega) hfits hmemory hbound (htake ▸ hrun (body.take (n - head.length))) hgo
  refine ⟨body.take (n - head.length),
    splice (splice (afterRead chunk buffSize data 0 d).memory n [0]) 0
      (body.take (n - head.length)), P', afterRead chunk buffSize data 0 d, hturned.follows,
    ?_, ?_, ?_, ?_, take_splice_front _ _, ?_⟩
  · show _ ++ d.inbound.drop (taken chunk buffSize 0 d) = body
    rw [← hn, hinbound, List.drop_append, List.drop_of_length_le (by omega), List.nil_append,
      List.take_append_drop]
  · show (d.inbound.drop (taken chunk buffSize 0 d)).length = _
    rw [← hn, hinbound, List.length_drop, List.length_append]
    omega
  · refine (length_splice_of_fits ?_).trans (terminated hmemory hfits).1
    have hroom := hturned.room
    rw [(terminated hmemory hfits).1]
    omega
  · have hroom := hturned.room
    omega
  · rw [parseLoop_read hsize (Nat.zero_le buffSize), ← hn, if_neg (by omega), Nat.zero_add,
      hturned.turn]
    by_cases herror : h.result.error ≠ 0
    · rw [if_pos herror, if_pos herror]
    · rw [if_neg herror, if_neg herror]
      by_cases hfinal : cs = httpclientParserFirstFinal
      · rw [if_pos hfinal, if_pos hfinal]
      · rw [if_neg hfinal, if_neg hfinal]

/-- How many bytes an iteration of `leftLoop` asks for. -/
def asked (buffSize : Nat) (left : Int) : Nat := if buffSize < left then buffSize else left.toNat

theorem asked_le {left : Int} (hleft : 0 < left) :
    asked buffSize left ≤ buffSize ∧ (asked buffSize left : Int) ≤ left := by
  rw [asked]
  split <;> omega

/-- **An iteration of the loop over what is left of a chunk.** -/
theorem leftLoop_read {left : Int} (hsize : data.length = buffSize + 1) (hbound : buffSize < 2 ^ 31)
    (hleft : 0 < left) :
    leftLoop chunk buffSize (fuel + 1) left data d =
      if taken chunk (asked buffSize left) 0 d = 0 then
        .ok none (afterRead chunk (asked buffSize left) data 0 d)
      else
        match leftLoop chunk buffSize fuel (left - taken chunk (asked buffSize left) 0 d)
            (afterRead chunk (asked buffSize left) data 0 d).memory
            (afterRead chunk (asked buffSize left) data 0 d) with
        | .ok (some more) d' =>
            .ok (some ((afterRead chunk (asked buffSize left) data 0 d).memory.take
              (taken chunk (asked buffSize left) 0 d) ++ more)) d'
        | .ok none d' => .ok none d'
        | .error fault d' => .error fault d' := by
  have hle : asked buffSize left ≤ buffSize := (asked_le hleft).1
  have hasked : (if toInt buffSize < left then buffSize else left.toNat) = asked buffSize left := by
    have hint : toInt buffSize = buffSize := by
      rw [toInt]
      omega
    rw [hint, asked]
  have hread : Duplex.read chunk 0 0 (asked buffSize left) { d with memory := data } =
      .ok (taken chunk (asked buffSize left) 0 d : Nat)
        (afterRead chunk (asked buffSize left) data 0 d) := by
    refine (read_ok chunk ?_).trans rfl
    show 0 + 0 + asked buffSize left ≤ data.length
    omega
  rw [leftLoop, if_pos hleft, hasked]
  refine (bind_ok rfl).trans ((bind_ok hread).trans ?_)
  by_cases hnone : taken chunk (asked buffSize left) 0 d = 0
  · rw [if_pos hnone, hnone]
    rfl
  · rw [if_neg (show ¬ ((taken chunk (asked buffSize left) 0 d : Nat) : Int) ≤ 0 by omega),
      if_neg hnone]
    refine (bind_ok rfl).trans ?_
    cases hmore : leftLoop chunk buffSize fuel (left - taken chunk (asked buffSize left) 0 d)
        (afterRead chunk (asked buffSize left) data 0 d).memory
        (afterRead chunk (asked buffSize left) data 0 d) with
    | error fault d' => exact bind_error hmore
    | ok more d' =>
        refine (bind_ok hmore).trans ?_
        cases more with
        | none => rfl
        | some more =>
            rw [Int.toNat_natCast]
            rfl

theorem leftLoop_done {left : Int} (hleft : left ≤ 0) :
    leftLoop chunk buffSize fuel left data d = .ok (some []) d := by
  cases fuel with
  | zero =>
      rw [leftLoop, if_neg (by omega)]
      rfl
  | succ fuel =>
      rw [leftLoop, if_neg (by omega)]
      rfl

end Read

end Client
end Http
end Routn
