import Mathlib.Tactic
import Routn.Foundation.Sequencing
import Routn.Http.HttpSession
import Routn.Http.Tokens

/-!
# Reading a head

`Reads` is what the head of a stream means, with no reads in it.  The loop of `recvRequest` finds
exactly that when each of its reads ends where no token is open (`recvHead_reads`).
-/

namespace Routn
namespace Http
namespace HttpSession

open Foundation Machine Duplex

section Heads

variable (relaxed : Bool)

/-- The machine on the stream: what it leaves of it, the state it ends in, and the head. -/
def Reads (stream rest : List UInt8) (cs : Nat) (h : Head) : Prop :=
  (control relaxed).run Head.store stream httpParserStart {} = some (rest, cs, h)

/-- The state of the machine after some bytes. -/
def stateAfter (bytes : List UInt8) : Nat := (control relaxed).after httpParserStart bytes

def halted (cs : Nat) : Prop := (control false).halts cs = true

instance (cs : Nat) : Decidable (halted cs) := inferInstanceAs (Decidable (_ = true))

/-- The head is complete. -/
def final (cs : Nat) : Prop := httpParserFirstFinal ≤ cs

instance (cs : Nat) : Decidable (final cs) := inferInstanceAs (Decidable (_ ≤ _))

theorem halted_iff {cs : Nat} : halted cs ↔ cs = httpParserError ∨ final cs := by
  show (cs == httpParserError || decide (httpParserFirstFinal ≤ cs)) = true ↔ _
  rw [Bool.or_eq_true, beq_iff_eq, decide_eq_true_iff]
  rfl

variable {relaxed}

theorem halts_eq_false {cs : Nat} (h : ¬ halted cs) : (control relaxed).halts cs = false :=
  Bool.not_eq_true _ ▸ h

/-- An error of a callback stays. -/
theorem error_stays {bytes rest : List UInt8} {cs cs' : Nat} {h h' : Head} (herror : h.error ≠ 0)
    (hrun : (control relaxed).run Head.store bytes cs h = some (rest, cs', h')) : h'.error ≠ 0 := by
  refine Control.run_invariant (P := fun h : Head => h.error ≠ 0) ?_ (fun hP => hP) bytes herror
    hrun
  rintro action g g' hP hact
  cases hact
  cases action <;> simp only [Head.act, Head.setMethod, Head.setVersion, Head.setField] <;>
    repeat' split
  all_goals first | exact hP | exact Nat.succ_ne_zero _

theorem peeked_stays {bytes rest : List UInt8} {cs cs' : Nat} {h h' : Head}
    (hpeeked : h.peeked = true)
    (hrun : (control relaxed).run Head.store bytes cs h = some (rest, cs', h')) :
    h'.peeked = true := by
  refine Control.run_invariant (P := fun h : Head => h.peeked = true) ?_ (fun hP => hP) bytes
    hpeeked hrun
  rintro action g g' hP hact
  cases hact
  cases action <;> simp only [Head.act, Head.setMethod, Head.setVersion, Head.setField] <;>
    repeat' split
  all_goals first | exact hP | exact Bool.or_eq_true_iff.mpr (.inl hP)

/-- Every stream has one reading. -/
theorem exists_reads (relaxed : Bool) (stream : List UInt8) :
    ∃ rest h, Reads relaxed stream rest (stateAfter relaxed stream) h ∧ rest <:+ stream ∧
      (¬ halted (stateAfter relaxed stream) → rest = []) := by
  obtain ⟨rest, h, hrun, hsuffix, hall⟩ :=
    Control.run_total (C := control relaxed) Head.store_total stream (s := httpParserStart) rfl {}
  exact ⟨rest, h, hrun, hsuffix, fun hgo => hall (halts_eq_false hgo)⟩

theorem Reads.state {stream rest : List UInt8} {cs : Nat} {h : Head}
    (hreads : Reads relaxed stream rest cs h) : cs = stateAfter relaxed stream :=
  (Control.run_end Head.store_total rfl hreads).1

/-- **A reading in two parts.** -/
theorem Reads.append {first rest : List UInt8} {cs : Nat} {h : Head}
    (hreads : Reads relaxed first rest cs h) (hgo : ¬ halted cs) (second : List UInt8) :
    (control relaxed).run Head.store (first ++ second) httpParserStart {} =
      (control relaxed).run Head.store second cs h := by
  rw [Control.run_append Head.store_total first second rfl, hreads]
  show (if (control relaxed).halts cs then _ else _) = _
  rw [halts_eq_false hgo, if_neg Bool.false_ne_true]

end Heads

/-! ## One block -/

/-- The parser holds the state and the request that the machine over tokens has. -/
structure Follows (relaxed : Bool) (P : HttpRequestParser) (cs : Nat) (h : Head) : Prop where
  state : P.parser.cs = cs
  relaxed : P.parser.uriRelaxed = relaxed
  request : h.peeked = false → P.data = h.data ∧ P.error = h.error

section Block

variable {relaxed : Bool} {buffer : List UInt8} {len : Nat} {P : HttpRequestParser} {cs cs' : Nat}
  {h h' : Head} {rest : List UInt8}

/-- A call of `execute`, in a state whose live positions denote the tokens of `h`. -/
theorem execute_live (hfollows : Follows relaxed P cs h)
    (hagree : ∀ r ∈ live cs, Agree buffer r (0, P.restart) h) (hgo : ¬ halted cs) (hlen : 0 < len)
    (hfits : len ≤ buffer.length) (hbound : buffer.length < 2 ^ 64)
    (hrun : (control relaxed).run Head.store (buffer.take len) cs h = some (rest, cs', h')) :
    ∃ P', P.execute buffer len = some (len - rest.length, splice buffer 0 rest, P') ∧
      Follows relaxed P' cs' h' ∧ rest.length ≤ len := by
  obtain ⟨hstate, hrelaxed, hrequest⟩ := hfollows
  have hsame : Same relaxed buffer len (buffer.take len) (0, P.restart) h :=
    ⟨rfl, Nat.zero_le len, hfits, hrelaxed, hrequest⟩
  obtain ⟨rest₁, cs₁, g₁, h₁, hcode, htokens, hend⟩ :=
    (simulation hbound).run (live_stable relaxed) (buffer.take len) hsame hagree
  obtain ⟨rfl, rfl, rfl⟩ : rest₁ = rest ∧ cs₁ = cs' ∧ h₁ = h' := by
    rw [hrun] at htokens
    cases htokens
    exact ⟨rfl, rfl, rfl⟩
  have hlength := hend.length
  have herror : ¬ P.parser.cs = httpParserError := by
    intro h0
    exact hgo (halted_iff.mpr (.inl (hstate ▸ h0)))
  have hexec : P.httpParserExecute buffer len 0 = some (g₁.1, g₁.2.setState cs cs₁) := by
    rw [HttpRequestParser.httpParserExecute, if_neg hlen.ne', hrelaxed, hstate, List.drop_zero,
      hcode]
    rfl
  have hposition : g₁.1 = len - rest₁.length := by omega
  have hset : (g₁.2.setState cs cs₁).parser.cs = cs₁ := if_neg fun h0 => herror (hstate.trans h0)
  refine ⟨g₁.2.setState cs cs₁, ?_, ⟨hset, hend.relaxed, hend.request⟩, by omega⟩
  rw [HttpRequestParser.execute, hexec]
  show some (g₁.1, splice buffer 0 ((buffer.take len).drop g₁.1), _) = _
  rw [hend.ahead, hposition]

/-- **A call of `execute` between two tokens.** -/
theorem execute_block (hfollows : Follows relaxed P cs h) (hbetween : cs ∈ betweenTokens)
    (hgo : ¬ halted cs) (hlen : 0 < len) (hfits : len ≤ buffer.length)
    (hbound : buffer.length < 2 ^ 64)
    (hrun : (control relaxed).run Head.store (buffer.take len) cs h = some (rest, cs', h')) :
    ∃ P', P.execute buffer len = some (len - rest.length, splice buffer 0 rest, P') ∧
      Follows relaxed P' cs' h' ∧ rest.length ≤ len := by
  have hlive : live cs = [] := if_pos hbetween
  refine execute_live hfollows ?_ hgo hlen hfits hbound hrun
  intro r hr
  rw [hlive] at hr
  cases hr

theorem hasError_iff (hstate : P.parser.cs = cs) :
    P.hasError = true ↔ P.error ≠ 0 ∨ cs = httpParserError := by
  rw [HttpRequestParser.hasError, hstate, Bool.or_eq_true, decide_eq_true_iff, decide_eq_true_iff]

theorem isFinished_iff (hstate : P.parser.cs = cs) (herror : cs ≠ httpParserError) :
    P.isFinished ≠ 0 ↔ final cs := by
  rw [HttpRequestParser.isFinished, hstate, if_neg herror, final]
  split
  · exact iff_of_true Int.one_ne_zero ‹_›
  · exact iff_of_false (fun h => h rfl) ‹_›

theorem toInt_of_lt {n : Nat} (hn : n < 2 ^ 31) : toInt n = n := by
  rw [toInt]
  omega

theorem turn_of_error {buffSize nparse : Nat} {data : List UInt8} {P' : HttpRequestParser}
    (hexec : P.execute buffer len = some (nparse, data, P')) (hfollows : Follows relaxed P' cs' h')
    (hpeeked : h'.peeked = false) (herror : h'.error ≠ 0 ∨ cs' = httpParserError) :
    turn buffSize buffer len P = .leave .failed := by
  have hhas : P'.hasError = true := by
    rw [hasError_iff hfollows.state, (hfollows.request hpeeked).2]
    exact herror
  rw [turn, hexec]
  exact if_pos hhas

section Turn

variable {buffSize : Nat} (hfollows : Follows relaxed P cs h) (hbetween : cs ∈ betweenTokens)
  (hgo : ¬ halted cs) (hlen : 0 < len) (hfits : len ≤ buffer.length)
  (hsize : buffer.length = buffSize) (hbound : buffSize < 2 ^ 31)
  (hrun : (control relaxed).run Head.store (buffer.take len) cs h = some (rest, cs', h'))
  (hpeeked : h'.peeked = false)
include hfollows hbetween hgo hlen hfits hsize hbound hrun hpeeked

/-- An iteration whose bytes end inside the head. -/
theorem turn_again (hgo' : ¬ halted cs') (herror : h'.error = 0) :
    ∃ P', turn buffSize buffer len P = .again buffer 0 P' ∧ Follows relaxed P' cs' h' := by
  obtain ⟨P', hexec, hfollows', -⟩ :=
    execute_block hfollows hbetween hgo hlen hfits (by omega) hrun
  obtain rfl : rest = [] :=
    (Control.run_end Head.store_total (halts_eq_false hgo) hrun).2.2 (halts_eq_false hgo')
  refine ⟨P', ?_, hfollows'⟩
  have hnot : cs' ≠ httpParserError := fun h0 => hgo' (halted_iff.mpr (.inl h0))
  have hnoerror : ¬ P'.hasError = true := by
    rw [hasError_iff hfollows'.state, (hfollows'.request hpeeked).2]
    exact not_or.mpr ⟨fun h0 => h0 herror, hnot⟩
  have hunfinished : ¬ P'.isFinished ≠ 0 := by
    rw [isFinished_iff hfollows'.state hnot]
    exact fun hfinal => hgo' (halted_iff.mpr (.inr hfinal))
  have hroom : ¬ ((len - (len - 0) : Nat) : Int) = toInt buffSize := by
    rw [toInt_of_lt hbound]
    omega
  rw [turn, hexec]
  simp only [List.length_nil, if_neg hnoerror, if_neg hroom, if_neg hunfinished, splice_nil]
  rw [Nat.sub_zero, Nat.sub_self]

/-- An iteration that reads the end of a head without an error. -/
theorem turn_head (hfinal : final cs') (herror : h'.error = 0) :
    ∃ P', turn buffSize buffer len P = .leave (.head (splice buffer 0 rest) rest.length P') ∧
      P'.data = h'.data := by
  obtain ⟨P', hexec, hfollows', hle⟩ :=
    execute_block hfollows hbetween hgo hlen hfits (by omega) hrun
  obtain ⟨hdata, hcode⟩ := hfollows'.request hpeeked
  refine ⟨P', ?_, hdata⟩
  have hnot : cs' ≠ httpParserError := by
    intro h0
    rw [final, h0] at hfinal
    exact absurd hfinal (by decide)
  -- The end of the head is a byte of this read, so that what is left does not fill the buffer.
  have hrest : rest.length < len := by
    obtain ⟨c, block, hblock⟩ : ∃ c block, buffer.take len = c :: block := by
      refine List.exists_cons_of_length_pos ?_
      rw [List.length_take]
      omega
    rw [hblock] at hrun
    have hconsumed := Control.run_consumes hrun Head.store_total hnot
    have hcount := congrArg List.length hblock
    rw [List.length_take, List.length_cons] at hcount
    omega
  have hnoerror : ¬ P'.hasError = true := by
    rw [hasError_iff hfollows'.state, hcode]
    exact not_or.mpr ⟨fun h0 => h0 herror, hnot⟩
  have hfinished : P'.isFinished ≠ 0 := (isFinished_iff hfollows'.state hnot).mpr hfinal
  have hroom : ¬ ((len - (len - rest.length) : Nat) : Int) = toInt buffSize := by
    rw [toInt_of_lt hbound]
    omega
  rw [turn, hexec]
  simp only [if_neg hnoerror, if_neg hroom, if_pos hfinished]
  rw [Nat.sub_sub_self hle]

/-- An iteration after which the parser has an error. -/
theorem turn_failed (herror : h'.error ≠ 0 ∨ cs' = httpParserError) :
    turn buffSize buffer len P = .leave .failed := by
  obtain ⟨P', hexec, hfollows', -⟩ :=
    execute_block hfollows hbetween hgo hlen hfits (by omega) hrun
  exact turn_of_error hexec hfollows' hpeeked herror

end Turn

end Block

/-! ## The loop -/

section Loop

variable (chunk : Nat → Nat) (buffSize : Nat)

/-- How many bytes the next read of the loop gives. -/
def taken (d : Duplex) : Nat := min d.inbound.length (moved chunk d.calls buffSize)

/-- The stream after that read into `data`. -/
def afterRead (data : List UInt8) (d : Duplex) : Duplex :=
  { d with
    inbound := d.inbound.drop (taken chunk buffSize d)
    memory := splice data 0 (d.inbound.take (taken chunk buffSize d))
    calls := d.calls + 1 }

section Iteration

variable {chunk buffSize} {fuel : Nat} {data : List UInt8} {d : Duplex} {P : HttpRequestParser}

theorem read_data (hsize : data.length = buffSize) :
    Duplex.read chunk 0 0 (buffSize - 0) { d with memory := data } =
      .ok (taken chunk buffSize d : Nat) (afterRead chunk buffSize data d) := by
  refine (read_ok chunk ?_).trans rfl
  show 0 + 0 + (buffSize - 0) ≤ data.length
  omega

/-- The buffer after a read. -/
theorem afterRead_memory (chunk : Nat → Nat) (d : Duplex) (hsize : data.length = buffSize) :
    taken chunk buffSize d ≤ buffSize ∧
      (afterRead chunk buffSize data d).memory.length = buffSize ∧
      (afterRead chunk buffSize data d).memory.take (taken chunk buffSize d) =
        d.inbound.take (taken chunk buffSize d) := by
  have hle : taken chunk buffSize d ≤ buffSize :=
    (Nat.min_le_right _ _).trans (moved_le chunk d.calls buffSize)
  have hcount : (d.inbound.take (taken chunk buffSize d)).length = taken chunk buffSize d := by
    rw [List.length_take]
    exact Nat.min_eq_left (Nat.min_le_left _ _)
  refine ⟨hle, (length_splice_of_fits ?_).trans hsize, ?_⟩
  · rw [hcount, hsize, Nat.zero_add]
    exact hle
  · have hend : (splice data 0 (d.inbound.take (taken chunk buffSize d))).take
        (0 + (d.inbound.take (taken chunk buffSize d)).length) =
          data.take 0 ++ d.inbound.take (taken chunk buffSize d) :=
      take_splice_end _ (Nat.zero_le _)
    rw [Nat.zero_add, hcount, List.take_zero, List.nil_append] at hend
    exact hend

theorem recvHead_eof (hsize : data.length = buffSize) (hnone : taken chunk buffSize d = 0) :
    recvHead chunk buffSize (fuel + 1) data 0 P d =
      .ok .failed (afterRead chunk buffSize data d) := by
  refine (bind_ok rfl).trans ((bind_ok (read_data hsize)).trans ?_)
  rw [hnone, if_pos (show ((0 : Nat) : Int) ≤ 0 from le_refl _)]
  rfl

theorem recvHead_again (hsize : data.length = buffSize) (hsome : 0 < taken chunk buffSize d)
    {data' : List UInt8} {offset : Nat} {P' : HttpRequestParser}
    (hturn : turn buffSize (afterRead chunk buffSize data d).memory (taken chunk buffSize d) P =
      .again data' offset P') :
    recvHead chunk buffSize (fuel + 1) data 0 P d =
      recvHead chunk buffSize fuel data' offset P' (afterRead chunk buffSize data d) := by
  refine (bind_ok rfl).trans ((bind_ok (read_data hsize)).trans ?_)
  rw [if_neg (show ¬ ((taken chunk buffSize d : Nat) : Int) ≤ 0 by omega)]
  refine (bind_ok rfl).trans ?_
  rw [Int.toNat_natCast, Nat.zero_add, hturn]

theorem recvHead_leave (hsize : data.length = buffSize) (hsome : 0 < taken chunk buffSize d)
    {e : HeadEnd}
    (hturn : turn buffSize (afterRead chunk buffSize data d).memory (taken chunk buffSize d) P =
      .leave e) :
    recvHead chunk buffSize (fuel + 1) data 0 P d =
      .ok e (afterRead chunk buffSize data d) := by
  refine (bind_ok rfl).trans ((bind_ok (read_data hsize)).trans ?_)
  rw [if_neg (show ¬ ((taken chunk buffSize d : Nat) : Int) ≤ 0 by omega)]
  refine (bind_ok rfl).trans ?_
  rw [Int.toNat_natCast, Nat.zero_add, hturn]
  rfl

end Iteration

/-- Where the reads of a head end, from the call number `calls` on. -/
def cut (calls : Nat) : Nat → Nat
  | 0 => 0
  | k + 1 => cut calls k + moved chunk (calls + k) buffSize

/-- Nothing but the start is in front of the first cut. -/
theorem first_le_cut (calls k : Nat) :
    moved chunk calls buffSize ≤ cut chunk buffSize calls (k + 1) := by
  induction k with
  | zero => exact Nat.le_add_left _ _
  | succ k ih => exact ih.trans (Nat.le_add_right _ _)

/-- No read ends inside a token of the head. -/
def CutsBetween (relaxed : Bool) (calls : Nat) (stream : List UInt8) : Prop :=
  ∀ k, ¬ halted (stateAfter relaxed (stream.take (cut chunk buffSize calls k))) →
    stateAfter relaxed (stream.take (cut chunk buffSize calls k)) ∈ betweenTokens

/-- What the loop found, against the reading of the stream. -/
structure Found (relaxed : Bool) (d₀ : Duplex) (rest : List UInt8) (h : Head) (data : List UInt8)
    (offset : Nat) (P : HttpRequestParser) (d : Duplex) : Prop where
  request : P.data = h.data
  inside : offset ≤ data.length
  left : data.take offset ++ d.inbound = rest
  /-- The read that ended the head is the one that brought what is left in the buffer. -/
  last : ∃ k, ¬ halted (stateAfter relaxed (d₀.inbound.take (cut chunk buffSize d₀.calls k))) ∧
    d.inbound = d₀.inbound.drop (cut chunk buffSize d₀.calls (k + 1))
  outbound : d.outbound = d₀.outbound
  closed : d.closed = d₀.closed

/-- The loop before its iteration number `k`. -/
structure Before (relaxed : Bool) (d₀ : Duplex) (k : Nat) (data : List UInt8)
    (P : HttpRequestParser) (cs : Nat) (h : Head) (d : Duplex) : Prop where
  calls : d.calls = d₀.calls + k
  inbound : d.inbound = d₀.inbound.drop (cut chunk buffSize d₀.calls k)
  reads : Reads relaxed (d₀.inbound.take (cut chunk buffSize d₀.calls k)) [] cs h
  going : ¬ halted cs
  follows : Follows relaxed P cs h
  size : data.length = buffSize
  outbound : d.outbound = d₀.outbound
  closed : d.closed = d₀.closed

variable {chunk buffSize} {relaxed : Bool} {d₀ d : Duplex} {k : Nat} {data : List UInt8}
  {P : HttpRequestParser} {cs : Nat} {h : Head}

theorem Before.init {mem : Uninit} (hsize : mem.buffer.length = buffSize)
    (hrelaxed : mem.uriRelaxed = relaxed) :
    Before chunk buffSize relaxed d₀ 0 mem.buffer
      { parser := { queryStart := mem.queryStart, uriRelaxed := mem.uriRelaxed } }
      httpParserStart {} d₀ :=
  ⟨rfl, rfl, rfl, by decide, ⟨rfl, hrelaxed, fun _ => ⟨rfl, rfl⟩⟩, hsize, rfl, rfl⟩

/-- What the next read gives is in front of what it leaves. -/
theorem Before.next_cut (hbefore : Before chunk buffSize relaxed d₀ k data P cs h d) :
    d₀.inbound.take (cut chunk buffSize d₀.calls (k + 1)) =
        d₀.inbound.take (cut chunk buffSize d₀.calls k) ++
          d.inbound.take (taken chunk buffSize d) ∧
      d₀.inbound.drop (cut chunk buffSize d₀.calls (k + 1)) =
        d.inbound.drop (taken chunk buffSize d) := by
  have hmoved : cut chunk buffSize d₀.calls (k + 1) =
      cut chunk buffSize d₀.calls k + moved chunk d.calls buffSize := by
    rw [cut, hbefore.calls]
  have hsame : ∀ n, d.inbound.take (min d.inbound.length n) = d.inbound.take n ∧
      d.inbound.drop (min d.inbound.length n) = d.inbound.drop n := by
    intro n
    rcases Nat.le_total n d.inbound.length with hle | hge
    · rw [Nat.min_eq_right hle]
      exact ⟨rfl, rfl⟩
    · rw [Nat.min_eq_left hge, List.take_length, List.take_of_length_le hge, List.drop_length,
        List.drop_of_length_le hge]
      exact ⟨rfl, rfl⟩
  obtain ⟨htake, hdrop⟩ := hsame (moved chunk d.calls buffSize)
  rw [hmoved, List.take_add, ← List.drop_drop, ← hbefore.inbound, taken, htake, hdrop]
  exact ⟨rfl, rfl⟩

/-- The rest of the reading, from an iteration on. -/
theorem Before.whole (hbefore : Before chunk buffSize relaxed d₀ k data P cs h d)
    {rest : List UInt8} {cs' : Nat} {h' : Head} (hreads : Reads relaxed d₀.inbound rest cs' h') :
    (control relaxed).run Head.store d.inbound cs h = some (rest, cs', h') := by
  rw [hbefore.inbound, ← hbefore.reads.append hbefore.going, List.take_append_drop]
  exact hreads

theorem Before.between (hbefore : Before chunk buffSize relaxed d₀ k data P cs h d)
    (hcuts : CutsBetween chunk buffSize relaxed d₀.calls d₀.inbound) : cs ∈ betweenTokens := by
  have hstate := hbefore.reads.state
  rw [hstate]
  refine hcuts k ?_
  rw [← hstate]
  exact hbefore.going

/-- The machine on the bytes of the next read: it stops in them, or it reads them all and goes on
with what is behind them. -/
theorem Before.block (hbefore : Before chunk buffSize relaxed d₀ k data P cs h d)
    {rest : List UInt8} {cs' : Nat} {h' : Head} (hreads : Reads relaxed d₀.inbound rest cs' h') :
    ∃ rest₁ cs₁ h₁,
      (control relaxed).run Head.store (d.inbound.take (taken chunk buffSize d)) cs h =
        some (rest₁, cs₁, h₁) ∧
      (halted cs₁ → rest = rest₁ ++ d.inbound.drop (taken chunk buffSize d) ∧ cs' = cs₁ ∧
        h' = h₁) ∧
      (¬ halted cs₁ → rest₁ = [] ∧
        (control relaxed).run Head.store (d.inbound.drop (taken chunk buffSize d)) cs₁ h₁ =
          some (rest, cs', h')) := by
  obtain ⟨rest₁, h₁, hrun₁, -, hall⟩ := Control.run_total (C := control relaxed)
    Head.store_total (d.inbound.take (taken chunk buffSize d)) (halts_eq_false hbefore.going) h
  -- The whole reading in two parts.
  have hjoin := Control.run_append (C := control relaxed) Head.store_total
    (d.inbound.take (taken chunk buffSize d)) (d.inbound.drop (taken chunk buffSize d))
    (halts_eq_false hbefore.going) h
  rw [List.take_append_drop, hbefore.whole hreads, hrun₁] at hjoin
  refine ⟨rest₁, _, h₁, hrun₁, fun hhalted => ?_, fun hhalted => ?_⟩
  · have hend := Option.some.inj (hjoin.trans (if_pos hhalted))
    exact ⟨congrArg Prod.fst hend, congrArg (·.2.1) hend, congrArg (·.2.2) hend⟩
  · refine ⟨hall (halts_eq_false hhalted), ?_⟩
    exact (hjoin.trans (if_neg (Bool.eq_false_iff.mp (halts_eq_false hhalted)))).symm

section Read

variable {rest : List UInt8} {cs' : Nat} {h' : Head} {fuel : Nat}
  (hbefore : Before chunk buffSize relaxed d₀ k data P cs h d)
  (hcuts : CutsBetween chunk buffSize relaxed d₀.calls d₀.inbound) (hbound : buffSize < 2 ^ 31)
  (hsome : 0 < taken chunk buffSize d)
  (hrun : (control relaxed).run Head.store (d.inbound.take (taken chunk buffSize d)) cs h =
    some (rest, cs', h'))
  (hpeeked : h'.peeked = false)
include hbefore hcuts hbound hsome hrun hpeeked

/-- A read that brings the end of the head. -/
theorem Before.found (hfinal : final cs') (herror : h'.error = 0) :
    ∃ data' offset P',
      recvHead chunk buffSize (fuel + 1) data 0 P d =
        .ok (.head data' offset P') (afterRead chunk buffSize data d) ∧
      Found chunk buffSize relaxed d₀ (rest ++ d.inbound.drop (taken chunk buffSize d)) h' data'
        offset P' (afterRead chunk buffSize data d) := by
  obtain ⟨hle, hmemory, hblock⟩ := afterRead_memory chunk d hbefore.size
  obtain ⟨P', hturn, hdata⟩ := turn_head hbefore.follows (hbefore.between hcuts) hbefore.going
    hsome (hmemory.symm ▸ hle) hmemory hbound (hblock.symm ▸ hrun) hpeeked hfinal herror
  refine ⟨_, _, _, recvHead_leave hbefore.size hsome hturn, ?_⟩
  exact {
    request := hdata
    inside := by
      rw [length_splice rest (Nat.zero_le _), Nat.zero_add]
      exact Nat.le_max_right _ _
    left := by
      have hend : (splice (afterRead chunk buffSize data d).memory 0 rest).take
          (0 + rest.length) = (afterRead chunk buffSize data d).memory.take 0 ++ rest :=
        take_splice_end rest (Nat.zero_le _)
      rw [Nat.zero_add, List.take_zero, List.nil_append] at hend
      rw [hend]
      rfl
    last := ⟨k, hbefore.reads.state ▸ hbefore.going, hbefore.next_cut.2.symm⟩
    outbound := hbefore.outbound
    closed := hbefore.closed }

theorem Before.failed (herror : h'.error ≠ 0 ∨ cs' = httpParserError) :
    recvHead chunk buffSize (fuel + 1) data 0 P d =
      .ok .failed (afterRead chunk buffSize data d) := by
  obtain ⟨hle, hmemory, hblock⟩ := afterRead_memory chunk d hbefore.size
  exact recvHead_leave hbefore.size hsome (turn_failed hbefore.follows (hbefore.between hcuts)
    hbefore.going hsome (hmemory.symm ▸ hle) hmemory hbound (hblock.symm ▸ hrun) hpeeked herror)

/-- A read inside the head: the loop is before its next iteration. -/
theorem Before.next (hgoing : ¬ halted cs') (herror : h'.error = 0) :
    ∃ P', recvHead chunk buffSize (fuel + 1) data 0 P d = recvHead chunk buffSize fuel
        (afterRead chunk buffSize data d).memory 0 P' (afterRead chunk buffSize data d) ∧
      Before chunk buffSize relaxed d₀ (k + 1) (afterRead chunk buffSize data d).memory P' cs' h'
        (afterRead chunk buffSize data d) := by
  obtain ⟨hle, hmemory, hblock⟩ := afterRead_memory chunk d hbefore.size
  obtain rfl : rest = [] := (Control.run_end Head.store_total (halts_eq_false hbefore.going)
    hrun).2.2 (halts_eq_false hgoing)
  obtain ⟨P', hturn, hfollows'⟩ := turn_again hbefore.follows (hbefore.between hcuts)
    hbefore.going hsome (hmemory.symm ▸ hle) hmemory hbound (hblock.symm ▸ hrun) hpeeked hgoing
    herror
  obtain ⟨hnextTake, hnextDrop⟩ := hbefore.next_cut
  refine ⟨P', recvHead_again hbefore.size hsome hturn, ?_⟩
  exact {
    calls := by
      show d.calls + 1 = _
      rw [hbefore.calls, Nat.add_assoc]
    inbound := hnextDrop.symm
    reads := by
      rw [hnextTake, Reads, hbefore.reads.append hbefore.going]
      exact hrun
    going := hgoing
    follows := hfollows'
    size := hmemory
    outbound := hbefore.outbound
    closed := hbefore.closed }

end Read

/-- **The loop finds the reading of the stream.** -/
theorem recvHead_reads (hcuts : CutsBetween chunk buffSize relaxed d₀.calls d₀.inbound)
    (hpos : 0 < buffSize) (hbound : buffSize < 2 ^ 31) {rest : List UInt8} {cs' : Nat} {h' : Head}
    (hreads : Reads relaxed d₀.inbound rest cs' h') (hpeeked : h'.peeked = false) {fuel : Nat}
    (hbefore : Before chunk buffSize relaxed d₀ k data P cs h d)
    (hfuel : d.inbound.length < fuel) :
    ∃ e d', recvHead chunk buffSize fuel data 0 P d = .ok e d' ∧
      (final cs' ∧ h'.error = 0 → ∃ data' offset P', e = .head data' offset P' ∧
        Found chunk buffSize relaxed d₀ rest h' data' offset P' d') ∧
      (¬ (final cs' ∧ h'.error = 0) →
        e = .failed ∧ d'.outbound = d₀.outbound ∧ d'.closed = d₀.closed) := by
  -- On the bound; `Before` is what one iteration hands to the next.
  induction fuel generalizing k data P cs h d with
  | zero => exact absurd hfuel (Nat.not_lt_zero _)
  | succ fuel ih =>
      rcases Nat.eq_zero_or_pos (taken chunk buffSize d) with hnone | hsome
      · -- The stream is at its end, inside the head.
        have hmoved := moved_pos chunk d.calls hpos
        have hempty : d.inbound = [] := by
          rw [taken] at hnone
          exact List.length_eq_zero_iff.mp (by omega)
        have hwhole := hbefore.whole hreads
        rw [hempty] at hwhole
        have hcs : cs = cs' := congrArg (·.2.1) (Option.some.inj hwhole)
        refine ⟨.failed, _, recvHead_eof hbefore.size hnone, ?_,
          fun _ => ⟨rfl, hbefore.outbound, hbefore.closed⟩⟩
        rintro ⟨hfinal, -⟩
        exact absurd (halted_iff.mpr (.inr (hcs ▸ hfinal))) hbefore.going
      · obtain ⟨rest₁, cs₁, h₁, hrun, hstops, hgoes⟩ := hbefore.block hreads
        by_cases hhalted : halted cs₁
        · obtain ⟨rfl, rfl, rfl⟩ := hstops hhalted
          by_cases hok : final cs' ∧ h'.error = 0
          · obtain ⟨data', offset, P', hhead, hfound⟩ :=
              hbefore.found hcuts hbound hsome hrun hpeeked hok.1 hok.2
            exact ⟨_, _, hhead, fun _ => ⟨_, _, _, rfl, hfound⟩, fun hnot => absurd hok hnot⟩
          · have herror : h'.error ≠ 0 ∨ cs' = httpParserError := by
              rcases halted_iff.mp hhalted with hzero | hfinal
              · exact .inr hzero
              · exact .inl fun hzero => hok ⟨hfinal, hzero⟩
            exact ⟨_, _, hbefore.failed hcuts hbound hsome hrun hpeeked herror,
              fun hyes => absurd hyes hok, fun _ => ⟨rfl, hbefore.outbound, hbefore.closed⟩⟩
        · obtain ⟨rfl, hrest⟩ := hgoes hhalted
          have hpeeked₁ : h₁.peeked = false := by
            rw [Bool.eq_false_iff]
            intro hyes
            exact absurd (peeked_stays hyes hrest) (Bool.eq_false_iff.mp hpeeked)
          by_cases herror : h₁.error = 0
          · obtain ⟨P', hagain, hafter⟩ :=
              hbefore.next hcuts hbound hsome hrun hpeeked₁ hhalted herror
            rw [hagain]
            refine ih hafter ?_
            show (d.inbound.drop (taken chunk buffSize d)).length < fuel
            rw [List.length_drop]
            have hleft : taken chunk buffSize d ≤ d.inbound.length := Nat.min_le_left _ _
            omega
          · exact ⟨_, _, hbefore.failed hcuts hbound hsome hrun hpeeked₁ (.inl herror),
              fun hyes => absurd hyes.2 (error_stays herror hrest),
              fun _ => ⟨rfl, hbefore.outbound, hbefore.closed⟩⟩

end Loop

end HttpSession
end Http
end Routn
