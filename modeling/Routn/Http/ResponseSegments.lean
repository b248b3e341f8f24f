import Mathlib.Tactic
import Routn.Http.Reading
import Routn.Http.ResponseReading

/-!
# The head of a response in several reads

The first loop of `recvResponse` keeps its parser from read to read, but a token that a read cuts
is lost.  When no read ends inside a token the loop finds what the machine finds in the whole head
(`parseLoop_segments`).
-/

namespace Routn
namespace Http
namespace Client

open Foundation Duplex HttpConnection
open HttpSession (cut)

/-- The machine reads the head to its end, whatever is behind it, and reports no error. -/
structure ReadsHead (head : List UInt8) (h : Head) : Prop where
  run : ∀ more, plain.run Head.store (head ++ more) httpclientParserStart {} =
    some (more, httpclientParserFirstFinal, h)
  error : h.result.error = 0

/-- No read ends inside a token of the head. -/
def CutsBetween (chunk : Nat → Nat) (buffSize calls : Nat) (head : List UInt8) : Prop :=
  ∀ k, cut chunk buffSize calls k < head.length →
    plain.after httpclientParserStart (head.take (cut chunk buffSize calls k)) ∈ betweenTokens

/-- What a size line says. -/
theorem act_chunkSize (h : Head) : (h.act .chunkSize).result = { h.result with
    chunked := true
    contentLen := toInt (strtol h.mark 16)
    chunksDone := decide (toInt (strtol h.mark 16) ≤ 0) } := rfl

theorem act_length (h : Head) : (h.act .writeContentLen).result =
    { h.result with contentLen := toInt (strtol h.mark 10) } := rfl

theorem error_setLength (r : Result) (chunked : Bool) (n : Int) (done : Bool) :
    ({ r with chunked := chunked, contentLen := n, chunksDone := done } : Result).error =
      r.error := rfl

/-- An error of a callback stays. -/
theorem error_act {action : Action} {h : Head} (herror : h.result.error ≠ 0) :
    (h.act action).result.error ≠ 0 := by
  cases action with
  | httpVersion =>
      rw [Head.act, Head.setVersion]
      split
      · simpa only using herror
      · split
        · simpa only using herror
        · simp
  | writeValue =>
      rw [Head.act, Head.setField]
      split
      · exact herror
      · simpa only using herror
  | writeContentLen =>
      rw [act_length, error_setLength h.result h.result.chunked _ h.result.chunksDone]
      exact herror
  | chunkSize =>
      rw [act_chunkSize, error_setLength]
      exact herror
  | _ => simpa only [Head.act] using herror

theorem error_stays {bytes rest : List UInt8} {cs cs' : Nat} {h h' : Head}
    (herror : h.result.error ≠ 0)
    (hrun : plain.run Head.store bytes cs h = some (rest, cs', h')) : h'.result.error ≠ 0 := by
  refine Control.run_invariant (P := fun h : Head => h.result.error ≠ 0) ?_ (fun hP => hP) bytes
    herror hrun
  rintro action g g' hP hact
  obtain rfl := Option.some.inj hact
  exact error_act hP

namespace ReadsHead

variable {head : List UInt8} {h : Head}

theorem nonempty (hreads : ReadsHead head h) : head ≠ [] := by
  rintro rfl
  have hstate : httpclientParserStart = httpclientParserFirstFinal :=
    congrArg (·.2.1) (Option.some.inj (hreads.run []))
  exact absurd hstate (by decide)

/-- Inside the head the machine has read all there is, and goes on with the rest. -/
theorem inside (hreads : ReadsHead head h) {n : Nat} (hn : n < head.length) :
    ∃ cs h₁, plain.after httpclientParserStart (head.take n) = cs ∧ plain.halts cs = false ∧
      plain.run Head.store (head.take n) httpclientParserStart {} = some ([], cs, h₁) ∧
      h₁.result.error = 0 ∧ ∀ more, plain.run Head.store (head.drop n ++ more) cs h₁ =
        some (more, httpclientParserFirstFinal, h) := by
  obtain ⟨rest, h₁, hrun, -, hall⟩ := Control.run_total (C := plain) Head.store_total (head.take n)
    (s := httpclientParserStart) rfl {}
  obtain ⟨cs, hcs⟩ : ∃ cs, plain.after httpclientParserStart (head.take n) = cs := ⟨_, rfl⟩
  rw [hcs] at hrun hall
  have hjoin : ∀ more, some (more, httpclientParserFirstFinal, h) =
      if plain.halts cs = true then some (rest ++ (head.drop n ++ more), cs, h₁)
      else plain.run Head.store (head.drop n ++ more) cs h₁ := by
    intro more
    have happend := Control.run_append (C := plain) Head.store_total (head.take n)
      (head.drop n ++ more) (s := httpclientParserStart) rfl {}
    rw [← List.append_assoc, List.take_append_drop, hreads.run, hrun] at happend
    exact happend
  -- A machine that has stopped leaves more than is behind the head.
  have hgo : plain.halts cs = false := by
    rw [Bool.eq_false_iff]
    intro hhalts
    have hend := hjoin []
    rw [if_pos hhalts] at hend
    have hlength := congrArg List.length (congrArg Prod.fst (Option.some.inj hend))
    simp only [List.length_nil, List.length_append, List.length_drop] at hlength
    omega
  obtain rfl : rest = [] := hall hgo
  have hgoes : ∀ more, plain.run Head.store (head.drop n ++ more) cs h₁ =
      some (more, httpclientParserFirstFinal, h) := by
    intro more
    have hend := hjoin more
    rw [if_neg (Bool.eq_false_iff.mp hgo)] at hend
    exact hend.symm
  refine ⟨cs, h₁, hcs, hgo, hrun, ?_, hgoes⟩
  by_contra herror
  exact error_stays herror (hgoes []) hreads.error

end ReadsHead

section Segments

variable {chunk : Nat → Nat} {buffSize : Nat} {head body : List UInt8} {h : Head} {d₀ : Duplex}

/-- What the loop leaves: the read number `k` has brought the end of the head. -/
structure FoundHead (chunk : Nat → Nat) (buffSize : Nat) (head body : List UInt8) (h : Head)
    (d₀ : Duplex) (k : Nat) (data : List UInt8) (len : Nat) (P : HttpResponseParser) (d : Duplex) :
    Prop where
  before : cut chunk buffSize d₀.calls k < head.length
  ended : head.length ≤ cut chunk buffSize d₀.calls (k + 1)
  length : len = min (head.length + body.length) (cut chunk buffSize d₀.calls (k + 1)) - head.length
  calls : d.calls = d₀.calls + k + 1
  left : data.take len ++ d.inbound = body
  size : data.length = buffSize + 1
  fits : len ≤ buffSize
  follows : Follows P httpclientParserFirstFinal h

/-- The loop before its iteration number `k`, inside the head. -/
structure BeforeHead (chunk : Nat → Nat) (buffSize : Nat) (head body : List UInt8) (d₀ : Duplex)
    (k : Nat) (data : List UInt8) (P : HttpResponseParser) (cs : Nat) (h₁ : Head) (d : Duplex) :
    Prop where
  inside : cut chunk buffSize d₀.calls k < head.length
  run : plain.run Head.store (head.take (cut chunk buffSize d₀.calls k)) httpclientParserStart {} =
    some ([], cs, h₁)
  follows : Follows P cs h₁
  size : data.length = buffSize + 1
  calls : d.calls = d₀.calls + k
  left : d.inbound = head.drop (cut chunk buffSize d₀.calls k) ++ body

namespace BeforeHead

variable {k cs fuel : Nat} {data : List UInt8} {P : HttpResponseParser} {h₁ : Head} {d : Duplex}
  (hbefore : BeforeHead chunk buffSize head body d₀ k data P cs h₁ d)
include hbefore

theorem next_cut : cut chunk buffSize d₀.calls (k + 1) =
    cut chunk buffSize d₀.calls k + moved chunk d.calls buffSize := by
  rw [cut, ← hbefore.calls]

theorem length_inbound : d.inbound.length =
    head.length - cut chunk buffSize d₀.calls k + body.length := by
  rw [hbefore.left, List.length_append, List.length_drop]

/-- How much the next read brings. -/
theorem taken_eq : taken chunk buffSize 0 d =
    min (head.length - cut chunk buffSize d₀.calls k + body.length)
      (moved chunk d.calls buffSize) := by
  rw [taken, Nat.sub_zero, hbefore.length_inbound]

theorem taken_pos (hpos : 0 < buffSize) : 0 < taken chunk buffSize 0 d := by
  have hinside := hbefore.inside
  have hmoved := moved_pos chunk d.calls hpos
  rw [hbefore.taken_eq]
  omega

/-- The machine is between two tokens, and goes on with the rest of the head. -/
theorem machine (hreads : ReadsHead head h)
    (hcuts : CutsBetween chunk buffSize d₀.calls head) :
    cs ∈ betweenTokens ∧ plain.halts cs = false ∧ ∀ more,
      plain.run Head.store (head.drop (cut chunk buffSize d₀.calls k) ++ more) cs h₁ =
        some (more, httpclientParserFirstFinal, h) := by
  obtain ⟨cs₁, h₂, hafter, hgo, hrun, -, hgoes⟩ := hreads.inside hbefore.inside
  obtain ⟨rfl, rfl⟩ : cs₁ = cs ∧ h₂ = h₁ := by
    rw [hbefore.run] at hrun
    cases hrun
    exact ⟨rfl, rfl⟩
  exact ⟨hafter ▸ hcuts k hbefore.inside, hgo, hgoes⟩

/-- The read that brings the end of the head. -/
theorem found (hreads : ReadsHead head h) (hcuts : CutsBetween chunk buffSize d₀.calls head)
    (hpos : 0 < buffSize) (hbound : buffSize < 2 ^ 31)
    (hlast : head.length ≤ cut chunk buffSize d₀.calls (k + 1)) :
    ∃ data' len' P', parseLoop chunk buffSize false (fuel + 1) false data 0 P d =
        .ok (.finished data' len' P') (afterRead chunk buffSize data 0 d) ∧
      FoundHead chunk buffSize head body h d₀ k data' len' P'
        (afterRead chunk buffSize data 0 d) := by
  obtain ⟨hbetween, hgo, hgoes⟩ := hbefore.machine hreads hcuts
  have htpos := hbefore.taken_pos hpos
  have hinside := hbefore.inside
  have htaken := hbefore.taken_eq
  have hnext := hbefore.next_cut
  have hcalls := hbefore.calls
  obtain ⟨n, hn⟩ : ∃ n, cut chunk buffSize d₀.calls k = n := ⟨_, rfl⟩
  obtain ⟨t, ht⟩ : ∃ t, taken chunk buffSize 0 d = t := ⟨_, rfl⟩
  have hleft := hbefore.left
  obtain ⟨hmemory, hfits, htake⟩ := afterRead_take chunk hbefore.size (Nat.zero_le buffSize) d
  have hdrop : (afterRead chunk buffSize data 0 d).inbound = d.inbound.drop t := by
    rw [← ht]
    rfl
  rw [parseLoop_read hbefore.size (Nat.zero_le buffSize)]
  rw [hn] at hinside htaken hnext hleft hgoes
  rw [ht] at htaken htpos hfits htake ⊢
  rw [Nat.zero_add] at hfits htake
  rw [List.take_zero, List.nil_append] at htake
  rw [if_neg (by omega), Nat.zero_add]
  have hblock : d.inbound.take t = head.drop n ++ body.take (t - (head.length - n)) := by
    rw [hleft, List.take_append, List.take_of_length_le (by rw [List.length_drop]; omega),
      List.length_drop]
  rw [hblock] at htake
  obtain ⟨P', hturned⟩ : ∃ P', Turned buffSize false _ t P _ _ _ P' := turn_block hbefore.follows
    hbetween htpos hfits hmemory hbound (htake ▸ hgoes _) (by decide)
  rw [hturned.turn, if_neg (not_not.mpr hreads.error), if_pos rfl]
  have hrest : (body.take (t - (head.length - n))).length = t - (head.length - n) := by
    rw [List.length_take]
    omega
  refine ⟨_, _, P', rfl, ?_⟩
  rw [hrest]
  exact {
    before := by omega
    ended := hlast
    length := by omega
    calls := by
      show d.calls + 1 = _
      omega
    left := by
      rw [hdrop, hleft, List.drop_append, List.drop_of_length_le
        (by rw [List.length_drop]; omega), List.length_drop, List.nil_append]
      have hfront := take_splice_front
        (splice (afterRead chunk buffSize data 0 d).memory t [0])
        (body.take (t - (head.length - n)))
      rw [hrest] at hfront
      rw [hfront, List.take_append_drop]
    size := by
      refine (length_splice_of_fits ?_).trans (terminated hmemory hfits).1
      rw [(terminated hmemory hfits).1, hrest]
      omega
    fits := by omega
    follows := hturned.follows }

/-- A read that is all head: the loop is before its next iteration. -/
theorem next (hreads : ReadsHead head h) (hcuts : CutsBetween chunk buffSize d₀.calls head)
    (hpos : 0 < buffSize) (hbound : buffSize < 2 ^ 31)
    (hinside : cut chunk buffSize d₀.calls (k + 1) < head.length) :
    ∃ data' P' cs' h', parseLoop chunk buffSize false (fuel + 1) false data 0 P d =
        parseLoop chunk buffSize false fuel false data' 0 P' (afterRead chunk buffSize data 0 d) ∧
      BeforeHead chunk buffSize head body d₀ (k + 1) data' P' cs' h'
        (afterRead chunk buffSize data 0 d) := by
  obtain ⟨hbetween, hgo, -⟩ := hbefore.machine hreads hcuts
  have htpos := hbefore.taken_pos hpos
  have hnext := hbefore.next_cut
  -- All of the read is in front of the end of the head.
  have htaken : taken chunk buffSize 0 d = moved chunk d.calls buffSize := by
    rw [hbefore.taken_eq]
    omega
  obtain ⟨hmemory, hfits, htake⟩ := afterRead_take chunk hbefore.size (Nat.zero_le buffSize) d
  rw [Nat.zero_add] at hfits htake
  rw [List.take_zero, List.nil_append] at htake
  have hroom : taken chunk buffSize 0 d ≤
      (head.drop (cut chunk buffSize d₀.calls k)).length := by
    rw [List.length_drop]
    omega
  have hblock : d.inbound.take (taken chunk buffSize 0 d) =
      (head.drop (cut chunk buffSize d₀.calls k)).take (moved chunk d.calls buffSize) := by
    rw [hbefore.left, List.take_append_of_le_length hroom, htaken]
  rw [hblock] at htake
  obtain ⟨cs', h', -, hgo', hrun', herror, -⟩ := hreads.inside hinside
  have hrunBlock : plain.run Head.store ((head.drop (cut chunk buffSize d₀.calls k)).take
      (moved chunk d.calls buffSize)) cs h₁ = some ([], cs', h') := by
    have happend := Control.run_append (C := plain) Head.store_total
      (head.take (cut chunk buffSize d₀.calls k))
      ((head.drop (cut chunk buffSize d₀.calls k)).take (moved chunk d.calls buffSize))
      (s := httpclientParserStart) rfl {}
    rw [← List.take_add, ← hnext, hrun', hbefore.run] at happend
    exact (happend.trans (if_neg (Bool.eq_false_iff.mp hgo))).symm
  have hne : cs' ≠ httpclientParserError := by
    rintro rfl
    exact absurd hgo' (by decide)
  have hnotfinal : cs' ≠ httpclientParserFirstFinal := by
    rintro rfl
    exact absurd hgo' (by decide)
  obtain ⟨P', hturned⟩ : ∃ P', Turned buffSize false _ (taken chunk buffSize 0 d) P _ _ _ P' :=
    turn_block hbefore.follows hbetween htpos hfits hmemory hbound (htake ▸ hrunBlock) hne
  rw [parseLoop_read hbefore.size (Nat.zero_le buffSize), if_neg htpos.ne', Nat.zero_add,
    hturned.turn, if_neg (not_not.mpr herror), if_neg hnotfinal]
  refine ⟨_, P', cs', h', rfl, ?_⟩
  exact {
    inside := hinside
    run := hrun'
    follows := hturned.follows
    size := (length_splice_of_fits (Nat.zero_le _)).trans (terminated hmemory hfits).1
    calls := by
      show d.calls + 1 = _
      rw [hbefore.calls, Nat.add_assoc]
    left := by
      show d.inbound.drop (taken chunk buffSize 0 d) = _
      rw [hnext, ← List.drop_drop, hbefore.left, List.drop_append_of_le_length hroom, htaken] }

end BeforeHead

/-- **The loop finds the head.** -/
theorem parseLoop_segments (hreads : ReadsHead head h)
    (hcuts : CutsBetween chunk buffSize d₀.calls head) (hpos : 0 < buffSize)
    (hbound : buffSize < 2 ^ 31) {fuel k cs : Nat} {data : List UInt8} {P : HttpResponseParser}
    {h₁ : Head} {d : Duplex} (hbefore : BeforeHead chunk buffSize head body d₀ k data P cs h₁ d)
    (hfuel : d.inbound.length < fuel) :
    ∃ k' data' len' P' d', parseLoop chunk buffSize false fuel false data 0 P d =
        .ok (.finished data' len' P') d' ∧
      FoundHead chunk buffSize head body h d₀ k' data' len' P' d' := by
  -- On the bound; an iteration hands the state of the machine to the next.
  induction fuel generalizing k cs data P h₁ d with
  | zero => exact absurd hfuel (Nat.not_lt_zero _)
  | succ fuel ih =>
      by_cases hlast : head.length ≤ cut chunk buffSize d₀.calls (k + 1)
      · obtain ⟨data', len', P', hloop, hfound⟩ := hbefore.found hreads hcuts hpos hbound hlast
        exact ⟨k, data', len', P', _, hloop, hfound⟩
      · obtain ⟨data', P', cs', h', hloop, hafter⟩ :=
          hbefore.next hreads hcuts hpos hbound (Nat.lt_of_not_le hlast)
        rw [hloop]
        refine ih hafter ?_
        show (d.inbound.drop (taken chunk buffSize 0 d)).length < fuel
        have htpos := hbefore.taken_pos hpos
        have htaken : taken chunk buffSize 0 d ≤ d.inbound.length := Nat.min_le_left _ _
        rw [List.length_drop]
        omega

/-- **The head of a new response.** -/
theorem parseLoop_found (hreads : ReadsHead head h)
    (hcuts : CutsBetween chunk buffSize d₀.calls head) (hpos : 0 < buffSize)
    (hbound : buffSize < 2 ^ 31) (hinbound : d₀.inbound = head ++ body) {mem : List UInt8}
    (hmem : mem.length = buffSize + 1) :
    ∃ k data len P d, parseLoop chunk buffSize false (d₀.inbound.length + 1) false mem 0 {} d₀ =
        .ok (.finished data len P) d ∧
      FoundHead chunk buffSize head body h d₀ k data len P d := by
  have hbefore : BeforeHead chunk buffSize head body d₀ 0 mem {} httpclientParserStart {} d₀ := {
    inside := List.length_pos_of_ne_nil hreads.nonempty
    run := rfl
    follows := ⟨rfl, rfl⟩
    size := hmem
    calls := rfl
    left := hinbound }
  exact parseLoop_segments hreads hcuts hpos hbound hbefore (Nat.lt_succ_self _)

end Segments

end Client
end Http
end Routn
