import Mathlib.Tactic
import Routn.Http.Segmentation

/-!
# A read that ends inside the method

What the machine does up to the blank behind the method, and what becomes of a method without its
first character: it is the beginning of no name, so that a request whose first read is one byte is
refused.
-/

namespace Routn
namespace Http
namespace HttpSession

open Foundation Machine Duplex

/-! ## Names without their first character -/

/-- No name without its first character is the beginning of a name, or the other way round. -/
theorem names_apart : ∀ name ∈ httpMethodMap, ∀ other ∈ httpMethodMap,
    name.2.tail.isPrefixOf other.2 = false ∧ other.2.isPrefixOf name.2.tail = false := by
  decide +kernel

theorem names_valid : ∀ name ∈ httpMethodMap, name.1 ≠ .INVALID_METHOD ∧ name.2 ≠ [] := by
  decide

theorem charsToHttpMethod_valid_iff {m : List UInt8} :
    charsToHttpMethod m ≠ .INVALID_METHOD ↔ ∃ name ∈ httpMethodMap, name.2 <+: m := by
  constructor
  · intro hvalid
    rw [charsToHttpMethod] at hvalid
    split at hvalid
    · next name hfind =>
        have hname := List.mem_of_find?_eq_some hfind
        have hprefix := List.find?_some hfind
        exact ⟨name, hname, (strncmpEq_iff (httpMethodMap_nonzero name hname) m).mp hprefix⟩
    · exact absurd rfl hvalid
  · rintro ⟨name, hname, hprefix⟩
    rw [charsToHttpMethod]
    split
    · next found hfind => exact (names_valid found (List.mem_of_find?_eq_some hfind)).1
    · next hfind =>
        have hno := List.find?_eq_none.mp hfind name hname
        exact absurd ((strncmpEq_iff (httpMethodMap_nonzero name hname) m).mpr hprefix) hno

/-- **A method that has lost its first character is none**, and no comparison looks past it. -/
theorem method_tail {c : UInt8} {w : List UInt8}
    (hvalid : charsToHttpMethod (c :: w) ≠ .INVALID_METHOD) :
    charsToHttpMethod w = .INVALID_METHOD ∧ peeks w = false := by
  obtain ⟨name, hname, hprefix⟩ := charsToHttpMethod_valid_iff.mp hvalid
  have htail : name.2.tail <+: w := by
    obtain ⟨first, tail, hcons⟩ := List.exists_cons_of_ne_nil (names_valid name hname).2
    rw [hcons] at hprefix
    rw [hcons]
    exact (List.cons_prefix_cons.mp hprefix).2
  constructor
  · by_contra hother
    obtain ⟨other, hmem, hprefix'⟩ := charsToHttpMethod_valid_iff.mp hother
    obtain ⟨hleft, hright⟩ := names_apart name hname other hmem
    rcases List.prefix_or_prefix_of_prefix htail hprefix' with h | h
    · rw [List.isPrefixOf_iff_prefix.mpr h] at hleft
      cases hleft
    · rw [List.isPrefixOf_iff_prefix.mpr h] at hright
      cases hright
  · rw [peeks, List.any_eq_false]
    intro other hmem hpeeks
    have hblank := List.isPrefixOf_iff_prefix.mp hpeeks
    have hbelow := htail.trans ((List.prefix_append w [32]).trans hblank)
    have hleft := (names_apart name hname other hmem).1
    rw [List.isPrefixOf_iff_prefix.mpr hbelow] at hleft
    cases hleft

/-! ## The machine in the method -/

/-- The states inside the method. -/
def methodStates : List Nat :=
  [2, 175, 176, 177, 178, 179, 180, 181, 182, 183, 184, 185, 186, 187, 188, 189, 190, 191, 192, 193]

/-- From a state inside the method the machine stays there or takes the method on a blank; from a
later state it does not come back. -/
def rowMethod (row : Nat × Case) : Bool :=
  row.2.edges.all fun edge =>
    if row.1 ∈ methodStates then
      (target edge.2 == ([], (target edge.2).2) && methodStates.contains (target edge.2).2) ||
        target edge.2 == ([.requestMethod], 3)
    else
      row.1 == 1 || (!(target edge.2).1.contains .requestMethod &&
        !(1 :: methodStates).contains (target edge.2).2)

theorem cases_method : cases.all rowMethod = true := by decide +kernel

section Method

variable {relaxed : Bool} {cs cs' : Nat} {c : UInt8} {actions : List Action}

theorem next_method (hmethod : cs ∈ methodStates)
    (hnext : next relaxed cs c = some (actions, cs')) :
    (actions = [] ∧ cs' ∈ methodStates) ∨ (actions = [.requestMethod] ∧ cs' = 3) := by
  obtain ⟨row, edge, hrow, hedge, htarget, -⟩ := edge_of_next hnext
  have hcase := List.all_eq_true.mp (List.all_eq_true.mp cases_method _ hrow) _ hedge
  rw [if_pos hmethod, htarget] at hcase
  rcases Bool.or_eq_true_iff.mp hcase with hstay | htake
  · obtain ⟨hnone, hin⟩ := Bool.and_eq_true_iff.mp hstay
    exact .inl ⟨congrArg (·.1) (beq_iff_eq.mp hnone), List.contains_iff_mem.mp hin⟩
  · have hboth := beq_iff_eq.mp htake
    exact .inr ⟨congrArg (·.1) hboth, congrArg (·.2) hboth⟩

theorem next_later (hlater : cs ∉ 1 :: methodStates)
    (hnext : next relaxed cs c = some (actions, cs')) :
    Action.requestMethod ∉ actions ∧ cs' ∉ 1 :: methodStates := by
  obtain ⟨row, edge, hrow, hedge, htarget, -⟩ := edge_of_next hnext
  have hcase := List.all_eq_true.mp (List.all_eq_true.mp cases_method _ hrow) _ hedge
  have hstart : cs ≠ 1 := List.ne_of_not_mem_cons hlater
  have hmethod : cs ∉ methodStates := List.not_mem_of_not_mem_cons hlater
  rw [if_neg hmethod, htarget] at hcase
  rcases Bool.or_eq_true_iff.mp hcase with h1 | hboth
  · exact absurd (beq_iff_eq.mp h1) hstart
  · obtain ⟨htake, hback⟩ := Bool.and_eq_true_iff.mp hboth
    rw [Bool.not_eq_true', ← Bool.not_eq_true, List.contains_iff_mem] at htake hback
    exact ⟨htake, hback⟩

theorem not_halted_of_method (hmethod : cs ∈ methodStates) : ¬ halted cs := by
  have hall : ∀ cs ∈ methodStates, ¬ halted cs := by decide
  exact hall cs hmethod

/-- Behind the method nothing is compared past a blank. -/
theorem peeked_later {bytes rest : List UInt8} {h h' : Head} (hlater : cs ∉ 1 :: methodStates)
    (hpeeked : h.peeked = false)
    (hrun : (control relaxed).run Head.store bytes cs h = some (rest, cs', h')) :
    h'.peeked = false := by
  refine (Control.run_invariant_state
    (P := fun cs h => cs ∉ 1 :: methodStates ∧ h.peeked = false) ?_ ?_ bytes ⟨hlater, hpeeked⟩
    hrun).2
  · rintro cs h ⟨-, hpeeked⟩
    exact ⟨show httpParserError ∉ 1 :: methodStates by decide, hpeeked⟩
  · rintro cs cs' c actions h h' ⟨hlater, hpeeked⟩ hnext hfold
    obtain ⟨hnot, hlater'⟩ := next_later hlater hnext
    refine ⟨hlater', ?_⟩
    show h'.peeked = false
    refine Control.list_invariant (P := fun h : Head => h.peeked = false) ?_ hpeeked hfold
    rintro h h' action hmem hP hact
    cases hact
    cases action <;> simp only [Head.act, Head.setMethod, Head.setVersion, Head.setField] <;>
      repeat' split
    all_goals first | exact hP | exact absurd hmem hnot

/-- The head after characters without an action. -/
def ticks (bytes : List UInt8) (h : Head) : Head := bytes.foldl (fun h c => h.tick c) h

theorem ticks_mark (bytes : List UInt8) (h : Head) : (ticks bytes h).mark = h.mark ++ bytes := by
  induction bytes generalizing h with
  | nil => exact (List.append_nil _).symm
  | cons c bytes ih =>
      rw [ticks, List.foldl_cons]
      refine (ih (h.tick c)).trans ?_
      show h.mark ++ [c] ++ bytes = h.mark ++ c :: bytes
      rw [List.append_assoc]
      rfl

theorem ticks_same (bytes : List UInt8) (h : Head) :
    (ticks bytes h).error = h.error ∧ (ticks bytes h).peeked = h.peeked := by
  induction bytes generalizing h with
  | nil => exact ⟨rfl, rfl⟩
  | cons c bytes ih => exact ih (h.tick c)

/-- **The method phase.**  The machine comes to the blank, and takes what was read as the method, or
it does not come to the end of a head. -/
theorem method_phase (relaxed : Bool) (bytes : List UInt8) (hmethod : cs ∈ methodStates) :
    (∃ w rest, bytes = w ++ 32 :: rest ∧ ∀ (more : List UInt8) (h : Head),
      (control relaxed).run Head.store (w ++ 32 :: more) cs h =
        (control relaxed).run Head.store more 3 (((ticks w h).act .requestMethod).tick 32)) ∨
    (∀ h : Head, ∃ rest cs' h',
      (control relaxed).run Head.store bytes cs h = some (rest, cs', h') ∧ ¬ final cs') := by
  induction bytes generalizing cs with
  | nil =>
      refine .inr fun h => ⟨[], cs, h, rfl, fun hfinal => ?_⟩
      exact not_halted_of_method hmethod (halted_iff.mpr (.inr hfinal))
  | cons c bytes ih =>
      cases hnext : next relaxed cs c with
      | none =>
          exact .inr fun h => ⟨c :: bytes, httpParserError, h, Control.run_refused hnext, by decide⟩
      | some step =>
          obtain ⟨actions, cs'⟩ := step
          rcases next_method hmethod hnext with ⟨rfl, hmethod'⟩ | ⟨rfl, rfl⟩
          · have hstep : ∀ (more : List UInt8) (h : Head),
                (control relaxed).run Head.store (c :: more) cs h =
                  (control relaxed).run Head.store more cs' (h.tick c) := by
              intro more h
              rw [Control.run_step (C := control relaxed) hnext rfl,
                halts_eq_false (not_halted_of_method hmethod'), if_neg Bool.false_ne_true]
              rfl
            rcases ih hmethod' with ⟨w, rest, rfl, hrun⟩ | hnever
            · exact .inl ⟨c :: w, rest, rfl,
                fun more h => (hstep (w ++ 32 :: more) h).trans (hrun more (h.tick c))⟩
            · refine .inr fun h => ?_
              rw [hstep bytes h]
              exact hnever (h.tick c)
          · obtain rfl := blank_of_requestMethod hnext List.mem_cons_self
            refine .inl ⟨[], bytes, rfl, fun more h => ?_⟩
            rw [List.nil_append, Control.run_step (C := control relaxed) hnext rfl]
            rfl

/-- A head that begins like a request line goes from the first byte into the method. -/
theorem next_start {relaxed : Bool} {c : UInt8} {step : List Action × Nat}
    (hnext : next relaxed 1 c = some step) (hxml : c ≠ 60) (hjson : c ≠ 64) :
    step = ([.mark], 2) := by
  obtain ⟨actions, cs'⟩ := step
  obtain ⟨row, edge, hrow, hedge, htarget, hcovers⟩ := edge_of_next hnext
  have hstart : row = narrow [(methodChar, .tr 0), (one 60, .tr 2), (one 64, .tr 3)] := by
    have hlookup : ∀ entry ∈ cases, entry.1 = 1 → entry.2 =
        narrow [(methodChar, .tr 0), (one 60, .tr 2), (one 64, .tr 3)] := by decide +kernel
    exact hlookup _ hrow rfl
  have hkey : row.key relaxed c = signed c := by
    rw [hstart]
    rfl
  have hsigned : ∀ k : Int, 0 ≤ k → signed c = k → (c.toNat : Int) = k := by
    intro k hk hc
    rw [signed] at hc
    have hlt := c.toNat_lt
    split at hc <;> omega
  have hone : ∀ k : UInt8, covers (signed c) (one k.toNat, edge.2) = true → c = k := by
    intro k hk
    simp only [covers, one, List.any_cons, List.any_nil, Bool.or_false, decide_eq_true_eq] at hk
    have hnat := hsigned k.toNat (by omega) (by omega)
    exact UInt8.toNat_inj.mp (by omega)
  rw [hkey] at hcovers
  rw [hstart] at hedge
  rcases List.mem_cons.mp hedge with rfl | hedge
  · exact htarget.symm
  · rcases List.mem_cons.mp hedge with rfl | hedge
    · exact absurd (hone 60 hcovers) hxml
    · obtain rfl := List.mem_singleton.mp hedge
      exact absurd (hone 64 hcovers) hjson

end Method

/-! ## The first byte alone -/

/-- One byte, and then all that is there. -/
def firstAlone (count : Nat) : Nat → Nat := fun call => if call = 0 then 1 else count

section FirstAlone

variable {lexicalCast : List UInt8 → Option UInt64} {buffSize : Nat} {relaxed : Bool}
  {mem : Uninit} {c : UInt8} {tail rest : List UInt8} {cs : Nat} {h : Head}

/-- The head after the first byte. -/
def afterFirst (c : UInt8) : Head := Head.tick c { mark := [] }

theorem run_first (hnext : next relaxed 1 c = some ([.mark], 2)) (more : List UInt8) :
    (control relaxed).run Head.store (c :: more) 1 {} =
      (control relaxed).run Head.store more 2 (afterFirst c) := by
  have hstep : (control relaxed).next 1 c = some ([.mark], 2) := hnext
  rw [Control.run_step hstep rfl]
  rfl

/-- What the second read makes of the rest: the method lacks its first character. -/
theorem run_rest (hnext : next relaxed 1 c = some ([.mark], 2))
    (hreads : Reads relaxed (c :: tail) rest cs h) (hfinal : final cs) (herror : h.error = 0)
    {n : Nat} (hn : tail.length - rest.length ≤ n) :
    ∃ rest' cs' h', (control relaxed).run Head.store (tail.take n) 2
        { afterFirst c with mark := [] } = some (rest', cs', h') ∧
      h'.error ≠ 0 ∧ h'.peeked = false := by
  replace hreads := (run_first hnext tail).symm.trans hreads
  rcases method_phase relaxed tail (show 2 ∈ methodStates by decide) with
    ⟨w, more, rfl, hphase⟩ | hnever
  · rw [hphase] at hreads
    -- The whole method is valid, since there is no error.
    have hvalid : charsToHttpMethod (c :: w) ≠ .INVALID_METHOD := by
      intro hinvalid
      have hmark : (ticks w (afterFirst c)).mark = c :: w := ticks_mark w _
      have hact : (((ticks w (afterFirst c)).act .requestMethod).tick 32).error = 1000 := by
        show ((ticks w (afterFirst c)).setMethod (ticks w (afterFirst c)).mark).error = 1000
        rw [hmark, Head.setMethod, if_pos hinvalid]
      exact error_stays (by rw [hact]; decide) hreads herror
    obtain ⟨hinvalid, hpeeks⟩ := method_tail hvalid
    have hsuffix := (Control.run_end Head.store_total (halts_eq_false (by decide)) hreads).2.1
    have hle := hsuffix.length_le
    have htake : (w ++ 32 :: more).take n = w ++ 32 :: more.take (n - w.length - 1) := by
      rw [List.length_append, List.length_cons] at hn
      obtain ⟨k, hk⟩ : ∃ k, n - w.length = k + 1 := ⟨n - w.length - 1, by omega⟩
      rw [List.take_append, List.take_of_length_le (by omega), hk, List.take_succ_cons]
      rfl
    rw [htake, hphase]
    have hsame := ticks_same w { afterFirst c with mark := [] }
    have hmark : (ticks w { afterFirst c with mark := [] }).mark = w := ticks_mark w _
    obtain ⟨start, hstart⟩ : ∃ start,
        ((ticks w { afterFirst c with mark := [] }).act .requestMethod).tick 32 = start :=
      ⟨_, rfl⟩
    have herror' : start.error = 1000 := by
      rw [← hstart]
      show ((ticks w _).setMethod (ticks w _).mark).error = 1000
      rw [hmark, Head.setMethod, if_pos hinvalid]
    have hpeeked' : start.peeked = false := by
      rw [← hstart]
      show ((ticks w _).peeked || peeks (ticks w _).mark) = false
      rw [hmark, hsame.2, hpeeks]
      rfl
    obtain ⟨rest', h', hrun, -, -⟩ := Control.run_total (C := control relaxed) Head.store_total
      (more.take (n - w.length - 1)) (s := 3) (halts_eq_false (by decide)) start
    rw [hstart]
    exact ⟨rest', _, h', hrun, error_stays (by rw [herror']; decide) hrun,
      peeked_later (by decide) hpeeked' hrun⟩
  · obtain ⟨rest', cs', h', hrun, hnot⟩ := hnever (afterFirst c)
    rw [hreads] at hrun
    cases hrun
    exact absurd hfinal hnot

/-- **A request whose first read is its first byte is refused.** -/
theorem recvRequest_firstAlone (lexicalCast : List UInt8 → Option UInt64)
    (hsize : mem.buffer.length = buffSize)
    (hrelaxed : mem.uriRelaxed = relaxed) (hpos : 0 < buffSize) (hbound : buffSize < 2 ^ 31)
    (hreads : Reads relaxed (c :: tail) rest cs h) (hfinal : final cs) (herror : h.error = 0)
    (hfits : (c :: tail).length - rest.length ≤ buffSize) (hxml : c ≠ 60) (hjson : c ≠ 64) :
    ∃ d', recvRequest (firstAlone (c :: tail).length) lexicalCast buffSize mem
      { inbound := c :: tail } = .ok .nullptr d' := by
  have hnext : next relaxed 1 c = some ([.mark], 2) := by
    cases hstep : next relaxed 1 c with
    | none =>
        have hrefused : (control relaxed).next 1 c = none := hstep
        have hrun := hreads.symm.trans (Control.run_refused hrefused)
        cases hrun
        exact absurd hfinal (show ¬ final httpParserError by decide)
    | some step => rw [next_start hstep hxml hjson]
  obtain ⟨chunk, hchunk⟩ : ∃ chunk, firstAlone (c :: tail).length = chunk := ⟨_, rfl⟩
  rw [hchunk]
  let d₀ : Duplex := { inbound := c :: tail }
  let P₀ : HttpRequestParser :=
    { parser := { queryStart := mem.queryStart, uriRelaxed := mem.uriRelaxed } }
  have hbefore : Before chunk buffSize relaxed d₀ 0 mem.buffer P₀ httpParserStart {} d₀ :=
    .init hsize hrelaxed
  -- The first read is the first byte.
  have htaken : taken chunk buffSize d₀ = 1 := by
    rw [taken, ← hchunk]
    show min (c :: tail).length (min buffSize (min (2 ^ 31 - 1) (max 1 1))) = 1
    rw [List.length_cons]
    omega
  obtain ⟨hle, hmemory, hblock⟩ := afterRead_memory chunk d₀ hsize
  rw [htaken] at hle hblock
  have hrun₁ : (control relaxed).run Head.store
      ((afterRead chunk buffSize mem.buffer d₀).memory.take 1) 1 {} =
        some ([], 2, afterFirst c) := by
    rw [hblock]
    exact run_first hnext []
  obtain ⟨P₁, hturn₁, hfollows₁⟩ := turn_again hbefore.follows
    (show httpParserStart ∈ betweenTokens by decide) (by decide) Nat.one_pos (by omega) hmemory
    hbound hrun₁ rfl (by decide) rfl
  rw [← htaken] at hturn₁
  have hagain : recvHead chunk buffSize (tail.length + 1 + 1) mem.buffer 0 P₀ d₀ = _ :=
    recvHead_again hsize (by omega) hturn₁
  -- The second read has the rest of the head, and the parser takes it for a head without the
  -- first character.
  obtain ⟨d₁, hd₁⟩ : ∃ d₁, afterRead chunk buffSize mem.buffer d₀ = d₁ := ⟨_, rfl⟩
  have hinbound : d₁.inbound = tail := by
    rw [← hd₁]
    show d₀.inbound.drop (taken chunk buffSize d₀) = tail
    rw [htaken]
    rfl
  have hcalls : d₁.calls = 1 := hd₁ ▸ rfl
  rw [hd₁] at hagain hmemory
  have hfailed : ∃ d₂, recvHead chunk buffSize (tail.length + 1) d₁.memory 0 P₁ d₁ =
      .ok .failed d₂ := by
    rcases Nat.eq_zero_or_pos (taken chunk buffSize d₁) with hnone | hsome
    · exact ⟨_, recvHead_eof hmemory hnone⟩
    · have henough : tail.length - rest.length ≤ taken chunk buffSize d₁ := by
        rw [taken, hinbound, hcalls, ← hchunk]
        show _ ≤ min tail.length (min buffSize (min (2 ^ 31 - 1) (max 1 (c :: tail).length)))
        rw [List.length_cons] at hfits ⊢
        omega
      obtain ⟨rest', cs', h', hrun₂, herror', hpeeked'⟩ :=
        run_rest hnext hreads hfinal herror henough
      obtain ⟨hle₂, hmemory₂, hblock₂⟩ := afterRead_memory chunk d₁ hmemory
      rw [hinbound] at hblock₂
      rw [← hblock₂] at hrun₂
      have hfollows₂ : Follows relaxed P₁ 2 { afterFirst c with mark := [] } :=
        ⟨hfollows₁.state, hfollows₁.relaxed, hfollows₁.request⟩
      have hagree : ∀ r ∈ live 2, Agree (afterRead chunk buffSize d₁.memory d₁).memory r
          (0, P₁.restart) { afterFirst c with mark := [] } := by
        intro r hr
        obtain rfl : r = .mark := List.mem_singleton.mp hr
        exact Spans.nil (Nat.zero_le _)
      obtain ⟨P₂, hexec, hfollows, -⟩ := execute_live hfollows₂ hagree (by decide) hsome
        (by omega) (by omega) hrun₂
      exact ⟨_, recvHead_leave hmemory hsome
        (turn_of_error hexec hfollows hpeeked' (.inl herror'))⟩
  obtain ⟨d₂, hfailed⟩ := hfailed
  exact ⟨{ d₂ with closed := true },
    (bind_ok rfl).trans ((bind_ok (hagain.trans hfailed)).trans rfl)⟩

end FirstAlone

end HttpSession
end Http
end Routn
