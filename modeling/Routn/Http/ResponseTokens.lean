import Mathlib.Tactic
import Routn.Http.ResponseParser
import Routn.Http.Tokens

/-!
# The head of a response as its tokens

The machine of the client over tokens in place of positions, as for a request.  Its grammar lets a
value begin on the next line, behind a header that has none; there the start of a field is
overwritten while its length is kept.  `plain` is the machine without the transitions on which such
a field is used, and with them it does the same as long as it is not refused.
-/

namespace Routn
namespace Http
namespace Client

open Foundation

/-! ## The machine without folded values -/

/-- `next`, but for the ends of a value on a line of its own. -/
def plainNext (cs : Nat) (c : UInt8) : Option (List Action × Nat) :=
  if (cs = 79 ∨ cs = 117) ∧ (c = 10 ∨ c = 13) then none else next cs c

def plain : Control Nat UInt8 Action := { control with next := plainNext }

theorem next_of_plain {cs cs' : Nat} {c : UInt8} {actions : List Action}
    (hnext : plainNext cs c = some (actions, cs')) : next cs c = some (actions, cs') := by
  rw [plainNext] at hnext
  split at hnext
  · cases hnext
  · exact hnext

/-- What the parser has made of the head so far. -/
structure Result where
  data : HttpResponse := {}
  error : Nat := 0
  contentLen : Int := -1
  chunked : Bool := false
  chunksDone : Bool := false
  close : Bool := false
deriving DecidableEq, Repr

/-- The tokens, and what the callbacks have made of them; `fields` are those that were reported. -/
structure Head where
  mark : List UInt8 := []
  fieldStart : List UInt8 := []
  field : List UInt8 := []
  result : Result := {}
  fields : List (List UInt8 × List UInt8) := []
deriving DecidableEq, Repr

namespace Head

def setVersion (h : Head) (token : List UInt8) : Head :=
  if strncmpEq token (chars ['H', 'T', 'T', 'P', '/', '1', '.', '1']) token.length then
    { h with result := { h.result with data := h.result.data.setVersion 0x11 } }
  else if strncmpEq token (chars ['H', 'T', 'T', 'P', '/', '1', '.', '0']) token.length then
    { h with result := { h.result with data := h.result.data.setVersion 0x10 } }
  else { h with result := { h.result with error := 1001 } }

def setField (h : Head) (field value : List UInt8) : Head :=
  if field = [] then h
  else { h with
    result := { h.result with data := h.result.data.setHeader field value }
    fields := h.fields ++ [(field, value)] }

def act : Action → Head → Head
  | .mark, h => { h with mark := [] }
  | .startField, h => { h with fieldStart := [] }
  | .writeField, h => { h with field := h.fieldStart }
  | .startValue, h => { h with mark := [] }
  | .writeContentLen, h =>
      { h with result := { h.result with contentLen := toInt (strtol h.mark 10) } }
  | .writeConnectionClose, h => { h with result := { h.result with close := true } }
  | .writeValue, h => h.setField h.field h.mark
  | .reasonPhrase, h =>
      { h with result := { h.result with data := h.result.data.setReason h.mark } }
  | .statusCode, h =>
      { h with result := { h.result with data := h.result.data.setStatus ⟨atoi h.mark⟩ } }
  | .httpVersion, h => h.setVersion h.mark
  | .chunkSize, h =>
      { h with result := { h.result with
        chunked := true
        contentLen := toInt (strtol h.mark 16)
        chunksDone := decide (toInt (strtol h.mark 16) ≤ 0) } }
  | .transChunked, h => { h with result := { h.result with chunked := true } }
  | .done, h => h

/-- The tokens grow with each character. -/
def tick (c : UInt8) (h : Head) : Head :=
  { h with mark := h.mark ++ [c], fieldStart := h.fieldStart ++ [c] }

def store : Store UInt8 Action Head where
  exec := fun action h => some (h.act action)
  tick := tick

theorem store_total : Control.Total store := fun action h => ⟨h.act action, rfl⟩

end Head

/-! ## Which registers are live -/

inductive Register
  | mark
  | fieldStart
  | field
deriving DecidableEq, Repr

/-- `field` is kept as a length from `fieldStart` on, and is lost when that is set. -/
def access : Access Action Register where
  reads
    | .writeField => [.fieldStart]
    | .writeValue => [.field, .mark]
    | .writeContentLen | .reasonPhrase | .statusCode | .httpVersion | .chunkSize => [.mark]
    | _ => []
  writes
    | .mark | .startValue => [.mark]
    | .startField => [.fieldStart]
    | .writeField => [.field]
    | _ => []
  spoils
    | .startField => [.field]
    | _ => []

/-- The states of the machine in which no token is open. -/
def betweenTokens : List Nat :=
  [0, 1, 3, 4, 16, 18, 20, 24, 36, 37, 38, 39, 40, 41, 42, 43, 71, 88, 89, 95, 120, 122]

def live (cs : Nat) : List Register :=
  if cs ∈ betweenTokens then []
  else if cs = 2 ∨ (8 ≤ cs ∧ cs ≤ 19) then [.mark]
  else if cs ∈ [6, 22, 35, 61, 62, 63, 72, 80, 112, 113, 114, 116, 118, 121, 123] then [.field]
  else if cs ∈ [7, 23, 115, 119] ∨ (64 ≤ cs ∧ cs ≤ 70) ∨ (81 ≤ cs ∧ cs ≤ 87) ∨
      (96 ≤ cs ∧ cs ≤ 100) then [.field, .mark]
  else [.fieldStart]

/-- Each edge keeps to the registers that are live, but for the ends that `plain` leaves out. -/
def rowFits (row : Nat × Machine.Case) : Bool :=
  row.2.edges.all fun edge =>
    (decide (row.1 = 79 ∨ row.1 = 117) &&
      decide (edge.1 = Machine.one 10 ∨ edge.1 = Machine.one 13)) ||
    access.fits (live row.1) (target edge.2).1 (live (target edge.2).2)

theorem cases_fit : cases.all rowFits = true := by decide +kernel

/-- A range of one character holds that character alone. -/
theorem eq_of_covers_one {c k : UInt8} {row : Machine.Case} {e : Machine.Goto}
    (hnarrow : row.computesWidec = false) (hk : k.toNat < 128)
    (hcovers : Machine.covers (row.key false c) (Machine.one k.toNat, e) = true) : c = k := by
  rw [Machine.covers, Machine.Case.key, hnarrow, if_neg Bool.false_ne_true,
    Machine.signed] at hcovers
  simp only [Machine.one, List.any_cons, List.any_nil, Bool.or_false, decide_eq_true_eq] at hcovers
  have hlt := c.toNat_lt
  refine UInt8.toNat_inj.mp ?_
  split at hcovers <;> omega

theorem cases_narrow : cases.all (fun row => !row.2.computesWidec) = true := by decide +kernel

theorem narrow_of_mem {row : Nat × Machine.Case} (hrow : row ∈ cases) :
    row.2.computesWidec = false := by
  have h := List.all_eq_true.mp cases_narrow row hrow
  simpa using h

/-- **`live` covers what each transition needs.** -/
theorem live_stable : access.Stable plain live := by
  intro cs c actions cs' hplain
  have hnext : next cs c = some (actions, cs') := next_of_plain hplain
  obtain ⟨row, edge, hrow, hedge, htarget, hcovers⟩ := edge_of_next hnext
  have hfits := List.all_eq_true.mp (List.all_eq_true.mp cases_fit _ hrow) _ hedge
  rw [htarget] at hfits
  rcases Bool.or_eq_true_iff.mp hfits with hcut | hfits
  · obtain ⟨hstate, hends⟩ := Bool.and_eq_true_iff.mp hcut
    have hchar : c = 10 ∨ c = 13 := by
      rcases of_decide_eq_true hends with h | h
      · refine .inl (eq_of_covers_one (narrow_of_mem hrow) (by decide) (e := edge.2) ?_)
        show Machine.covers _ (Machine.one 10, edge.2) = true
        rw [← h]
        exact hcovers
      · refine .inr (eq_of_covers_one (narrow_of_mem hrow) (by decide) (e := edge.2) ?_)
        show Machine.covers _ (Machine.one 13, edge.2) = true
        rw [← h]
        exact hcovers
    have hrefused : plainNext cs c = none := if_pos ⟨of_decide_eq_true hstate, hchar⟩
    have hplain' : plainNext cs c = some (actions, cs') := hplain
    rw [hrefused] at hplain'
    cases hplain'
  · exact hfits

/-! ## Numbers -/

/-- A number is read up to the first character that is no digit. -/
theorem strtol_append {token rest : List UInt8} {c : UInt8} {base : Nat}
    (hc : base ≤ digitValue c) : strtol (token ++ c :: rest) base = strtol token base := by
  have htake : (token ++ c :: rest).takeWhile (fun c => decide (digitValue c < base)) =
      token.takeWhile fun c => decide (digitValue c < base) := by
    induction token with
    | nil => exact List.takeWhile_cons_of_neg (by simpa using hc)
    | cons d token ih =>
        rw [List.cons_append, List.takeWhile_cons, List.takeWhile_cons, ih]
  rw [strtol, htake, strtol]

/-- Where a number is taken, the character behind it is no digit of it. -/
def rowNumbers (row : Nat × Machine.Case) : Bool :=
  row.2.edges.all fun edge =>
    (!(target edge.2).1.any fun action =>
        [.statusCode, .writeContentLen, .chunkSize].contains action) ||
      [Machine.one 10, Machine.one 13, Machine.one 32, Machine.one 59].contains edge.1

theorem cases_numbers : cases.all rowNumbers = true := by decide +kernel

theorem ends_number {cs cs' : Nat} {c : UInt8} {actions : List Action} {action : Action}
    (hnext : next cs c = some (actions, cs')) (hmem : action ∈ actions)
    (hnumber : action ∈ [Action.statusCode, .writeContentLen, .chunkSize]) : digitValue c = 36 := by
  obtain ⟨row, edge, hrow, hedge, htarget, hcovers⟩ := edge_of_next hnext
  have hends := List.all_eq_true.mp (List.all_eq_true.mp cases_numbers _ hrow) _ hedge
  rw [htarget] at hends
  have hany : (actions.any fun action =>
      [Action.statusCode, .writeContentLen, .chunkSize].contains action) = true :=
    List.any_eq_true.mpr ⟨action, hmem, List.contains_iff_mem.mpr hnumber⟩
  rw [hany, Bool.not_true, Bool.false_or, List.contains_iff_mem] at hends
  have hchar : ∀ k : UInt8, k.toNat < 128 → edge.1 = Machine.one k.toNat → c = k := by
    intro k hk hone
    refine eq_of_covers_one (narrow_of_mem hrow) hk (e := edge.2) ?_
    rw [← hone]
    exact hcovers
  simp only [List.mem_cons, List.not_mem_nil, or_false] at hends
  rcases hends with h | h | h | h
  · rw [hchar 10 (by decide) h]
    decide
  · rw [hchar 13 (by decide) h]
    decide
  · rw [hchar 32 (by decide) h]
    decide
  · rw [hchar 59 (by decide) h]
    decide

/-! ## The simulation -/

/-- What the parser has made of the head. -/
def resultOf (P : HttpResponseParser) : Result where
  data := P.data
  error := P.error
  contentLen := P.parser.contentLen
  chunked := P.parser.chunked
  chunksDone := P.parser.chunksDone
  close := P.parser.close

section Simulation

variable {buffer : List UInt8}

/-- What holds of the parser and the head between two characters: `rest` are those left of the first
`len` of the buffer. -/
structure Same (buffer : List UInt8) (len : Nat) (rest : List UInt8)
    (g : Nat × HttpResponseParser) (h : Head) : Prop where
  ahead : (buffer.take len).drop g.1 = rest
  inside : g.1 ≤ len
  fits : len ≤ buffer.length
  checks : g.2.checks len
  result : resultOf g.2 = h.result

/-- The positions of a register denote its token. -/
def Agree (buffer : List UInt8) (r : Register) (g : Nat × HttpResponseParser) (h : Head) : Prop :=
  match r with
  | .mark => Spans buffer g.2.parser.mark g.1 h.mark
  | .fieldStart => Spans buffer g.2.parser.fieldStart g.1 h.fieldStart
  | .field =>
      Spans buffer g.2.parser.fieldStart (g.2.parser.fieldStart + g.2.parser.fieldLen) h.field

variable {len : Nat} {rest : List UInt8} {g : Nat × HttpResponseParser} {h : Head}

theorem Same.length (hsame : Same buffer len rest g h) : g.1 + rest.length = len := by
  have hlength := congrArg List.length hsame.ahead
  have hfits := hsame.fits
  have hinside := hsame.inside
  simp only [List.length_drop, List.length_take] at hlength
  omega

theorem Same.drop (hsame : Same buffer len rest g h) :
    buffer.drop g.1 = rest ++ buffer.drop len := by
  have hlength : (buffer.take len).length = len := by
    rw [List.length_take, Nat.min_eq_left hsame.fits]
  have hinside : g.1 ≤ (buffer.take len).length := by
    rw [hlength]
    exact hsame.inside
  rw [← hsame.ahead, ← List.drop_append_of_le_length hinside, List.take_append_drop]

/-- Each character keeps what holds. -/
theorem tick_same {c : UInt8} (hsame : Same buffer len (c :: rest) g h) :
    Same buffer len rest ((HttpResponseParser.store buffer).tick c g) (Head.store.tick c h) ∧
      ∀ r, Agree buffer r g h →
        Agree buffer r ((HttpResponseParser.store buffer).tick c g) (Head.store.tick c h) := by
  have hdrop := hsame.drop
  have hlength := hsame.length
  rw [List.length_cons] at hlength
  refine ⟨⟨?_, ?_, hsame.fits, hsame.checks, hsame.result⟩, ?_⟩
  · show (buffer.take len).drop (g.1 + 1) = rest
    rw [← List.drop_drop, hsame.ahead, List.drop_one, List.tail_cons]
  · show g.1 + 1 ≤ len
    omega
  · intro r hagree
    cases r with
    | mark => exact Spans.tick hagree hdrop
    | fieldStart => exact Spans.tick hagree hdrop
    | field => exact hagree

/-- What the simulation asks of an action that leaves the parser at `P'`. -/
structure Acted (buffer : List UInt8) (len : Nat) (rest : List UInt8) (action : Action)
    (g : Nat × HttpResponseParser) (h : Head) (P' : HttpResponseParser) : Prop where
  exec : HttpResponseParser.act buffer g.1 g.2 action = some P'
  same : Same buffer len rest (g.1, P') (h.act action)
  written : ∀ r ∈ access.writes action, Agree buffer r (g.1, P') (h.act action)
  kept : ∀ r, r ∉ access.writes action → r ∉ access.spoils action → Agree buffer r g h →
    Agree buffer r (g.1, P') (h.act action)

/-- A callback leaves the registers alone. -/
theorem Acted.callback {action : Action} {P' : HttpResponseParser}
    (hsame : Same buffer len rest g h)
    (hexec : HttpResponseParser.act buffer g.1 g.2 action = some P')
    (hparser : P'.parser.mark = g.2.parser.mark ∧ P'.parser.fieldStart = g.2.parser.fieldStart ∧
      P'.parser.fieldLen = g.2.parser.fieldLen)
    (hwrites : access.writes action = [])
    (htokens : (h.act action).mark = h.mark ∧ (h.act action).fieldStart = h.fieldStart ∧
      (h.act action).field = h.field)
    (hresult : resultOf P' = (h.act action).result) : Acted buffer len rest action g h P' := by
  obtain ⟨hmark, hstart, hlen⟩ := hparser
  obtain ⟨hmark', hstart', hfield'⟩ := htokens
  refine ⟨hexec, ⟨hsame.ahead, hsame.inside, hsame.fits, ?_, hresult⟩, ?_, ?_⟩
  · show P'.parser.mark < len ∧ P'.parser.fieldLen ≤ len ∧ P'.parser.fieldStart < len
    rw [hmark, hstart, hlen]
    exact hsame.checks
  · intro r hr
    rw [hwrites] at hr
    cases hr
  · intro r _ _ hagree
    cases r <;> simp only [Agree, hmark, hstart, hlen, hmark', hstart', hfield'] <;> exact hagree

/-- An action that sets a register to the position. -/
theorem Acted.position {c : UInt8} {action : Action} {P' : HttpResponseParser}
    (hsame : Same buffer len (c :: rest) g h)
    (hexec : HttpResponseParser.act buffer g.1 g.2 action = some P')
    (hchecks : g.1 < len → P'.checks len) (hresult : resultOf P' = (h.act action).result)
    (hwritten : g.1 ≤ buffer.length →
      ∀ r ∈ access.writes action, Agree buffer r (g.1, P') (h.act action))
    (hkept : ∀ r, r ∉ access.writes action → r ∉ access.spoils action →
      Agree buffer r g h → Agree buffer r (g.1, P') (h.act action)) :
    Acted buffer len (c :: rest) action g h P' := by
  have hlength := hsame.length
  rw [List.length_cons] at hlength
  exact ⟨hexec, ⟨hsame.ahead, hsame.inside, hsame.fits, hchecks (by omega), hresult⟩,
    hwritten (hsame.inside.trans hsame.fits), hkept⟩

/-- The callbacks that take a number. -/
theorem acted_number {c : UInt8} (hsame : Same buffer len (c :: rest) g h)
    (hmark : Agree buffer .mark g h) (hc : digitValue c = 36) {base : Nat} (hbase : base ≤ 36) :
    strtol (buffer.drop g.2.parser.mark) base = strtol h.mark base := by
  rw [Spans.drop hmark, hsame.drop, List.cons_append]
  exact strtol_append (hc ▸ hbase)

/-- The callback of a header. -/
theorem acted_writeValue (hbound : buffer.length < 2 ^ 64) (hsame : Same buffer len rest g h)
    (hfield : Agree buffer .field g h) (hmark : Agree buffer .mark g h) :
    ∃ P', Acted buffer len rest .writeValue g h P' := by
  have hflen : h.field.length = g.2.parser.fieldLen := by
    rw [Spans.length hfield]
    omega
  rcases Nat.eq_zero_or_pos g.2.parser.fieldLen with hzero | hpos
  · have hempty : h.field = [] := List.length_eq_zero_iff.mp (hflen.trans hzero)
    have hact : h.act .writeValue = h := if_pos hempty
    refine ⟨g.2, .callback hsame (if_pos hzero) ⟨rfl, rfl, rfl⟩ rfl ?_ ?_⟩
    · rw [hact]
      exact ⟨rfl, rfl, rfl⟩
    · rw [hact]
      exact hsame.result
  · have hsome : h.field ≠ [] := List.ne_nil_of_length_pos (hflen ▸ hpos)
    have hact : h.act .writeValue = { h with
        result := { h.result with data := h.result.data.setHeader h.field h.mark }
        fields := h.fields ++ [(h.field, h.mark)] } := if_neg hsome
    have hkey : stdString (buffer.drop g.2.parser.fieldStart) g.2.parser.fieldLen =
        some h.field := by
      have hspan := Spans.stdString hfield
      rwa [Nat.add_sub_cancel_left] at hspan
    have hval : stdString (buffer.drop g.2.parser.mark) (LEN g.2.parser.mark g.1) =
        some h.mark := by
      rw [Spans.LEN hmark hbound]
      exact Spans.stdString hmark
    refine ⟨{ g.2 with data := g.2.data.setHeader h.field h.mark },
      .callback hsame ?_ ⟨rfl, rfl, rfl⟩ rfl ?_ ?_⟩
    · rw [HttpResponseParser.act, HttpResponseParser.onResponseHttpField, if_neg hpos.ne', hkey,
        hval]
      rfl
    · rw [hact]
      exact ⟨rfl, rfl, rfl⟩
    · rw [hact, ← hsame.result]
      rfl

/-- The callback of the version. -/
theorem acted_httpVersion (hbound : buffer.length < 2 ^ 64) (hsame : Same buffer len rest g h)
    (hmark : Agree buffer .mark g h) : ∃ P', Acted buffer len rest .httpVersion g h P' := by
  have hlen : LEN g.2.parser.mark g.1 = h.mark.length := by
    rw [Spans.LEN hmark hbound, Spans.length hmark]
  refine ⟨_, .callback hsame rfl ?_ rfl ?_ ?_⟩
  · rw [HttpResponseParser.onResponseVersion]
    split
    · exact ⟨rfl, rfl, rfl⟩
    · split <;> exact ⟨rfl, rfl, rfl⟩
  · simp only [Head.act, Head.setVersion]
    split
    · exact ⟨rfl, rfl, rfl⟩
    · split <;> exact ⟨rfl, rfl, rfl⟩
  · rw [HttpResponseParser.onResponseVersion, hlen, Spans.drop hmark, strncmpEq_append,
      strncmpEq_append]
    simp only [Head.act, Head.setVersion]
    rw [← hsame.result]
    split
    · rfl
    · split <;> rfl

/-- The callback of a chunk size. -/
theorem acted_chunkSize {c : UInt8} (hsame : Same buffer len (c :: rest) g h)
    (hmark : Agree buffer .mark g h) (hc : digitValue c = 36) :
    ∃ P', Acted buffer len (c :: rest) .chunkSize g h P' := by
  have hnumber := acted_number hsame hmark hc (show 16 ≤ 36 by decide)
  obtain ⟨n, hn⟩ : ∃ n, n = toInt (strtol h.mark 16) := ⟨_, rfl⟩
  have hexec : HttpResponseParser.act buffer g.1 g.2 .chunkSize =
      some { g.2 with parser := { g.2.parser with
        chunked := true, contentLen := n, chunksDone := decide (n ≤ 0) } } := by
    rw [HttpResponseParser.act, hnumber, hn]
  have hact : h.act .chunkSize = { h with result := { h.result with
      chunked := true, contentLen := n, chunksDone := decide (n ≤ 0) } } := by
    rw [Head.act, hn]
  refine ⟨_, .callback hsame hexec ⟨rfl, rfl, rfl⟩ rfl ?_ ?_⟩
  · rw [hact]
    exact ⟨rfl, rfl, rfl⟩
  · rw [hact, ← hsame.result]
    rfl

/-- The callback of a content length. -/
theorem acted_writeContentLen {c : UInt8} (hsame : Same buffer len (c :: rest) g h)
    (hmark : Agree buffer .mark g h) (hc : digitValue c = 36) :
    ∃ P', Acted buffer len (c :: rest) .writeContentLen g h P' := by
  have hnumber := acted_number hsame hmark hc (show 10 ≤ 36 by decide)
  obtain ⟨n, hn⟩ : ∃ n, n = toInt (strtol h.mark 10) := ⟨_, rfl⟩
  have hexec : HttpResponseParser.act buffer g.1 g.2 .writeContentLen =
      some { g.2 with parser := { g.2.parser with contentLen := n } } := by
    rw [HttpResponseParser.act, hnumber, hn]
  have hact : h.act .writeContentLen = { h with result := { h.result with contentLen := n } } := by
    rw [Head.act, hn]
  refine ⟨_, .callback hsame hexec ⟨rfl, rfl, rfl⟩ rfl ?_ ?_⟩
  · rw [hact]
    exact ⟨rfl, rfl, rfl⟩
  · rw [hact, ← hsame.result]
    rfl

/-- The end of a field name: its length is kept. -/
theorem acted_writeField {c : UInt8} (hbound : buffer.length < 2 ^ 64)
    (hsame : Same buffer len (c :: rest) g h) (hspan : Agree buffer .fieldStart g h) :
    ∃ P', Acted buffer len (c :: rest) .writeField g h P' := by
  obtain ⟨hmarkLt, -, hfieldStart⟩ := hsame.checks
  obtain ⟨n, hn⟩ : ∃ n, n = LEN g.2.parser.fieldStart g.1 := ⟨_, rfl⟩
  have hend : g.2.parser.fieldStart + n = g.1 := by
    rw [hn, Spans.LEN hspan hbound]
    exact Nat.add_sub_cancel' (Spans.le hspan)
  have hexec : HttpResponseParser.act buffer g.1 g.2 .writeField =
      some { g.2 with parser := { g.2.parser with fieldLen := n } } := by
    rw [hn]
    rfl
  refine ⟨_, .position hsame hexec (fun hlt => ⟨hmarkLt, ?_, hfieldStart⟩) hsame.result ?_ ?_⟩
  · show n ≤ len
    omega
  · rintro - r (_ | ⟨_, ⟨⟩⟩)
    show Spans buffer _ (g.2.parser.fieldStart + n) _
    rw [hend]
    exact hspan
  · intro r hw _ hagree
    cases r with
    | mark => exact hagree
    | fieldStart => exact hagree
    | field => exact absurd (List.mem_singleton_self _) hw

/-- **Each action does the same to the positions as to the tokens.** -/
theorem act_acted (hbound : buffer.length < 2 ^ 64) {cs cs' : Nat} {c : UInt8}
    {actions : List Action} {action : Action} (hnext : next cs c = some (actions, cs'))
    (hmem : action ∈ actions) (hsame : Same buffer len (c :: rest) g h)
    (hreads : ∀ r ∈ access.reads action, Agree buffer r g h) :
    ∃ P', Acted buffer len (c :: rest) action g h P' := by
  obtain ⟨hmarkLt, hfieldLen, hfieldStart⟩ := hsame.checks
  have hresult := hsame.result
  cases action with
  | mark =>
      refine ⟨_, .position hsame rfl (fun hlt => ⟨hlt, hfieldLen, hfieldStart⟩) hresult ?_ ?_⟩
      · rintro hinside r (_ | ⟨_, ⟨⟩⟩)
        exact Spans.nil hinside
      · intro r hw _ hagree
        cases r with
        | mark => exact absurd (List.mem_singleton_self _) hw
        | fieldStart => exact hagree
        | field => exact hagree
  | startValue =>
      refine ⟨_, .position hsame rfl (fun hlt => ⟨hlt, hfieldLen, hfieldStart⟩) hresult ?_ ?_⟩
      · rintro hinside r (_ | ⟨_, ⟨⟩⟩)
        exact Spans.nil hinside
      · intro r hw _ hagree
        cases r with
        | mark => exact absurd (List.mem_singleton_self _) hw
        | fieldStart => exact hagree
        | field => exact hagree
  | startField =>
      refine ⟨_, .position hsame rfl (fun hlt => ⟨hmarkLt, hfieldLen, hlt⟩) hresult ?_ ?_⟩
      · rintro hinside r (_ | ⟨_, ⟨⟩⟩)
        exact Spans.nil hinside
      · intro r hw hs hagree
        cases r with
        | mark => exact hagree
        | fieldStart => exact absurd (List.mem_singleton_self _) hw
        | field => exact absurd (List.mem_singleton_self _) hs
  | writeField =>
      exact acted_writeField hbound hsame (hreads .fieldStart (List.mem_singleton_self _))
  | writeValue =>
      exact acted_writeValue hbound hsame (hreads .field List.mem_cons_self)
        (hreads .mark (List.mem_cons_of_mem _ List.mem_cons_self))
  | httpVersion => exact acted_httpVersion hbound hsame (hreads .mark (List.mem_singleton_self _))
  | reasonPhrase =>
      have hmark := hreads .mark (List.mem_singleton_self _)
      refine ⟨{ g.2 with data := g.2.data.setReason h.mark },
        .callback hsame ?_ ⟨rfl, rfl, rfl⟩ rfl ⟨rfl, rfl, rfl⟩ ?_⟩
      · rw [HttpResponseParser.act, HttpResponseParser.onResponseReason, Spans.LEN hmark hbound,
          Spans.stdString hmark]
        rfl
      · simp only [Head.act]
        rw [← hresult]
        rfl
  | statusCode =>
      have hnumber := acted_number hsame (hreads .mark (List.mem_singleton_self _))
        (ends_number hnext hmem (by decide)) (show 10 ≤ 36 by decide)
      refine ⟨_, .callback hsame rfl ⟨rfl, rfl, rfl⟩ rfl ⟨rfl, rfl, rfl⟩ ?_⟩
      simp only [Head.act, HttpResponseParser.onResponseStatus, atoi, hnumber]
      rw [← hresult]
      rfl
  | writeContentLen =>
      exact acted_writeContentLen hsame (hreads .mark (List.mem_singleton_self _))
        (ends_number hnext hmem (by decide))
  | chunkSize =>
      exact acted_chunkSize hsame (hreads .mark (List.mem_singleton_self _))
        (ends_number hnext hmem (by decide))
  | writeConnectionClose =>
      refine ⟨_, .callback hsame rfl ⟨rfl, rfl, rfl⟩ rfl ⟨rfl, rfl, rfl⟩ ?_⟩
      simp only [Head.act]
      rw [← hresult]
      rfl
  | transChunked =>
      refine ⟨_, .callback hsame rfl ⟨rfl, rfl, rfl⟩ rfl ⟨rfl, rfl, rfl⟩ ?_⟩
      simp only [Head.act]
      rw [← hresult]
      rfl
  | done => exact ⟨g.2, .callback hsame rfl ⟨rfl, rfl, rfl⟩ rfl ⟨rfl, rfl, rfl⟩ hresult⟩

/-- **The parser on one buffer simulates the machine over tokens.** -/
theorem simulation (hbound : buffer.length < 2 ^ 64) :
    LiveSimulation plain access (HttpResponseParser.store buffer) Head.store (Same buffer len)
      (Agree buffer) where
  exec := by
    intro cs cs' c rest actions action g h hplain hmem hsame hreads
    obtain ⟨P', hacted⟩ := act_acted hbound (next_of_plain hplain) hmem hsame hreads
    refine ⟨(g.1, P'), h.act action, ?_, rfl, hacted.same, hacted.written, hacted.kept⟩
    show (HttpResponseParser.act buffer g.1 g.2 action).map _ = _
    rw [hacted.exec]
    rfl
  tick := tick_same

end Simulation

end Client
end Http
end Routn
