import Mathlib.Tactic
import Routn.Http.HttpParser

/-!
# The head of a request as its tokens

Here the machine runs over tokens in place of positions: a register holds the characters read
since the mark was set.  No buffer takes part, so that a head means the same wherever the reads
end.

`simulation` connects the parser to it: on one buffer both do the same, as long as the positions
that are live denote the tokens.  `live` says which these are; in the states without any, the
parser may be given the next buffer.
-/

namespace Routn
namespace Http

open Foundation Machine

/-- The tokens, and what the callbacks have made of them. -/
structure Head where
  mark : List UInt8 := []
  fieldStart : List UInt8 := []
  field : List UInt8 := []
  query : List UInt8 := []
  data : HttpRequest := {}
  error : Nat := 0
  /-- The method was compared with what follows the blank behind it. -/
  peeked : Bool := false
deriving DecidableEq, Repr

namespace Head

def setMethod (h : Head) (token : List UInt8) : Head :=
  if charsToHttpMethod token = .INVALID_METHOD then { h with error := 1000 }
  else { h with data := { h.data with method := charsToHttpMethod token } }

def setVersion (h : Head) (token : List UInt8) : Head :=
  if strncmpEq token (chars ['H', 'T', 'T', 'P', '/', '1', '.', '1']) token.length then
    { h with data := { h.data with version := 0x11 } }
  else if strncmpEq token (chars ['H', 'T', 'T', 'P', '/', '1', '.', '0']) token.length then
    { h with data := { h.data with version := 0x10 } }
  else { h with error := 1001 }

def setField (h : Head) (field value : List UInt8) : Head :=
  if field = [] then h else { h with data := h.data.setHeader field value }

def act : Action → Head → Head
  | .mark, h => { h with mark := [] }
  | .startField, h => { h with fieldStart := [] }
  | .writeField, h => { h with field := h.fieldStart }
  | .startValue, h => { h with mark := [] }
  | .writeValue, h => h.setField h.field h.mark
  | .requestMethod, h => { h.setMethod h.mark with peeked := h.peeked || peeks h.mark }
  | .requestUri, h => h
  | .fragment, h => { h with data := { h.data with fragment := h.mark } }
  | .startQuery, h => { h with query := [] }
  | .queryString, h => { h with data := { h.data with query := h.query } }
  | .httpVersion, h => h.setVersion h.mark
  | .requestPath, h => { h with data := { h.data with path := h.mark } }
  | .done, h => h
  | .xml, h => h
  | .json, h => h

/-- The tokens grow with each character. -/
def tick (c : UInt8) (h : Head) : Head :=
  { h with mark := h.mark ++ [c], fieldStart := h.fieldStart ++ [c], query := h.query ++ [c] }

def store : Store UInt8 Action Head where
  exec := fun action h => some (h.act action)
  tick := tick

theorem store_total : Control.Total store := fun action h => ⟨h.act action, rfl⟩

end Head

/-! ## Which registers are live -/

inductive Register
  | mark
  | fieldStart
  | field
  | query
deriving DecidableEq, Repr

/-- `field` is kept as a length from `fieldStart` on, and is lost when that is set. -/
def access : Access Action Register where
  reads
    | .writeField => [.fieldStart]
    | .writeValue => [.field, .mark]
    | .queryString => [.query]
    | .requestMethod | .fragment | .httpVersion | .requestPath => [.mark]
    | _ => []
  writes
    | .mark | .startValue => [.mark]
    | .startField => [.fieldStart]
    | .writeField => [.field]
    | .startQuery => [.query]
    | _ => []
  spoils
    | .startField => [.field]
    | _ => []

/-- The states of the machine in which no token is open. -/
def betweenTokens : List Nat := [0, 1, 3, 4, 13, 17, 20, 29, 174, 196, 197, 199, 200, 201, 349]

def live (cs : Nat) : List Register :=
  if cs ∈ betweenTokens then []
  else if cs = 14 ∨ cs = 18 ∨ cs = 348 then [.fieldStart]
  else if cs = 15 then [.field]
  else if cs = 16 then [.field, .mark]
  else if cs = 30 ∨ cs = 31 ∨ cs = 32 then [.query]
  else [.mark]

def rowFits (row : Nat × Case) : Bool :=
  row.2.edges.all fun edge =>
    access.fits (live row.1) (target edge.2).1 (live (target edge.2).2)

theorem cases_fit : cases.all rowFits = true := by decide +kernel

/-- **`live` covers what each transition needs.** -/
theorem live_stable (relaxed : Bool) : access.Stable (control relaxed) live := by
  intro cs c actions cs' hnext
  obtain ⟨row, edge, hrow, hedge, htarget, -⟩ := edge_of_next hnext
  have hfits := List.all_eq_true.mp (List.all_eq_true.mp cases_fit _ hrow) _ hedge
  rw [htarget] at hfits
  exact hfits

/-- The method is taken on a blank. -/
def rowBlank (row : Nat × Case) : Bool :=
  row.2.edges.all fun edge =>
    !(target edge.2).1.contains .requestMethod ||
      (row.2.computesWidec == false && edge.1 == one 32)

theorem cases_blank : cases.all rowBlank = true := by decide +kernel

theorem blank_of_requestMethod {relaxed : Bool} {cs cs' : Nat} {c : UInt8} {actions : List Action}
    (hnext : next relaxed cs c = some (actions, cs')) (hmem : Action.requestMethod ∈ actions) :
    c = 32 := by
  obtain ⟨row, edge, hrow, hedge, htarget, hcovers⟩ := edge_of_next hnext
  have hblank := List.all_eq_true.mp (List.all_eq_true.mp cases_blank _ hrow) _ hedge
  rw [htarget, List.contains_iff_mem.mpr hmem] at hblank
  obtain ⟨hnarrow, hedge⟩ := Bool.and_eq_true_iff.mp hblank
  rw [covers, beq_iff_eq.mp hedge] at hcovers
  have hkey : row.key relaxed c = 32 := by
    simp only [one, List.any_cons, List.any_nil, Bool.or_false, decide_eq_true_eq] at hcovers
    omega
  rw [Case.key, beq_iff_eq.mp hnarrow, if_neg Bool.false_ne_true, signed] at hkey
  have hlt := c.toNat_lt
  have hnat : c.toNat = 32 := by
    split at hkey <;> omega
  exact UInt8.toNat_inj.mp hnat

/-! ## Positions and tokens -/

/-- The characters of the buffer from `start` to `stop` are `token`. -/
structure Spans (buffer : List UInt8) (start stop : Nat) (token : List UInt8) : Prop where
  le : start ≤ stop
  inside : stop ≤ buffer.length
  eq : (buffer.take stop).drop start = token

section Spans

variable {buffer : List UInt8} {start stop : Nat} {token : List UInt8}

theorem Spans.nil (hinside : stop ≤ buffer.length) : Spans buffer stop stop [] :=
  ⟨Nat.le_refl stop, hinside, List.drop_of_length_le (List.length_take_le _ _)⟩

theorem Spans.length (h : Spans buffer start stop token) : token.length = stop - start := by
  rw [← h.eq, List.length_drop, List.length_take, Nat.min_eq_left h.inside]

/-- What a pointer to the start of the token shows. -/
theorem Spans.drop (h : Spans buffer start stop token) :
    buffer.drop start = token ++ buffer.drop stop := by
  have hstart : start ≤ (buffer.take stop).length := by
    rw [List.length_take, Nat.min_eq_left h.inside]
    exact h.le
  rw [← h.eq, ← List.drop_append_of_le_length hstart, List.take_append_drop]

theorem Spans.stdString (h : Spans buffer start stop token) :
    stdString (buffer.drop start) (stop - start) = some token := by
  have hlength : stop - start ≤ (buffer.drop start).length := by
    rw [List.length_drop]
    exact Nat.sub_le_sub_right h.inside start
  rw [Http.stdString, if_pos hlength, h.drop, ← h.length, List.take_left]

theorem Spans.LEN (h : Spans buffer start stop token) (hbound : buffer.length < 2 ^ 64) :
    LEN start stop = stop - start := by
  have hle := h.le
  have hinside := h.inside
  rw [Http.LEN]
  omega

theorem Spans.tick {c : UInt8} {rest : List UInt8} (h : Spans buffer start stop token)
    (hahead : buffer.drop stop = c :: rest) : Spans buffer start (stop + 1) (token ++ [c]) := by
  have hlt : stop < buffer.length := by
    by_contra hge
    rw [List.drop_of_length_le (Nat.le_of_not_lt hge)] at hahead
    cases hahead
  have hget : buffer[stop] = c := by
    rw [List.drop_eq_getElem_cons hlt] at hahead
    exact (List.cons.inj hahead).1
  have hstart : start ≤ (buffer.take stop).length := by
    rw [List.length_take, Nat.min_eq_left h.inside]
    exact h.le
  refine ⟨h.le.trans (Nat.le_succ stop), hlt, ?_⟩
  rw [List.take_succ_eq_append_getElem hlt, List.drop_append_of_le_length hstart, h.eq, hget]

end Spans

theorem strncmpEq_append (token rest name : List UInt8) :
    strncmpEq (token ++ rest) name token.length = strncmpEq token name token.length := by
  induction token generalizing name with
  | nil => rfl
  | cons c token ih =>
      simp only [List.cons_append, List.length_cons, strncmpEq, List.headD_cons, List.tail_cons]
      rw [ih]

/-! ## The simulation -/

section Simulation

variable {relaxed : Bool} {buffer : List UInt8}

/-- What holds of the parser and the head between two characters: `rest` are those left of the first
`len` of the buffer. -/
structure Same (relaxed : Bool) (buffer : List UInt8) (len : Nat) (rest : List UInt8)
    (g : Nat × HttpRequestParser) (h : Head) : Prop where
  ahead : (buffer.take len).drop g.1 = rest
  inside : g.1 ≤ len
  fits : len ≤ buffer.length
  relaxed : g.2.parser.uriRelaxed = relaxed
  request : h.peeked = false → g.2.data = h.data ∧ g.2.error = h.error

/-- The positions of a register denote its token. -/
def Agree (buffer : List UInt8) (r : Register) (g : Nat × HttpRequestParser) (h : Head) : Prop :=
  match r with
  | .mark => Spans buffer g.2.parser.mark g.1 h.mark
  | .fieldStart => Spans buffer g.2.parser.fieldStart g.1 h.fieldStart
  | .field =>
      Spans buffer g.2.parser.fieldStart (g.2.parser.fieldStart + g.2.parser.fieldLen) h.field
  | .query => Spans buffer g.2.parser.queryStart g.1 h.query

variable {len : Nat}

theorem Same.drop {rest : List UInt8} {g : Nat × HttpRequestParser} {h : Head}
    (hsame : Same relaxed buffer len rest g h) :
    buffer.drop g.1 = rest ++ buffer.drop len := by
  have hlength : (buffer.take len).length = len := by
    rw [List.length_take, Nat.min_eq_left hsame.fits]
  have hinside : g.1 ≤ (buffer.take len).length := by
    rw [hlength]
    exact hsame.inside
  rw [← hsame.ahead, ← List.drop_append_of_le_length hinside, List.take_append_drop]

theorem Same.lt {c : UInt8} {rest : List UInt8} {g : Nat × HttpRequestParser} {h : Head}
    (hsame : Same relaxed buffer len (c :: rest) g h) : g.1 < len := by
  have hlength := congrArg List.length hsame.ahead
  have hfits := hsame.fits
  simp only [List.length_drop, List.length_take, List.length_cons] at hlength
  omega

/-- The position is what is not left. -/
theorem Same.length {rest : List UInt8} {g : Nat × HttpRequestParser} {h : Head}
    (hsame : Same relaxed buffer len rest g h) : g.1 + rest.length = len := by
  have hlength := congrArg List.length hsame.ahead
  have hfits := hsame.fits
  have hinside := hsame.inside
  simp only [List.length_drop, List.length_take] at hlength
  omega

/-- Each character keeps what holds. -/
theorem tick_same {c : UInt8} {rest : List UInt8} {g : Nat × HttpRequestParser} {h : Head}
    (hsame : Same relaxed buffer len (c :: rest) g h) :
    Same relaxed buffer len rest ((HttpRequestParser.store buffer).tick c g)
        (Head.store.tick c h) ∧
      ∀ r, Agree buffer r g h →
        Agree buffer r ((HttpRequestParser.store buffer).tick c g) (Head.store.tick c h) := by
  have hdrop := hsame.drop
  refine ⟨⟨?_, hsame.lt, hsame.fits, hsame.relaxed, hsame.request⟩, ?_⟩
  · show (buffer.take len).drop (g.1 + 1) = rest
    rw [← List.drop_drop, hsame.ahead, List.drop_one, List.tail_cons]
  · intro r hagree
    cases r with
    | mark => exact Spans.tick hagree hdrop
    | fieldStart => exact Spans.tick hagree hdrop
    | field => exact hagree
    | query => exact Spans.tick hagree hdrop

/-- What the simulation asks of an action that leaves the parser at `P'`. -/
structure Acted (relaxed : Bool) (buffer : List UInt8) (len : Nat) (rest : List UInt8)
    (action : Action) (g : Nat × HttpRequestParser) (h : Head) (P' : HttpRequestParser) : Prop where
  exec : HttpRequestParser.act buffer g.1 g.2 action = some P'
  same : Same relaxed buffer len rest (g.1, P') (h.act action)
  written : ∀ r ∈ access.writes action, Agree buffer r (g.1, P') (h.act action)
  kept : ∀ r, r ∉ access.writes action → r ∉ access.spoils action → Agree buffer r g h →
    Agree buffer r (g.1, P') (h.act action)

/-- A callback leaves the registers alone. -/
theorem Acted.callback {rest : List UInt8} {action : Action} {g : Nat × HttpRequestParser}
    {h : Head} {P' : HttpRequestParser} (hsame : Same relaxed buffer len rest g h)
    (hexec : HttpRequestParser.act buffer g.1 g.2 action = some P')
    (hparser : P'.parser = g.2.parser) (hwrites : access.writes action = [])
    (htokens : (h.act action).mark = h.mark ∧ (h.act action).fieldStart = h.fieldStart ∧
      (h.act action).field = h.field ∧ (h.act action).query = h.query)
    (hrequest : (h.act action).peeked = false →
      P'.data = (h.act action).data ∧ P'.error = (h.act action).error) :
    Acted relaxed buffer len rest action g h P' := by
  obtain ⟨hmark, hfieldStart, hfield, hquery⟩ := htokens
  refine ⟨hexec, ⟨hsame.ahead, hsame.inside, hsame.fits, ?_, hrequest⟩, ?_, ?_⟩
  · show P'.parser.uriRelaxed = relaxed
    rw [hparser]
    exact hsame.relaxed
  · intro r hr
    rw [hwrites] at hr
    cases hr
  · intro r _ _ hagree
    cases r <;> simp only [Agree, hparser, hmark, hfieldStart, hfield, hquery] <;> exact hagree

/-- An action that sets a register leaves the request alone. -/
theorem Acted.register {rest : List UInt8} {action : Action} {g : Nat × HttpRequestParser}
    {h : Head} {P' : HttpRequestParser} (hsame : Same relaxed buffer len rest g h)
    (hexec : HttpRequestParser.act buffer g.1 g.2 action = some P')
    (hrelaxed : P'.parser.uriRelaxed = g.2.parser.uriRelaxed) (hdata : P'.data = g.2.data)
    (herror : P'.error = g.2.error)
    (hhead : (h.act action).data = h.data ∧ (h.act action).error = h.error ∧
      (h.act action).peeked = h.peeked)
    (hwritten : ∀ r ∈ access.writes action, Agree buffer r (g.1, P') (h.act action))
    (hkept : ∀ r, r ∉ access.writes action → r ∉ access.spoils action →
      Agree buffer r g h → Agree buffer r (g.1, P') (h.act action)) :
    Acted relaxed buffer len rest action g h P' := by
  obtain ⟨hheadData, hheadError, hpeeked⟩ := hhead
  refine ⟨hexec, ⟨hsame.ahead, hsame.inside, hsame.fits, hrelaxed.trans hsame.relaxed, ?_⟩,
    hwritten, hkept⟩
  rw [hpeeked, hheadData, hheadError]
  show h.peeked = false → P'.data = h.data ∧ P'.error = h.error
  rw [hdata, herror]
  exact hsame.request

variable {rest : List UInt8} {g : Nat × HttpRequestParser} {h : Head}

/-- The callback of the method. -/
theorem acted_requestMethod (hsame : Same relaxed buffer len (32 :: rest) g h)
    (hmark : Agree buffer .mark g h) :
    ∃ P', Acted relaxed buffer len (32 :: rest) .requestMethod g h P' := by
  refine ⟨_, .callback hsame rfl ?_ rfl ?_ ?_⟩
  · rw [HttpRequestParser.onRequestMethod]
    split <;> rfl
  · simp only [Head.act, Head.setMethod]
    split <;> exact ⟨rfl, rfl, rfl, rfl⟩
  · intro hpeeked
    obtain ⟨hbefore, hpeeks⟩ := Bool.or_eq_false_iff.mp hpeeked
    obtain ⟨hdata, herror⟩ := hsame.request hbefore
    rw [Spans.drop hmark, hsame.drop, List.cons_append, HttpRequestParser.onRequestMethod,
      charsToHttpMethod_token hpeeks]
    simp only [Head.act, Head.setMethod]
    split
    · exact ⟨hdata, rfl⟩
    · exact ⟨by rw [hdata], herror⟩

/-- The callback of the version. -/
theorem acted_httpVersion (hbound : buffer.length < 2 ^ 64)
    (hsame : Same relaxed buffer len rest g h) (hmark : Agree buffer .mark g h) :
    ∃ P', Acted relaxed buffer len rest .httpVersion g h P' := by
  refine ⟨_, .callback hsame rfl ?_ rfl ?_ ?_⟩
  · rw [HttpRequestParser.onRequestVersion]
    split
    · rfl
    · split <;> rfl
  · simp only [Head.act, Head.setVersion]
    split
    · exact ⟨rfl, rfl, rfl, rfl⟩
    · split <;> exact ⟨rfl, rfl, rfl, rfl⟩
  · intro hpeeked
    have hbefore : h.peeked = false := by
      rw [← hpeeked]
      simp only [Head.act, Head.setVersion]
      split
      · rfl
      · split <;> rfl
    obtain ⟨hdata, herror⟩ := hsame.request hbefore
    have hlen : LEN g.2.parser.mark g.1 = h.mark.length := by
      rw [Spans.LEN hmark hbound, Spans.length hmark]
    rw [HttpRequestParser.onRequestVersion, hlen, Spans.drop hmark, strncmpEq_append,
      strncmpEq_append]
    simp only [Head.act, Head.setVersion]
    split
    · exact ⟨by rw [hdata], herror⟩
    · split
      · exact ⟨by rw [hdata], herror⟩
      · exact ⟨hdata, rfl⟩

/-- The callback of a header. -/
theorem acted_writeValue (hbound : buffer.length < 2 ^ 64)
    (hsame : Same relaxed buffer len rest g h) (hfield : Agree buffer .field g h)
    (hmark : Agree buffer .mark g h) : ∃ P', Acted relaxed buffer len rest .writeValue g h P' := by
  have hflen : h.field.length = g.2.parser.fieldLen := by
    rw [Spans.length hfield]
    omega
  rcases Nat.eq_zero_or_pos g.2.parser.fieldLen with hzero | hpos
  · have hempty : h.field = [] := List.length_eq_zero_iff.mp (hflen.trans hzero)
    have hact : h.act .writeValue = h := if_pos hempty
    refine ⟨g.2, .callback hsame (if_pos hzero) rfl rfl ?_ ?_⟩
    · rw [hact]
      exact ⟨rfl, rfl, rfl, rfl⟩
    · rw [hact]
      exact hsame.request
  · have hsome : h.field ≠ [] := List.ne_nil_of_length_pos (hflen ▸ hpos)
    have hact : h.act .writeValue =
        { h with data := h.data.setHeader h.field h.mark } := if_neg hsome
    have hkey : stdString (buffer.drop g.2.parser.fieldStart) g.2.parser.fieldLen =
        some h.field := by
      have hspan := Spans.stdString hfield
      rwa [Nat.add_sub_cancel_left] at hspan
    have hval : stdString (buffer.drop g.2.parser.mark) (LEN g.2.parser.mark g.1) =
        some h.mark := by
      rw [Spans.LEN hmark hbound]
      exact Spans.stdString hmark
    refine ⟨{ g.2 with data := g.2.data.setHeader h.field h.mark },
      .callback hsame ?_ rfl rfl ?_ ?_⟩
    · rw [HttpRequestParser.act, HttpRequestParser.onRequestHttpField, if_neg hpos.ne', hkey, hval]
      rfl
    · rw [hact]
      exact ⟨rfl, rfl, rfl, rfl⟩
    · rw [hact]
      intro hpeeked
      obtain ⟨hdata, herror⟩ := hsame.request hpeeked
      exact ⟨by rw [hdata], herror⟩

/-- The callbacks that store a string. -/
theorem acted_string {action : Action} {start : Nat} {token : List UInt8}
    {f : HttpRequest → List UInt8 → HttpRequest} (hbound : buffer.length < 2 ^ 64)
    (hsame : Same relaxed buffer len rest g h) (htoken : Spans buffer start g.1 token)
    (hexec : HttpRequestParser.act buffer g.1 g.2 action =
      (stdString (buffer.drop start) (LEN start g.1)).map
        fun v => { g.2 with data := f g.2.data v })
    (hact : h.act action = { h with data := f h.data token })
    (hwrites : access.writes action = []) :
    ∃ P', Acted relaxed buffer len rest action g h P' := by
  refine ⟨{ g.2 with data := f g.2.data token }, .callback hsame ?_ rfl hwrites ?_ ?_⟩
  · rw [hexec, htoken.LEN hbound, htoken.stdString]
    rfl
  · rw [hact]
    exact ⟨rfl, rfl, rfl, rfl⟩
  · rw [hact]
    intro hpeeked
    obtain ⟨hdata, herror⟩ := hsame.request hpeeked
    exact ⟨by rw [hdata], herror⟩

/-- An action without effect. -/
theorem acted_skip {action : Action} (hsame : Same relaxed buffer len rest g h)
    (hexec : HttpRequestParser.act buffer g.1 g.2 action = some g.2) (hact : h.act action = h)
    (hwrites : access.writes action = []) :
    ∃ P', Acted relaxed buffer len rest action g h P' := by
  refine ⟨g.2, .callback hsame hexec rfl hwrites ?_ ?_⟩
  · rw [hact]
    exact ⟨rfl, rfl, rfl, rfl⟩
  · rw [hact]
    exact hsame.request

/-- The name of a header is kept as its length. -/
theorem acted_writeField (hbound : buffer.length < 2 ^ 64)
    (hsame : Same relaxed buffer len rest g h) (hspan : Agree buffer .fieldStart g h) :
    ∃ P', Acted relaxed buffer len rest .writeField g h P' := by
  obtain ⟨len, hlen⟩ : ∃ len, len = LEN g.2.parser.fieldStart g.1 := ⟨_, rfl⟩
  have hend : g.2.parser.fieldStart + len = g.1 := by
    rw [hlen, Spans.LEN hspan hbound]
    exact Nat.add_sub_cancel' (Spans.le hspan)
  have hexec : HttpRequestParser.act buffer g.1 g.2 .writeField =
      some { g.2 with parser := { g.2.parser with fieldLen := len } } := by
    rw [hlen]
    rfl
  refine ⟨_, .register hsame hexec rfl rfl rfl ⟨rfl, rfl, rfl⟩ ?_ ?_⟩
  · rintro r (_ | ⟨_, ⟨⟩⟩)
    show Spans buffer _ (g.2.parser.fieldStart + len) _
    rw [hend]
    exact hspan
  · intro r hw _ hagree
    cases r with
    | mark => exact hagree
    | fieldStart => exact hagree
    | field => exact absurd (List.mem_singleton_self _) hw
    | query => exact hagree

/-- **Each action does the same to the positions as to the tokens.** -/
theorem act_acted (hbound : buffer.length < 2 ^ 64) {cs cs' : Nat} {c : UInt8}
    {actions : List Action} {action : Action} (hnext : next relaxed cs c = some (actions, cs'))
    (hmem : action ∈ actions) (hsame : Same relaxed buffer len (c :: rest) g h)
    (hreads : ∀ r ∈ access.reads action, Agree buffer r g h) :
    ∃ P', Acted relaxed buffer len (c :: rest) action g h P' := by
  have hinside : g.1 ≤ buffer.length := hsame.inside.trans hsame.fits
  cases action with
  | mark =>
      refine ⟨_, .register hsame rfl rfl rfl rfl ⟨rfl, rfl, rfl⟩ ?_ ?_⟩
      · rintro r (_ | ⟨_, ⟨⟩⟩)
        exact Spans.nil hinside
      · intro r hw _ hagree
        cases r with
        | mark => exact absurd (List.mem_singleton_self _) hw
        | fieldStart => exact hagree
        | field => exact hagree
        | query => exact hagree
  | startField =>
      refine ⟨_, .register hsame rfl rfl rfl rfl ⟨rfl, rfl, rfl⟩ ?_ ?_⟩
      · rintro r (_ | ⟨_, ⟨⟩⟩)
        exact Spans.nil hinside
      · intro r hw hs hagree
        cases r with
        | mark => exact hagree
        | fieldStart => exact absurd (List.mem_singleton_self _) hw
        | field => exact absurd (List.mem_singleton_self _) hs
        | query => exact hagree
  | writeField =>
      exact acted_writeField hbound hsame (hreads .fieldStart (List.mem_singleton_self _))
  | startValue =>
      refine ⟨_, .register hsame rfl rfl rfl rfl ⟨rfl, rfl, rfl⟩ ?_ ?_⟩
      · rintro r (_ | ⟨_, ⟨⟩⟩)
        exact Spans.nil hinside
      · intro r hw _ hagree
        cases r with
        | mark => exact absurd (List.mem_singleton_self _) hw
        | fieldStart => exact hagree
        | field => exact hagree
        | query => exact hagree
  | startQuery =>
      refine ⟨_, .register hsame rfl rfl rfl rfl ⟨rfl, rfl, rfl⟩ ?_ ?_⟩
      · rintro r (_ | ⟨_, ⟨⟩⟩)
        exact Spans.nil hinside
      · intro r hw _ hagree
        cases r with
        | mark => exact hagree
        | fieldStart => exact hagree
        | field => exact hagree
        | query => exact absurd (List.mem_singleton_self _) hw
  | writeValue =>
      exact acted_writeValue hbound hsame (hreads .field List.mem_cons_self)
        (hreads .mark (List.mem_cons_of_mem _ List.mem_cons_self))
  | requestMethod =>
      obtain rfl := blank_of_requestMethod hnext hmem
      exact acted_requestMethod hsame (hreads .mark (List.mem_singleton_self _))
  | httpVersion =>
      exact acted_httpVersion hbound hsame (hreads .mark (List.mem_singleton_self _))
  | fragment =>
      exact acted_string hbound hsame (f := fun data v => { data with fragment := v })
        (hreads .mark (List.mem_singleton_self _)) rfl rfl rfl
  | queryString =>
      exact acted_string hbound hsame (f := fun data v => { data with query := v })
        (hreads .query (List.mem_singleton_self _)) rfl rfl rfl
  | requestPath =>
      exact acted_string hbound hsame (f := fun data v => { data with path := v })
        (hreads .mark (List.mem_singleton_self _)) rfl rfl rfl
  | requestUri => exact acted_skip hsame rfl rfl rfl
  | done => exact acted_skip hsame rfl rfl rfl
  | xml => exact acted_skip hsame rfl rfl rfl
  | json => exact acted_skip hsame rfl rfl rfl

/-- **The parser on one buffer simulates the machine over tokens.** -/
theorem simulation (hbound : buffer.length < 2 ^ 64) :
    LiveSimulation (control relaxed) access (HttpRequestParser.store buffer) Head.store
      (Same relaxed buffer len) (Agree buffer) where
  exec := by
    intro cs cs' c rest actions action g h hnext hmem hsame hreads
    obtain ⟨P', hacted⟩ := act_acted hbound hnext hmem hsame hreads
    refine ⟨(g.1, P'), h.act action, ?_, rfl, hacted.same, hacted.written, hacted.kept⟩
    show (HttpRequestParser.act buffer g.1 g.2 action).map _ = _
    rw [hacted.exec]
    rfl
  tick := tick_same

end Simulation

end Http
end Routn
