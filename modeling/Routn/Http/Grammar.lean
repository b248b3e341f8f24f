import Mathlib.Tactic
import Routn.Foundation.Ranges
import Routn.Http.MethodToken

/-!
# What the machine `http_parser` makes of legal tokens

The sets of characters of `http11_parser.rl`, and the states that the machine goes through on a
token that they allow.  `onChars` compares a set with the ranges of the generated table, so that no
proof looks at the table again.
-/

namespace Routn
namespace Http

open Foundation Machine

/-! ## The grammar -/

def isdigit (c : UInt8) : Bool := 48 ≤ c && c ≤ 57

def isalpha (c : UInt8) : Bool := (65 ≤ c && c ≤ 90) || (97 ≤ c && c ≤ 122)

def isxdigit (c : UInt8) : Bool := isdigit c || (65 ≤ c && c ≤ 70) || (97 ≤ c && c ≤ 102)

/-- `( "{" | "}" | "^" ) when { parser->uri_relaxed }`. -/
def moreDelims (relaxed : Bool) (c : UInt8) : Bool := relaxed && [123, 125, 94].contains c

def subDelims (relaxed : Bool) (c : UInt8) : Bool :=
  [33, 36, 38, 39, 40, 41, 42, 43, 44, 59, 61].contains c || moreDelims relaxed c

def unreserved (c : UInt8) : Bool :=
  isalpha c || isdigit c || (chars ['-', '.', '_', '~']).contains c

/-- `pchar`, but for `pct_encoded`. -/
def pchar (relaxed : Bool) (c : UInt8) : Bool :=
  unreserved c || subDelims relaxed c || c == 58 || c == 64

/-- `( ok | pct_encoded )*`. -/
inductive Escaped (ok : UInt8 → Bool) : List UInt8 → Prop
  | nil : Escaped ok []
  | char {c : UInt8} {w : List UInt8} (hc : ok c = true) (h : Escaped ok w) : Escaped ok (c :: w)
  | pct {a b : UInt8} {w : List UInt8} (ha : isxdigit a = true) (hb : isxdigit b = true)
      (h : Escaped ok w) : Escaped ok (37 :: a :: b :: w)

def pathChar (relaxed : Bool) (c : UInt8) : Bool := pchar relaxed c || c == 47

def queryChar (relaxed : Bool) (c : UInt8) : Bool := pchar relaxed c || c == 47 || c == 63

/-- `"/" ( segment_nz ( "/" segment )* )?`. -/
def PathAbsolute (relaxed : Bool) (path : List UInt8) : Prop :=
  ∃ w, path = 47 :: w ∧ w.head? ≠ some 47 ∧ Escaped (pathChar relaxed) w

/-- `query`, and `fragment` too. -/
def Query (relaxed : Bool) (query : List UInt8) : Prop := Escaped (queryChar relaxed) query

/-- `HTTP_separator`. -/
def separator (c : UInt8) : Bool :=
  [40, 41, 60, 62, 64, 44, 59, 58, 92, 34, 47, 91, 93, 63, 61, 123, 125, 32, 9].contains c

/-- `HTTP_CTL` as the generated code has it: `0 - 31` is 0 without 31 there. -/
def httpCtl (c : UInt8) : Bool := c == 0 || c == 127

/-- `token`, one character of it. -/
def tokenChar (c : UInt8) : Bool := decide (c < 128) && !httpCtl c && !separator c

/-- `field_name`.  A line end in front is the end of the head, and not the beginning of a name. -/
structure FieldName (name : List UInt8) : Prop where
  nonempty : name ≠ []
  token : ∀ c ∈ name, tokenChar c = true
  start : ¬ [10] <+: name ∧ ¬ [13, 10] <+: name

/-- `content`, one character of it, where no line ends. -/
def contentChar (c : UInt8) : Bool := !httpCtl c && c != 10 && c != 13

/-- `field_value` behind `lws*`. -/
structure FieldValue (value : List UInt8) : Prop where
  nonempty : value ≠ []
  content : ∀ c ∈ value, contentChar c = true
  start : value.head? ≠ some 9 ∧ value.head? ≠ some 32

def crlf : List UInt8 := chars ['\r', '\n']

/-- A header as `HttpRequest::dump` writes it. -/
def headerLine (entry : List UInt8 × List UInt8) : List UInt8 :=
  entry.1 ++ chars [':'] ++ entry.2 ++ crlf

/-- The headers, set one after the other. -/
def HttpRequest.setHeaders (r : HttpRequest) (headers : List (List UInt8 × List UInt8)) :
    HttpRequest :=
  headers.foldl (fun r entry => r.setHeader entry.1 entry.2) r

namespace HttpSession

/-! ## The table -/

/-- On each character of the set the state `cs` does the same. -/
def onChars (relaxed : Bool) (ok : UInt8 → Bool) (cs : Nat) (actions : List Action) (cs' : Nat) :
    Bool :=
  match cases.lookup cs with
  | none => false
  | some row => (List.range 256).all fun n =>
      !ok (UInt8.ofNat n) ||
        (row.goto relaxed (UInt8.ofNat n)).map target == some (actions, cs')

section Table

variable {relaxed : Bool} {ok : UInt8 → Bool} {cs cs' : Nat} {actions : List Action} {c : UInt8}

theorem next_of_onChars (h : onChars relaxed ok cs actions cs' = true) (hc : ok c = true) :
    next relaxed cs c = some (actions, cs') := by
  rw [onChars] at h
  split at h
  · cases h
  · next row hrow =>
      have hall := forall_byte
        (p := fun c => !ok c || (row.goto relaxed c).map target == some (actions, cs')) h c
      rw [hc] at hall
      rw [next, hrow]
      exact beq_iff_eq.mp hall

end Table

/-! ## Runs -/

section Runs

variable {relaxed : Bool} {cs cs' : Nat} {c : UInt8} {w : List UInt8} {actions : List Action}

theorem ticks_eq (bytes : List UInt8) (h : Head) :
    ticks bytes h = { h with
      mark := h.mark ++ bytes
      fieldStart := h.fieldStart ++ bytes
      query := h.query ++ bytes } := by
  induction bytes generalizing h with
  | nil => simp [ticks]
  | cons c bytes ih =>
      rw [ticks, List.foldl_cons]
      refine (ih (h.tick c)).trans ?_
      simp [Head.tick]

theorem run_char (hnext : next relaxed cs c = some (actions, cs')) (hgo : ¬ halted cs')
    (more : List UInt8) (h : Head) :
    (control relaxed).run Head.store (c :: more) cs h =
      (control relaxed).run Head.store more cs'
        ((actions.foldl (fun h action => h.act action) h).tick c) := by
  exact Control.run_char (fun action h => rfl) hnext (halts_eq_false hgo) more h

theorem run_word (hpass : (control relaxed).pass cs w = some cs') (more : List UInt8) (h : Head) :
    (control relaxed).run Head.store (w ++ more) cs h =
      (control relaxed).run Head.store more cs' (ticks w h) :=
  Control.run_pass hpass Head.store more h

theorem pass_char (hnext : next relaxed cs c = some ([], cs')) (hgo : ¬ halted cs') :
    (control relaxed).pass cs (c :: w) = (control relaxed).pass cs' w :=
  Control.pass_step hnext (halts_eq_false hgo)

theorem pass_chars {ok : UInt8 → Bool} (htable : onChars relaxed ok cs [] cs = true)
    (hgo : ¬ halted cs) (hw : ∀ c ∈ w, ok c = true) : (control relaxed).pass cs w = some cs :=
  Control.pass_loop (halts_eq_false hgo) fun c hc => next_of_onChars htable (hw c hc)

end Runs

/-- Reading `w` the machine comes from `cs` to `cs'`, and the callbacks make `f` of the request. -/
def Scans (relaxed : Bool) (cs : Nat) (w : List UInt8) (cs' : Nat) (f : HttpRequest → HttpRequest) :
    Prop :=
  ∀ h : Head, ∃ h' : Head, h'.data = f h.data ∧ h'.error = h.error ∧ ∀ more,
    (control relaxed).run Head.store (w ++ more) cs h =
      (control relaxed).run Head.store more cs' h'

theorem Scans.trans {relaxed : Bool} {cs₁ cs₂ cs₃ : Nat} {u v : List UInt8}
    {f g : HttpRequest → HttpRequest} (hu : Scans relaxed cs₁ u cs₂ f)
    (hv : Scans relaxed cs₂ v cs₃ g) : Scans relaxed cs₁ (u ++ v) cs₃ fun r => g (f r) := by
  intro h
  obtain ⟨h₁, hdata₁, herror₁, hrun₁⟩ := hu h
  obtain ⟨h₂, hdata₂, herror₂, hrun₂⟩ := hv h₁
  refine ⟨h₂, by rw [hdata₂, hdata₁], herror₂.trans herror₁, fun more => ?_⟩
  rw [List.append_assoc, hrun₁, hrun₂]

theorem Scans.of_run {relaxed : Bool} {cs cs' : Nat} {w : List UInt8}
    {f : HttpRequest → HttpRequest} (F : Head → Head)
    (hrun : ∀ more h, (control relaxed).run Head.store (w ++ more) cs h =
      (control relaxed).run Head.store more cs' (F h))
    (hrequest : ∀ h, (F h).data = f h.data ∧ (F h).error = h.error) : Scans relaxed cs w cs' f :=
  fun h => ⟨F h, (hrequest h).1, (hrequest h).2, fun more => hrun more h⟩

theorem Scans.nil (relaxed : Bool) (cs : Nat) : Scans relaxed cs [] cs id :=
  fun h => ⟨h, rfl, rfl, fun _ => rfl⟩

/-! ## Escaped text -/

/-- The states of a loop over escaped text: between characters, and behind a percent sign. -/
structure EscapedStates (relaxed : Bool) (ok : UInt8 → Bool) (cs first second : Nat) : Prop where
  char : onChars relaxed ok cs [] cs = true
  percent : next relaxed cs 37 = some ([], first)
  digit₁ : onChars relaxed isxdigit first [] second = true
  digit₂ : onChars relaxed isxdigit second [] cs = true
  go : ¬ halted cs ∧ ¬ halted first ∧ ¬ halted second

instance {relaxed : Bool} {ok : UInt8 → Bool} {cs first second : Nat} :
    Decidable (EscapedStates relaxed ok cs first second) :=
  decidable_of_iff (onChars relaxed ok cs [] cs = true ∧ next relaxed cs 37 = some ([], first) ∧
      onChars relaxed isxdigit first [] second = true ∧
      onChars relaxed isxdigit second [] cs = true ∧
      ¬ halted cs ∧ ¬ halted first ∧ ¬ halted second)
    ⟨fun ⟨hchar, hpercent, hdigit₁, hdigit₂, hgo⟩ => ⟨hchar, hpercent, hdigit₁, hdigit₂, hgo⟩,
      fun h => ⟨h.char, h.percent, h.digit₁, h.digit₂, h.go⟩⟩

/-- What the rows of the table say that a legal head goes through. -/
structure LegalRows (relaxed : Bool) : Prop where
  pathStates : EscapedStates relaxed (pathChar relaxed) 26 27 28
  queryStates : EscapedStates relaxed (queryChar relaxed) 30 31 32
  fragmentStates : EscapedStates relaxed (queryChar relaxed) 21 22 23
  path :
    next relaxed 3 47 = some ([.mark], 33) ∧
      onChars relaxed (fun c => pathChar relaxed c && c != 47) 33 [] 26 = true ∧
      next relaxed 33 37 = some ([], 27)
  query :
    onChars relaxed (queryChar relaxed) 29 [.startQuery] 30 = true ∧
      next relaxed 29 37 = some ([.startQuery], 31)
  fragment :
    onChars relaxed (queryChar relaxed) 20 [.mark] 21 = true ∧
      next relaxed 20 37 = some ([.mark], 22) ∧ next relaxed 21 32 = some ([.fragment], 4)
  target :
    (next relaxed 33 32 = some ([.requestPath, .requestUri], 4) ∧
      next relaxed 26 32 = some ([.requestPath, .requestUri], 4)) ∧
    (next relaxed 33 35 = some ([.requestPath, .requestUri], 20) ∧
      next relaxed 26 35 = some ([.requestPath, .requestUri], 20)) ∧
    (next relaxed 33 63 = some ([.requestPath], 29) ∧
      next relaxed 26 63 = some ([.requestPath], 29)) ∧
    next relaxed 30 32 = some ([.queryString, .requestUri], 4) ∧
    next relaxed 30 35 = some ([.queryString, .requestUri], 20)
  version :
    next relaxed 4 72 = some ([.mark], 5) ∧
      (control relaxed).pass 5 (chars ['T', 'T', 'P', '/', '1', '.', '0']) = some 12 ∧
      (control relaxed).pass 5 (chars ['T', 'T', 'P', '/', '1', '.', '1']) = some 12 ∧
      next relaxed 12 13 = some ([.httpVersion], 17) ∧ next relaxed 17 10 = some ([], 13)
  name :
    onChars relaxed (fun c => tokenChar c && c != 10 && c != 13) 13 [.startField] 14 = true ∧
      next relaxed 13 13 = some ([.startField], 18) ∧
      onChars relaxed (fun c => tokenChar c && c != 10) 18 [] 14 = true ∧
      onChars relaxed tokenChar 14 [] 14 = true ∧
      next relaxed 14 58 = some ([.writeField], 15) ∧
      next relaxed 18 58 = some ([.writeField], 15)
  value :
    onChars relaxed (fun c => contentChar c && c != 9 && c != 32) 15 [.startValue] 16 = true ∧
      onChars relaxed contentChar 16 [] 16 = true ∧
      next relaxed 16 13 = some ([.writeValue], 17) ∧ next relaxed 17 10 = some ([], 13)
  done :
    next relaxed 13 13 = some ([.startField], 18) ∧ next relaxed 18 10 = some ([.done], 348)

theorem legalRows (relaxed : Bool) : LegalRows relaxed := by
  cases relaxed <;> constructor <;> decide +kernel

section Escaped

variable {relaxed : Bool} {ok : UInt8 → Bool} {cs first second : Nat} {w : List UInt8}

theorem EscapedStates.digits (hstates : EscapedStates relaxed ok cs first second) {a b : UInt8}
    (ha : isxdigit a = true) (hb : isxdigit b = true) :
    (control relaxed).pass first (a :: b :: w) = (control relaxed).pass cs w := by
  rw [pass_char (next_of_onChars hstates.digit₁ ha) hstates.go.2.2,
    pass_char (next_of_onChars hstates.digit₂ hb) hstates.go.1]

theorem EscapedStates.pass (hstates : EscapedStates relaxed ok cs first second)
    (hw : Escaped ok w) : (control relaxed).pass cs w = some cs := by
  induction hw with
  | nil => rfl
  | char hc hw ih =>
      rw [pass_char (next_of_onChars hstates.char hc) hstates.go.1]
      exact ih
  | pct ha hb hw ih =>
      rw [pass_char hstates.percent hstates.go.2.1, hstates.digits ha hb]
      exact ih

/-- Text that is entered from another state, with some actions. -/
theorem EscapedStates.run (hstates : EscapedStates relaxed ok cs first second) {start : Nat}
    {actions : List Action}
    (hchar : ∀ c, ok c = true → w.head? = some c → next relaxed start c = some (actions, cs))
    (hpercent : next relaxed start 37 = some (actions, first)) (hw : Escaped ok w) (hne : w ≠ [])
    (more : List UInt8) (h : Head) :
    (control relaxed).run Head.store (w ++ more) start h =
      (control relaxed).run Head.store more cs
        (ticks w (actions.foldl (fun h action => h.act action) h)) := by
  cases hw with
  | nil => exact absurd rfl hne
  | char hc hw =>
      rw [List.cons_append, run_char (hchar _ hc rfl) hstates.go.1, run_word (hstates.pass hw)]
      rfl
  | pct ha hb hw =>
      rw [List.cons_append, run_char hpercent hstates.go.2.1,
        run_word ((hstates.digits ha hb).trans (hstates.pass hw))]
      rfl

end Escaped

/-! ## The tokens of the request line -/

section RequestLine

variable {relaxed : Bool} {cs' : Nat} {d : UInt8} {actions : List Action} {w : List UInt8}

/-- A path with the character behind it. -/
theorem run_path (hpath : PathAbsolute relaxed w) (hempty : next relaxed 33 d = some (actions, cs'))
    (hmore : next relaxed 26 d = some (actions, cs')) (hgo : ¬ halted cs') (more : List UInt8)
    (h : Head) :
    (control relaxed).run Head.store (w ++ d :: more) 3 h =
      (control relaxed).run Head.store more cs'
        ((actions.foldl (fun h action => h.act action)
          (ticks w { h with mark := [] })).tick d) := by
  obtain ⟨w, rfl, hslash, hw⟩ := hpath
  obtain ⟨hstart, hfirst, hpercent⟩ := (legalRows relaxed).path
  rw [List.cons_append, run_char hstart (by decide)]
  by_cases hne : w = []
  · subst hne
    exact run_char hempty hgo more _
  · have hchar : ∀ c, pathChar relaxed c = true → w.head? = some c →
        next relaxed 33 c = some ([], 26) := by
      intro c hc hhead
      refine next_of_onChars hfirst ?_
      rw [hc, Bool.true_and, bne_iff_ne]
      rintro rfl
      exact hslash hhead
    rw [(legalRows relaxed).pathStates.run hchar hpercent hw hne, run_char hmore hgo]
    rfl

theorem scans_path (hpath : PathAbsolute relaxed w)
    (hempty : next relaxed 33 d = some (actions, cs'))
    (hmore : next relaxed 26 d = some (actions, cs')) (hgo : ¬ halted cs')
    (hactions : actions = [.requestPath] ∨ actions = [.requestPath, .requestUri]) :
    Scans relaxed 3 (w ++ [d]) cs' fun r => { r with path := w } := by
  refine .of_run (fun h => (actions.foldl (fun h action => h.act action)
    (ticks w { h with mark := [] })).tick d) (fun more h => ?_) fun h => ?_
  · rw [List.append_assoc]
    exact run_path hpath hempty hmore hgo more h
  · rw [ticks_eq]
    rcases hactions with rfl | rfl <;> exact ⟨rfl, rfl⟩

/-- A query up to the character behind it. -/
theorem scans_query (hquery : Query relaxed w) (hne : w ≠ [])
    (hmore : next relaxed 30 d = some ([.queryString, .requestUri], cs')) (hgo : ¬ halted cs') :
    Scans relaxed 29 (w ++ [d]) cs' fun r => { r with query := w } := by
  obtain ⟨hchar, hpercent⟩ := (legalRows relaxed).query
  refine .of_run (fun h => ((ticks w { h with query := [] }).act .queryString).tick d)
    (fun more h => ?_) fun h => ?_
  · rw [List.append_assoc, (legalRows relaxed).queryStates.run
      (fun c hc _ => next_of_onChars hchar hc) hpercent hquery hne]
    exact run_char hmore hgo more _
  · rw [ticks_eq]
    exact ⟨rfl, rfl⟩

/-- A fragment and the blank behind it. -/
theorem scans_fragment (hfragment : Query relaxed w) (hne : w ≠ []) :
    Scans relaxed 20 (w ++ [32]) 4 fun r => { r with fragment := w } := by
  obtain ⟨hchar, hpercent, hblank⟩ := (legalRows relaxed).fragment
  refine .of_run (fun h => ((ticks w { h with mark := [] }).act .fragment).tick 32)
    (fun more h => ?_) fun h => ?_
  · rw [List.append_assoc, (legalRows relaxed).fragmentStates.run
      (fun c hc _ => next_of_onChars hchar hc) hpercent hfragment hne]
    exact run_char hblank (by decide) more _
  · rw [ticks_eq]
    exact ⟨rfl, rfl⟩

/-- A part of the target behind its delimiter; an empty part is left out with it. -/
def delimited (delimiter : UInt8) (part : List UInt8) : List UInt8 :=
  if part.isEmpty then [] else delimiter :: part

/-- **The target**, up to the blank. -/
theorem scans_target {path query fragment : List UInt8} (hpath : PathAbsolute relaxed path)
    (hquery : Query relaxed query) (hfragment : Query relaxed fragment) :
    Scans relaxed 3 (path ++ delimited 63 query ++ delimited 35 fragment ++ [32]) 4 fun r =>
      { r with
        path := path
        query := if query.isEmpty then r.query else query
        fragment := if fragment.isEmpty then r.fragment else fragment } := by
  obtain ⟨hblank, hhash, hmark, hqueryBlank, hqueryHash⟩ := (legalRows relaxed).target
  rcases query with _ | ⟨q, query⟩ <;> rcases fragment with _ | ⟨f, fragment⟩
  · have hscan := scans_path hpath hblank.1 hblank.2 (by decide) (.inr rfl)
    simpa [delimited] using hscan
  · have hscan := (scans_path hpath hhash.1 hhash.2 (by decide) (.inr rfl)).trans
      (scans_fragment hfragment (List.cons_ne_nil f fragment))
    simpa [delimited] using hscan
  · have hscan := (scans_path hpath hmark.1 hmark.2 (by decide) (.inl rfl)).trans
      (scans_query hquery (List.cons_ne_nil q query) hqueryBlank (by decide))
    simpa [delimited] using hscan
  · have hscan := ((scans_path hpath hmark.1 hmark.2 (by decide) (.inl rfl)).trans
      (scans_query hquery (List.cons_ne_nil q query) hqueryHash (by decide))).trans
      (scans_fragment hfragment (List.cons_ne_nil f fragment))
    simpa [delimited] using hscan

/-- `HTTP/1.` and the digit, with the line end. -/
def versionLine (minor : UInt8) : List UInt8 :=
  chars ['H', 'T', 'T', 'P', '/', '1', '.'] ++ [minor, 13, 10]

theorem scans_version {version minor : UInt8}
    (hversion : version = 0x11 ∧ minor = 49 ∨ version = 0x10 ∧ minor = 48) :
    Scans relaxed 4 (versionLine minor) 13 fun r => { r with version := version } := by
  obtain ⟨hmark, hzero, hone, hend, hfeed⟩ := (legalRows relaxed).version
  have hpass : (control relaxed).pass 5 (chars ['T', 'T', 'P', '/', '1', '.'] ++ [minor]) =
      some 12 := by
    rcases hversion with ⟨-, rfl⟩ | ⟨-, rfl⟩
    · exact hone
    · exact hzero
  refine .of_run (fun h => (((ticks (chars ['T', 'T', 'P', '/', '1', '.'] ++ [minor])
    (({ h with mark := [] } : Head).tick 72)).act .httpVersion).tick 13).tick 10)
    (fun more h => ?_) fun h => ?_
  · show (control relaxed).run Head.store
      (72 :: (chars ['T', 'T', 'P', '/', '1', '.'] ++ [minor] ++ 13 :: 10 :: more)) 4 h = _
    rw [run_char hmark (by decide), run_word hpass, run_char hend (by decide),
      run_char hfeed (by decide)]
    simp only [List.foldl_cons, List.foldl_nil, Head.act]
  · rw [ticks_eq]
    rcases hversion with ⟨rfl, rfl⟩ | ⟨rfl, rfl⟩ <;> exact ⟨rfl, rfl⟩

end RequestLine

/-! ## The headers -/

section Headers

variable {relaxed : Bool} {name value : List UInt8}

/-- A name with the colon behind it. -/
theorem run_name (hname : FieldName name) (more : List UInt8) (h : Head) :
    (control relaxed).run Head.store (name ++ 58 :: more) 13 h =
      (control relaxed).run Head.store more 15
        (((ticks name { h with fieldStart := [] }).act .writeField).tick 58) := by
  obtain ⟨hne, htoken, hfeed, hreturn⟩ := hname
  obtain ⟨hstart, hcarriage, hsecond, hloop, hcolon, hcolon'⟩ := (legalRows relaxed).name
  cases name with
  | nil => exact absurd rfl hne
  | cons c w =>
      have hc := htoken c List.mem_cons_self
      have hw : ∀ c ∈ w, tokenChar c = true := fun c hc => htoken c (List.mem_cons_of_mem _ hc)
      have hnot : c ≠ 10 := by
        rintro rfl
        exact hfeed ⟨w, rfl⟩
      by_cases hthirteen : c = 13
      · -- The machine still waits for the line feed that would end the head.
        subst hthirteen
        cases w with
        | nil =>
            rw [List.cons_append, run_char hcarriage (by decide), List.nil_append,
              run_char hcolon' (by decide)]
            rfl
        | cons d w =>
            have hd : d ≠ 10 := by
              rintro rfl
              exact hreturn ⟨w, rfl⟩
            have hsecond := next_of_onChars hsecond (show (tokenChar d && d != 10) = true by
              rw [hw d List.mem_cons_self, bne_iff_ne.mpr hd]
              rfl)
            rw [List.cons_append, run_char hcarriage (by decide), List.cons_append,
              run_char hsecond (by decide),
              run_word (pass_chars hloop (by decide) fun c hc => hw c (List.mem_cons_of_mem _ hc)),
              run_char hcolon (by decide)]
            rfl
      · have hstart := next_of_onChars hstart
          (show (tokenChar c && c != 10 && c != 13) = true by
            rw [hc, bne_iff_ne.mpr hnot, bne_iff_ne.mpr hthirteen]
            rfl)
        rw [List.cons_append, run_char hstart (by decide),
          run_word (pass_chars hloop (by decide) hw), run_char hcolon (by decide)]
        rfl

/-- A value with its line end. -/
theorem run_value (hvalue : FieldValue value) (more : List UInt8) (h : Head) :
    (control relaxed).run Head.store (value ++ 13 :: 10 :: more) 15 h =
      (control relaxed).run Head.store more 13
        ((((ticks value { h with mark := [] }).act .writeValue).tick 13).tick 10) := by
  obtain ⟨hne, hcontent, htab, hblank⟩ := hvalue
  obtain ⟨hstart, hloop, hend, hfeed⟩ := (legalRows relaxed).value
  cases value with
  | nil => exact absurd rfl hne
  | cons c w =>
      have hc := hcontent c List.mem_cons_self
      have hw : ∀ c ∈ w, contentChar c = true := fun c hc => hcontent c (List.mem_cons_of_mem _ hc)
      have hstart := next_of_onChars hstart
        (show (contentChar c && c != 9 && c != 32) = true by
          rw [hc, bne_iff_ne.mpr fun h => htab (congrArg some h),
            bne_iff_ne.mpr fun h => hblank (congrArg some h)]
          rfl)
      rw [List.cons_append, run_char hstart (by decide), run_word (pass_chars hloop (by decide) hw),
        run_char hend (by decide), run_char hfeed (by decide)]
      rfl

theorem act_writeValue {h : Head} (hfield : h.field ≠ []) :
    (h.act .writeValue).data = h.data.setHeader h.field h.mark ∧
      (h.act .writeValue).error = h.error := by
  rw [Head.act, Head.setField, if_neg hfield]
  exact ⟨rfl, rfl⟩

theorem scans_header (hname : FieldName name) (hvalue : FieldValue value) :
    Scans relaxed 13 (headerLine (name, value)) 13 fun r => r.setHeader name value := by
  refine .of_run (fun h => (((ticks value { ((ticks name { h with fieldStart := [] }).act
    .writeField).tick 58 with mark := [] }).act .writeValue).tick 13).tick 10)
    (fun more h => ?_) fun h => ?_
  · have hline : headerLine (name, value) ++ more = name ++ 58 :: (value ++ 13 :: 10 :: more) := by
      simp only [headerLine, List.append_assoc]
      rfl
    rw [hline, run_name hname]
    exact run_value hvalue more _
  · rw [ticks_eq, ticks_eq]
    exact act_writeValue hname.nonempty

/-- **The headers**, one line after the other. -/
theorem scans_headers {headers : List (List UInt8 × List UInt8)}
    (hnames : ∀ entry ∈ headers, FieldName entry.1)
    (hvalues : ∀ entry ∈ headers, FieldValue entry.2) :
    Scans relaxed 13 (headers.flatMap headerLine) 13 fun r => r.setHeaders headers := by
  induction headers with
  | nil => exact Scans.nil relaxed 13
  | cons entry headers ih =>
      rw [List.flatMap_cons]
      exact (scans_header (hnames entry List.mem_cons_self)
        (hvalues entry List.mem_cons_self)).trans
          (ih (fun entry h => hnames entry (List.mem_cons_of_mem _ h))
            fun entry h => hvalues entry (List.mem_cons_of_mem _ h))

/-- The empty line ends the head. -/
theorem run_end (relaxed : Bool) (more : List UInt8) (h : Head) :
    ∃ h' : Head, h'.data = h.data ∧ h'.error = h.error ∧
      (control relaxed).run Head.store (13 :: 10 :: more) 13 h = some (more, 348, h') := by
  obtain ⟨hcarriage, hfeed⟩ := (legalRows relaxed).done
  refine ⟨((({ h with fieldStart := [] } : Head).tick 13).act .done).tick 10, rfl, rfl, ?_⟩
  have hlast : (control relaxed).next 18 10 = some ([.done], 348) := hfeed
  rw [run_char hcarriage (by decide), Control.run_step hlast rfl]
  rfl

end Headers

end HttpSession
end Http
end Routn
