import Mathlib.Data.List.TakeWhile
import Mathlib.Tactic
import Routn.Http.ResponseGrammar

/-!
# What the callbacks make of the head of a response

The machine on a status line and on header lines, from one line to the next.  The state at the
beginning of a line keeps what the line before was: `Connection: close`, or a `Connection` or
`Transfer-Encoding` without a value.
-/

namespace Routn
namespace Http
namespace Client

open Foundation

/-- What of the head is looked at when it is complete. -/
structure Seen where
  data : HttpResponse
  error : Nat
  chunked : Bool
  fields : List (List UInt8 × List UInt8)

def Head.seen (h : Head) : Seen := ⟨h.result.data, h.result.error, h.result.chunked, h.fields⟩

/-- A header is reported. -/
def Seen.setField (s : Seen) (name value : List UInt8) : Seen :=
  { s with data := s.data.setHeader name value, fields := s.fields ++ [(name, value)] }

/-- Reading `w` the machine comes from `cs` to `cs'`, and the callbacks make `f` of what was
seen. -/
def Scans (cs : Nat) (w : List UInt8) (cs' : Nat) (f : Seen → Seen) : Prop :=
  ∀ h : Head, ∃ h' : Head, h'.seen = f h.seen ∧ ∀ more,
    plain.run Head.store (w ++ more) cs h = plain.run Head.store more cs' h'

theorem Scans.trans {cs₁ cs₂ cs₃ : Nat} {u v : List UInt8} {f g : Seen → Seen}
    (hu : Scans cs₁ u cs₂ f) (hv : Scans cs₂ v cs₃ g) :
    Scans cs₁ (u ++ v) cs₃ fun s => g (f s) := by
  intro h
  obtain ⟨h₁, hseen₁, hrun₁⟩ := hu h
  obtain ⟨h₂, hseen₂, hrun₂⟩ := hv h₁
  refine ⟨h₂, by rw [hseen₂, hseen₁], fun more => ?_⟩
  rw [List.append_assoc, hrun₁, hrun₂]

theorem Scans.nil (cs : Nat) : Scans cs [] cs id := fun h => ⟨h, rfl, fun _ => rfl⟩

/-! ## Steps -/

/-- The head after some characters. -/
def ticks (bytes : List UInt8) (h : Head) : Head := bytes.foldl (fun h c => h.tick c) h

theorem ticks_eq (bytes : List UInt8) (h : Head) :
    ticks bytes h = { h with mark := h.mark ++ bytes, fieldStart := h.fieldStart ++ bytes } := by
  induction bytes generalizing h with
  | nil => simp [ticks]
  | cons c bytes ih =>
      rw [ticks, List.foldl_cons]
      refine (ih (h.tick c)).trans ?_
      simp [Head.tick]

theorem run_char {cs cs' : Nat} {c : UInt8} {actions : List Action}
    (hnext : plainNext cs c = some (actions, cs')) (hgo : plain.halts cs' = false)
    (more : List UInt8) (h : Head) :
    plain.run Head.store (c :: more) cs h =
      plain.run Head.store more cs'
        ((actions.foldl (fun h action => h.act action) h).tick c) :=
  Control.run_char (fun _ _ => rfl) hnext hgo more h

theorem run_word {cs cs' : Nat} {w : List UInt8} (hpass : plain.pass cs w = some cs')
    (more : List UInt8) (h : Head) :
    plain.run Head.store (w ++ more) cs h = plain.run Head.store more cs' (ticks w h) :=
  Control.run_pass hpass Head.store more h

/-- A character of the set begins a token, with one action, and goes on with it. -/
def begins (ok : UInt8 → Bool) (cs : Nat) (action : Action) (cs' : Nat) : Bool :=
  (List.range 256).all fun n => !ok (.ofNat n) ||
    decide (plainNext cs (.ofNat n) = some ([action], cs') ∧
      plainNext cs' (.ofNat n) = some ([], cs'))

theorem next_of_begins {ok : UInt8 → Bool} {cs cs' : Nat} {action : Action}
    (h : begins ok cs action cs' = true) {c : UInt8} (hc : ok c = true) :
    plainNext cs c = some ([action], cs') ∧ plainNext cs' c = some ([], cs') := by
  have hall := forall_byte (p := fun c => !ok c ||
    decide (plainNext cs c = some ([action], cs') ∧ plainNext cs' c = some ([], cs'))) h c
  rw [hc] at hall
  exact of_decide_eq_true hall

/-! ## The status line -/

section StatusLine

/-- `HTTP/`, and the two halves of the version. -/
def versionText (version : UInt8) : List UInt8 :=
  chars ['H', 'T', 'T', 'P', '/'] ++ decimal (version >>> 4).toNat ++ chars ['.'] ++
    decimal (version &&& 0x0f).toNat

/-- The client knows the version. -/
def known (version : UInt8) : Bool := version == 0x11 || version == 0x10

def versionScans (version : UInt8) : Bool :=
  (versionText version).head? == some 72 && plain.pass 8 (versionText version).tail == some 15 &&
    (strncmpEq (versionText version) (chars ['H', 'T', 'T', 'P', '/', '1', '.', '1'])
      (versionText version).length == (version == 0x11)) &&
    (strncmpEq (versionText version) (chars ['H', 'T', 'T', 'P', '/', '1', '.', '0'])
      (versionText version).length == (version == 0x10))

/-- What the rows of the status line say. -/
structure StatusRows : Prop where
  version : (List.range 256).all (fun n => versionScans (.ofNat n)) = true
  line : plainNext 1 72 = some ([.mark], 8) ∧
    plainNext 15 32 = some ([.httpVersion], 16) ∧ plainNext 17 32 = some ([.statusCode], 18) ∧
    plainNext 19 13 = some ([.reasonPhrase], 24) ∧ plainNext 24 10 = some ([], 20)
  digit : begins isdigit 16 .mark 17 = true
  reason : begins (fun c => c != 10 && c != 13) 18 .mark 19 = true

theorem statusRows : StatusRows := by
  constructor <;> decide +kernel

theorem act_httpVersion {h : Head} {version : UInt8} (hmark : h.mark = versionText version) :
    (h.act .httpVersion).seen = { h.seen with
      data := if known version then h.seen.data.setVersion version else h.seen.data
      error := if known version then h.seen.error else 1001 } := by
  have htable := forall_byte statusRows.version version
  simp only [versionScans, Bool.and_eq_true, beq_iff_eq] at htable
  obtain ⟨⟨-, hone⟩, hzero⟩ := htable
  rw [Head.act, Head.setVersion, hmark, hone, hzero, known]
  cases hv : version == 0x11 with
  | true =>
      rw [beq_iff_eq.mp hv]
      rfl
  | false =>
      cases hv' : version == 0x10 with
      | true =>
          rw [beq_iff_eq.mp hv']
          rfl
      | false => rfl

theorem reason_char {c : UInt8} (hc : c ≠ 10 ∧ c ≠ 13) :
    plainNext 18 c = some ([.mark], 19) ∧ plainNext 19 c = some ([], 19) := by
  refine next_of_begins statusRows.reason ?_
  rw [bne_iff_ne.mpr hc.1, bne_iff_ne.mpr hc.2]
  rfl

theorem exists_cons_decimal (n : Nat) : ∃ c w, decimal n = c :: w := by
  refine List.exists_cons_of_ne_nil fun h => ?_
  exact Nat.toDigits_ne_nil (List.map_eq_nil_iff.mp h)

theorem digitValue_toUInt8 {digit : Char} (hdigit : digit.isDigit = true) :
    digitValue digit.toUInt8 = digit.toNat - 48 ∧ digitValue digit.toUInt8 < 10 := by
  obtain ⟨hnat, hlow, hhigh⟩ := toNat_toUInt8_of_isDigit hdigit
  have hisdigit : isdigit digit.toUInt8 = true := by
    rw [isdigit, Bool.and_eq_true_iff, decide_eq_true_iff, decide_eq_true_iff,
      UInt8.le_iff_toNat_le, UInt8.le_iff_toNat_le, hnat]
    exact ⟨hlow, hhigh⟩
  rw [digitValue, if_pos hisdigit, hnat]
  exact ⟨rfl, by omega⟩

/-- A number is read back. -/
theorem strtol_decimal (n : Nat) : strtol (decimal n) 10 = min n (2 ^ 63 - 1) := by
  have hdigits : ∀ digit ∈ Nat.toDigits 10 n, digit.isDigit = true := fun digit hmem =>
    Nat.isDigit_of_mem_toDigits (by decide) (by decide) hmem
  have hall : (decimal n).takeWhile (fun c => decide (digitValue c < 10)) = decimal n := by
    rw [List.takeWhile_eq_self_iff]
    intro c hc
    obtain ⟨digit, hmem, rfl⟩ := List.mem_map.mp hc
    exact decide_eq_true (digitValue_toUInt8 (hdigits digit hmem)).2
  have hfold : ∀ (digits : List Char) (init : Nat), (∀ digit ∈ digits, digit.isDigit = true) →
      (chars digits).foldl (fun n c => n * 10 + digitValue c) init =
        Nat.ofDigitChars 10 digits init := by
    intro digits
    induction digits with
    | nil => exact fun init _ => rfl
    | cons digit digits ih =>
        intro init hdigits
        have hvalue := (digitValue_toUInt8 (hdigits digit List.mem_cons_self)).1
        show (chars digits).foldl _ (init * 10 + digitValue digit.toUInt8) =
          Nat.ofDigitChars 10 digits (10 * init + (digit.toNat - 48))
        rw [hvalue, Nat.mul_comm init 10]
        exact ih _ fun digit hmem => hdigits digit (List.mem_cons_of_mem _ hmem)
  rw [strtol, hall, decimal, hfold _ 0 hdigits, Nat.ofDigitChars_ten_toDigits]

theorem atoi_decimal (code : UInt32) : atoi (decimal code.toNat) = code := by
  have hlt := code.toNat_lt
  rw [atoi, strtol_decimal, Nat.min_eq_left (by omega), UInt32.ofNat_toNat]

theorem act_statusCode {h : Head} {status : HttpStatus}
    (hmark : h.mark = decimal status.code.toNat) :
    (h.act .statusCode).seen = { h.seen with data := h.seen.data.setStatus status } := by
  rw [Head.act, hmark, atoi_decimal]
  rfl

/-- What is seen of a status line. -/
def Seen.statusLine (s : Seen) (version : UInt8) (status : HttpStatus) (reason : List UInt8) :
    Seen :=
  { s with
    data := ((if known version then s.data.setVersion version else s.data).setStatus
      status).setReason reason
    error := if known version then s.error else 1001 }

/-- The version with the blank behind it. -/
theorem scans_version (version : UInt8) :
    Scans 1 (versionText version ++ [32]) 16 fun s => { s with
      data := if known version then s.data.setVersion version else s.data
      error := if known version then s.error else 1001 } := by
  intro h
  have htable := forall_byte statusRows.version version
  simp only [versionScans, Bool.and_eq_true, beq_iff_eq] at htable
  obtain ⟨⟨⟨hhead, hpass⟩, -⟩, -⟩ := htable
  obtain ⟨hfirst, hblank, -⟩ := statusRows.line
  obtain ⟨w, hsplit⟩ := List.head?_eq_some_iff.mp hhead
  rw [hsplit, List.tail_cons] at hpass
  refine ⟨((ticks (versionText version) { h with mark := [] }).act .httpVersion).tick 32, ?_,
    fun more => ?_⟩
  · refine (@act_httpVersion _ version ?_).trans ?_
    · rw [ticks_eq]
      rfl
    · rw [ticks_eq]
      rfl
  · rw [hsplit, List.append_assoc, List.cons_append, run_char hfirst rfl, run_word hpass,
      List.singleton_append, run_char hblank rfl]
    rfl

/-- The status with the blank behind it. -/
theorem scans_status (status : HttpStatus) :
    Scans 16 (decimal status.code.toNat ++ [32]) 18 fun s =>
      { s with data := s.data.setStatus status } := by
  intro h
  obtain ⟨c, w, hsplit⟩ := exists_cons_decimal status.code.toNat
  have hdigit : ∀ d ∈ c :: w, isdigit d = true := fun d hd => isdigit_of_mem_decimal (hsplit ▸ hd)
  have hpass : plain.pass 17 w = some 17 := Control.pass_loop rfl fun d hd =>
    (next_of_begins statusRows.digit (hdigit d (List.mem_cons_of_mem _ hd))).2
  refine ⟨((ticks (decimal status.code.toNat) { h with mark := [] }).act .statusCode).tick 32, ?_,
    fun more => ?_⟩
  · refine (@act_statusCode _ status ?_).trans ?_
    · rw [ticks_eq]
      rfl
    · rw [ticks_eq]
      rfl
  · rw [hsplit, List.append_assoc, List.cons_append,
      run_char (next_of_begins statusRows.digit (hdigit c List.mem_cons_self)).1 rfl,
      run_word hpass, List.singleton_append, run_char statusRows.line.2.2.1 rfl]
    rfl

/-- A reason with its line end. -/
theorem scans_reason {reason : List UInt8} (hne : reason ≠ [])
    (hreason : ∀ c ∈ reason, c ≠ 10 ∧ c ≠ 13) :
    Scans 18 (reason ++ crlf) 20 fun s => { s with data := s.data.setReason reason } := by
  intro h
  obtain ⟨c, w, rfl⟩ := List.exists_cons_of_ne_nil hne
  obtain ⟨-, -, -, hreturn, hfeed⟩ := statusRows.line
  have hpass : plain.pass 19 w = some 19 := Control.pass_loop rfl fun d hd =>
    (reason_char (hreason d (List.mem_cons_of_mem _ hd))).2
  refine ⟨((((ticks (c :: w) { h with mark := [] }).act .reasonPhrase).tick 13).tick 10), ?_,
    fun more => ?_⟩
  · rw [ticks_eq]
    rfl
  · rw [List.append_assoc, List.cons_append,
      run_char (reason_char (hreason c List.mem_cons_self)).1 rfl, run_word hpass]
    show plain.run Head.store (13 :: 10 :: more) 19 _ = _
    rw [run_char hreturn rfl, run_char hfeed rfl]
    rfl

/-- **The status line.** -/
theorem scans_statusLine (version : UInt8) (status : HttpStatus) {reason : List UInt8}
    (hne : reason ≠ []) (hreason : ∀ c ∈ reason, c ≠ 10 ∧ c ≠ 13) :
    Scans 1 ((versionText version ++ [32]) ++ (decimal status.code.toNat ++ [32]) ++
      (reason ++ crlf)) 20 fun s => s.statusLine version status reason :=
  ((scans_version version).trans (scans_status status)).trans (scans_reason hne hreason)

end StatusLine

/-! ## A header -/

/-- Where a value leads from the state behind the colon. -/
def valueEnd (cs : Nat) (value : List UInt8) : Nat :=
  if value.isEmpty then if cs = 35 then 36 else if cs = 61 then 62 else 20
  else if decide (cs = 35) && strcasecmpEq value closeValue then 43
  else 20

/-- The line end where there is no value. -/
def emptyReturn (cs : Nat) : Nat := if cs = 35 then 95 else if cs = 61 then 80 else 24

/-- The line end behind a value. -/
def valueReturn (cs : Nat) : Nat := if cs = 87 then 71 else if cs = 100 then 88 else 24

/-- The final state behind the empty line; `isFinished` knows one of the three. -/
def headEnd (cs : Nat) : Nat := if cs = 36 then 122 else if cs = 62 then 121 else 120

def endReturn (cs : Nat) : Nat := if cs = 36 then 89 else if cs = 62 then 72 else 3

/-- What the rows of the headers say of blanks and line ends, and of the generated line. -/
structure LineRows : Prop where
  empty : ∀ cs ∈ colonStates,
    plainNext cs 32 = some ([.startValue], cs) ∧ plain.halts cs = false ∧
      plainNext cs 13 = some ([.startValue, .writeValue], emptyReturn cs) ∧
      plain.halts (emptyReturn cs) = false ∧
      plainNext (emptyReturn cs) 10 = some ([], valueEnd cs []) ∧
      plain.halts (valueEnd cs []) = false
  value : ∀ cs ∈ valueStates,
    plainNext cs 13 = some ([.writeValue], valueReturn cs) ∧
      plain.halts (valueReturn cs) = false ∧
      plainNext (valueReturn cs) 10 =
        some (if cs = 87 then [.transChunked] else [], if cs = 100 then 43 else 20) ∧
      plain.halts (if cs = 100 then 43 else 20) = false
  length : plainNext 112 32 = some ([.startValue], 112) ∧
    plainNext 119 13 = some ([.writeContentLen, .writeValue], 24) ∧
    plainNext 24 10 = some ([], 20)
  digit : begins isdigit 112 .startValue 119 = true
  done : ∀ cs ∈ lineStates,
    plainNext cs 13 = some (if cs = 43 then [.writeConnectionClose] else [], endReturn cs) ∧
      plain.halts (endReturn cs) = false ∧
      plainNext (endReturn cs) 10 = some ([.done], headEnd cs) ∧
      plain.halts (headEnd cs) = true

theorem lineRows : LineRows := by
  constructor <;> decide +kernel

section Header

variable {name value : List UInt8}

/-- Where a name begins, nothing is reported. -/
theorem begin_name {actions : List Action} (hactions : actions ∈ nameActions) (h : Head) :
    (actions.foldl (fun h action => h.act action) h).seen = h.seen ∧
      (actions.foldl (fun h action => h.act action) h).fieldStart = [] := by
  simp only [nameActions, List.mem_cons, List.not_mem_nil, or_false] at hactions
  rcases hactions with rfl | rfl | rfl <;> exact ⟨rfl, rfl⟩

theorem colon_go (name : List UInt8) : plain.halts (colonOf name) = false := by
  rw [colonOf]
  split
  · rfl
  · split
    · rfl
    · split <;> rfl

/-- A name with the colon behind it. -/
theorem run_name {cs : Nat} (hcs : cs ∈ lineStates) (hname : FieldName name) (h : Head) :
    ∃ h' : Head, h'.seen = h.seen ∧ h'.field = name ∧ ∀ more,
      plain.run Head.store (name ++ 58 :: more) cs h =
        plain.run Head.store more (colonOf name) h' := by
  obtain ⟨c, w, rfl⟩ := List.exists_cons_of_ne_nil hname.nonempty
  obtain ⟨actions, hactions, cs₁, cs', hfirst, hgo, hpass, hcolon⟩ := name_way hcs hname
  obtain ⟨hseen, hstart⟩ := begin_name hactions h
  refine ⟨((ticks w ((actions.foldl (fun h action => h.act action) h).tick c)).act
    .writeField).tick 58, ?_, ?_, fun more => ?_⟩
  · rw [ticks_eq]
    exact hseen
  · rw [ticks_eq]
    show ((actions.foldl (fun h action => h.act action) h).fieldStart ++ [c]) ++ w = c :: w
    rw [hstart]
    rfl
  · rw [List.cons_append, run_char hfirst hgo, run_word hpass, run_char hcolon (colon_go _)]
    rfl

/-- A value that announces chunks. -/
def announces (cs : Nat) (value : List UInt8) : Bool :=
  decide (cs = 61) && strcasecmpEq value chunkedValue

theorem act_writeValue {h : Head} (hfield : h.field ≠ []) :
    (h.act .writeValue).seen = h.seen.setField h.field h.mark := by
  rw [Head.act, Head.setField, if_neg hfield]
  rfl

/-- The way through a value that is not empty. -/
theorem value_way {cs : Nat} (hcs : cs ∈ colonStates) {c : UInt8} {w : List UInt8}
    (hvalue : FieldValue (c :: w)) :
    ∃ cs₁ cs', plainNext cs c = some ([.startValue], cs₁) ∧ plain.halts cs₁ = false ∧
      plain.pass cs₁ w = some cs' ∧ cs' ∈ valueStates ∧
      (cs' = 87 ↔ announces cs (c :: w) = true) ∧
      (cs' = 100 ↔ (decide (cs = 35) && strcasecmpEq (c :: w) closeValue) = true) := by
  obtain ⟨cs₁, hcs₁, hfirst⟩ := colon_step hcs (hvalue.line c List.mem_cons_self)
    (hvalue.start c rfl)
  obtain ⟨cs', hcs', hpass, hway⟩ := word_pass values_inner
    (fun cs hcs c hc => value_step hcs hc) hcs₁ fun c hc =>
      hvalue.line c (List.mem_cons_of_mem _ hc)
  have hheader : cs ∈ headerStates :=
    List.mem_append_left _ (List.mem_append_right _ hcs)
  have hway : Way cs (c :: w) cs' := hway.cons hheader hfirst (values_inner hcs₁)
  refine ⟨cs₁, cs', hfirst, inner_go cs₁ (values_inner hcs₁), hpass, hcs', ?_⟩
  obtain ⟨-, ⟨hclose, hnochunk⟩, hchunk, hnoclose⟩ := keyword_folds
  simp only [colonStates, List.mem_cons, List.not_mem_nil, or_false] at hcs
  rcases hcs with rfl | rfl | rfl
  · -- A value of another header leads to no keyword.
    have hnone : ∀ t p, label t = some p → cs' ≠ t := by
      rintro t p ht rfl
      obtain ⟨q, hq, -⟩ := hway.label p ht
      rw [show label 22 = none by decide] at hq
      cases hq
    constructor
    · exact iff_of_false (hnone 87 chunkedValue (by decide)) Bool.false_ne_true
    · exact iff_of_false (hnone 100 closeValue (by decide)) Bool.false_ne_true
  · constructor
    · exact iff_of_false (hway.ne_of_folds (by decide) hnochunk (by decide) (by decide))
        Bool.false_ne_true
    · exact (hway.keyword_iff (by decide) (by decide) hclose (by decide)).symm
  · constructor
    · exact (hway.keyword_iff (by decide) (by decide) hchunk (by decide)).symm
    · exact iff_of_false (hway.ne_of_folds (by decide) hnoclose (by decide) (by decide))
        Bool.false_ne_true

/-- A value with the blank in front of it and its line end. -/
theorem run_value {cs : Nat} (hcs : cs ∈ colonStates) (hvalue : FieldValue value) {h : Head}
    (hfield : h.field ≠ []) :
    ∃ h' : Head, h'.seen = { h.seen.setField h.field value with
        chunked := h.seen.chunked || announces cs value } ∧ ∀ more,
      plain.run Head.store (32 :: (value ++ 13 :: 10 :: more)) cs h =
        plain.run Head.store more (valueEnd cs value) h' := by
  obtain ⟨hblank, hgo, hempty, hreturn, hline, hend⟩ := lineRows.empty cs hcs
  cases value with
  | nil =>
      have hnone : announces cs [] = false := by
        rw [announces, Bool.and_eq_false_iff]
        exact .inr rfl
      refine ⟨(({ h.tick 32 with mark := [] } : Head).act .writeValue |>.tick 13).tick 10, ?_,
        fun more => ?_⟩
      · rw [hnone, Bool.or_false]
        exact act_writeValue hfield
      · rw [run_char hblank hgo, List.nil_append, run_char hempty hreturn, run_char hline hend]
        rfl
  | cons c w =>
      obtain ⟨cs₁, cs', hfirst, hgo₁, hpass, hmem, hchunked, hclosed⟩ := value_way hcs hvalue
      obtain ⟨hvalueEnd, hreturn, hline, hend⟩ := lineRows.value cs' hmem
      have hto : (if cs' = 100 then 43 else 20) = valueEnd cs (c :: w) := by
        simp only [hclosed]
        rfl
      refine ⟨((if cs' = 87 then [.transChunked] else []).foldl (fun h action => h.act action)
        (((ticks (c :: w) { h.tick 32 with mark := [] }).act .writeValue).tick 13)).tick 10, ?_,
        fun more => ?_⟩
      · have hwrite : ((ticks (c :: w) { h.tick 32 with mark := [] }).act .writeValue).seen =
            h.seen.setField h.field (c :: w) := by
          rw [ticks_eq]
          exact act_writeValue hfield
        cases hann : announces cs (c :: w) with
        | true =>
            rw [if_pos (hchunked.mpr hann), Bool.or_true, ← hwrite]
            rfl
        | false =>
            have hnot : cs' ≠ 87 := fun h => Bool.eq_false_iff.mp hann (hchunked.mp h)
            rw [if_neg hnot, Bool.or_false]
            exact hwrite
      · rw [run_char hblank hgo, List.cons_append, run_char hfirst hgo₁, run_word hpass,
          run_char hvalueEnd hreturn, run_char hline hend, hto]
        rfl

/-- The header announces chunks. -/
def announcesChunks (entry : List UInt8 × List UInt8) : Bool :=
  strcasecmpEq entry.1 transferEncodingName && strcasecmpEq entry.2 chunkedValue

/-- The state behind the line of a header. -/
def lineEnd (entry : List UInt8 × List UInt8) : Nat := valueEnd (colonOf entry.1) entry.2

def Seen.header (s : Seen) (entry : List UInt8 × List UInt8) : Seen :=
  { s.setField entry.1 entry.2 with chunked := s.chunked || announcesChunks entry }

/-- No name is both of the keywords. -/
theorem colonOf_transfer (name : List UInt8) :
    colonOf name = 61 ↔ strcasecmpEq name transferEncodingName = true := by
  rw [colonOf]
  constructor
  · intro h
    split at h
    · cases h
    · split at h
      · assumption
      · split at h <;> cases h
  · intro htransfer
    rw [if_neg, if_pos htransfer]
    intro hconnection
    have hsame := (strcasecmpEq_iff.mp hconnection).symm.trans (strcasecmpEq_iff.mp htransfer)
    exact absurd hsame (by decide)

theorem colonOf_connection (name : List UInt8) :
    colonOf name = 35 ↔ strcasecmpEq name connectionName = true := by
  rw [colonOf]
  constructor
  · intro h
    split at h
    · assumption
    · repeat' split at h
      all_goals cases h
  · exact fun hconnection => if_pos hconnection

theorem colonOf_mem {name : List UInt8} (hother : strcasecmpEq name contentLengthName = false) :
    colonOf name ∈ colonStates := by
  rw [colonOf, hother, if_neg Bool.false_ne_true]
  split
  · decide
  · split <;> decide

theorem lineEnd_mem (entry : List UInt8 × List UInt8) : lineEnd entry ∈ lineStates := by
  rw [lineEnd, valueEnd]
  repeat' split
  all_goals decide

/-- **A header line.** -/
theorem scans_header {cs : Nat} (hcs : cs ∈ lineStates) (hname : FieldName name)
    (hother : strcasecmpEq name contentLengthName = false) (hvalue : FieldValue value) :
    Scans cs (HttpResponse.headerLine (name, value)) (lineEnd (name, value)) fun s =>
      s.header (name, value) := by
  intro h
  obtain ⟨h₁, hseen₁, hfield, hrun₁⟩ := run_name hcs hname h
  have hnonempty : h₁.field ≠ [] := by
    rw [hfield]
    exact hname.nonempty
  obtain ⟨h₂, hseen₂, hrun₂⟩ := run_value (colonOf_mem hother) hvalue hnonempty
  refine ⟨h₂, ?_, fun more => ?_⟩
  · have hann : announces (colonOf name) value = announcesChunks (name, value) := by
      simp only [announces, announcesChunks, colonOf_transfer, Bool.decide_eq_true]
    rw [hseen₂, hseen₁, hfield, hann]
    rfl
  · have hline : HttpResponse.headerLine (name, value) ++ more =
        name ++ 58 :: (32 :: (value ++ 13 :: 10 :: more)) := by
      simp only [HttpResponse.headerLine, List.append_assoc]
      rfl
    rw [hline, hrun₁, hrun₂]
    rfl

/-- The state behind some lines. -/
def linesEnd (cs : Nat) (headers : List (List UInt8 × List UInt8)) : Nat :=
  headers.foldl (fun _ entry => lineEnd entry) cs

theorem linesEnd_mem {cs : Nat} (hcs : cs ∈ lineStates) (headers : List (List UInt8 × List UInt8)) :
    linesEnd cs headers ∈ lineStates := by
  induction headers generalizing cs with
  | nil => exact hcs
  | cons entry headers ih => exact ih (lineEnd_mem entry)

/-- **The headers**, one line after the other. -/
theorem scans_headers {headers : List (List UInt8 × List UInt8)} {cs : Nat} (hcs : cs ∈ lineStates)
    (hnames : ∀ entry ∈ headers, FieldName entry.1)
    (hothers : ∀ entry ∈ headers, strcasecmpEq entry.1 contentLengthName = false)
    (hvalues : ∀ entry ∈ headers, FieldValue entry.2) :
    Scans cs (headers.flatMap HttpResponse.headerLine) (linesEnd cs headers) fun s =>
      headers.foldl Seen.header s := by
  induction headers generalizing cs with
  | nil => exact Scans.nil cs
  | cons entry headers ih =>
      rw [List.flatMap_cons]
      exact (scans_header hcs (hnames entry List.mem_cons_self)
        (hothers entry List.mem_cons_self) (hvalues entry List.mem_cons_self)).trans
          (ih (lineEnd_mem entry) (fun entry h => hnames entry (List.mem_cons_of_mem _ h))
            (fun entry h => hothers entry (List.mem_cons_of_mem _ h))
            fun entry h => hvalues entry (List.mem_cons_of_mem _ h))

end Header

/-! ## The generated line -/

section Generated

theorem fieldName_contentLength : FieldName contentLengthName :=
  ⟨by decide, List.all_eq_true.mp (by decide)⟩

theorem act_writeContentLen (h : Head) : (h.act .writeContentLen).seen = h.seen ∧
    (h.act .writeContentLen).field = h.field ∧ (h.act .writeContentLen).mark = h.mark := by
  obtain ⟨n, hn⟩ : ∃ n, n = toInt (strtol h.mark 10) := ⟨_, rfl⟩
  rw [Head.act, ← hn]
  exact ⟨rfl, rfl, rfl⟩

/-- The line of the content length. -/
theorem scans_generated {cs : Nat} (hcs : cs ∈ lineStates) (n : Nat) :
    Scans cs (contentLengthName ++ chars [':', ' '] ++ decimal n ++ crlf) 20 fun s =>
      s.setField contentLengthName (decimal n) := by
  intro h
  obtain ⟨h₁, hseen₁, hfield, hrun₁⟩ := run_name hcs fieldName_contentLength h
  obtain ⟨hblank, hreturn, hfeed⟩ := lineRows.length
  obtain ⟨c, w, hsplit⟩ := exists_cons_decimal n
  have hdigit : ∀ d ∈ c :: w, isdigit d = true := fun d hd => isdigit_of_mem_decimal (hsplit ▸ hd)
  have hpass : plain.pass 119 w = some 119 := Control.pass_loop rfl fun d hd =>
    (next_of_begins lineRows.digit (hdigit d (List.mem_cons_of_mem _ hd))).2
  obtain ⟨g, hg⟩ : ∃ g, g = ((ticks (c :: w) { h₁.tick 32 with mark := [] }).act
    .writeContentLen) := ⟨_, rfl⟩
  have hgseen : g.seen = h.seen ∧ g.field = contentLengthName ∧ g.mark = c :: w := by
    obtain ⟨hseen, hfield', hmark⟩ :=
      act_writeContentLen (ticks (c :: w) { h₁.tick 32 with mark := [] })
    rw [hg, hseen, hfield', hmark, ticks_eq]
    exact ⟨hseen₁, hfield, rfl⟩
  refine ⟨((g.act .writeValue).tick 13).tick 10, ?_, fun more => ?_⟩
  · have hne : g.field ≠ [] := by
      rw [hgseen.2.1]
      exact fieldName_contentLength.nonempty
    refine (act_writeValue hne).trans ?_
    rw [hgseen.1, hgseen.2.1, hgseen.2.2, hsplit]
  · have hline : contentLengthName ++ chars [':', ' '] ++ decimal n ++ crlf ++ more =
        contentLengthName ++ 58 :: 32 :: c :: (w ++ 13 :: 10 :: more) := by
      rw [hsplit]
      simp only [List.append_assoc]
      rfl
    rw [hline, hrun₁, show colonOf contentLengthName = 112 by decide, run_char hblank rfl,
      run_char (next_of_begins lineRows.digit (hdigit c List.mem_cons_self)).1 rfl, run_word hpass,
      run_char hreturn rfl, run_char hfeed rfl, hg]
    rfl

end Generated

/-! ## The end of the head -/

/-- The empty line ends the head. -/
theorem run_end {cs : Nat} (hcs : cs ∈ lineStates) (h : Head) :
    ∃ h' : Head, h'.seen = h.seen ∧ ∀ more,
      plain.run Head.store (13 :: 10 :: more) cs h = some (more, headEnd cs, h') := by
  obtain ⟨hreturn, hgo, hfeed, hhalts⟩ := lineRows.done cs hcs
  have hlast : plain.next (endReturn cs) 10 = some ([.done], headEnd cs) := hfeed
  refine ⟨((((if cs = 43 then [.writeConnectionClose] else []).foldl (fun h action => h.act action)
    h).tick 13).act .done).tick 10, ?_, fun more => ?_⟩
  · split <;> rfl
  · rw [run_char hreturn hgo, Control.run_step hlast rfl, hhalts, if_pos rfl]
    rfl

end Client
end Http
end Routn
