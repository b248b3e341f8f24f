import Mathlib.Tactic
import Routn.Foundation.Ranges
import Routn.Http.ResponseTokens

/-!
# What the machine `httpclient_parser` makes of legal headers

The alternatives of `message_header` overlap: a name is a field name, and may be on its way to
`Connection`, `Content-Length` or `Transfer-Encoding` too, and a value to `close` or `chunked`.
The states on these ways are labelled with the word that leads there, in lower case.
-/

namespace Routn
namespace Http
namespace Client

open Foundation Machine

/-! ## The grammar -/

/-- `tspecials`. -/
def tspecials (c : UInt8) : Bool :=
  [40, 41, 60, 62, 64, 44, 59, 58, 92, 34, 47, 91, 93, 63, 61, 123, 125, 32, 9].contains c

/-- `token`, one character of it: `ascii -- (CTL | tspecials)`. -/
def tokenChar (c : UInt8) : Bool := decide (32 ≤ c ∧ c < 127) && !tspecials c

structure FieldName (name : List UInt8) : Prop where
  nonempty : name ≠ []
  token : ∀ c ∈ name, tokenChar c = true

/-- `space`. -/
def isspace (c : UInt8) : Bool := decide (9 ≤ c ∧ c ≤ 13) || c == 32

/-- A value on one line, without the blanks in front that the grammar takes away. -/
structure FieldValue (value : List UInt8) : Prop where
  line : ∀ c ∈ value, c ≠ 10 ∧ c ≠ 13
  start : ∀ c, value.head? = some c → isspace c = false

def connectionName : List UInt8 := chars ['c', 'o', 'n', 'n', 'e', 'c', 't', 'i', 'o', 'n']

def transferEncodingName : List UInt8 :=
  chars ['t', 'r', 'a', 'n', 's', 'f', 'e', 'r', '-', 'e', 'n', 'c', 'o', 'd', 'i', 'n', 'g']

def closeValue : List UInt8 := chars ['c', 'l', 'o', 's', 'e']

def chunkedValue : List UInt8 := chars ['c', 'h', 'u', 'n', 'k', 'e', 'd']

/-! ## The states of a header -/

/-- Where a line begins. -/
def lineStates : List Nat := [20, 36, 43, 62]

def nameStates : List Nat :=
  [21] ++ List.range' 25 10 ++ List.range' 44 17 ++ List.range' 73 7 ++ List.range' 90 5 ++
    List.range' 101 11

/-- Behind the colon; `Content-Length` is left out. -/
def colonStates : List Nat := [22, 35, 61]

def valueStates : List Nat := [23] ++ List.range' 81 7 ++ List.range' 96 5

/-- The states on the way through a word, with what was read. -/
def way (states : List Nat) (word : List UInt8) : List (Nat × List UInt8) :=
  states.zip word.inits.tail

def labels : List (Nat × List UInt8) :=
  [(20, []), (36, []), (43, []), (62, []), (35, []), (61, [])] ++
    way (List.range' 25 10) connectionName ++
    way ([25, 26, 27] ++ List.range' 101 11) contentLengthName ++
    way (List.range' 44 17) transferEncodingName ++
    way (List.range' 73 7) chunkedValue ++ way (List.range' 90 5) closeValue ++
    way (List.range' 81 7) chunkedValue ++ way (List.range' 96 5) closeValue

def label (cs : Nat) : Option (List UInt8) := labels.lookup cs

def innerStates : List Nat := nameStates ++ valueStates

/-- The states of a header. -/
def headerStates : List Nat := lineStates ++ colonStates ++ innerStates

/-- An edge into a labelled state adds its one character, in either case, to the label. -/
def edgeLabelled (cs : Nat) (edge : List (Int × Int) × Goto) : Bool :=
  match label (target edge.2).2 with
  | none => true
  | some p =>
      match label cs with
      | none => false
      | some q => p == q ++ [p.getLastD 0] &&
          (decide (97 ≤ p.getLastD 0 ∧ p.getLastD 0 ≤ 122 ∧
            edge.1 = letter ((p.getLastD 0).toNat - 32)) ||
          decide (p.getLastD 0 = 45 ∧ edge.1 = one 45))

def rowLabelled (row : Nat × Case) : Bool :=
  !headerStates.contains row.1 ||
    row.2.edges.all fun edge =>
      !innerStates.contains (target edge.2).2 || edgeLabelled row.1 edge

/-- A row in which each character of `set` that is in none of `others` takes a good step. -/
def rowTakes (set : List (Int × Int)) (others : List (List (Int × Int)))
    (good : List Action × Nat → Bool) (row : Case) : Bool :=
  row.edges.any (fun edge => edge.1 == set) &&
    row.edges.all fun edge => others.contains edge.1 || good (target edge.2)

def statesTake (states : List Nat) (set : List (Int × Int)) (others : List (List (Int × Int)))
    (good : List Action × Nat → Bool) : Bool :=
  states.all fun cs => (cases.lookup cs).any (rowTakes set others good)

/-- A character is in a set of ranges. -/
def inRanges (c : UInt8) (ranges : List (Int × Int)) : Bool :=
  ranges.any fun r => decide (r.1 ≤ signed c ∧ signed c ≤ r.2)

theorem step_of_statesTake {states : List Nat} {set : List (Int × Int)}
    {others : List (List (Int × Int))} {good : List Action × Nat → Bool}
    (htakes : statesTake states set others good = true) {cs : Nat} (hcs : cs ∈ states) {c : UInt8}
    (hset : inRanges c set = true) (hothers : ∀ ranges ∈ others, inRanges c ranges = false) :
    ∃ step, next cs c = some step ∧ good step = true := by
  have hrow := List.all_eq_true.mp htakes cs hcs
  obtain ⟨row, hlookup, hrow⟩ := (Option.any_eq_true _ _).mp hrow
  obtain ⟨hany, hall⟩ := Bool.and_eq_true_iff.mp hrow
  have hnarrow : row.computesWidec = false := by
    obtain ⟨before, rest, hsplit, -⟩ := List.lookup_eq_some_iff.mp hlookup
    have hmem : (cs, row) ∈ cases := by
      rw [hsplit]
      exact List.mem_append_right _ List.mem_cons_self
    exact narrow_of_mem hmem
  have hkey : row.key false c = signed c := by
    rw [Case.key, hnarrow, if_neg Bool.false_ne_true]
  obtain ⟨edge, hedge, hequal⟩ := List.any_eq_true.mp hany
  obtain ⟨taken, htaken⟩ : ∃ taken, row.edges.find? (covers (row.key false c)) = some taken := by
    refine Option.isSome_iff_exists.mp (List.find?_isSome.mpr ⟨edge, hedge, ?_⟩)
    rw [covers, hkey, beq_iff_eq.mp hequal]
    exact hset
  have hcovers := List.find?_some htaken
  rw [hkey] at hcovers
  have hgood := List.all_eq_true.mp hall taken (List.mem_of_find?_eq_some htaken)
  refine ⟨target taken.2, ?_, ?_⟩
  · rw [next, hlookup]
    show (row.goto false c).map target = _
    rw [Case.goto, htaken]
    rfl
  · rcases Bool.or_eq_true_iff.mp hgood with hother | hgood
    · have hnot := hothers taken.1 (List.contains_iff_mem.mp hother)
      have hin : inRanges c taken.1 = true := hcovers
      rw [hin] at hnot
      cases hnot
    · exact hgood

/-- What is done where a name begins. -/
def nameActions : List (List Action) :=
  [[.startField], [.writeConnectionClose, .startField], [.startValue, .startField]]

/-- What the rows of the states of a header say: a name begins and goes on with the characters of a
token and ends with a colon, a value begins with all but blanks and goes on to the end of the line,
and the labels are right. -/
structure HeaderRows : Prop where
  labelled : cases.all rowLabelled = true
  lines : statesTake lineStates token [one 10, one 13, blank]
    (fun step => nameActions.contains step.1 && nameStates.contains step.2) = true
  names : statesTake nameStates token [one 10, one 13, one 58]
    (fun step => step.1.isEmpty && nameStates.contains step.2) = true
  colon : ∀ cs ∈ nameStates, plainNext cs 58 = some ([.writeField],
    if cs = 34 then 35 else if cs = 60 then 61 else if cs = 111 then 112 else 22)
  colons : statesTake colonStates any [one 10, one 13, blank]
    (fun step => step.1 == [.startValue] && valueStates.contains step.2) = true
  values : statesTake valueStates any [one 10, one 13]
    (fun step => step.1.isEmpty && valueStates.contains step.2) = true

theorem headerRows : HeaderRows := by
  constructor <;> decide +kernel

/-! ## Sets of characters -/

theorem token_ranges {c : UInt8} (hc : tokenChar c = true) :
    inRanges c token = true ∧ c ≠ 10 ∧ c ≠ 13 ∧ c ≠ 58 ∧ inRanges c blank = false := by
  have h := forall_byte (p := fun c => !tokenChar c || (inRanges c token && c != 10 && c != 13 &&
    c != 58 && !inRanges c blank)) (by decide +kernel) c
  rw [hc] at h
  simpa [and_assoc] using h

theorem any_ranges (c : UInt8) : inRanges c any = true := by
  have hlt := c.toNat_lt
  simp only [inRanges, any, List.any_cons, List.any_nil, Bool.or_false]
  apply decide_eq_true
  rw [signed]
  split <;> omega

theorem blank_ranges {c : UInt8} (hc : isspace c = false) : inRanges c blank = false := by
  have hlt := c.toNat_lt
  have hlow : 9 ≤ c ↔ 9 ≤ c.toNat := UInt8.le_iff_toNat_le
  have hhigh : c ≤ 13 ↔ c.toNat ≤ 13 := UInt8.le_iff_toNat_le
  have hblank : c = 32 ↔ c.toNat = 32 := UInt8.toNat_inj.symm
  simp only [isspace, Bool.or_eq_false_iff, decide_eq_false_iff_not, beq_eq_false_iff_ne, hlow,
    hhigh, hblank, ne_eq] at hc
  rw [Bool.eq_false_iff]
  intro hin
  simp only [inRanges, blank, List.any_cons, List.any_nil, Bool.or_false, Bool.or_eq_true,
    decide_eq_true_eq] at hin
  rw [signed] at hin
  split at hin <;> omega

theorem one_ranges {c k : UInt8} (hk : k.toNat < 128) (hc : c ≠ k) :
    inRanges c (one k.toNat) = false := by
  rw [Bool.eq_false_iff]
  intro hin
  have hcovers : covers ((narrow []).key false c) (one k.toNat, .st 0) = true := hin
  exact hc (eq_of_covers_one rfl hk hcovers)

/-! ## Words -/

/-- Where a word leads. -/
def ends : Nat → List UInt8 → Option Nat
  | cs, [] => some cs
  | cs, c :: w => (plainNext cs c).bind fun step => ends step.2 w

def toupper (c : UInt8) : UInt8 := if 97 ≤ c ∧ c ≤ 122 then c - 32 else c

/-- Where a word in lower case leads, if the case of a letter plays no role on the way. -/
def folds : Nat → List UInt8 → Option Nat
  | cs, [] => some cs
  | cs, c :: w =>
      if plainNext cs c = plainNext cs (toupper c) then
        (plainNext cs c).bind fun step => folds step.2 w
      else none

theorem tolower_cases (c : UInt8) : c = tolower c ∨ c = toupper (tolower c) := by
  unfold tolower
  split
  · next hupper =>
      right
      have hlow : 65 ≤ c.toNat := UInt8.le_iff_toNat_le.mp hupper.1
      have hhigh : c.toNat ≤ 90 := UInt8.le_iff_toNat_le.mp hupper.2
      have hsum : (c + 32).toNat = c.toNat + 32 := by
        rw [UInt8.toNat_add]
        exact Nat.mod_eq_of_lt (show c.toNat + 32 < 256 by omega)
      rw [toupper, if_pos]
      · exact (UInt8.add_sub_cancel c 32).symm
      · rw [UInt8.le_iff_toNat_le, UInt8.le_iff_toNat_le, hsum]
        exact ⟨Nat.add_le_add_right hlow 32, Nat.add_le_add_right hhigh 32⟩
  · exact .inl rfl

theorem ends_of_folds {cs cs' : Nat} {w : List UInt8} (h : folds cs (w.map tolower) = some cs') :
    ends cs w = some cs' := by
  induction w generalizing cs with
  | nil => exact h
  | cons c w ih =>
      rw [List.map_cons, folds] at h
      split at h
      · next hsame =>
          have hc : plainNext cs c = plainNext cs (tolower c) := by
            rcases tolower_cases c with hlower | hupper
            · exact congrArg (plainNext cs) hlower
            · rw [hsame]
              exact congrArg (plainNext cs) hupper
          obtain ⟨step, hstep, hrest⟩ := Option.bind_eq_some_iff.mp h
          rw [ends, hc, hstep]
          exact ih hrest
      · cases h

/-- The words that make a difference, and where they lead. -/
theorem keyword_folds : (∀ cs ∈ lineStates, folds cs connectionName = some 34 ∧
      folds cs transferEncodingName = some 60 ∧ folds cs contentLengthName = some 111) ∧
    (folds 35 closeValue = some 100 ∧ folds 35 chunkedValue = some 23) ∧
      folds 61 chunkedValue = some 87 ∧ folds 61 closeValue = some 23 := by decide +kernel

/-! ## Labels -/

theorem headerStates_labelled {row : Nat × Case} (hrow : row ∈ cases) (hcs : row.1 ∈ headerStates) :
    ∀ edge ∈ row.2.edges, (target edge.2).2 ∈ innerStates → edgeLabelled row.1 edge = true := by
  intro edge hedge hinner
  have h := List.all_eq_true.mp headerRows.labelled row hrow
  rcases Bool.or_eq_true_iff.mp h with hnot | hall
  · have hin : headerStates.contains row.1 = true := List.contains_iff_mem.mpr hcs
    rw [hin] at hnot
    cases hnot
  · have hall := List.all_eq_true.mp hall edge hedge
    rw [List.contains_iff_mem.mpr hinner] at hall
    exact hall

/-- The characters of a letter. -/
theorem tolower_of_letter {c x : UInt8} (hx : 97 ≤ x ∧ x ≤ 122)
    (hc : inRanges c (letter (x.toNat - 32)) = true) : tolower c = x := by
  have hlow : 97 ≤ x.toNat := UInt8.le_iff_toNat_le.mp hx.1
  have hhigh : x.toNat ≤ 122 := UInt8.le_iff_toNat_le.mp hx.2
  have hcases : c.toNat = x.toNat - 32 ∨ c.toNat = x.toNat := by
    have hlt := c.toNat_lt
    simp only [inRanges, letter, List.any_cons, List.any_nil, Bool.or_false, Bool.or_eq_true,
      decide_eq_true_iff] at hc
    rw [signed] at hc
    split at hc <;> omega
  apply UInt8.toNat_inj.mp
  rw [tolower]
  split
  · next hupper =>
      have hle : c.toNat ≤ 90 := UInt8.le_iff_toNat_le.mp hupper.2
      rw [UInt8.toNat_add]
      show (c.toNat + 32) % 256 = _
      omega
  · next hother =>
      rw [UInt8.le_iff_toNat_le, UInt8.le_iff_toNat_le] at hother
      simp only [show (65 : UInt8).toNat = 65 from rfl, show (90 : UInt8).toNat = 90 from rfl]
        at hother
      omega

/-- A step into a labelled state adds its character to the label. -/
theorem label_step {cs cs' : Nat} {c : UInt8} {actions : List Action} {p : List UInt8}
    (hcs : cs ∈ headerStates) (hnext : next cs c = some (actions, cs')) (hinner : cs' ∈ innerStates)
    (hlabel : label cs' = some p) : ∃ q, label cs = some q ∧ p = q ++ [tolower c] := by
  obtain ⟨row, edge, hrow, hedge, htarget, hcovers⟩ := edge_of_next hnext
  have hlabelled := headerStates_labelled hrow hcs edge hedge (by rw [htarget]; exact hinner)
  rw [edgeLabelled, htarget, hlabel] at hlabelled
  have hkey : row.key false c = signed c := by
    rw [Case.key, narrow_of_mem hrow, if_neg Bool.false_ne_true]
  rw [covers, hkey] at hcovers
  cases hq : label cs with
  | none =>
      simp only [hq] at hlabelled
      cases hlabelled
  | some q =>
      simp only [hq] at hlabelled
      obtain ⟨hsplit, hchar⟩ := Bool.and_eq_true_iff.mp hlabelled
      refine ⟨q, rfl, ?_⟩
      have hlast : tolower c = p.getLastD 0 := by
        rcases Bool.or_eq_true_iff.mp hchar with hletter | hdash
        · obtain ⟨hlow, hhigh, hranges⟩ := of_decide_eq_true hletter
          refine tolower_of_letter ⟨hlow, hhigh⟩ ?_
          rw [← hranges]
          exact hcovers
        · obtain ⟨hdash, hranges⟩ := of_decide_eq_true hdash
          have hc : c = 45 := by
            refine eq_of_covers_one (narrow_of_mem hrow) (show (45 : UInt8).toNat < 128 by decide)
              (e := edge.2) ?_
            rw [covers, hkey, show one (45 : UInt8).toNat = edge.1 from hranges.symm]
            exact hcovers
          rw [hc, hdash]
          rfl
      rw [hlast]
      exact beq_iff_eq.mp hsplit

/-! ## Words in their states -/

theorem plainNext_of_ne {cs : Nat} {c : UInt8} (hfeed : c ≠ 10) (hreturn : c ≠ 13) :
    plainNext cs c = next cs c := by
  rw [plainNext, if_neg]
  rintro ⟨-, h | h⟩
  · exact hfeed h
  · exact hreturn h

theorem inner_go : ∀ cs ∈ innerStates, plain.halts cs = false := by decide

/-- A way from a state through a word, with what the labels say about it. -/
structure Way (cs : Nat) (w : List UInt8) (cs' : Nat) : Prop where
  ends : ends cs w = some cs'
  label : ∀ p, label cs' = some p → ∃ q, label cs = some q ∧ p = q ++ w.map tolower

theorem Way.cons {cs cs₁ cs' : Nat} {c : UInt8} {actions : List Action} {w : List UInt8}
    (hcs : cs ∈ headerStates) (hnext : plainNext cs c = some (actions, cs₁))
    (hinner : cs₁ ∈ innerStates) (hway : Way cs₁ w cs') : Way cs (c :: w) cs' := by
  constructor
  · rw [Client.ends, hnext]
    exact hway.ends
  · intro p hp
    obtain ⟨q₁, hq₁, hsplit⟩ := hway.label p hp
    obtain ⟨q, hq, hsplit₁⟩ := label_step hcs (next_of_plain hnext) hinner hq₁
    refine ⟨q, hq, ?_⟩
    rw [hsplit, hsplit₁, List.append_assoc]
    rfl

/-- **A keyword** leads to its state, and nothing else does. -/
theorem Way.keyword_iff {cs cs' t : Nat} {w keyword : List UInt8} (hway : Way cs w cs')
    (hstart : Client.label cs = some []) (hlower : keyword.map tolower = keyword)
    (hfolds : folds cs keyword = some t) (ht : Client.label t = some keyword) :
    strcasecmpEq w keyword = true ↔ cs' = t := by
  rw [strcasecmpEq, beq_iff_eq, hlower]
  constructor
  · intro hw
    exact Option.some.inj (hway.ends.symm.trans (ends_of_folds (hw ▸ hfolds)))
  · rintro rfl
    obtain ⟨q, hq, hsplit⟩ := hway.label keyword ht
    rw [hstart] at hq
    cases hq
    exact hsplit.symm

/-- A state whose word leads elsewhere from here. -/
theorem Way.ne_of_folds {cs cs' s t : Nat} {w keyword : List UInt8} (hway : Way cs w cs')
    (hstart : Client.label cs = some []) (hfolds : folds cs keyword = some s)
    (ht : Client.label t = some keyword) (hne : s ≠ t) : cs' ≠ t := by
  rintro rfl
  obtain ⟨q, hq, hsplit⟩ := hway.label keyword ht
  rw [hstart] at hq
  cases hq
  have hsame := ends_of_folds (w := w) (hsplit ▸ hfolds)
  exact hne (Option.some.inj (hsame.symm.trans hway.ends))

/-- A set of states that a word does not leave. -/
theorem word_pass {states : List Nat} {ok : UInt8 → Prop} (hinner : states ⊆ innerStates)
    (hstep : ∀ cs ∈ states, ∀ c, ok c → ∃ cs' ∈ states, plainNext cs c = some ([], cs')) {cs : Nat}
    (hcs : cs ∈ states) {w : List UInt8} (hw : ∀ c ∈ w, ok c) :
    ∃ cs' ∈ states, plain.pass cs w = some cs' ∧ Way cs w cs' := by
  induction w generalizing cs with
  | nil => exact ⟨cs, hcs, rfl, rfl, fun p hp => ⟨p, hp, (List.append_nil p).symm⟩⟩
  | cons c w ih =>
      obtain ⟨cs₁, hcs₁, hnext⟩ := hstep cs hcs c (hw c List.mem_cons_self)
      obtain ⟨cs', hcs', hpass, hway⟩ := ih hcs₁ fun c hc => hw c (List.mem_cons_of_mem _ hc)
      refine ⟨cs', hcs', ?_, hway.cons ?_ hnext (hinner hcs₁)⟩
      · rw [Control.pass_step hnext (inner_go cs₁ (hinner hcs₁))]
        exact hpass
      · exact List.mem_append_right _ (hinner hcs)

/-! ## Names -/

theorem names_inner : nameStates ⊆ innerStates := List.subset_append_left _ _

theorem values_inner : valueStates ⊆ innerStates := List.subset_append_right _ _

section Steps

variable {cs : Nat} {c : UInt8}

theorem name_step (hcs : cs ∈ nameStates) (hc : tokenChar c = true) :
    ∃ cs' ∈ nameStates, plainNext cs c = some ([], cs') := by
  obtain ⟨hc, hfeed, hreturn, hcolon, -⟩ := token_ranges hc
  obtain ⟨⟨actions, cs'⟩, hnext, hgood⟩ := step_of_statesTake headerRows.names hcs hc (by
    rintro ranges hranges
    simp only [List.mem_cons, List.not_mem_nil, or_false] at hranges
    rcases hranges with rfl | rfl | rfl
    · exact one_ranges (by decide : (10 : UInt8).toNat < 128) hfeed
    · exact one_ranges (by decide : (13 : UInt8).toNat < 128) hreturn
    · exact one_ranges (by decide : (58 : UInt8).toNat < 128) hcolon)
  obtain ⟨hempty, hname⟩ := Bool.and_eq_true_iff.mp hgood
  obtain rfl : actions = [] := List.isEmpty_iff.mp hempty
  exact ⟨cs', List.contains_iff_mem.mp hname, (plainNext_of_ne hfeed hreturn).trans hnext⟩

theorem line_step (hcs : cs ∈ lineStates) (hc : tokenChar c = true) :
    ∃ actions ∈ nameActions, ∃ cs' ∈ nameStates, plainNext cs c = some (actions, cs') := by
  obtain ⟨hc, hfeed, hreturn, -, hblank⟩ := token_ranges hc
  obtain ⟨⟨actions, cs'⟩, hnext, hgood⟩ := step_of_statesTake headerRows.lines hcs hc (by
    rintro ranges hranges
    simp only [List.mem_cons, List.not_mem_nil, or_false] at hranges
    rcases hranges with rfl | rfl | rfl
    · exact one_ranges (by decide : (10 : UInt8).toNat < 128) hfeed
    · exact one_ranges (by decide : (13 : UInt8).toNat < 128) hreturn
    · exact hblank)
  obtain ⟨hactions, hname⟩ := Bool.and_eq_true_iff.mp hgood
  exact ⟨actions, List.contains_iff_mem.mp hactions, cs', List.contains_iff_mem.mp hname,
    (plainNext_of_ne hfeed hreturn).trans hnext⟩

theorem value_step (hcs : cs ∈ valueStates) (hline : c ≠ 10 ∧ c ≠ 13) :
    ∃ cs' ∈ valueStates, plainNext cs c = some ([], cs') := by
  obtain ⟨hfeed, hreturn⟩ := hline
  obtain ⟨⟨actions, cs'⟩, hnext, hgood⟩ :=
    step_of_statesTake headerRows.values hcs (any_ranges c) (by
      rintro ranges hranges
      simp only [List.mem_cons, List.not_mem_nil, or_false] at hranges
      rcases hranges with rfl | rfl
      · exact one_ranges (by decide : (10 : UInt8).toNat < 128) hfeed
      · exact one_ranges (by decide : (13 : UInt8).toNat < 128) hreturn)
  obtain ⟨hempty, hvalue⟩ := Bool.and_eq_true_iff.mp hgood
  obtain rfl : actions = [] := List.isEmpty_iff.mp hempty
  exact ⟨cs', List.contains_iff_mem.mp hvalue, (plainNext_of_ne hfeed hreturn).trans hnext⟩

theorem colon_step (hcs : cs ∈ colonStates) (hline : c ≠ 10 ∧ c ≠ 13) (hc : isspace c = false) :
    ∃ cs' ∈ valueStates, plainNext cs c = some ([.startValue], cs') := by
  obtain ⟨hfeed, hreturn⟩ := hline
  obtain ⟨⟨actions, cs'⟩, hnext, hgood⟩ :=
    step_of_statesTake headerRows.colons hcs (any_ranges c) (by
      rintro ranges hranges
      simp only [List.mem_cons, List.not_mem_nil, or_false] at hranges
      rcases hranges with rfl | rfl | rfl
      · exact one_ranges (by decide : (10 : UInt8).toNat < 128) hfeed
      · exact one_ranges (by decide : (13 : UInt8).toNat < 128) hreturn
      · exact blank_ranges hc)
  obtain ⟨hactions, hvalue⟩ := Bool.and_eq_true_iff.mp hgood
  obtain rfl : actions = [.startValue] := beq_iff_eq.mp hactions
  exact ⟨cs', List.contains_iff_mem.mp hvalue, (plainNext_of_ne hfeed hreturn).trans hnext⟩

end Steps

/-- Where the colon behind a name leads. -/
def colonOf (name : List UInt8) : Nat :=
  if strcasecmpEq name connectionName then 35
  else if strcasecmpEq name transferEncodingName then 61
  else if strcasecmpEq name contentLengthName then 112
  else 22

theorem lines_label : ∀ cs ∈ lineStates, label cs = some [] ∧ cs ∈ headerStates := by decide

/-- The way through a name, up to the colon. -/
theorem name_way {cs : Nat} (hcs : cs ∈ lineStates) {c : UInt8} {w : List UInt8}
    (hname : FieldName (c :: w)) :
    ∃ actions ∈ nameActions, ∃ cs₁ cs', plainNext cs c = some (actions, cs₁) ∧
      plain.halts cs₁ = false ∧ plain.pass cs₁ w = some cs' ∧
      plainNext cs' 58 = some ([.writeField], colonOf (c :: w)) := by
  obtain ⟨actions, hactions, cs₁, hcs₁, hfirst⟩ :=
    line_step hcs (hname.token c List.mem_cons_self)
  obtain ⟨cs', hcs', hpass, hway⟩ := word_pass names_inner
    (fun cs hcs c hc => name_step hcs hc) hcs₁ fun c hc =>
      hname.token c (List.mem_cons_of_mem _ hc)
  refine ⟨actions, hactions, cs₁, cs', hfirst, inner_go cs₁ (names_inner hcs₁), hpass, ?_⟩
  obtain ⟨hstart, hheader⟩ := lines_label cs hcs
  have hway : Way cs (c :: w) cs' := hway.cons hheader hfirst (names_inner hcs₁)
  obtain ⟨hconnection, htransfer, hlength⟩ := keyword_folds.1 cs hcs
  rw [headerRows.colon cs' hcs']
  simp only [colonOf, hway.keyword_iff hstart (by decide) hconnection (by decide),
    hway.keyword_iff hstart (by decide) htransfer (by decide),
    hway.keyword_iff hstart (by decide) hlength (by decide)]

end Client
end Http
end Routn
