import Mathlib.Data.List.Basic
import Mathlib.Tactic

/-!
# `LogFormatter::init`

The pattern is cut into literal text and items, which are looked up in a table.  What is in front of
an item is carried in `nstr`.  For `%%` a `%` is put there, but the second one is looked at again:
it starts an item with what follows, or is the first one of another `%%`.

A position in the pattern is what is left of it from there on.
-/

namespace Routn
namespace LogFormatter

/-- The classes of items, but for the one of literal text. -/
inductive ItemClass
  | MessageFormatItem
  | LevelFormatItem
  | ElapseFormatItem
  | LogNameFormatItem
  | ThreadIdFormatItem
  | GetLineFormatItem
  | DateFormatItem
  | FilenameFormatItem
  | LineNumberFormatItem
  | TabFormatItem
  | FiberIdFormatItem
  | ThreadNameFormatItem
deriving DecidableEq, Repr

open ItemClass

/-- `s_format_items` -/
def s_format_items : List (List Char × ItemClass) :=
  [(['m'], MessageFormatItem), (['p'], LevelFormatItem), (['r'], ElapseFormatItem),
   (['c'], LogNameFormatItem), (['t'], ThreadIdFormatItem), (['n'], GetLineFormatItem),
   (['d'], DateFormatItem), (['f'], FilenameFormatItem), (['l'], LineNumberFormatItem),
   (['T'], TabFormatItem), (['F'], FiberIdFormatItem), (['N'], ThreadNameFormatItem)]

inductive FormatItem
  | StringFormatItem (str : List Char)
  | item (kind : ItemClass) (fmt : List Char)
deriving DecidableEq, Repr

open FormatItem

/-- An entry of `vec`. -/
structure Entry where
  str : List Char
  fmt : List Char
  type : Nat
deriving DecidableEq, Repr

/-! ## The scan of an item -/

/-- `fmt_status` at the end of the scan; zero comes with `str`, `fmt` and what is left. -/
inductive Scan
  | zero (str fmt rest : List Char)
  | one
deriving DecidableEq, Repr

/-- The scan with `fmt_status` one; `fmt` is what is read behind `fmt_begin`. -/
def scanFormat (str fmt : List Char) : List Char → Scan
  | [] => .one
  | c :: rest => if c = '}' then .zero str fmt rest else scanFormat str (fmt ++ [c]) rest

/-- The scan with `fmt_status` zero; `name` is what is read behind the `%`. -/
def scanName (name : List Char) : List Char → Scan
  | [] => .zero name [] []
  | c :: rest =>
      if !c.isAlpha && c ≠ '{' && c ≠ '}' then .zero name [] (c :: rest)
      else if c = '{' then scanFormat name [] rest
      else scanName (name ++ [c]) rest

theorem scanFormat_length {str fmt s str' fmt' rest : List Char}
    (h : scanFormat str fmt s = .zero str' fmt' rest) : rest.length ≤ s.length := by
  induction s generalizing fmt with
  | nil => simp [scanFormat] at h
  | cons c s ih =>
      rw [scanFormat] at h
      split at h
      · simp only [Scan.zero.injEq] at h
        simp [h.2.2]
      · exact (ih h).trans (Nat.le_succ _)

theorem scanName_length {name s str fmt rest : List Char}
    (h : scanName name s = .zero str fmt rest) : rest.length ≤ s.length := by
  induction s generalizing name with
  | nil =>
      simp only [scanName, Scan.zero.injEq] at h
      simp [← h.2.2]
  | cons c s ih =>
      rw [scanName] at h
      split at h
      · simp only [Scan.zero.injEq] at h
        simp [← h.2.2]
      · split at h
        · exact (scanFormat_length h).trans (Nat.le_succ _)
        · exact (ih h).trans (Nat.le_succ _)

/-! ## The loop -/

/-- `nstr`, when it is not empty. -/
def flush (nstr : List Char) : List Entry := if nstr = [] then [] else [⟨nstr, [], 0⟩]

/-- The loop over the pattern: what it puts into `vec`, and `_error`. -/
def initLoop (nstr : List Char) : List Char → List Entry × Bool
  | [] => (flush nstr, false)
  | c :: rest =>
      if c ≠ '%' then initLoop (nstr ++ [c]) rest
      else if rest.head? = some '%' then initLoop (nstr ++ ['%']) rest
      else
        match _h : scanName [] rest with
        | .zero str fmt rest' =>
            let (vec, error) := initLoop [] rest'
            (flush nstr ++ ⟨str, fmt, 1⟩ :: vec, error)
        | .one =>
            let (vec, _) := initLoop nstr rest
            (⟨"<<pattern_error>>".toList, [], 0⟩ :: vec, true)
termination_by s => s.length
decreasing_by
  all_goals simp
  exact scanName_length _h

/-- What is made of an entry, and whether that is an error. -/
def makeItem (i : Entry) : FormatItem × Bool :=
  if i.type = 0 then (StringFormatItem i.str, false)
  else
    match s_format_items.lookup i.str with
    | none => (StringFormatItem ("<< Error_format %".toList ++ i.str ++ ">>".toList), true)
    | some kind => (.item kind i.fmt, false)

/-- `_Vec_items` and `_error`. -/
@[ext] structure Formatter where
  items : List FormatItem
  error : Bool
deriving DecidableEq, Repr

/-- The loop over `vec`. -/
def make (vec : List Entry × Bool) : Formatter :=
  ⟨vec.1.map fun i => (makeItem i).1, vec.2 || vec.1.any fun i => (makeItem i).2⟩

def init (_pattern : List Char) : Formatter := make (initLoop [] _pattern)

/-! ## Patterns -/

/-- What a pattern is made of. -/
inductive Piece
  | text (s : List Char)
  | percent
  | item (x : Char)
  | itemFormat (x : Char) (fmt : List Char)
deriving DecidableEq, Repr

namespace Piece

def pattern : Piece → List Char
  | text s => s
  | percent => ['%', '%']
  | item x => ['%', x]
  | itemFormat x fmt => '%' :: x :: '{' :: fmt ++ ['}']

/-- The pattern of several pieces. -/
def patterns (pieces : List Piece) : List Char := pieces.flatMap pattern

/-- The class that a letter stands for. -/
def kind (x : Char) : Option ItemClass := s_format_items.lookup [x]

/-- Nothing that could belong to a plain item stands in front. -/
def Ends (s : List Char) : Prop := ∀ c, s.head? = some c → ¬ c.isAlpha ∧ c ≠ '{' ∧ c ≠ '}'

/-- The pieces of a pattern. -/
def Legal : List Piece → Prop
  | [] => True
  | text s :: pieces => '%' ∉ s ∧ Legal pieces
  | percent :: pieces => Legal pieces
  | item x :: pieces => (kind x).isSome ∧ Ends (patterns pieces) ∧ Legal pieces
  | itemFormat x fmt :: pieces => (kind x).isSome ∧ '}' ∉ fmt ∧ Legal pieces

/-- The item of some literal text. -/
def literal (nstr : List Char) : List FormatItem :=
  if nstr = [] then [] else [StringFormatItem nstr]

/-- The items that stand for the pieces, where `nstr` is the literal text in front of them. -/
def items (nstr : List Char) : List Piece → List FormatItem
  | [] => literal nstr
  | text s :: pieces => items (nstr ++ s) pieces
  | percent :: pieces => items (nstr ++ ['%']) pieces
  | item x :: pieces => literal nstr ++ ((kind x).toList.map (.item · [])) ++ items [] pieces
  | itemFormat x fmt :: pieces =>
      literal nstr ++ ((kind x).toList.map (.item · fmt)) ++ items [] pieces

end Piece

open Piece

/-! ## What is printed -/

section Format

-- What the item of a class and a format prints of an event.
variable (prints : ItemClass → List Char → List Char)

def Format : FormatItem → List Char
  | StringFormatItem str => str
  | .item kind fmt => prints kind fmt

def format (formatter : Formatter) : List Char := formatter.items.flatMap (Format prints)

/-- What is to be printed for a piece. -/
def Piece.print : Piece → List Char
  | .text s => s
  | .percent => ['%']
  | .item x => (kind x).toList.flatMap (prints · [])
  | .itemFormat x fmt => (kind x).toList.flatMap (prints · fmt)

/-- The items of some pieces print the pieces in order. -/
theorem format_items (nstr : List Char) (pieces : List Piece) (error : Bool) :
    format prints ⟨items nstr pieces, error⟩ = nstr ++ pieces.flatMap (Piece.print prints) := by
  have hliteral (nstr : List Char) : (literal nstr).flatMap (Format prints) = nstr := by
    by_cases h : nstr = [] <;> simp [literal, h, Format]
  induction pieces generalizing nstr with
  | nil => simp [format, items, hliteral]
  | cons piece pieces ih =>
      simp only [format] at ih
      cases piece <;>
        simp [format, items, ih, hliteral, Piece.print, List.flatMap_map, Format]

end Format

/-! ## What the loop makes of a piece -/

/-- The formatter that the loop makes of the rest of a pattern. -/
def makeFrom (nstr s : List Char) : Formatter := make (initLoop nstr s)

theorem makeItem_text (str : List Char) : makeItem ⟨str, [], 0⟩ = (StringFormatItem str, false) :=
  if_pos rfl

/-- There is no item without a letter. -/
theorem makeItem_nil : (makeItem ⟨[], [], 1⟩).2 = true := by
  decide

theorem map_flush (nstr : List Char) :
    (flush nstr).map (fun i => (makeItem i).1) = literal nstr := by
  by_cases h : nstr = [] <;> simp [flush, literal, makeItem_text, h]

theorem any_flush (nstr : List Char) : (flush nstr).any (fun i => (makeItem i).2) = false := by
  by_cases h : nstr = [] <;> simp [flush, makeItem_text, h]

@[simp] theorem makeFrom_nil (nstr : List Char) : makeFrom nstr [] = ⟨literal nstr, false⟩ := by
  simp [makeFrom, make, initLoop, map_flush, any_flush]

theorem makeFrom_text {s : List Char} (h : '%' ∉ s) (nstr rest : List Char) :
    makeFrom nstr (s ++ rest) = makeFrom (nstr ++ s) rest := by
  induction s generalizing nstr with
  | nil => simp
  | cons c s ih =>
      simp only [List.mem_cons, not_or] at h
      have hstep : makeFrom nstr (c :: (s ++ rest)) = makeFrom (nstr ++ [c]) (s ++ rest) := by
        simp [makeFrom, initLoop, Ne.symm h.1]
      rw [List.cons_append, hstep, ih h.2]
      simp

/-- Of two `%` the second one is left. -/
theorem makeFrom_percent (nstr rest : List Char) :
    makeFrom nstr ('%' :: '%' :: rest) = makeFrom (nstr ++ ['%']) ('%' :: rest) := by
  rw [makeFrom, initLoop]
  simp [makeFrom]

/-- An item that is closed. -/
theorem makeFrom_zero {nstr s str fmt rest : List Char} (hhead : s.head? ≠ some '%')
    (hscan : scanName [] s = .zero str fmt rest) :
    makeFrom nstr ('%' :: s) =
      ⟨literal nstr ++ (makeItem ⟨str, fmt, 1⟩).1 :: (makeFrom [] rest).items,
        (makeItem ⟨str, fmt, 1⟩).2 || (makeFrom [] rest).error⟩ := by
  have hloop : initLoop nstr ('%' :: s) =
      (flush nstr ++ ⟨str, fmt, 1⟩ :: (initLoop [] rest).1, (initLoop [] rest).2) := by
    rw [initLoop]
    simp only [ne_eq, not_true_eq_false, if_false, hhead]
    split <;> rename_i h <;> rw [hscan] at h
    · cases h
      rfl
    · cases h
  simp only [makeFrom, make, hloop, List.map_append, List.map_cons, map_flush, List.any_append,
    List.any_cons, any_flush, Bool.false_or, Formatter.mk.injEq, true_and]
  cases (initLoop [] rest).2 <;> simp

/-- An item that is not closed is an error. -/
theorem makeFrom_one {nstr s : List Char} (hhead : s.head? ≠ some '%')
    (hscan : scanName [] s = .one) : (makeFrom nstr ('%' :: s)).error = true := by
  have hloop : (initLoop nstr ('%' :: s)).2 = true := by
    rw [initLoop]
    simp only [ne_eq, not_true_eq_false, if_false, hhead]
    split <;> rename_i h <;> rw [hscan] at h
    cases h
  simp [makeFrom, make, hloop]

/-! ## The items of a pattern -/

theorem scanName_ends {name s : List Char} (h : Ends s) : scanName name s = .zero name [] s := by
  cases s with
  | nil => simp [scanName]
  | cons c s =>
      have hc := h c rfl
      simp [scanName, hc]

theorem scanFormat_append {fmt : List Char} (h : '}' ∉ fmt) (str acc rest : List Char) :
    scanFormat str acc (fmt ++ '}' :: rest) = .zero str (acc ++ fmt) rest := by
  induction fmt generalizing acc with
  | nil => simp [scanFormat]
  | cons c fmt ih =>
      simp only [List.mem_cons, not_or] at h
      simp [scanFormat, Ne.symm h.1, ih h.2]

/-- The letters of the table are letters. -/
theorem isAlpha_of_kind {x : Char} {cls : ItemClass} (h : kind x = some cls) : x.isAlpha := by
  obtain ⟨front, back, htable, -⟩ := List.lookup_eq_some_iff.mp h
  have hmem : ([x], cls) ∈ s_format_items := by
    rw [htable]
    simp
  have hall : (s_format_items.all fun entry => entry.1.all Char.isAlpha) = true := by decide
  simpa using List.all_eq_true.mp hall _ hmem

theorem ne_of_kind {x : Char} {cls : ItemClass} (h : kind x = some cls) :
    x ≠ '%' ∧ x ≠ '{' ∧ x ≠ '}' := by
  have halpha := isAlpha_of_kind h
  refine ⟨?_, ?_, ?_⟩ <;>
    · rintro rfl
      exact absurd halpha (by decide)

theorem makeItem_kind {x : Char} {cls : ItemClass} (h : kind x = some cls) (fmt : List Char) :
    makeItem ⟨[x], fmt, 1⟩ = (.item cls fmt, false) := by
  rw [kind] at h
  simp [makeItem, h]

theorem makeFrom_item {x : Char} {cls : ItemClass} (h : kind x = some cls) {s : List Char}
    (hends : Ends s) (nstr : List Char) :
    makeFrom nstr ('%' :: x :: s) =
      ⟨literal nstr ++ .item cls [] :: (makeFrom [] s).items, (makeFrom [] s).error⟩ := by
  have hne := ne_of_kind h
  have hscan : scanName [] (x :: s) = .zero [x] [] s := by
    simp [scanName, isAlpha_of_kind h, hne, scanName_ends hends]
  rw [makeFrom_zero (by simpa using hne.1) hscan, makeItem_kind h]
  simp

theorem makeFrom_itemFormat {x : Char} {cls : ItemClass} (h : kind x = some cls)
    {fmt : List Char} (hfmt : '}' ∉ fmt) (nstr s : List Char) :
    makeFrom nstr ('%' :: x :: '{' :: (fmt ++ '}' :: s)) =
      ⟨literal nstr ++ .item cls fmt :: (makeFrom [] s).items, (makeFrom [] s).error⟩ := by
  have hne := ne_of_kind h
  have hscan : scanName [] (x :: '{' :: (fmt ++ '}' :: s)) = .zero [x] fmt s := by
    simp [scanName, isAlpha_of_kind h, hne, scanFormat_append hfmt]
  rw [makeFrom_zero (by simpa using hne.1) hscan, makeItem_kind h]
  simp

/-! ## A second `%` -/

/-- The literal text in front is in front of everything else. -/
theorem head?_items (nstr : List Char) (h : nstr ≠ []) (pieces : List Piece) :
    ∃ more, (items nstr pieces).head? = some (StringFormatItem (nstr ++ more)) := by
  induction pieces generalizing nstr with
  | nil => exact ⟨[], by simp [items, literal, h]⟩
  | cons piece pieces ih =>
      cases piece with
      | text s =>
          obtain ⟨more, hmore⟩ := ih (nstr ++ s) (by simp [h])
          exact ⟨s ++ more, by simpa [items] using hmore⟩
      | percent =>
          obtain ⟨more, hmore⟩ := ih (nstr ++ ['%']) (by simp)
          exact ⟨'%' :: more, by simpa [items] using hmore⟩
      | item x => exact ⟨[], by simp [items, literal, h]⟩
      | itemFormat x fmt => exact ⟨[], by simp [items, literal, h]⟩

/-- When a `%` is left in front of anything but another one, the literal text is closed, or there is
an error. -/
theorem makeFrom_left {nstr s : List Char} (h : nstr ≠ []) (hhead : s.head? ≠ some '%') :
    (makeFrom nstr ('%' :: s)).error = true ∨
      (makeFrom nstr ('%' :: s)).items.head? = some (StringFormatItem nstr) := by
  cases hscan : scanName [] s with
  | zero str fmt rest =>
      rw [makeFrom_zero hhead hscan]
      simp [literal, h]
  | one => exact .inl (makeFrom_one hhead hscan)

/-- More `%` than there should be, and then something else. -/
theorem percents_ne (nstr rest : List Char) {m k : Nat} (hle : k ≤ m)
    (hrest : k = m → rest ≠ []) (hhead : rest.head? ≠ some '%') :
    nstr ++ List.replicate m '%' ≠ nstr ++ List.replicate k '%' ++ rest := by
  intro heq
  rw [List.append_assoc, List.append_cancel_left_eq] at heq
  obtain ⟨extra, rfl⟩ := Nat.exists_eq_add_of_le hle
  rw [List.replicate_add, List.append_cancel_left_eq] at heq
  cases extra with
  | zero => exact hrest (by simp) (by simpa using heq.symm)
  | succ extra =>
      rw [← heq] at hhead
      simp [List.replicate_succ] at hhead

/-- The literal text that is closed is not the one that should be there. -/
theorem ne_of_left {nstr s : List Char} {expected : List FormatItem} (h : nstr ≠ [])
    (hhead : s.head? ≠ some '%') (hne : expected.head? ≠ some (StringFormatItem nstr)) :
    makeFrom nstr ('%' :: s) ≠ ⟨expected, false⟩ := by
  intro heq
  rcases makeFrom_left h hhead with herror | hitems
  · simp [heq] at herror
  · exact hne (by simpa [heq] using hitems)

theorem append_percent (nstr : List Char) (m : Nat) :
    nstr ++ List.replicate m '%' ++ ['%'] = nstr ++ List.replicate (m + 1) '%' := by
  simp [List.replicate_succ']

theorem append_percents_ne_nil (nstr : List Char) {m : Nat} (hm : 0 < m) :
    nstr ++ List.replicate m '%' ≠ [] := by
  simp
  omega

theorem literal_of_ne_nil {nstr : List Char} (h : nstr ≠ []) :
    literal nstr = [StringFormatItem nstr] := if_neg h

/-- An item behind a `%` that is left over. -/
theorem makeFrom_left_item {x : Char} (hx : x ≠ '%') (nstr rest : List Char)
    (expected : List FormatItem) {m k : Nat} (hk : 0 < k) (hle : k ≤ m) :
    makeFrom (nstr ++ List.replicate m '%') ('%' :: '%' :: x :: rest) ≠
      ⟨literal (nstr ++ List.replicate k '%') ++ expected, false⟩ := by
  have hcount := percents_ne nstr [] (Nat.le_succ_of_le hle) (by omega)
    (by simp)
  rw [makeFrom_percent, append_percent, literal_of_ne_nil (append_percents_ne_nil nstr hk)]
  apply ne_of_left (append_percents_ne_nil nstr (Nat.succ_pos m)) (by simpa using hx)
  intro heq
  simp only [List.singleton_append, List.head?_cons, Option.some.injEq,
    StringFormatItem.injEq] at heq
  exact hcount (by simpa using heq.symm)

/-- **With a `%` left over** the items are not those of the pieces: `m` counts the `%` that are in
the literal text and `k` those that should be there. -/
theorem makeFrom_spoiled (pieces : List Piece) (hlegal : Legal pieces) (nstr : List Char)
    {m k : Nat} (hk : 0 < k) (hle : k ≤ m) :
    makeFrom (nstr ++ List.replicate m '%') ('%' :: patterns pieces) ≠
      ⟨items (nstr ++ List.replicate k '%') pieces, false⟩ := by
  induction pieces generalizing m k with
  | nil =>
      have hscan : scanName [] [] = .zero [] [] [] := rfl
      rw [patterns, List.flatMap_nil, makeFrom_zero (by simp) hscan, makeItem_nil]
      intro heq
      have herror : true = false := congrArg Formatter.error heq
      cases herror
  | cons piece pieces ih =>
      cases piece with
      | text s =>
          cases s with
          | nil => simpa [patterns, pattern, items] using ih hlegal.2 hk hle
          | cons c s =>
              have hc : c ≠ '%' := by
                rintro rfl
                exact hlegal.1 (by simp)
              obtain ⟨more, hmore⟩ := head?_items
                (nstr ++ List.replicate k '%' ++ c :: s) (by simp) pieces
              apply ne_of_left (append_percents_ne_nil nstr (by omega))
                (by simpa [patterns, pattern] using hc)
              have hcount := percents_ne nstr (c :: s ++ more) hle (by simp)
                (by simpa using hc)
              rw [items, hmore]
              simpa [eq_comm] using hcount
      | percent =>
          have hrest := ih hlegal (m := m + 2) (k := k + 1) (by omega) (by omega)
          have hpattern : patterns (percent :: pieces) = '%' :: '%' :: patterns pieces := rfl
          rw [hpattern, makeFrom_percent, makeFrom_percent, append_percent, append_percent]
          simpa only [items, append_percent] using hrest
      | item x =>
          obtain ⟨cls, hkind⟩ := Option.isSome_iff_exists.mp hlegal.1
          have hpattern : patterns (item x :: pieces) = '%' :: x :: patterns pieces := rfl
          rw [hpattern]
          simpa [items] using
            makeFrom_left_item (ne_of_kind hkind).1 nstr (patterns pieces) _ hk hle
      | itemFormat x fmt =>
          obtain ⟨cls, hkind⟩ := Option.isSome_iff_exists.mp hlegal.1
          have hpattern : patterns (itemFormat x fmt :: pieces) =
              '%' :: x :: ('{' :: fmt ++ '}' :: patterns pieces) := by
            simp [patterns, pattern]
          rw [hpattern]
          simpa [items] using
            makeFrom_left_item (ne_of_kind hkind).1 nstr _ _ hk hle

/-! ## The pieces of a pattern -/

theorem makeFrom_iff {pieces : List Piece} (hlegal : Legal pieces) (nstr : List Char) :
    makeFrom nstr (patterns pieces) = ⟨items nstr pieces, false⟩ ↔ percent ∉ pieces := by
  induction pieces generalizing nstr with
  | nil => simp [patterns, items]
  | cons piece pieces ih =>
      cases piece with
      | text s =>
          have hpattern : patterns (text s :: pieces) = s ++ patterns pieces := rfl
          rw [hpattern, makeFrom_text hlegal.1, items, ih hlegal.2]
          simp
      | percent =>
          have hspoiled := makeFrom_spoiled pieces hlegal nstr (m := 1) (k := 1) (by decide)
            le_rfl
          have hpattern : patterns (percent :: pieces) = '%' :: '%' :: patterns pieces := rfl
          rw [hpattern, makeFrom_percent]
          simpa [items] using hspoiled
      | item x =>
          obtain ⟨hkind, hends, hrest⟩ := hlegal
          obtain ⟨cls, hkind⟩ := Option.isSome_iff_exists.mp hkind
          have hpattern : patterns (item x :: pieces) = '%' :: x :: patterns pieces := rfl
          have hih := ih hrest []
          rw [hpattern, makeFrom_item hkind hends]
          simpa [items, hkind, Formatter.ext_iff] using hih
      | itemFormat x fmt =>
          obtain ⟨hkind, hfmt, hrest⟩ := hlegal
          obtain ⟨cls, hkind⟩ := Option.isSome_iff_exists.mp hkind
          have hpattern : patterns (itemFormat x fmt :: pieces) =
              '%' :: x :: '{' :: (fmt ++ '}' :: patterns pieces) := by
            simp [patterns, pattern]
          have hih := ih hrest []
          rw [hpattern, makeFrom_itemFormat hkind hfmt]
          simpa [items, hkind, Formatter.ext_iff] using hih

/-- **The items of a pattern.**  There is no error and the items are those of the pieces, unless
`%%` is one of them. -/
theorem init_iff {pieces : List Piece} (hlegal : Legal pieces) :
    init (patterns pieces) = ⟨items [] pieces, false⟩ ↔ percent ∉ pieces :=
  makeFrom_iff hlegal []

/-- `init_iff` for `[%p]%d{%H}`. -/
theorem init_iff_level :
    init "[%p]%d{%H}".toList =
      ⟨[StringFormatItem ['['], .item LevelFormatItem [], StringFormatItem [']'],
        .item DateFormatItem ['%', 'H']], false⟩ := by
  refine (@init_iff [.text ['['], .item 'p', .text [']'], .itemFormat 'd' ['%', 'H']]
    ?_).mpr (by decide)
  refine ⟨by decide, by decide, ?_, by decide, by decide, by decide, trivial⟩
  rintro c ⟨⟩
  decide

/-- **`%%`** is an error. -/
theorem not_init_percent :
    (init (patterns [.percent])).error = true ∧
      init (patterns [.percent]) ≠ ⟨items [] [.percent], false⟩ := by
  have herror : (init (patterns [.percent])).error = true := by
    simp [init, make, patterns, pattern, initLoop, scanName, flush, makeItem_text, makeItem_nil]
  refine ⟨herror, fun heq => ?_⟩
  simp [heq] at herror

end LogFormatter
end Routn
