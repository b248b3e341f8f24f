import Mathlib.Tactic
import Routn.Orm.Table

/-!
# The DAO of a table

Of the functions that `gen_dao_src` writes, the statement that each prepares and the calls that bind
it.  A statement is a list of pieces, which are the names and the question marks in its text.

Two loops do not do what the others do.  The one over the primary key in `Update` leaves `is_first`
set, so it writes no " and", and the one in the deletions by an index leaves `idx` at one.
-/

namespace Routn
namespace Orm

/-! ## What is written -/

inductive SqlPiece
  | text (s : List UInt8)
  | table (name : List UInt8)
  | column (name : List UInt8)
  | equals (name : List UInt8)
  | value
deriving DecidableEq

def SqlPiece.bytes : SqlPiece → List UInt8
  | text s => s
  | table name => name
  | column name => name
  | equals name => ascii " " ++ name ++ ascii " = ?"
  | value => ascii "?"

/-- `stmt->call(idx, argument);`. -/
structure Bind where
  call : List UInt8
  idx : Nat
  argument : List UInt8
deriving DecidableEq

inductive Dao
  | Update | Insert | InsertOrUpdate | Delete | DeleteBy (idx : Index)
  | QueryAll | Query | QueryBy (idx : Index)
deriving DecidableEq

structure DaoFunction where
  dao : Dao
  sql : List SqlPiece
  binds : List Bind
deriving DecidableEq

def DaoFunction.text (f : DaoFunction) : List UInt8 := f.sql.flatMap SqlPiece.bytes

/-! ## The loops -/

/-- `if(!is_first) ofs << sep;` in front of each of the pieces, and `is_first = false` behind it. -/
def separated (sep : SqlPiece) : Bool → List SqlPiece → List SqlPiece
  | _, [] => []
  | is_first, piece :: pieces =>
      (if is_first then [] else [sep]) ++ piece :: separated sep false pieces

/-- The same, without `is_first = false`. -/
def unseparated (sep : SqlPiece) : Bool → List SqlPiece → List SqlPiece
  | _, [] => []
  | is_first, piece :: pieces =>
      (if is_first then [] else [sep]) ++ piece :: unseparated sep is_first pieces

/-- One call for each of the columns, with `++idx` behind it. -/
def bindAll (argument : Column → List UInt8) : Nat → List Column → List Bind
  | _, [] => []
  | idx, i :: cols => ⟨i.getBindString, idx, argument i⟩ :: bindAll argument (idx + 1) cols

/-- The same, without `++idx`. -/
def bindStill (argument : Column → List UInt8) : Nat → List Column → List Bind
  | _, [] => []
  | idx, i :: cols => ⟨i.getBindString, idx, argument i⟩ :: bindStill argument idx cols

def infoMember (i : Column) : List UInt8 := ascii "info->" ++ GetAsMemberName i._name

def variableOf (i : Column) : List UInt8 := GetAsVariable i._name

def comma : SqlPiece := .text (ascii ", ")

def andWord : SqlPiece := .text (ascii " and")

def whereWord : SqlPiece := .text (ascii " where")

/-- `" where"`, and the conditions on the columns of a key. -/
def whereKey (names : List (List UInt8)) : List SqlPiece :=
  whereWord :: separated andWord true (names.map .equals)

namespace Table

variable (t : Table)

/-- `getCol` of each of the names; a null pointer is used at once. -/
def getCols (names : List (List UInt8)) : Option (List Column) := names.mapM t.getCol

/-- The names in front of `getCol` in `getPKs`. -/
def pkNames : List (List UInt8) := (t._idxs.filter (·.isPK)).flatMap (·._cols)

def getPKs : Option (List Column) := t.getCols t.pkNames

def is_exists (v : List Column) (i : Column) : Bool := v.any (i == ·)

/-- The columns that `Update` sets. -/
def assigned (pks : List Column) : List Column := t._cols.filter fun i => !is_exists pks i

def updateSet (pks : List Column) : List SqlPiece :=
  [.text (ascii "update "), .table t._name, .text (ascii " set")] ++
    separated comma true ((t.assigned pks).map (.equals ·._name))

def deleteFrom : List SqlPiece := [.text (ascii "delete from "), .table t._name]

def selectFrom : List SqlPiece :=
  .text (ascii "select ") :: separated comma true (t._cols.map (.column ·._name)) ++
    [.text (ascii " from "), .table t._name]

def intoValues (verb : String) (cols : List Column) : List SqlPiece :=
  [.text (ascii verb), .table t._name, .text (ascii " (")] ++
    separated comma true (cols.map (.column ·._name)) ++
    .text (ascii ") values (") :: separated comma true (cols.map fun _ => .value) ++
    [.text (ascii ")")]

def genUpdate (pks : List Column) : DaoFunction :=
  { dao := .Update
    sql := t.updateSet pks ++ whereWord :: unseparated andWord true (pks.map (.equals ·._name))
    binds := bindAll infoMember 1 (t.assigned pks) ++
      bindAll infoMember (1 + (t.assigned pks).length) pks }

def genInsert : DaoFunction :=
  { dao := .Insert
    sql := t.intoValues "insert into " (t._cols.filter fun i => !i._autoIncrement)
    binds := bindAll infoMember 1 (t._cols.filter fun i => !i._autoIncrement) }

def genInsertOrUpdate : DaoFunction :=
  { dao := .InsertOrUpdate
    sql := t.intoValues "replace into " t._cols
    binds := bindAll infoMember 1 t._cols }

def genDelete (pks : List Column) : DaoFunction :=
  { dao := .Delete
    sql := t.deleteFrom ++ whereKey (pks.map (·._name))
    binds := bindAll infoMember 1 pks }

def genDeleteBy (idx : Index) : Option DaoFunction := do
  let cols ← t.getCols idx._cols
  some
    { dao := .DeleteBy idx
      sql := t.deleteFrom ++ whereKey idx._cols
      binds := bindStill variableOf 1 cols }

def genQueryAll : DaoFunction := { dao := .QueryAll, sql := t.selectFrom, binds := [] }

def genQuery (pks : List Column) : DaoFunction :=
  { dao := .Query
    sql := t.selectFrom ++ whereKey (pks.map (·._name))
    binds := bindAll variableOf 1 pks }

/-- For a unique key and for an index; they differ in what they return. -/
def genQueryBy (idx : Index) : Option DaoFunction := do
  let cols ← t.getCols idx._cols
  some
    { dao := .QueryBy idx
      sql := t.selectFrom ++ whereKey idx._cols
      binds := bindAll variableOf 1 cols }

def gen_dao_src : Option (List DaoFunction) := do
  let pks ← t.getPKs
  let deletes ← (t._idxs.filter fun i =>
    i._dtype = .TYPE_UNIQ ∨ i._dtype = .TYPE_PK ∨ i._dtype = .TYPE_INDEX).mapM t.genDeleteBy
  let queries ← (t._idxs.filter fun i =>
    i._dtype = .TYPE_UNIQ ∨ i._dtype = .TYPE_INDEX).mapM t.genQueryBy
  some ([t.genUpdate pks, t.genInsert, t.genInsertOrUpdate, t.genDelete pks] ++ deletes ++
    [t.genQueryAll, t.genQuery pks] ++ queries)

end Table

/-! ## What is asked of a function -/

/-- The key that a function is for. -/
def Dao.key (t : Table) : Dao → Option (List (List UInt8))
  | Update => some t.pkNames
  | Delete => some t.pkNames
  | Query => some t.pkNames
  | DeleteBy idx => some idx._cols
  | QueryBy idx => some idx._cols
  | Insert => none
  | InsertOrUpdate => none
  | QueryAll => none

/-- The member of a column, or the parameter where the function has one for each of its key. -/
def Dao.argument : Dao → Column → List UInt8
  | Update => infoMember
  | Insert => infoMember
  | InsertOrUpdate => infoMember
  | Delete => infoMember
  | DeleteBy _ => variableOf
  | Query => variableOf
  | QueryAll => variableOf
  | QueryBy _ => variableOf

/-- The columns at the question marks: the one in front of the mark, or else the first of the listed
ones that have none yet. -/
def atPlaceholders : List (List UInt8) → List SqlPiece → List (Option (List UInt8))
  | _, [] => []
  | waiting, .text _ :: pieces => atPlaceholders waiting pieces
  | waiting, .table _ :: pieces => atPlaceholders waiting pieces
  | waiting, .column name :: pieces => atPlaceholders (waiting ++ [name]) pieces
  | waiting, .equals name :: pieces => some name :: atPlaceholders waiting pieces
  | waiting, .value :: pieces => waiting.head? :: atPlaceholders waiting.tail pieces

/-- What is behind " where". -/
def whereClause (sql : List SqlPiece) : Option (List SqlPiece) :=
  match sql.dropWhile (· ≠ whereWord) with
  | [] => none
  | _ :: pieces => some pieces

def conjunction (key : List (List UInt8)) : List SqlPiece :=
  (key.map SqlPiece.equals).intersperse andWord

/-- It binds what belongs to the column. -/
def Bound (t : Table) (dao : Dao) (bind : Bind) (name : Option (List UInt8)) : Prop :=
  ∃ col ∈ t._cols, name = some col._name ∧ bind.call = col.getBindString ∧
    bind.argument = dao.argument col

structure BindsDeclared (t : Table) (f : DaoFunction) : Prop where
  placeholders : f.text.count 63 = f.binds.length
  indices : f.binds.map (·.idx) = List.range' 1 f.binds.length
  columns : List.Forall₂ (Bound t f.dao) f.binds (atPlaceholders [] f.sql)
  joined : whereClause f.sql = (f.dao.key t).map conjunction

/-- No name has a question mark in it. -/
structure PlainNames (t : Table) : Prop where
  table : 63 ∉ t._name
  columns : ∀ col ∈ t._cols, 63 ∉ col._name

/-! ## The loops, and the columns at the question marks -/

/-- The question marks in the names of a piece. -/
def SqlPiece.marks : SqlPiece → Nat
  | text s => s.count 63
  | table name => name.count 63
  | column name => name.count 63
  | equals name => name.count 63
  | value => 0

theorem count_text (sql : List SqlPiece) (waiting : List (List UInt8)) :
    (sql.flatMap SqlPiece.bytes).count 63 =
      (sql.map SqlPiece.marks).sum + (atPlaceholders waiting sql).length := by
  induction sql generalizing waiting with
  | nil => rfl
  | cons piece sql ih =>
      rw [List.flatMap_cons, List.count_append, List.map_cons, List.sum_cons]
      cases piece with
      | text s => rw [ih waiting, atPlaceholders, SqlPiece.bytes, SqlPiece.marks, Nat.add_assoc]
      | table name => rw [ih waiting, atPlaceholders, SqlPiece.bytes, SqlPiece.marks, Nat.add_assoc]
      | column name =>
          rw [ih (waiting ++ [name]), atPlaceholders, SqlPiece.bytes, SqlPiece.marks, Nat.add_assoc]
      | equals name =>
          have hfront : (ascii " ").count 63 = 0 := by decide
          have hback : (ascii " = ?").count 63 = 1 := by decide
          rw [ih waiting, atPlaceholders, SqlPiece.bytes, SqlPiece.marks, List.count_append,
            List.count_append, hfront, hback, List.length_cons]
          omega
      | value =>
          have hmark : (ascii "?").count 63 = 1 := by decide
          rw [ih waiting.tail, atPlaceholders, SqlPiece.bytes, SqlPiece.marks, hmark,
            List.length_cons]
          omega

section Loops

variable {sep : SqlPiece} {is_first : Bool} {pieces rest : List SqlPiece}
  {waiting names : List (List UInt8)} {cols cols' : List Column}

theorem mem_separated {piece : SqlPiece} (h : piece ∈ separated sep is_first pieces) :
    piece = sep ∨ piece ∈ pieces := by
  induction pieces generalizing is_first with
  | nil => simp [separated] at h
  | cons p pieces ih => cases is_first <;> grind [separated]

theorem mem_separated_of_mem {piece : SqlPiece} (h : piece ∈ pieces) :
    piece ∈ separated sep is_first pieces := by
  induction pieces generalizing is_first with
  | nil => cases h
  | cons p pieces ih => cases is_first <;> grind [separated]

theorem cons_separated_false (piece : SqlPiece) :
    piece :: separated sep false pieces = (piece :: pieces).intersperse sep := by
  induction pieces generalizing piece with
  | nil => rfl
  | cons next pieces ih =>
      rw [List.intersperse_cons_cons, ← ih next]
      rfl

theorem separated_true : separated sep true pieces = pieces.intersperse sep := by
  cases pieces with
  | nil => rfl
  | cons piece pieces => exact cons_separated_false piece

/-- A flag that stays set writes no separator. -/
theorem unseparated_true : unseparated sep true pieces = pieces := by
  induction pieces with
  | nil => rfl
  | cons piece pieces ih =>
      rw [unseparated, ih]
      rfl

theorem eq_intersperse_iff : pieces = pieces.intersperse sep ↔ pieces.length ≤ 1 := by
  constructor
  · intro h
    have hlength := congrArg List.length h
    rw [List.length_intersperse] at hlength
    omega
  · intro h
    match pieces with
    | [] => rfl
    | [piece] => rfl
    | _ :: _ :: _ => simp at h

/-- A separator is text, and stands for no column. -/
theorem atPlaceholders_separated {s : List UInt8} :
    atPlaceholders waiting (separated (.text s) is_first pieces ++ rest) =
      atPlaceholders waiting (pieces ++ rest) := by
  induction pieces generalizing is_first waiting with
  | nil => rfl
  | cons piece pieces ih =>
      cases is_first <;> cases piece <;> simp [separated, atPlaceholders, ih]

theorem atPlaceholders_columns :
    atPlaceholders waiting (cols.map (.column ·._name) ++ rest) =
      atPlaceholders (waiting ++ cols.map (·._name)) rest := by
  induction cols generalizing waiting with
  | nil => simp
  | cons col cols ih => simp [atPlaceholders, ih]

theorem atPlaceholders_values :
    atPlaceholders (cols.map (·._name)) (cols.map (fun _ => .value) ++ rest) =
      (cols.map (·._name)).map some ++ atPlaceholders [] rest := by
  induction cols with
  | nil => rfl
  | cons col cols ih =>
      simp only [List.map_cons, List.cons_append, atPlaceholders, List.head?_cons, List.tail_cons,
        ih]

theorem atPlaceholders_equals :
    atPlaceholders waiting (names.map .equals ++ rest) =
      names.map some ++ atPlaceholders waiting rest := by
  induction names with
  | nil => rfl
  | cons name names ih => simp [atPlaceholders, ih]

theorem dropWhile_ne_whereWord (h : whereWord ∉ pieces) :
    (pieces ++ rest).dropWhile (· ≠ whereWord) = rest.dropWhile (· ≠ whereWord) := by
  apply List.dropWhile_append_of_pos
  intro p hp
  apply decide_eq_true
  rintro rfl
  exact h hp

theorem whereClause_append (h : whereWord ∉ pieces) :
    whereClause (pieces ++ whereWord :: rest) = some rest := by
  rw [whereClause, dropWhile_ne_whereWord h]
  simp

theorem whereClause_eq_none (h : whereWord ∉ pieces) : whereClause pieces = none := by
  have hall : (pieces ++ []).dropWhile (· ≠ whereWord) = _ := dropWhile_ne_whereWord h
  rw [List.append_nil] at hall
  rw [whereClause, hall]
  rfl

theorem atPlaceholders_whereWord :
    atPlaceholders waiting (whereWord :: conjunction names) = names.map some := by
  have hconj : atPlaceholders waiting (separated andWord true (names.map .equals) ++ []) =
      atPlaceholders waiting (names.map .equals ++ []) := atPlaceholders_separated
  rw [whereWord, atPlaceholders, conjunction, ← separated_true, ← List.append_nil (separated _ _ _),
    hconj, atPlaceholders_equals, atPlaceholders, List.append_nil]

variable {argument : Column → List UInt8} {idx : Nat}

theorem bindAll_append :
    bindAll argument idx (cols ++ cols') =
      bindAll argument idx cols ++ bindAll argument (idx + cols.length) cols' := by
  induction cols generalizing idx with
  | nil => rfl
  | cons i cols ih =>
      rw [List.cons_append, bindAll, bindAll, ih, List.length_cons, Nat.add_assoc,
        Nat.add_comm 1 cols.length]
      rfl

theorem indices_bindAll :
    (bindAll argument idx cols).map (·.idx) =
      List.range' idx (bindAll argument idx cols).length := by
  induction cols generalizing idx with
  | nil => rfl
  | cons i cols ih => rw [bindAll, List.map_cons, ih, List.length_cons, List.range'_succ]

theorem bound_bindAll {t : Table} {dao : Dao} (h : ∀ col ∈ cols, col ∈ t._cols) :
    List.Forall₂ (Bound t dao) (bindAll dao.argument idx cols)
      ((cols.map (·._name)).map some) := by
  induction cols generalizing idx with
  | nil => exact .nil
  | cons i cols ih =>
      have hi : i ∈ t._cols := h i List.mem_cons_self
      have hcols : ∀ col ∈ cols, col ∈ t._cols :=
        fun col hcol => h col (List.mem_cons_of_mem _ hcol)
      exact .cons ⟨i, hi, rfl, rfl, rfl⟩ (ih hcols)

theorem length_bindStill : (bindStill argument idx cols).length = cols.length := by
  induction cols with
  | nil => rfl
  | cons i cols ih => rw [bindStill, List.length_cons, List.length_cons, ih]

theorem indices_bindStill :
    (bindStill argument idx cols).map (·.idx) = List.replicate cols.length idx := by
  induction cols with
  | nil => rfl
  | cons i cols ih =>
      rw [bindStill, List.map_cons, ih, List.length_cons, List.replicate_succ]

/-- One index for all of the calls is enough for one column. -/
theorem replicate_eq_range'_iff {n : Nat} : List.replicate n 1 = List.range' 1 n ↔ n ≤ 1 := by
  constructor
  · intro h
    by_contra hn
    have hsecond := congrArg (·[1]?) h
    rw [List.getElem?_replicate_of_lt (by omega), List.getElem?_range' (by omega)] at hsecond
    simp at hsecond
  · intro h
    interval_cases n <;> rfl

theorem bindStill_eq_bindAll (h : cols.length ≤ 1) :
    bindStill argument idx cols = bindAll argument idx cols := by
  match cols with
  | [] => rfl
  | [_] => rfl
  | _ :: _ :: _ => simp at h

end Loops

/-! ## Statements -/

/-- A piece in front of " where": not the word itself, and without a mark if no name has one. -/
structure Quiet (t : Table) (piece : SqlPiece) : Prop where
  word : piece ≠ whereWord
  marks : PlainNames t → piece.marks = 0

/-- The beginning of a statement, with the columns that it binds. -/
structure Opens (t : Table) (front : List SqlPiece) (cols : List Column) : Prop where
  placed : ∀ rest, ∃ waiting, atPlaceholders [] (front ++ rest) =
    (cols.map (·._name)).map some ++ atPlaceholders waiting rest
  quiet : ∀ piece ∈ front, Quiet t piece

section Statements

variable {t : Table} {f : DaoFunction} {front : List SqlPiece} {cols keyCols : List Column}
  {key : List (List UInt8)}

theorem Opens.noWhere (h : Opens t front cols) : whereWord ∉ front := by
  intro hmem
  exact (h.quiet whereWord hmem).word rfl

theorem bindsDeclared_of (hcols : ∀ col ∈ cols, col ∈ t._cols)
    (hmarks : ∀ piece ∈ f.sql, piece.marks = 0)
    (hplaced : atPlaceholders [] f.sql = (cols.map (·._name)).map some)
    (hbinds : f.binds = bindAll f.dao.argument 1 cols)
    (hwhere : whereClause f.sql = (f.dao.key t).map conjunction) : BindsDeclared t f := by
  have hbound : List.Forall₂ (Bound t f.dao) f.binds (atPlaceholders [] f.sql) := by
    rw [hplaced, hbinds]
    exact bound_bindAll hcols
  refine { placeholders := ?_, indices := ?_, columns := hbound, joined := hwhere }
  · have hsum : (f.sql.map SqlPiece.marks).sum = 0 := by
      apply List.sum_eq_zero
      simpa using hmarks
    rw [DaoFunction.text, count_text f.sql [], hsum, hbound.length_eq, Nat.zero_add]
  · rw [hbinds]
    exact indices_bindAll

theorem bindsDeclared_of_opens (hfront : Opens t f.sql cols) (hplain : PlainNames t)
    (hcols : ∀ col ∈ cols, col ∈ t._cols) (hbinds : f.binds = bindAll f.dao.argument 1 cols)
    (hkey : f.dao.key t = none) : BindsDeclared t f := by
  have ⟨waiting, hplaced⟩ := hfront.placed []
  rw [List.append_nil, atPlaceholders, List.append_nil] at hplaced
  have hmarks : ∀ piece ∈ f.sql, piece.marks = 0 :=
    fun piece h => (hfront.quiet piece h).marks hplain
  apply bindsDeclared_of hcols hmarks hplaced hbinds
  rw [whereClause_eq_none hfront.noWhere, hkey]
  rfl

theorem marks_conjunction {piece : SqlPiece} (hkey : ∀ name ∈ key, 63 ∉ name)
    (h : piece ∈ conjunction key) : piece.marks = 0 := by
  rw [conjunction, ← separated_true] at h
  cases mem_separated h with
  | inl h => rw [h]; decide
  | inr h =>
      have ⟨name, hname, h⟩ := List.mem_map.mp h
      rw [← h]
      exact List.count_eq_zero.mpr (hkey name hname)

/-- A beginning, and the conditions on a key behind it. -/
theorem bindsDeclared_of_key (hfront : Opens t front cols) (hplain : PlainNames t)
    (hcols : ∀ col ∈ cols, col ∈ t._cols) (hkeyCols : ∀ col ∈ keyCols, col ∈ t._cols)
    (hkey : keyCols.map (·._name) = key) (hsql : f.sql = front ++ whereWord :: conjunction key)
    (hbinds : f.binds = bindAll f.dao.argument 1 (cols ++ keyCols))
    (hdao : f.dao.key t = some key) : BindsDeclared t f := by
  have hall : ∀ col ∈ cols ++ keyCols, col ∈ t._cols := by
    intro col hcol
    exact (List.mem_append.mp hcol).elim (hcols col) (hkeyCols col)
  apply bindsDeclared_of hall ?_ ?_ hbinds
  · rw [hsql, whereClause_append hfront.noWhere, hdao]
    rfl
  · intro piece hpiece
    rw [hsql] at hpiece
    cases List.mem_append.mp hpiece with
    | inl h => exact (hfront.quiet piece h).marks hplain
    | inr h =>
        cases List.mem_cons.mp h with
        | inl h => rw [h]; decide
        | inr h =>
            apply marks_conjunction _ h
            rw [← hkey]
            intro name hname
            have ⟨col, hcol, hname⟩ := List.mem_map.mp hname
            rw [← hname]
            exact hplain.columns col (hkeyCols col hcol)
  · have ⟨waiting, hplaced⟩ := hfront.placed (whereWord :: conjunction key)
    rw [hsql, hplaced, atPlaceholders_whereWord, List.map_append, List.map_append, hkey]

/-! What the functions begin with. -/

theorem quiet_text {s : String} (hword : ascii s ≠ ascii " where")
    (hmarks : (ascii s).count 63 = 0) : Quiet t (.text (ascii s)) where
  word h := hword (SqlPiece.text.inj h)
  marks _ := hmarks

theorem quiet_table : Quiet t (.table t._name) where
  word := by rintro ⟨⟩
  marks hplain := List.count_eq_zero.mpr hplain.table

/-- Columns, each in a piece of its own. -/
theorem quiet_separated {item : Column → SqlPiece} {is_first : Bool}
    (hword : ∀ col, item col ≠ whereWord) (hmarks : ∀ col, (item col).marks ≤ col._name.count 63)
    (hcols : ∀ col ∈ cols, col ∈ t._cols) :
    ∀ piece ∈ separated comma is_first (cols.map item), Quiet t piece := by
  intro piece h
  cases mem_separated h with
  | inl h =>
      rw [h]
      exact quiet_text (by decide) (by decide)
  | inr h =>
      have ⟨col, hcol, h⟩ := List.mem_map.mp h
      rw [← h]
      refine { word := hword col, marks := fun hplain => ?_ }
      have hname := List.count_eq_zero.mpr (hplain.columns col (hcols col hcol))
      have hle := hmarks col
      rw [hname] at hle
      exact Nat.le_zero.mp hle

theorem quiet_columns (hcols : ∀ col ∈ cols, col ∈ t._cols) :
    ∀ piece ∈ separated comma true (cols.map (.column ·._name)), Quiet t piece :=
  quiet_separated (by rintro col ⟨⟩) (fun col => le_rfl) hcols

theorem quiet_equals (hcols : ∀ col ∈ cols, col ∈ t._cols) :
    ∀ piece ∈ separated comma true (cols.map (.equals ·._name)), Quiet t piece :=
  quiet_separated (by rintro col ⟨⟩) (fun col => le_rfl) hcols

theorem quiet_values (hcols : ∀ col ∈ cols, col ∈ t._cols) :
    ∀ piece ∈ separated comma true (cols.map fun _ => .value), Quiet t piece :=
  quiet_separated (by rintro col ⟨⟩) (fun col => Nat.zero_le _) hcols

theorem opens_deleteFrom : Opens t t.deleteFrom [] where
  placed rest := ⟨[], rfl⟩
  quiet := by
    have hverb : Quiet t (.text (ascii "delete from ")) := quiet_text (by decide) (by decide)
    simp [Table.deleteFrom, hverb, quiet_table]

theorem opens_selectFrom : Opens t t.selectFrom [] where
  placed rest := by
    refine ⟨t._cols.map (·._name), ?_⟩
    simp only [Table.selectFrom, List.cons_append, List.append_assoc, atPlaceholders, comma,
      atPlaceholders_separated, atPlaceholders_columns]
    rfl
  quiet := by
    have hverb : Quiet t (.text (ascii "select ")) := quiet_text (by decide) (by decide)
    have hfrom : Quiet t (.text (ascii " from ")) := quiet_text (by decide) (by decide)
    have hcols : ∀ piece ∈ separated comma true (t._cols.map (.column ·._name)), Quiet t piece :=
      quiet_columns fun col hcol => hcol
    simp only [Table.selectFrom, List.cons_append, List.forall_mem_cons, List.forall_mem_append]
    exact ⟨hverb, hcols, hfrom, quiet_table, List.forall_mem_nil _⟩

theorem opens_updateSet {pks : List Column} :
    Opens t (t.updateSet pks) (t.assigned pks) where
  placed rest := by
    refine ⟨[], ?_⟩
    have hset : (t.assigned pks).map (SqlPiece.equals ·._name) =
        ((t.assigned pks).map (·._name)).map .equals := by
      rw [List.map_map]
      rfl
    simp only [Table.updateSet, List.cons_append, List.nil_append, atPlaceholders, comma,
      atPlaceholders_separated]
    rw [hset, atPlaceholders_equals]
  quiet := by
    have hverb : Quiet t (.text (ascii "update ")) := quiet_text (by decide) (by decide)
    have hset : Quiet t (.text (ascii " set")) := quiet_text (by decide) (by decide)
    have hcols : ∀ piece ∈ separated comma true ((t.assigned pks).map (.equals ·._name)),
        Quiet t piece :=
      quiet_equals fun col => List.mem_of_mem_filter
    simp only [Table.updateSet, List.cons_append, List.nil_append, List.forall_mem_cons]
    exact ⟨hverb, quiet_table, hset, hcols⟩

theorem opens_intoValues {verb : String} (hword : ascii verb ≠ ascii " where")
    (hmarks : (ascii verb).count 63 = 0) (hcols : ∀ col ∈ cols, col ∈ t._cols) :
    Opens t (t.intoValues verb cols) cols where
  placed rest := by
    refine ⟨[], ?_⟩
    simp only [Table.intoValues, List.cons_append, List.nil_append, List.append_assoc,
      atPlaceholders, comma, atPlaceholders_separated, atPlaceholders_columns,
      atPlaceholders_values]
  quiet := by
    have hopen : Quiet t (.text (ascii " (")) := quiet_text (by decide) (by decide)
    have hvalues : Quiet t (.text (ascii ") values (")) := quiet_text (by decide) (by decide)
    have hclose : Quiet t (.text (ascii ")")) := quiet_text (by decide) (by decide)
    simp only [Table.intoValues, List.cons_append, List.nil_append, List.append_assoc,
      List.forall_mem_cons, List.forall_mem_append]
    exact ⟨quiet_text hword hmarks, quiet_table, hopen, quiet_columns hcols, hvalues,
      quiet_values hcols, hclose, List.forall_mem_nil _⟩

end Statements

/-! ## The functions of a table -/

theorem exists_mapM {α β : Type*} {f : α → Option β} {l : List α}
    (h : ∀ a ∈ l, ∃ b, f a = some b) :
    ∃ bs, l.mapM f = some bs ∧ ∀ b, b ∈ bs ↔ ∃ a ∈ l, f a = some b := by
  induction l with
  | nil => exact ⟨[], rfl, by simp⟩
  | cons a l ih =>
      have ⟨b, hb⟩ := h a List.mem_cons_self
      have ⟨bs, hbs, hmem⟩ := ih fun a' ha' => h a' (List.mem_cons_of_mem _ ha')
      refine ⟨b :: bs, ?_, ?_⟩
      · rw [List.mapM_cons, hb, hbs]
        rfl
      · intro b'
        simp [hmem, hb, @eq_comm _ b' b]

namespace Table

variable {t : Table} {names : List (List UInt8)} {cols pks : List Column}

theorem getCols_eq_some (h : t.getCols names = some cols) :
    cols.map (·._name) = names ∧ ∀ col ∈ cols, col ∈ t._cols := by
  induction names generalizing cols with
  | nil =>
      cases h
      simp
  | cons name names ih =>
      rw [getCols, List.mapM_cons] at h
      have ⟨col, hcol, h⟩ := Option.bind_eq_some_iff.mp h
      have ⟨cols', hcols, h⟩ := Option.bind_eq_some_iff.mp h
      cases h
      have hname : col._name = name := by simpa using List.find?_some hcol
      have hmem : col ∈ t._cols := List.mem_of_find?_eq_some hcol
      have ⟨hnames, hall⟩ := ih hcols
      exact ⟨by rw [List.map_cons, hname, hnames],
        List.forall_mem_cons.mpr ⟨hmem, hall⟩⟩

theorem exists_getCols (h : ∀ name ∈ names, name ∈ t._cols.map (·._name)) :
    ∃ cols, t.getCols names = some cols := by
  have hfound : ∀ name ∈ names, ∃ col, t.getCol name = some col := by
    intro name hname
    have ⟨col, hcol, hname⟩ := List.mem_map.mp (h name hname)
    apply Option.isSome_iff_exists.mp
    rw [getCol, List.find?_isSome]
    exact ⟨col, hcol, by simpa using hname⟩
  have ⟨cols, hcols, _⟩ := exists_mapM hfound
  exact ⟨cols, hcols⟩

theorem length_filter_isPK {idxs : List Index} (h : OnePK idxs) :
    (idxs.filter (·.isPK)).length ≤ 1 := by
  have hpair := h.sublist (List.filter_sublist (p := (·.isPK)))
  have hall : ∀ idx ∈ idxs.filter (·.isPK), idx.isPK := fun idx hidx => (List.mem_filter.mp hidx).2
  match hpks : idxs.filter (·.isPK) with
  | [] => simp [hpks]
  | [_] => simp [hpks]
  | a :: b :: _ =>
      rw [hpks] at hpair hall
      have hboth := (List.pairwise_cons.mp hpair).1 b List.mem_cons_self
      exact absurd ⟨hall a (by simp), hall b (by simp)⟩ hboth

theorem length_pkNames (hpk : OnePK t._idxs) (h : ∀ idx ∈ t._idxs, idx._cols.length ≤ 1) :
    t.pkNames.length ≤ 1 := by
  have hone := length_filter_isPK hpk
  match hpks : t._idxs.filter (·.isPK) with
  | [] => simp [pkNames, hpks]
  | [idx] =>
      have hidx : idx ∈ t._idxs.filter (·.isPK) := by simp [hpks]
      simpa [pkNames, hpks] using h idx (List.mem_of_mem_filter hidx)
  | _ :: _ :: _ => simp [hpks] at hone

theorem mem_pkNames (h : t.Checked) : ∀ name ∈ t.pkNames, name ∈ t._cols.map (·._name) := by
  intro name hname
  have ⟨idx, hidx, hname⟩ := List.mem_flatMap.mp hname
  exact (h.resolved idx (List.mem_of_mem_filter hidx)).cols name hname

theorem length_map_names (h : cols.map (·._name) = names) : cols.length = names.length := by
  rw [← h, List.length_map]

/-- What `Update` writes behind " where" is right for one column. -/
theorem unseparated_eq_conjunction_iff (hpks : t.getPKs = some pks) :
    unseparated andWord true (pks.map (.equals ·._name)) = conjunction t.pkNames ↔
      t.pkNames.length ≤ 1 := by
  have ⟨hnames, _⟩ := getCols_eq_some hpks
  have hpieces : pks.map (SqlPiece.equals ·._name) = t.pkNames.map .equals := by
    rw [← hnames, List.map_map]
    rfl
  rw [unseparated_true, hpieces, conjunction, eq_intersperse_iff, List.length_map]

/-! With the primary key. -/

section PrimaryKey

variable (hplain : PlainNames t) (hpks : t.getPKs = some pks)
include hplain hpks

theorem bindsDeclared_update (hlength : t.pkNames.length ≤ 1) :
    BindsDeclared t (t.genUpdate pks) := by
  have ⟨hnames, hmem⟩ := getCols_eq_some hpks
  have hclause := (unseparated_eq_conjunction_iff hpks).mpr hlength
  apply bindsDeclared_of_key opens_updateSet hplain (fun col => List.mem_of_mem_filter) hmem hnames
  · rw [genUpdate, hclause]
  · exact bindAll_append.symm
  · rfl

theorem bindsDeclared_delete : BindsDeclared t (t.genDelete pks) := by
  have ⟨hnames, hmem⟩ := getCols_eq_some hpks
  apply bindsDeclared_of_key opens_deleteFrom hplain (by simp) hmem hnames
  · rw [genDelete, whereKey, separated_true, hnames, conjunction]
  · rfl
  · rfl

theorem bindsDeclared_query : BindsDeclared t (t.genQuery pks) := by
  have ⟨hnames, hmem⟩ := getCols_eq_some hpks
  apply bindsDeclared_of_key opens_selectFrom hplain (by simp) hmem hnames
  · rw [genQuery, whereKey, separated_true, hnames, conjunction]
  · rfl
  · rfl

end PrimaryKey

/-! With an index. -/

section ByIndex

variable {idx : Index} {f : DaoFunction}

theorem bindsDeclared_queryBy (hplain : PlainNames t) (h : t.genQueryBy idx = some f) :
    BindsDeclared t f := by
  have ⟨cols, hcols, h⟩ := Option.bind_eq_some_iff.mp h
  cases h
  have ⟨hnames, hmem⟩ := getCols_eq_some hcols
  apply bindsDeclared_of_key opens_selectFrom hplain (by simp) hmem hnames
  · rw [whereKey, separated_true, conjunction]
  · rfl
  · rfl

theorem bindsDeclared_deleteBy (hplain : PlainNames t) (h : t.genDeleteBy idx = some f)
    (hlength : idx._cols.length ≤ 1) : BindsDeclared t f := by
  have ⟨cols, hcols, h⟩ := Option.bind_eq_some_iff.mp h
  cases h
  have ⟨hnames, hmem⟩ := getCols_eq_some hcols
  rw [← length_map_names hnames] at hlength
  apply bindsDeclared_of_key opens_deleteFrom hplain (by simp) hmem hnames
  · rw [whereKey, separated_true, conjunction]
  · exact bindStill_eq_bindAll hlength
  · rfl

/-- All of its calls are for the first mark. -/
theorem length_of_deleteBy (h : t.genDeleteBy idx = some f) (hf : BindsDeclared t f) :
    idx._cols.length ≤ 1 := by
  have ⟨cols, hcols, h⟩ := Option.bind_eq_some_iff.mp h
  cases h
  have hindices := hf.indices
  rw [indices_bindStill, length_bindStill] at hindices
  rw [← length_map_names (getCols_eq_some hcols).1]
  exact replicate_eq_range'_iff.mp hindices

end ByIndex

/-! Without a key. -/

theorem bindsDeclared_insert (hplain : PlainNames t) : BindsDeclared t t.genInsert := by
  have hmem : ∀ col ∈ t._cols.filter fun i => !i._autoIncrement, col ∈ t._cols :=
    fun col => List.mem_of_mem_filter
  exact bindsDeclared_of_opens (opens_intoValues (by decide) (by decide) hmem) hplain hmem rfl rfl

theorem bindsDeclared_insertOrUpdate (hplain : PlainNames t) :
    BindsDeclared t t.genInsertOrUpdate := by
  have hmem : ∀ col ∈ t._cols, col ∈ t._cols := fun col hcol => hcol
  exact bindsDeclared_of_opens (opens_intoValues (by decide) (by decide) hmem) hplain hmem rfl rfl

theorem bindsDeclared_queryAll (hplain : PlainNames t) : BindsDeclared t t.genQueryAll :=
  bindsDeclared_of_opens opens_selectFrom hplain (by simp) rfl rfl

/-- All of the names are in it. -/
theorem plainNames_of_insertOrUpdate (h : BindsDeclared t t.genInsertOrUpdate) : PlainNames t := by
  have hcount := h.placeholders
  rw [DaoFunction.text, count_text _ [], h.columns.length_eq] at hcount
  have hmarks : ∀ piece ∈ t.genInsertOrUpdate.sql, piece.marks = 0 := by
    have hsum : (t.genInsertOrUpdate.sql.map SqlPiece.marks).sum = 0 := by omega
    simpa using List.sum_eq_zero_iff.mp hsum
  refine { table := ?_, columns := ?_ }
  · apply List.count_eq_zero.mp
    exact hmarks (.table t._name) (by simp [genInsertOrUpdate, intoValues])
  · intro col hcol
    apply List.count_eq_zero.mp
    have hpiece : SqlPiece.column col._name ∈
        separated comma true (t._cols.map (.column ·._name)) :=
      mem_separated_of_mem (List.mem_map_of_mem hcol)
    apply hmarks (.column col._name)
    simp only [genInsertOrUpdate, intoValues, List.mem_append, hpiece, or_true, true_or]

theorem exists_genDeleteBy {idx : Index} (h : Resolved t._cols idx) :
    ∃ f, t.genDeleteBy idx = some f := by
  have ⟨cols, hcols⟩ := exists_getCols h.cols
  rw [genDeleteBy, hcols]
  exact ⟨_, rfl⟩

theorem exists_genQueryBy {idx : Index} (h : Resolved t._cols idx) :
    ∃ f, t.genQueryBy idx = some f := by
  have ⟨cols, hcols⟩ := exists_getCols h.cols
  rw [genQueryBy, hcols]
  exact ⟨_, rfl⟩

/-- No null pointer is used, and each of the functions is one of these. -/
theorem exists_gen_dao_src (h : t.Checked) :
    ∃ pks fs, t.getPKs = some pks ∧ t.gen_dao_src = some fs ∧ ∀ f, f ∈ fs ↔
      f ∈ [t.genUpdate pks, t.genInsert, t.genInsertOrUpdate, t.genDelete pks] ∨
      (∃ idx ∈ t._idxs, t.genDeleteBy idx = some f) ∨
      f ∈ [t.genQueryAll, t.genQuery pks] ∨
      ∃ idx ∈ t._idxs, ¬ idx.isPK ∧ t.genQueryBy idx = some f := by
  have ⟨pks, hpks⟩ := exists_getCols (mem_pkNames h)
  have hdelete : ∀ idx, idx ∈ t._idxs.filter (fun i =>
      i._dtype = .TYPE_UNIQ ∨ i._dtype = .TYPE_PK ∨ i._dtype = .TYPE_INDEX) ↔ idx ∈ t._idxs := by
    intro idx
    have hdtype := fun hidx => (h.resolved idx hidx).dtype
    simp only [List.mem_filter, decide_eq_true_eq]
    tauto
  have hquery : ∀ idx, idx ∈ t._idxs.filter (fun i =>
      i._dtype = .TYPE_UNIQ ∨ i._dtype = .TYPE_INDEX) ↔ idx ∈ t._idxs ∧ ¬ idx.isPK := by
    intro idx
    have hdtype := fun hidx => (h.resolved idx hidx).dtype
    simp only [List.mem_filter, decide_eq_true_eq]
    cases hidx : idx._dtype <;> simp_all
  have ⟨deletes, hdeletes, hmemDeletes⟩ := exists_mapM fun idx hidx =>
    exists_genDeleteBy (h.resolved idx ((hdelete idx).mp hidx))
  have ⟨queries, hqueries, hmemQueries⟩ := exists_mapM fun idx hidx =>
    exists_genQueryBy (h.resolved idx ((hquery idx).mp hidx).1)
  refine ⟨pks, _, hpks, by rw [gen_dao_src, getPKs, hpks, hdeletes, hqueries]; rfl, ?_⟩
  intro f
  simp only [List.mem_append, hmemDeletes, hmemQueries, hdelete, hquery, and_assoc, or_assoc]

/-- What `gen` writes binds what it declares, if no index has more than one column and no name has
a mark in it; and only then. -/
theorem bindsDeclared_iff {QueryBoolAttribute : List UInt8 → Option Bool} {node : TiXmlElement}
    (h : init QueryBoolAttribute node = some t) :
    ∃ fs, t.gen_dao_src = some fs ∧
      ((∀ f ∈ fs, BindsDeclared t f) ↔
        PlainNames t ∧ ∀ idx ∈ t._idxs, idx._cols.length ≤ 1) := by
  have hchecked := checked_of_init h
  have ⟨pks, fs, hpks, hfs, hmem⟩ := exists_gen_dao_src hchecked
  refine ⟨fs, hfs, ?_, ?_⟩
  · intro hall
    constructor
    · apply plainNames_of_insertOrUpdate
      exact hall _ ((hmem _).mpr (.inl (by simp)))
    · intro idx hidx
      have ⟨f, hf⟩ := exists_genDeleteBy (hchecked.resolved idx hidx)
      exact length_of_deleteBy hf (hall f ((hmem f).mpr (.inr (.inl ⟨idx, hidx, hf⟩))))
  · rintro ⟨hplain, hlength⟩ f hf
    rcases (hmem f).mp hf with hf | ⟨idx, hidx, hf⟩ | hf | ⟨idx, _, _, hf⟩
    · simp only [List.mem_cons, List.not_mem_nil, or_false] at hf
      rcases hf with rfl | rfl | rfl | rfl
      · exact bindsDeclared_update hplain hpks (length_pkNames hchecked.onePK hlength)
      · exact bindsDeclared_insert hplain
      · exact bindsDeclared_insertOrUpdate hplain
      · exact bindsDeclared_delete hplain hpks
    · exact bindsDeclared_deleteBy hplain hf (hlength idx hidx)
    · simp only [List.mem_cons, List.not_mem_nil, or_false] at hf
      rcases hf with rfl | rfl
      · exact bindsDeclared_queryAll hplain
      · exact bindsDeclared_query hplain hpks
    · exact bindsDeclared_queryBy hplain hf

/-! One table, with a key of one column or of two. -/

def element (value : String) (attributes : List (String × String))
    (children : List TiXmlElement) : TiXmlElement :=
  .mk (ascii value) (attributes.map fun a => (ascii a.1, ascii a.2)) children

def userElement (key : String) : TiXmlElement :=
  element "table" [("name", "user"), ("namespace", "test.orm")]
    [element "columns" []
      [element "column" [("name", "id"), ("type", "int64")] [],
        element "column" [("name", "name"), ("type", "string")] []],
      element "indexs" [] [element "index" [("name", "pk"), ("type", "pk"), ("cols", key)] []]]

def userTable (key : List String) : Table :=
  { _name := ascii "user"
    _namespace := ascii "test.orm"
    _cols := [⟨ascii "id", ascii "int64", 0, false, .TYPE_INT64⟩,
      ⟨ascii "name", ascii "string", 1, false, .TYPE_STRING⟩]
    _idxs := [⟨ascii "pk", ascii "pk", key.map ascii, .TYPE_PK⟩] }

theorem init_userElement_one :
    init (fun _ => none) (userElement "id") = some (userTable ["id"]) := by
  decide

theorem init_userElement_two :
    init (fun _ => none) (userElement "id,name") = some (userTable ["id", "name"]) := by
  decide

theorem bindsDeclared_iff_one :
    ∃ fs, (userTable ["id"]).gen_dao_src = some fs ∧
      ((∀ f ∈ fs, BindsDeclared (userTable ["id"]) f) ↔
        PlainNames (userTable ["id"]) ∧ ∀ idx ∈ (userTable ["id"])._idxs, idx._cols.length ≤ 1) :=
  bindsDeclared_iff init_userElement_one

/-- With a key of two columns, the deletion by that key binds the first mark twice. -/
theorem not_bindsDeclared_two :
    ¬ ∀ (QueryBoolAttribute : List UInt8 → Option Bool) (node : TiXmlElement) (t : Table),
      init QueryBoolAttribute node = some t →
        ∃ fs, t.gen_dao_src = some fs ∧ ∀ f ∈ fs, BindsDeclared t f := by
  intro h
  have ⟨fs, hfs, hall⟩ := h _ _ _ init_userElement_two
  have hchecked := checked_of_init init_userElement_two
  have ⟨pks, fs', _, hfs', hmem⟩ := exists_gen_dao_src hchecked
  cases hfs.symm.trans hfs'
  have hidx := List.mem_singleton_self (⟨ascii "pk", ascii "pk", [ascii "id", ascii "name"],
    .TYPE_PK⟩ : Index)
  have ⟨f, hf⟩ := exists_genDeleteBy (hchecked.resolved _ hidx)
  have hlength := length_of_deleteBy hf (hall f ((hmem f).mpr (.inr (.inl ⟨_, hidx, hf⟩))))
  exact absurd hlength (by decide)

end Table

end Orm
end Routn
