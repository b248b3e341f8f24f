import Mathlib.Tactic
import Routn.Util.Split

/-!
# Tables

What `Table::init` takes from an element of TinyXML: its columns, and its indexes by the names of
their columns.  How TinyXML reads a boolean attribute is a parameter.  The names of a table that is
accepted are resolved (`Table.Checked`); nothing is asked of the names themselves.
-/

namespace Routn
namespace Orm

/-! ## Names -/

def ascii (s : String) : List UInt8 := s.toList.map fun c => c.toNat.toUInt8

def toupper (c : UInt8) : UInt8 := if 97 ≤ c ∧ c ≤ 122 then c - 32 else c

def tolower (c : UInt8) : UInt8 := if 65 ≤ c ∧ c ≤ 90 then c + 32 else c

def ToLower (name : List UInt8) : List UInt8 := name.map tolower

def GetAsVariable (v : List UInt8) : List UInt8 := ToLower v

/-- `vs[0] = f(vs[0])`; in an empty string that is the null byte at its end. -/
def first (f : UInt8 → UInt8) : List UInt8 → List UInt8
  | [] => []
  | c :: rest => f c :: rest

/-- The pieces of `split(v, '_')`. -/
def GetAsClassName (v : List UInt8) : List UInt8 :=
  ((Util.split v 95 (-1)).map (first toupper)).flatten

def GetAsMemberName (v : List UInt8) : List UInt8 :=
  ascii "_" ++ first tolower (GetAsClassName v)

/-! ## Elements -/

inductive TiXmlElement
  | mk (value : List UInt8) (attributes : List (List UInt8 × List UInt8))
      (children : List TiXmlElement)

namespace TiXmlElement

def Value : TiXmlElement → List UInt8
  | mk value _ _ => value

def Attribute : TiXmlElement → String → Option (List UInt8)
  | mk _ attributes _, name => (attributes.find? (·.1 == ascii name)).map (·.2)

/-- `FirstChildElement(value)`, and after it what `NextSiblingElement(value)` gives. -/
def childElements : TiXmlElement → String → List TiXmlElement
  | mk _ _ children, value => children.filter (·.Value == ascii value)

end TiXmlElement

/-! ## Columns -/

inductive Column.DType
  | TYPE_NULL | TYPE_INT8 | TYPE_UINT8 | TYPE_INT16 | TYPE_UINT16 | TYPE_INT32 | TYPE_UINT32
  | TYPE_FLOAT | TYPE_DOUBLE | TYPE_INT64 | TYPE_UINT64 | TYPE_STRING | TYPE_TEXT | TYPE_BLOB
  | TYPE_TIMESTAMP
deriving DecidableEq

structure Column where
  _name : List UInt8
  _type : List UInt8
  _index : Nat
  _autoIncrement : Bool
  _dtype : Column.DType
deriving DecidableEq

namespace Column

open DType

/-- The rows of the table in `ParseType`. -/
def parseRows : List (DType × String × String) :=
  [(TYPE_INT8, "int8_t", "int8"), (TYPE_UINT8, "uint8_t", "uint8"),
    (TYPE_INT16, "int16_t", "int16"), (TYPE_UINT16, "uint16_t", "uint16"),
    (TYPE_INT32, "int32_t", "int32"), (TYPE_UINT32, "uint32_t", "uint32"),
    (TYPE_FLOAT, "float", "float"), (TYPE_INT64, "int64_t", "int64"),
    (TYPE_UINT64, "uint64_t", "uint64"), (TYPE_DOUBLE, "double", "double"),
    (TYPE_STRING, "string", "std::string"), (TYPE_TEXT, "text", "std::string"),
    (TYPE_BLOB, "blob", "blob"), (TYPE_TIMESTAMP, "timestamp", "datetime")]

def ParseType (v : List UInt8) : DType :=
  ((parseRows.find? fun row => ascii row.2.1 == v || ascii row.2.2 == v).map (·.1)).getD TYPE_NULL

def getBindString (col : Column) : List UInt8 :=
  match col._dtype with
  | TYPE_NULL => ascii ""
  | TYPE_INT8 => ascii "bindInt8"
  | TYPE_UINT8 => ascii "bindUint8"
  | TYPE_INT16 => ascii "bindInt16"
  | TYPE_UINT16 => ascii "bindUint16"
  | TYPE_INT32 => ascii "bindInt32"
  | TYPE_UINT32 => ascii "bindUint32"
  | TYPE_FLOAT => ascii "bindFloat"
  | TYPE_DOUBLE => ascii "bindDouble"
  | TYPE_INT64 => ascii "bindInt64"
  | TYPE_UINT64 => ascii "bindUint64"
  | TYPE_STRING => ascii "bindString"
  | TYPE_TEXT => ascii "bindString"
  | TYPE_BLOB => ascii "bindBlob"
  | TYPE_TIMESTAMP => ascii "bindTime"

/-- `make_shared<Column>()` starts from zero, so a column counts up only if it says so. -/
def init (QueryBoolAttribute : List UInt8 → Option Bool) (node : TiXmlElement) :
    Option Column := do
  let name ← node.Attribute "name"
  let type ← node.Attribute "type"
  if ParseType type = TYPE_NULL then none
  else
    some { _name := name
           _type := type
           _index := 0
           _autoIncrement := ((node.Attribute "auto_increment").bind QueryBoolAttribute).getD false
           _dtype := ParseType type }

end Column

/-! ## Indexes -/

inductive Index.DType
  | TYPE_NULL | TYPE_PK | TYPE_UNIQ | TYPE_INDEX
deriving DecidableEq

structure Index where
  _name : List UInt8
  _type : List UInt8
  _cols : List (List UInt8)
  _dtype : Index.DType
deriving DecidableEq

namespace Index

open DType

def ParseType (v : List UInt8) : DType :=
  if v = ascii "pk" then TYPE_PK
  else if v = ascii "uniq" then TYPE_UNIQ
  else if v = ascii "index" then TYPE_INDEX
  else TYPE_NULL

def isPK (idx : Index) : Bool := idx._type == ascii "pk"

/-- The columns are the pieces of `split(tmp, ',')`. -/
def init (node : TiXmlElement) : Option Index := do
  let name ← node.Attribute "name"
  let type ← node.Attribute "type"
  if ParseType type = TYPE_NULL then none
  else
    let tmp ← node.Attribute "cols"
    some { _name := name
           _type := type
           _cols := Util.split tmp 44 (-1)
           _dtype := ParseType type }

end Index

/-! ## `Table::init` -/

structure Table where
  _name : List UInt8
  _namespace : List UInt8
  _cols : List Column
  _idxs : List Index
deriving DecidableEq

namespace Table

variable (QueryBoolAttribute : List UInt8 → Option Bool)

/-- The loop over the columns; `col_names` has the names of `cols`, and `ind` is their number. -/
def initCols : List TiXmlElement → List Column → Option (List Column)
  | [], cols => some cols
  | node :: nodes, cols => do
      let col ← Column.init QueryBoolAttribute node
      if cols.any (·._name == col._name) then none
      else initCols nodes (cols ++ [{ col with _index := cols.length }])

/-- The loop over the indexes; `idx_names` has the names of `idxs`. -/
def initIdxs (cols : List Column) : List TiXmlElement → List Index → Option (List Index)
  | [], idxs => some idxs
  | node :: nodes, idxs => do
      let idx ← Index.init node
      if idxs.any (·._name == idx._name) then none
      else if idx.isPK && idxs.any (·.isPK) then none
      else if idx._cols.all fun x => cols.any (·._name == x) then
        initIdxs cols nodes (idxs ++ [idx])
      else none

def init (node : TiXmlElement) : Option Table := do
  let name ← node.Attribute "name"
  let ns ← node.Attribute "namespace"
  let colsNode ← (node.childElements "columns").head?
  if (colsNode.childElements "column").isEmpty then none
  else
    let cols ← initCols QueryBoolAttribute (colsNode.childElements "column") []
    let idxsNode ← (node.childElements "indexs").head?
    if (idxsNode.childElements "index").isEmpty then none
    else
      let idxs ← initIdxs cols (idxsNode.childElements "index") []
      some { _name := name, _namespace := ns, _cols := cols, _idxs := idxs }

def getCol (t : Table) (name : List UInt8) : Option Column :=
  t._cols.find? (·._name == name)

/-! ## What is accepted -/

/-- At most one of the indexes is a primary key. -/
def OnePK (idxs : List Index) : Prop := idxs.Pairwise fun a b => ¬ (a.isPK ∧ b.isPK)

/-- Every index is of one of the three types, and its columns are there. -/
structure Resolved (cols : List Column) (idx : Index) : Prop where
  dtype : idx._dtype = .TYPE_PK ∧ idx.isPK ∨
    (idx._dtype = .TYPE_UNIQ ∨ idx._dtype = .TYPE_INDEX) ∧ ¬ idx.isPK
  cols : ∀ x ∈ idx._cols, x ∈ cols.map (·._name)

structure Checked (t : Table) : Prop where
  names : (t._cols.map (·._name)).Nodup
  onePK : OnePK t._idxs
  resolved : ∀ idx ∈ t._idxs, Resolved t._cols idx

theorem any_name_eq_false {cols : List Column} {name : List UInt8} :
    cols.any (·._name == name) = false ↔ name ∉ cols.map (·._name) := by
  simp

theorem names_of_initCols {nodes : List TiXmlElement} {cols cols' : List Column}
    (h : initCols QueryBoolAttribute nodes cols = some cols')
    (hcols : (cols.map (·._name)).Nodup) : (cols'.map (·._name)).Nodup := by
  induction nodes generalizing cols with
  | nil =>
      cases h
      exact hcols
  | cons node nodes ih =>
      simp only [initCols, Option.bind_eq_bind, Option.bind_eq_some_iff] at h
      have ⟨col, _, h⟩ := h
      split at h
      · cases h
      · rename_i hnew
        have hnew := any_name_eq_false.mp (Bool.eq_false_of_not_eq_true hnew)
        apply ih h
        rw [List.map_append, List.nodup_append_comm]
        exact List.nodup_cons.mpr ⟨hnew, hcols⟩

theorem dtype_of_init {node : TiXmlElement} {idx : Index} (h : Index.init node = some idx) :
    idx._dtype = .TYPE_PK ∧ idx.isPK ∨
      (idx._dtype = .TYPE_UNIQ ∨ idx._dtype = .TYPE_INDEX) ∧ ¬ idx.isPK := by
  simp only [Index.init, Option.bind_eq_bind, Option.bind_eq_some_iff] at h
  have ⟨name, _, type, _, h⟩ := h
  split at h
  · cases h
  · rename_i htype
    have ⟨tmp, _, h⟩ := Option.bind_eq_some_iff.mp h
    cases h
    grind [Index.ParseType, Index.isPK]

theorem checked_of_initIdxs {cols : List Column} {nodes : List TiXmlElement}
    {idxs idxs' : List Index} (h : initIdxs cols nodes idxs = some idxs') (hpk : OnePK idxs)
    (hidxs : ∀ idx ∈ idxs, Resolved cols idx) :
    OnePK idxs' ∧ ∀ idx ∈ idxs', Resolved cols idx := by
  induction nodes generalizing idxs with
  | nil =>
      cases h
      exact ⟨hpk, hidxs⟩
  | cons node nodes ih =>
      simp only [initIdxs, Option.bind_eq_bind, Option.bind_eq_some_iff] at h
      have ⟨idx, hidx, h⟩ := h
      split at h
      · cases h
      · split at h
        · cases h
        · rename_i hone
          split at h
          · rename_i hall
            apply ih h
            · refine List.pairwise_append.mpr ⟨hpk, List.pairwise_singleton _ _, ?_⟩
              intro a ha b hb hboth
              cases List.mem_singleton.mp hb
              simp only [Bool.and_eq_true, List.any_eq_true, not_and, not_exists] at hone
              exact hone hboth.2 a ha hboth.1
            · intro a ha
              cases List.mem_append.mp ha with
              | inl ha => exact hidxs a ha
              | inr ha =>
                  cases List.mem_singleton.mp ha
                  exact ⟨dtype_of_init hidx, by simpa using hall⟩
          · cases h

variable {QueryBoolAttribute}

theorem checked_of_init {node : TiXmlElement} {t : Table}
    (h : init QueryBoolAttribute node = some t) : t.Checked := by
  simp only [init, Option.bind_eq_bind, Option.bind_eq_some_iff] at h
  have ⟨name, _, ns, _, colsNode, _, h⟩ := h
  split at h
  · cases h
  · have ⟨cols, hcols, h⟩ := Option.bind_eq_some_iff.mp h
    have ⟨idxsNode, _, h⟩ := Option.bind_eq_some_iff.mp h
    split at h
    · cases h
    · have ⟨idxs, hidxs, h⟩ := Option.bind_eq_some_iff.mp h
      cases h
      have hchecked := checked_of_initIdxs hidxs .nil (by simp)
      exact
        { names := names_of_initCols QueryBoolAttribute hcols .nil
          onePK := hchecked.1
          resolved := hchecked.2 }

end Table

end Orm
end Routn
