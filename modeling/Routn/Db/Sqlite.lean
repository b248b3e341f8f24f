import Mathlib.Tactic

/-!
# Values in SQLite

What `SQLite3Stmt` binds and what `SQLite3Data` reads, one column at a time.  The C interface is a
parameter (`Sqlite3`): what it keeps of a parameter is a `Column`.  A pointer is the block that it
points to, and reading more than the block is undefined (`none`), as is a length below zero.

`isNull` returns `false`, and `getBlob` takes the type of a column for its length.
-/

namespace Routn
namespace SQLite3

/-! ## The C interface -/

def SQLITE_BLOB : Int32 := 4

/-- The calls for one parameter, and for its column later. -/
structure Sqlite3 (Column : Type) where
  bind_int : Int32 → Column
  bind_int64 : Int64 → Column
  bind_text : List UInt8 → Int32 → Option Column
  bind_blob : List UInt8 → Int32 → Option Column
  bind_null : Column
  column_type : Column → Int32
  column_bytes : Column → Int32
  column_int : Column → Int32
  column_int64 : Column → Int64
  column_text : Column → Option (List UInt8)
  column_blob : Column → Option (List UInt8)

/-- SQLite stores and returns what it is given.  A text comes back with a null byte behind it, a
blob without; for a blob of length zero there is no pointer. -/
structure Faithful {Column : Type} (sql : Sqlite3 Column) : Prop where
  int : ∀ v, sql.column_int (sql.bind_int v) = v
  int64 : ∀ v, sql.column_int64 (sql.bind_int64 v) = v
  text : ∀ block (n : Nat), n < 2 ^ 31 → n ≤ block.length → 0 ∉ block.take n →
    ∃ col, sql.bind_text block (.ofNat n) = some col ∧
      sql.column_text col = some (block.take n ++ [0]) ∧ sql.column_bytes col = .ofNat n
  blob : ∀ block (n : Nat), n < 2 ^ 31 → n ≤ block.length →
    ∃ col, sql.bind_blob block (.ofNat n) = some col ∧ sql.column_type col = SQLITE_BLOB ∧
      sql.column_blob col = if n = 0 then none else some (block.take n)
  type : ∀ col, 1 ≤ (sql.column_type col).toInt ∧ (sql.column_type col).toInt ≤ 5

/-! ## The code -/

/-- `std::string(v, n)`. -/
def stdString (v : List UInt8) (n : Int32) : Option (List UInt8) :=
  if 0 ≤ n.toInt ∧ n.toInt.toNat ≤ v.length then some (v.take n.toInt.toNat) else none

section Code

variable {Column : Type} (sql : Sqlite3 Column)

/-! `SQLite3Stmt`; the index goes to SQLite as it is, or as the one that a name has. -/

/-- `bind(idx, int32_t)`. -/
def bind (value : Int32) : Option Column := some (sql.bind_int value)

/-- `bind(idx, uint32_t)`. -/
def bindUnsigned (value : UInt32) : Option Column := some (sql.bind_int value.toInt32)

/-- `bind(idx, int64_t)`. -/
def bindLong (value : Int64) : Option Column := some (sql.bind_int64 value)

/-- `bind(idx, uint64_t)`. -/
def bindUnsignedLong (value : UInt64) : Option Column := some (sql.bind_int64 value.toInt64)

/-- `bind(idx, const char*)`: the length is that in front of the null byte. -/
def bindChars (value : List UInt8) : Option Column :=
  sql.bind_text value (.ofNat (value.takeWhile (· ≠ 0)).length)

/-- `bind(idx, const void*, int)`. -/
def bindBytes (value : List UInt8) (len : Int32) : Option Column := sql.bind_blob value len

/-- `bind(idx, const std::string&)`, with `c_str()`. -/
def bindStdString (value : List UInt8) : Option Column :=
  sql.bind_text (value ++ [0]) (.ofNat value.length)

/-- `bind(idx)`. -/
def bindNothing : Option Column := some sql.bind_null

def bindInt8 (value : Int8) : Option Column := bind sql value.toInt32
def bindUint8 (value : UInt8) : Option Column := bind sql value.toUInt32.toInt32
def bindInt16 (value : Int16) : Option Column := bind sql value.toInt32
def bindUint16 (value : UInt16) : Option Column := bind sql value.toUInt32.toInt32
def bindInt32 (value : Int32) : Option Column := bind sql value
def bindUint32 (value : UInt32) : Option Column := bind sql value.toInt32
def bindInt64 (value : Int64) : Option Column := bindLong sql value
def bindUint64 (value : UInt64) : Option Column := bindLong sql value.toInt64
def bindString (value : List UInt8) : Option Column := bindChars sql value
def bindString' (value : List UInt8) : Option Column := bindStdString sql value

/-- `bindBlob(idx, value, size)`. -/
def bindBlob (value : List UInt8) (size : Int64) : Option Column :=
  bindBytes sql value size.toInt32

/-- `bindBlob(idx, value)`. -/
def bindBlob' (value : List UInt8) : Option Column :=
  bindBytes sql (value ++ [0]) (.ofNat value.length)

def bindNull : Option Column := bindNothing sql

/-! `SQLite3Data`. -/

def getColumnBytes (col : Column) : Int32 := sql.column_bytes col

def getColumnType (col : Column) : Int32 := sql.column_type col

def isNull (_ : Column) : Bool := false

def getInt32 (col : Column) : Int32 := sql.column_int col
def getInt8 (col : Column) : Int8 := (getInt32 sql col).toInt8
def getUint8 (col : Column) : UInt8 := (getInt32 sql col).toUInt32.toUInt8
def getInt16 (col : Column) : Int16 := (getInt32 sql col).toInt16
def getUint16 (col : Column) : UInt16 := (getInt32 sql col).toUInt32.toUInt16
def getUint32 (col : Column) : UInt32 := (getInt32 sql col).toUInt32
def getInt64 (col : Column) : Int64 := sql.column_int64 col
def getUint64 (col : Column) : UInt64 := (getInt64 sql col).toUInt64

def getString (col : Column) : Option (List UInt8) :=
  match sql.column_text col with
  | some v => stdString v (getColumnBytes sql col)
  | none => some []

def getBlob (col : Column) : Option (List UInt8) :=
  match sql.column_blob col with
  | some v => stdString v (getColumnType sql col)
  | none => some []

end Code

/-! ## Round trips -/

/-- Bytes without a null byte. -/
structure Text where
  bytes : List UInt8
  noNul : 0 ∉ bytes

/-- A value, by the function that binds it. -/
inductive Value
  | int8 (value : Int8)
  | uint8 (value : UInt8)
  | int16 (value : Int16)
  | uint16 (value : UInt16)
  | int32 (value : Int32)
  | uint32 (value : UInt32)
  | int64 (value : Int64)
  | uint64 (value : UInt64)
  /-- `bind` with an unsigned value. -/
  | unsigned (value : UInt32)
  | unsignedLong (value : UInt64)
  /-- A string that ends with its null byte. -/
  | chars (value : Text)
  | stdString (value : Text)
  /-- Bytes with their number. -/
  | blob (value : List UInt8)
  | stdBlob (value : List UInt8)
  | null

section RoundTrip

variable {Column : Type} (sql : Sqlite3 Column)

def Value.bound : Value → Option Column
  | int8 value => bindInt8 sql value
  | uint8 value => bindUint8 sql value
  | int16 value => bindInt16 sql value
  | uint16 value => bindUint16 sql value
  | int32 value => bindInt32 sql value
  | uint32 value => bindUint32 sql value
  | int64 value => bindInt64 sql value
  | uint64 value => bindUint64 sql value
  | unsigned value => bindUnsigned sql value
  | unsignedLong value => bindUnsignedLong sql value
  | chars value => bindString sql (value.bytes ++ [0])
  | stdString value => bindString' sql value.bytes
  | blob value => bindBlob sql value (.ofNat value.length)
  | stdBlob value => bindBlob' sql value
  | null => bindNull sql

/-- The getter of the same type returns the value. -/
def Value.Returned (col : Column) : Value → Prop
  | int8 value => getInt8 sql col = value
  | uint8 value => getUint8 sql col = value
  | int16 value => getInt16 sql col = value
  | uint16 value => getUint16 sql col = value
  | int32 value => getInt32 sql col = value
  | uint32 value => getUint32 sql col = value
  | int64 value => getInt64 sql col = value
  | uint64 value => getUint64 sql col = value
  | unsigned value => getUint32 sql col = value
  | unsignedLong value => getUint64 sql col = value
  | chars value => getString sql col = some value.bytes
  | stdString value => getString sql col = some value.bytes
  | blob value => getBlob sql col = some value
  | stdBlob value => getBlob sql col = some value
  | null => True

/-- The value comes back, and is null if it was bound so. -/
def RoundTrip (value : Value) : Prop :=
  ∃ col, value.bound sql = some col ∧ value.Returned sql col ∧
    (isNull col = true ↔ value = .null)

/-- Texts whose length fits into an `int`, and blobs that are as long as the number of their type is
great. -/
def Survives : Value → Prop
  | .chars value => value.bytes.length < 2 ^ 31
  | .stdString value => value.bytes.length < 2 ^ 31
  | .blob value => value.length = 0 ∨ value.length = 4
  | .stdBlob value => value.length = 0 ∨ value.length = 4
  | .null => False
  | _ => True

variable {sql}

/-! ## Lengths -/

theorem toInt_ofNat {n : Nat} (h : n < 2 ^ 31) : (Int32.ofNat n).toInt = n :=
  Int32.toInt_ofNat_of_lt h

theorem stdString_ofNat {v : List UInt8} {n : Nat} (h : n < 2 ^ 31) (hle : n ≤ v.length) :
    stdString v (.ofNat n) = some (v.take n) := by
  simp [stdString, toInt_ofNat h, hle]

/-- A length that is an `int` gives a string of that length. -/
theorem length_of_stdString {v str : List UInt8} {n : Int32} (h : stdString v n = some str) :
    str.length = n.toInt.toNat := by
  rw [stdString] at h
  split at h
  · next hin =>
      obtain rfl := Option.some.inj h
      simpa using hin.2
  · cases h

theorem length_getString {col : Column} {str : List UInt8} (h : getString sql col = some str) :
    str.length < 2 ^ 31 := by
  rw [getString] at h
  split at h
  · have hlength := length_of_stdString h
    have hlt := (getColumnBytes sql col).toInt_lt
    omega
  · obtain rfl := Option.some.inj h
    decide

theorem length_getBlob (hfaithful : Faithful sql) {col : Column} {str : List UInt8}
    (h : getBlob sql col = some str) : str.length ≤ 5 := by
  rw [getBlob] at h
  split at h
  · have hlength := length_of_stdString h
    have htype := (hfaithful.type col).2
    simp only [getColumnType] at hlength
    omega
  · obtain rfl := Option.some.inj h
    decide

/-! ## The values -/

theorem text_iff (hfaithful : Faithful sql) (value : Text) {block : List UInt8}
    (hblock : block = value.bytes ++ [0]) :
    (∃ col, sql.bind_text block (.ofNat value.bytes.length) = some col ∧
      getString sql col = some value.bytes) ↔ value.bytes.length < 2 ^ 31 := by
  subst hblock
  constructor
  · rintro ⟨col, -, hget⟩
    exact length_getString hget
  · intro hlt
    have hnoNul : 0 ∉ (value.bytes ++ [0]).take value.bytes.length := by simpa using value.noNul
    obtain ⟨col, hbind, htext, hbytes⟩ := hfaithful.text _ _ hlt (by simp) hnoNul
    refine ⟨col, hbind, ?_⟩
    simp only [getString, htext, getColumnBytes, hbytes]
    rw [stdString_ofNat hlt (by simp)]
    simp

theorem blob_iff (hfaithful : Faithful sql) {value block : List UInt8}
    (hblock : value <+: block) :
    (∃ col, sql.bind_blob block (.ofNat value.length) = some col ∧
      getBlob sql col = some value) ↔ value.length = 0 ∨ value.length = 4 := by
  obtain ⟨rest, rfl⟩ := hblock
  by_cases hlt : value.length < 2 ^ 31
  · obtain ⟨col, hbind, htype, hblob⟩ := hfaithful.blob (value ++ rest) value.length hlt (by simp)
    have honly : (∃ col, sql.bind_blob (value ++ rest) (.ofNat value.length) = some col ∧
        getBlob sql col = some value) ↔ getBlob sql col = some value := by
      simp [hbind]
    rw [honly]
    by_cases hzero : value.length = 0
    · have hempty := List.length_eq_zero_iff.mp hzero
      simp [getBlob, hblob, hempty]
    · rw [if_neg hzero, List.take_left] at hblob
      simp only [getBlob, hblob, getColumnType, htype, hzero, false_or]
      constructor
      · intro hget
        exact length_of_stdString hget
      · intro hfour
        have htake : value.take 4 = value := List.take_of_length_le hfour.le
        simp [stdString, SQLITE_BLOB, hfour, htake]
  · refine iff_of_false ?_ (by omega)
    rintro ⟨col, -, hget⟩
    have hshort := length_getBlob hfaithful hget
    omega

/-- **Round trips.**  All integers come back; a text does when its length fits into an `int`, a blob
when it is empty or has four bytes; and a null is never told. -/
theorem roundTrip_iff (hfaithful : Faithful sql) (value : Value) :
    RoundTrip sql value ↔ Survives value := by
  cases value with
  | null => simp [RoundTrip, Survives, isNull]
  | chars value =>
      have hlength : ((value.bytes ++ [0]).takeWhile (· ≠ 0)).length = value.bytes.length := by
        rw [List.takeWhile_append_of_pos]
        · simp
        · intro c hc
          have hne : c ≠ 0 := fun hzero => value.noNul (hzero ▸ hc)
          simpa using hne
      have htext := text_iff hfaithful value rfl
      simpa only [RoundTrip, Survives, Value.bound, Value.Returned, bindString, bindChars, hlength,
        isNull, Bool.false_eq_true, reduceCtorEq, iff_self, and_true] using htext
  | stdString value =>
      have htext := text_iff hfaithful value rfl
      simpa only [RoundTrip, Survives, Value.bound, Value.Returned, bindString', bindStdString,
        isNull, Bool.false_eq_true, reduceCtorEq, iff_self, and_true] using htext
  | blob value =>
      have hsize : (Int64.ofNat value.length).toInt32 = Int32.ofNat value.length :=
        Int64.toInt32_ofNat'
      have hblob := blob_iff hfaithful (List.prefix_refl value)
      simpa only [RoundTrip, Survives, Value.bound, Value.Returned, bindBlob, bindBytes, hsize,
        isNull, Bool.false_eq_true, reduceCtorEq, iff_self, and_true] using hblob
  | stdBlob value =>
      have hblob := blob_iff hfaithful (List.prefix_append value [0])
      simpa only [RoundTrip, Survives, Value.bound, Value.Returned, bindBlob', bindBytes,
        isNull, Bool.false_eq_true, reduceCtorEq, iff_self, and_true] using hblob
  | int64 value =>
      simp [RoundTrip, Survives, Value.bound, Value.Returned, bindInt64, bindLong, getInt64,
        hfaithful.int64, isNull]
  | uint64 value =>
      simp [RoundTrip, Survives, Value.bound, Value.Returned, bindUint64, bindLong, getUint64,
        getInt64, hfaithful.int64, isNull]
  | unsignedLong value =>
      simp [RoundTrip, Survives, Value.bound, Value.Returned, bindUnsignedLong, getUint64,
        getInt64, hfaithful.int64, isNull]
  | _ value =>
      simp [RoundTrip, Survives, Value.bound, Value.Returned, bindInt8, bindUint8, bindInt16,
        bindUint16, bindInt32, bindUint32, bind, bindUnsigned, getInt8, getUint8, getInt16,
        getUint16, getInt32, getUint32, hfaithful.int, isNull]

end RoundTrip

/-! ## A store of cells -/

inductive Cell
  | integer (value : Int64)
  | text (value : List UInt8)
  | blob (value : List UInt8)
  | null
deriving DecidableEq

/-- Values are kept as they are. -/
def cells : Sqlite3 Cell where
  bind_int value := .integer value.toInt64
  bind_int64 value := .integer value
  bind_text block n := (stdString block n).map .text
  bind_blob block n := (stdString block n).map .blob
  bind_null := .null
  column_type
    | .integer _ => 1
    | .text _ => 3
    | .blob _ => SQLITE_BLOB
    | .null => 5
  column_bytes
    | .text value => .ofNat value.length
    | .blob value => .ofNat value.length
    | _ => 0
  column_int
    | .integer value => value.toInt32
    | _ => 0
  column_int64
    | .integer value => value
    | _ => 0
  column_text
    | .text value => some (value ++ [0])
    | _ => none
  column_blob
    | .blob value => if value.length = 0 then none else some value
    | _ => none

theorem faithful_cells : Faithful cells where
  int v := by simp [cells]
  int64 v := rfl
  text block n hlt hle _ := by
    simp [cells, stdString_ofNat hlt hle, hle]
  blob block n hlt hle := by
    refine ⟨.blob (block.take n), by simp [cells, stdString_ofNat hlt hle], rfl, ?_⟩
    have hlength : (block.take n).length = n := by simpa using hle
    simp only [cells, hlength]
  type col := by
    have hvalues : ∀ n ∈ ([1, 3, 4, 5] : List Int32), 1 ≤ n.toInt ∧ n.toInt ≤ 5 :=
      List.forall_iff_forall_mem.mp (by decide)
    apply hvalues
    cases col <;> simp [cells, SQLITE_BLOB]

/-- `roundTrip_iff` for a blob of four bytes. -/
theorem roundTrip_iff_four : RoundTrip cells (.blob [1, 2, 3, 4]) :=
  (roundTrip_iff faithful_cells (.blob [1, 2, 3, 4])).mpr (.inr rfl)

/-- A blob of five bytes loses one, and a null is not told. -/
theorem not_roundTrip_cells :
    ¬ RoundTrip cells (.blob [1, 2, 3, 4, 5]) ∧ ¬ RoundTrip cells .null := by
  constructor
  · rintro ⟨col, hbound, hget, -⟩
    have hcol : (Value.blob [1, 2, 3, 4, 5]).bound cells = some (.blob [1, 2, 3, 4, 5]) := rfl
    obtain rfl := Option.some.inj (hbound.symm.trans hcol)
    have hfour : getBlob cells (.blob [1, 2, 3, 4, 5]) = some [1, 2, 3, 4] := rfl
    exact absurd (Option.some.inj (hfour.symm.trans hget)) (by decide)
  · rintro ⟨col, -, -, hnull⟩
    exact Bool.false_ne_true (hnull.mpr rfl)

end SQLite3
end Routn
