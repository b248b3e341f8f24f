import Routn.Config.Yaml

/-!
# `St_LogDefine` as YAML

The two conversions are written apart.  Of an appender, the one to YAML leaves out `timeasname`, and
the one from YAML does not look at the level, and at the file only of a `FileAppender`.

`emit` and `load` are those of yaml-cpp, and `asBool` is its conversion to `bool`.
-/

namespace Routn

open Yaml

inductive LogLevel
  | UNKNOWN
  | DEBUG
  | INFO
  | WARN
  | ERROR
  | FATAL
deriving DecidableEq, Repr

namespace LogLevel

def LevelToString : LogLevel → String
  | DEBUG => "DEBUG"
  | INFO => "INFO"
  | WARN => "WARN"
  | ERROR => "ERROR"
  | FATAL => "FATAL"
  | UNKNOWN => "UNKOWN"

def FromString (str : String) : LogLevel :=
  if str = "debug" then DEBUG
  else if str = "info" then INFO
  else if str = "warn" then WARN
  else if str = "error" then ERROR
  else if str = "fatal" then FATAL
  else if str = "DEBUG" then DEBUG
  else if str = "INFO" then INFO
  else if str = "WARN" then WARN
  else if str = "ERROR" then ERROR
  else if str = "FATAL" then FATAL
  else UNKNOWN

@[simp] theorem FromString_LevelToString (level : LogLevel) :
    FromString (LevelToString level) = level := by
  cases level <;> simp [FromString, LevelToString]

@[simp] theorem FromString_empty : FromString "" = UNKNOWN := by
  simp [FromString]

end LogLevel

open LogLevel

structure St_LogAppenderDefine where
  /-- One for a file, two for the standard output. -/
  type : Int := 0
  level : LogLevel := UNKNOWN
  formatter : String := ""
  file : String := ""
  timeasname : Bool := false
deriving DecidableEq, Repr

structure St_LogDefine where
  name : String
  level : LogLevel
  formatter : String
  appenders : List St_LogAppenderDefine
deriving DecidableEq, Repr

namespace St_LogAppenderDefine

/-- The body of the loop over the appenders of a definition. -/
def toNode (a : St_LogAppenderDefine) : Node :=
  let na := Node.null
  let na :=
    if a.type = 1 then (na.set "type" (.scalar "FileAppender")).set "file" (.scalar a.file)
    else if a.type = 2 then na.set "type" (.scalar "StdoutAppender")
    else na
  let na := if a.level ≠ UNKNOWN then na.set "level" (.scalar (LevelToString a.level)) else na
  if a.formatter ≠ "" then na.set "formatter" (.scalar a.formatter) else na

/-- The string at a key, and the one that is there before when the key is not. -/
def stringOr (a : Node) (key default : String) : Option String :=
  match a.get key with
  | none => some default
  | some value => value.asString

/-- The body of the loop over the nodes: `none` is an exception, and the inner one a `continue`. -/
def fromNode (asBool : Node → Option Bool) (a : Node) : Option (Option St_LogAppenderDefine) :=
  match a.get "type" with
  | none => some none
  | some type => do
      let type ← type.asString
      let lad : St_LogAppenderDefine := {}
      if type = "FileAppender" then
        let lad := { lad with type := 1 }
        match a.get "file" with
        | none => return none
        | some file =>
            let lad := { lad with file := ← file.asString }
            let lad := { lad with formatter := ← stringOr a "formatter" lad.formatter }
            match a.get "timeasname" with
            | none => return some lad
            | some timeasname => return some { lad with timeasname := ← asBool timeasname }
      else if type = "StdoutAppender" then
        let lad := { lad with type := 2 }
        return some { lad with formatter := ← stringOr a "formatter" lad.formatter }
      else return none

end St_LogAppenderDefine

namespace St_LogDefine

open St_LogAppenderDefine (stringOr)

def toNode (i : St_LogDefine) : Node :=
  let n := Node.null.set "name" (.scalar i.name)
  let n := if i.level ≠ UNKNOWN then n.set "level" (.scalar (LevelToString i.level)) else n
  let n := if i.formatter ≠ "" then n.set "formatter" (.scalar i.formatter) else n
  i.appenders.foldl (fun n a => n.push_back "appenders" a.toNode) n

/-- The loop over the nodes of the appenders. -/
def readAppenders (asBool : Node → Option Bool) :
    List Node → Option (List St_LogAppenderDefine)
  | [] => some []
  | a :: rest => do
      let lad ← St_LogAppenderDefine.fromNode asBool a
      let lads ← readAppenders asBool rest
      return lad.toList ++ lads

def fromNode (asBool : Node → Option Bool) (n : Node) : Option St_LogDefine :=
  match n.get "name" with
  | none => none
  | some name => do
      let name ← name.asString
      let level := FromString (← stringOr n "level" "")
      let formatter ← stringOr n "formatter" ""
      let appenders ← readAppenders asBool (((n.get "appenders").map Node.items).getD [])
      return ⟨name, level, formatter, appenders⟩

/-- `LexicalCast<St_LogDefine, std::string>` -/
def toText (emit : Node → String) (i : St_LogDefine) : String := emit i.toNode

/-- `LexicalCast<std::string, St_LogDefine>` -/
def fromText (load : String → Node) (asBool : Node → Option Bool) (v : String) :
    Option St_LogDefine :=
  fromNode asBool (load v)

end St_LogDefine

/-! ## What comes back -/

namespace St_LogAppenderDefine

variable (asBool : Node → Option Bool) (a : St_LogAppenderDefine)

/-- What is left of an appender. -/
def kept : St_LogAppenderDefine :=
  { type := a.type, formatter := a.formatter, file := if a.type = 1 then a.file else "" }

theorem get_toNode (htype : a.type = 1 ∨ a.type = 2) :
    a.toNode.get "type" =
        some (.scalar (if a.type = 1 then "FileAppender" else "StdoutAppender")) ∧
      a.toNode.get "file" = (if a.type = 1 then some (.scalar a.file) else none) ∧
      stringOr a.toNode "formatter" "" = some a.formatter ∧
      a.toNode.get "timeasname" = none := by
  by_cases hlevel : a.level = UNKNOWN <;> by_cases hformatter : a.formatter = "" <;>
    rcases htype with htype | htype <;>
      simp [toNode, htype, hlevel, hformatter, stringOr, Node.asString]

/-- **An appender that is read back.** -/
theorem fromNode_toNode (htype : a.type = 1 ∨ a.type = 2) :
    fromNode asBool a.toNode = some (some a.kept) := by
  obtain ⟨hget, hfile, hformatter, htime⟩ := a.get_toNode htype
  rcases htype with htype | htype
  · simp only [htype, if_true] at hget hfile
    simp [fromNode, hget, hfile, hformatter, htime, Node.asString, kept, htype]
  · have hone : ¬ (2 : Int) = 1 := by decide
    simp only [htype, hone, if_false] at hget hfile
    simp [fromNode, hget, hformatter, Node.asString, kept, htype]

/-- Nothing of an appender is lost. -/
theorem kept_eq_iff : a.kept = a ↔
    a.level = UNKNOWN ∧ a.timeasname = false ∧ (a.type ≠ 1 → a.file = "") := by
  obtain ⟨type, level, formatter, file, timeasname⟩ := a
  by_cases htype : type = 1 <;> simp [kept, htype, eq_comm]
  tauto

end St_LogAppenderDefine

namespace St_LogDefine

open St_LogAppenderDefine (stringOr)

variable (asBool : Node → Option Bool) (i : St_LogDefine)

theorem get_toNode :
    i.toNode.get "name" = some (.scalar i.name) ∧
      stringOr i.toNode "level" "" =
        some (if i.level = UNKNOWN then "" else LevelToString i.level) ∧
      stringOr i.toNode "formatter" "" = some i.formatter ∧
      ((i.toNode.get "appenders").map Node.items).getD [] =
        i.appenders.map St_LogAppenderDefine.toNode := by
  have hget (n : Node) (hn : n.get "appenders" = none) (key : String) :=
    Node.get_foldl_push_back St_LogAppenderDefine.toNode "appenders" key i.appenders (n := n) []
      (by simpa using hn)
  by_cases hlevel : i.level = UNKNOWN <;> by_cases hformatter : i.formatter = "" <;>
    by_cases hnil : i.appenders = [] <;>
      simp [toNode, hlevel, hformatter, hget, hnil, stringOr, Node.asString, Node.items]

theorem readAppenders_toNode {appenders : List St_LogAppenderDefine}
    (htypes : ∀ a ∈ appenders, a.type = 1 ∨ a.type = 2) :
    readAppenders asBool (appenders.map St_LogAppenderDefine.toNode) =
      some (appenders.map St_LogAppenderDefine.kept) := by
  induction appenders with
  | nil => simp [readAppenders]
  | cons a appenders ih =>
      simp only [List.mem_cons, forall_eq_or_imp] at htypes
      simp [readAppenders, a.fromNode_toNode asBool htypes.1, ih htypes.2]

/-- **What is read back**: everything but what the appenders lose. -/
theorem fromNode_toNode (htypes : ∀ a ∈ i.appenders, a.type = 1 ∨ a.type = 2) :
    fromNode asBool i.toNode =
      some { i with appenders := i.appenders.map St_LogAppenderDefine.kept } := by
  obtain ⟨hname, hlevel, hformatter, happenders⟩ := i.get_toNode
  have hstring :
      FromString (if i.level = UNKNOWN then "" else LevelToString i.level) = i.level := by
    split <;> simp_all
  simp [fromNode, hname, hlevel, hformatter, happenders, readAppenders_toNode asBool htypes,
    Node.asString, hstring]

/-- **The round trip of a definition**, when yaml-cpp reproduces the node that it has emitted. -/
theorem fromText_toText_iff {emit : Node → String} {load : String → Node}
    (hyaml : load (emit i.toNode) = i.toNode)
    (htypes : ∀ a ∈ i.appenders, a.type = 1 ∨ a.type = 2) :
    fromText load asBool (toText emit i) = some i ↔
      ∀ a ∈ i.appenders,
        a.level = UNKNOWN ∧ a.timeasname = false ∧ (a.type = 2 → a.file = "") := by
  have hkept (a : St_LogAppenderDefine) (ha : a ∈ i.appenders) :
      a.kept = a ↔ a.level = UNKNOWN ∧ a.timeasname = false ∧ (a.type = 2 → a.file = "") := by
    rw [a.kept_eq_iff]
    rcases htypes a ha with htype | htype <;> simp [htype]
  have hmap : i.appenders.map St_LogAppenderDefine.kept = i.appenders ↔
      ∀ a ∈ i.appenders, a.kept = a := by
    simpa using List.map_inj_left (f := St_LogAppenderDefine.kept) (g := id) (l := i.appenders)
  rw [fromText, toText, hyaml, fromNode_toNode asBool i htypes, ← forall₂_congr hkept, ← hmap]
  cases i
  simp

/-- A logger with one appender to a file. -/
def oneFile (level : LogLevel) : St_LogDefine :=
  ⟨"root", DEBUG, "%m", [{ type := 1, level, file := "root.txt" }]⟩

/-- What yaml-cpp emits for it without a level. -/
def oneFileText : String :=
  "name: root\nlevel: DEBUG\nformatter: \"%m\"\nappenders:\n  - type: FileAppender\n" ++
    "    file: root.txt"

/-- `fromText_toText_iff` for an appender without a level. -/
theorem fromText_toText_iff_root :
    fromText (fun v => if v = oneFileText then (oneFile UNKNOWN).toNode else .null) (fun _ => none)
      (toText (fun _ => oneFileText) (oneFile UNKNOWN)) = some (oneFile UNKNOWN) :=
  (fromText_toText_iff (fun _ => none) (oneFile UNKNOWN) (by simp) (by decide)).mpr (by decide)

/-- **The level of an appender** is not read. -/
theorem not_fromNode_level :
    fromNode (fun _ => none) (oneFile ERROR).toNode = some (oneFile UNKNOWN) ∧
      oneFile UNKNOWN ≠ oneFile ERROR := by
  constructor
  · rw [fromNode_toNode _ _ (by decide)]
    decide
  · decide

end St_LogDefine
end Routn
