import Mathlib.Data.String.Basic
import Routn.Foundation.NestedMap
import Routn.Log.LogDefine
import Routn.Log.LogFormatter

/-!
# The listener of the log configuration

An update is compared with the configuration that is stored, and what is new or changed is carried
out on the loggers, which live on.  A logger keeps the formatter that it was given once, also where
its definition has none.  And an update that throws is not stored: a file without a dot cannot have
the time in its name, and the loggers in front of it have been changed by then.

A logger is what was carried out on it, so that the two processes are compared on that
(`historyFree_iff_fits`).  `stamp` is the text of the time.
-/

namespace Routn

open Foundation LogLevel

/-! ## Appenders -/

inductive AppenderClass
  | FileAppender
  | StdoutAppender
deriving DecidableEq, Repr

/-- A formatter is known by its pattern. -/
structure LogAppender where
  cls : AppenderClass
  level : LogLevel := DEBUG
  b_hasFormatter : Bool := false
  ptr_formatter : Option String := none
  time_as_name_needed : Bool := true
  filename : String := ""
deriving DecidableEq, Repr

namespace LogAppender

def setLevel (ap : LogAppender) (level : LogLevel) : LogAppender := { ap with level }

def setFormatter (ap : LogAppender) (val : Option String) : LogAppender :=
  { ap with ptr_formatter := val, b_hasFormatter := val.isSome }

/-- The time goes in front of the first dot; `insert` throws where there is none. -/
def resetFileName (stamp : String) (ap : LogAppender) : Option LogAppender :=
  let filename := ap.filename.toList
  if '.' ∈ filename then
    some { ap with filename := String.ofList (filename.takeWhile (· ≠ '.') ++
      '-' :: stamp.toList ++ filename.dropWhile (· ≠ '.')) }
  else none

/-- The constructor, with `reopen`. -/
def FileAppender (stamp filename : String) (value : Bool) : Option LogAppender :=
  let ap : LogAppender := { cls := .FileAppender, filename, time_as_name_needed := value }
  if value then ap.resetFileName stamp else some ap

def StdoutAppender : LogAppender := { cls := .StdoutAppender }

end LogAppender

open LogAppender

/-! ## Loggers -/

def defaultPattern : String :=
  "%d{%Y-%m-%d %H:%M:%S}%T%t%T%N%T%F%T[%p]%T[%c]%T%f: %l%T%m%n"

def isError (pattern : String) : Bool := (LogFormatter.init pattern.toList).error

structure Logger where
  level : LogLevel := DEBUG
  appenders : List LogAppender := []
  formatter : String := defaultPattern
deriving DecidableEq, Repr

namespace Logger

def setLevel (l : Logger) (level : LogLevel) : Logger := { l with level }

/-- `setFormatter` of a formatter. -/
def putFormatter (l : Logger) (val : String) : Logger :=
  { l with
    formatter := val
    appenders := l.appenders.map fun i =>
      if i.b_hasFormatter then i else { i with ptr_formatter := some val } }

/-- `setFormatter` of a pattern. -/
def setFormatter (l : Logger) (val : String) : Logger :=
  if isError val then l else l.putFormatter val

def clearAppenders (l : Logger) : Logger := { l with appenders := [] }

/-- An appender without a formatter gets the one of its logger. -/
def fill (formatter : String) (ap : LogAppender) : LogAppender :=
  if ap.ptr_formatter = none then { ap with ptr_formatter := some formatter } else ap

def addAppender (l : Logger) (ap : LogAppender) : Logger :=
  { l with appenders := l.appenders ++ [fill l.formatter ap] }

end Logger

abbrev Loggers := Map String Logger

/-- `LogManager::getLogger`. -/
def Loggers.getLogger (loggers : Loggers) (name : String) : Logger := (loggers.lookup name).getD {}

/-- What `LogManager` starts with. -/
def LogManager : Loggers := AList.insert "root" (Logger.addAppender {} StdoutAppender) ∅

/-! ## Configurations -/

/-- `operator<` of definitions, of their names. -/
def less (name name' : String) : Prop := name < name'

instance (name name' : String) : Decidable (less name name') :=
  inferInstanceAs (Decidable (name < name'))

theorem less_irrefl (name : String) : ¬ less name name := lt_irrefl name

theorem less_asymm {name name' : String} (h : less name name') : ¬ less name' name := lt_asymm h

theorem ne_of_less {name name' : String} (h : less name name') : name ≠ name' := ne_of_lt h

section Types

variable {asBool : Yaml.Node → Option Bool} {a : Yaml.Node} {lad : St_LogAppenderDefine}

/-- An appender that comes from YAML is one of the two. -/
theorem type_of_fromNode (h : St_LogAppenderDefine.fromNode asBool a = some (some lad)) :
    lad.type = 1 ∨ lad.type = 2 := by
  unfold St_LogAppenderDefine.fromNode at h
  cases htype : a.get "type" with
  | none => simp [htype] at h
  | some type =>
      simp only [htype, Option.bind_eq_bind, Option.bind_eq_some_iff] at h
      obtain ⟨name, -, h⟩ := h
      split at h
      · cases hfile : a.get "file" with
        | none => simp [hfile] at h
        | some file =>
            simp only [hfile, Option.bind_eq_some_iff] at h
            obtain ⟨path, -, formatter, -, h⟩ := h
            cases htime : a.get "timeasname" with
            | none =>
                obtain rfl : _ = lad := by simpa [htime] using h
                exact .inl rfl
            | some time =>
                simp only [htime, Option.bind_eq_some_iff] at h
                obtain ⟨value, -, h⟩ := h
                obtain rfl : _ = lad := by simpa using h
                exact .inl rfl
      · split at h
        · simp only [Option.bind_eq_some_iff] at h
          obtain ⟨formatter, -, h⟩ := h
          obtain rfl : _ = lad := by simpa using h
          exact .inr rfl
        · simp at h

theorem types_of_readAppenders {nodes : List Yaml.Node} {lads : List St_LogAppenderDefine}
    (h : St_LogDefine.readAppenders asBool nodes = some lads) :
    ∀ lad ∈ lads, lad.type = 1 ∨ lad.type = 2 := by
  induction nodes generalizing lads with
  | nil =>
      obtain rfl : [] = lads := by simpa [St_LogDefine.readAppenders] using h
      simp
  | cons a rest ih =>
      simp only [St_LogDefine.readAppenders, Option.bind_eq_bind, Option.bind_eq_some_iff] at h
      obtain ⟨first, hfirst, more, hmore, h⟩ := h
      obtain rfl : first.toList ++ more = lads := by simpa using h
      intro lad hlad
      rcases List.mem_append.mp hlad with hlad | hlad
      · exact type_of_fromNode (by rw [hfirst, Option.mem_toList.mp hlad])
      · exact ih hmore lad hlad

/-- **What a set of definitions can be relied on.** -/
theorem types_of_fromNode {n : Yaml.Node} {i : St_LogDefine}
    (h : St_LogDefine.fromNode asBool n = some i) :
    ∀ lad ∈ i.appenders, lad.type = 1 ∨ lad.type = 2 := by
  unfold St_LogDefine.fromNode at h
  cases hname : n.get "name" with
  | none => simp [hname] at h
  | some name =>
      simp only [hname, Option.bind_eq_bind, Option.bind_eq_some_iff] at h
      obtain ⟨text, -, level, -, formatter, -, lads, hlads, h⟩ := h
      obtain rfl : _ = i := by simpa using h
      exact types_of_readAppenders hlads

end Types

/-- A `std::set` of definitions, as they come from YAML. -/
structure LogDefines where
  list : List St_LogDefine
  sorted : list.Pairwise fun i j => less i.name j.name
  types : ∀ i ∈ list, ∀ a ∈ i.appenders, a.type = 1 ∨ a.type = 2
deriving DecidableEq

namespace LogDefines

def empty : LogDefines := ⟨[], .nil, by simp⟩

def find (defines : LogDefines) (name : String) : Option St_LogDefine :=
  defines.list.find? fun i => i.name = name

end LogDefines

/-- A file that is to have the time in its name has no dot. -/
def St_LogDefine.Throws (i : St_LogDefine) : Prop :=
  ∃ a ∈ i.appenders, a.type = 1 ∧ a.timeasname = true ∧ '.' ∉ a.file.toList

instance (i : St_LogDefine) : Decidable i.Throws :=
  inferInstanceAs (Decidable (∃ a ∈ i.appenders, _))

namespace LogDefines

def Throws (v : LogDefines) : Prop := ∃ i ∈ v.list, i.Throws

instance (v : LogDefines) : Decidable v.Throws :=
  inferInstanceAs (Decidable (∃ i ∈ v.list, _))

/-- Nothing throws in front of the name. -/
def Reaches (v : LogDefines) (name : String) : Prop :=
  ∀ j ∈ v.list, less j.name name → ¬ j.Throws

instance (v : LogDefines) (name : String) : Decidable (v.Reaches name) :=
  inferInstanceAs (Decidable (∀ j ∈ v.list, _))

end LogDefines

namespace LogIniter

/-! ## The listener -/

section Code

variable (stamp : String)

/-- What `ap` is set to; `none` when the constructor throws. -/
def newAppender (a : St_LogAppenderDefine) : Option LogAppender :=
  if a.type = 1 then FileAppender stamp a.file a.timeasname
  else if a.type = 2 then some StdoutAppender
  else none

/-- The body of the loop over the appenders, in front of `addAppender`. -/
def makeAppender (a : St_LogAppenderDefine) : Option LogAppender :=
  (newAppender stamp a).map fun ap =>
    let ap := ap.setLevel a.level
    if a.formatter ≠ "" ∧ ¬ isError a.formatter then ap.setFormatter (some a.formatter) else ap

/-- The loop over the appenders, and whether it comes to its end. -/
def addAppenders : Logger → List St_LogAppenderDefine → Logger × Bool
  | l, [] => (l, true)
  | l, a :: rest =>
      match makeAppender stamp a with
      | none => (l, false)
      | some ap => addAppenders (l.addAppender ap) rest

/-- What is done with a definition that is new or changed. -/
def define (l : Logger) (i : St_LogDefine) : Logger × Bool :=
  let l := l.setLevel i.level
  let l := if i.formatter ≠ "" then l.setFormatter i.formatter else l
  addAppenders stamp l.clearAppenders i.appenders

/-- The loop over `new_val`. -/
def defineAll (old_val : LogDefines) : Loggers → List St_LogDefine → Loggers × Bool
  | loggers, [] => (loggers, true)
  | loggers, i :: rest =>
      if old_val.find i.name = some i then defineAll old_val loggers rest
      else
        let (l, done) := define stamp (loggers.getLogger i.name) i
        let loggers := AList.insert i.name l loggers
        if done then defineAll old_val loggers rest else (loggers, false)

def deleteLogger (l : Logger) : Logger := (l.setLevel UNKNOWN).clearAppenders

/-- The loop over `old_val`. -/
def deleteAll (new_val : LogDefines) : Loggers → List St_LogDefine → Loggers
  | loggers, [] => loggers
  | loggers, i :: rest =>
      if (new_val.find i.name).isNone then
        deleteAll new_val (AList.insert i.name (deleteLogger (loggers.getLogger i.name)) loggers)
          rest
      else deleteAll new_val loggers rest

def listener (old_val new_val : LogDefines) (loggers : Loggers) : Loggers × Bool :=
  match defineAll stamp old_val loggers new_val.list with
  | (loggers, false) => (loggers, false)
  | (loggers, true) => (deleteAll new_val loggers old_val.list, true)

/-- `g_log_defines` and the loggers. -/
structure LogConfig where
  temp_val : LogDefines := .empty
  loggers : Loggers := LogManager

/-- `fromString` of an update: `setValue`, and an exception is logged. -/
def LogConfig.update (s : LogConfig) (v : LogDefines) : LogConfig :=
  if v = s.temp_val then s
  else
    match listener stamp s.temp_val v s.loggers with
    | (loggers, false) => { s with loggers }
    | (loggers, true) => ⟨v, loggers⟩

/-- A process and the updates of it. -/
def LogConfig.run (updates : List LogDefines) : LogConfig := updates.foldl (update stamp) {}

/-- The loggers of the last configuration are those of a process that had no other. -/
def HistoryFree (history : List LogDefines) (last : LogDefines) : Prop :=
  ∀ i ∈ last.list, (LogConfig.run stamp (history ++ [last])).loggers.getLogger i.name =
    (LogConfig.run stamp [last]).loggers.getLogger i.name

end Code

/-! ## What is carried out on a logger -/

inductive Touch
  | defined (i : St_LogDefine)
  | deleted
deriving DecidableEq

/-- What an update carries out on the logger of a name. -/
def touch (name : String) (old new : LogDefines) : Option Touch :=
  if new = old then none
  else
    match new.find name with
    | some i => if old.find name = some i ∨ ¬ new.Reaches name then none else some (.defined i)
    | none => if new.Throws ∨ old.find name = none then none else some .deleted

/-- What is stored after an update. -/
def stored (old new : LogDefines) : LogDefines := if new.Throws then old else new

/-- What some updates carry out on the logger of a name. -/
def touches (name : String) : LogDefines → List LogDefines → List Touch
  | _, [] => []
  | old, new :: rest => (touch name old new).toList ++ touches name (stored old new) rest

/-- The formatter that a pattern gives, if it is one. -/
def given (formatter : String) : Option String :=
  if formatter = "" ∨ isError formatter = true then none else some formatter

namespace Touch

def given : Touch → Option String
  | defined i => LogIniter.given i.formatter
  | deleted => none

end Touch

/-- The last formatter that was given, or the default one. -/
def lastFormatter (ts : List Touch) : String :=
  ((ts.filterMap Touch.given).getLast?).getD defaultPattern

section Setup

variable (stamp : String)

/-- The appenders up to the first one that throws. -/
def made : List St_LogAppenderDefine → List LogAppender
  | [] => []
  | a :: rest =>
      match makeAppender stamp a with
      | none => []
      | some ap => ap :: made rest

/-- A level, and appenders with the formatters that are their own. -/
abbrev Setup := LogLevel × List LogAppender

def Touch.setup : Touch → Setup
  | defined i => (i.level, made stamp i.appenders)
  | deleted => (UNKNOWN, [])

/-- The root logger has an appender from the start. -/
def initialSetup (name : String) : Setup := (DEBUG, if name = "root" then [StdoutAppender] else [])

/-- What was asked for last. -/
def lastSetup (name : String) (ts : List Touch) : Setup :=
  (ts.getLast?.map (Touch.setup stamp)).getD (initialSetup name)

/-- The whole sequence asks for the same as the last configuration alone. -/
def Fits (history : List LogDefines) (last : LogDefines) : Prop :=
  ∀ i ∈ last.list,
    lastFormatter (touches i.name .empty (history ++ [last])) =
        lastFormatter (touches i.name .empty [last]) ∧
      lastSetup stamp i.name (touches i.name .empty (history ++ [last])) =
        lastSetup stamp i.name (touches i.name .empty [last])

/-- The last formatter that some configurations have for a name, or the default one. -/
def lastGiven (name : String) (updates : List LogDefines) : String :=
  ((updates.filterMap fun v => (v.find name).bind fun i => given i.formatter).getLast?).getD
    defaultPattern

/-- The logger with this setup and this formatter. -/
def Setup.logger (setup : Setup) (formatter : String) : Logger :=
  ⟨setup.1, setup.2.map (Logger.fill formatter), formatter⟩

def Touch.act (l : Logger) : Touch → Logger
  | defined i => (define stamp l i).1
  | deleted => deleteLogger l

end Setup

/-! ## One definition -/

section Define

variable {stamp : String} {a : St_LogAppenderDefine} {as : List St_LogAppenderDefine}

theorem makeAppender_eq_none (htype : a.type = 1 ∨ a.type = 2) :
    makeAppender stamp a = none ↔
      a.type = 1 ∧ a.timeasname = true ∧ '.' ∉ a.file.toList := by
  rw [makeAppender, Option.map_eq_none_iff, newAppender]
  rcases htype with htype | htype
  · cases htime : a.timeasname <;> simp [FileAppender, htype, resetFileName]
  · simp [htype]

theorem addAppenders_done {l : Logger} :
    (addAppenders stamp l as).2 = true ↔ ∀ a ∈ as, makeAppender stamp a ≠ none := by
  induction as generalizing l with
  | nil => simp [addAppenders]
  | cons a rest ih =>
      cases hmake : makeAppender stamp a with
      | none => simp [addAppenders, hmake]
      | some ap => simp [addAppenders, hmake, ih]

theorem define_done (stamp : String) (l : Logger) {i : St_LogDefine}
    (htypes : ∀ a ∈ i.appenders, a.type = 1 ∨ a.type = 2) :
    (define stamp l i).2 = true ↔ ¬ i.Throws := by
  simp only [define, addAppenders_done, St_LogDefine.Throws, not_exists, not_and]
  refine forall_congr' fun a => forall_congr' fun ha => ?_
  rw [ne_eq, makeAppender_eq_none (htypes a ha)]
  simp

theorem addAppenders_eq (l : Logger) (as : List St_LogAppenderDefine) :
    (addAppenders stamp l as).1 =
      { l with appenders := l.appenders ++ (made stamp as).map (Logger.fill l.formatter) } := by
  induction as generalizing l with
  | nil => simp [addAppenders, made]
  | cons a rest ih =>
      cases hmake : makeAppender stamp a with
      | none => simp [addAppenders, made, hmake]
      | some ap => simp [addAppenders, made, hmake, ih, Logger.addAppender]

/-- **What a definition makes of a logger**: only the formatter may be the one of before. -/
theorem define_eq (l : Logger) (i : St_LogDefine) :
    (define stamp l i).1 =
      (Touch.setup stamp (.defined i)).logger ((given i.formatter).getD l.formatter) := by
  have hformatter : (if i.formatter ≠ "" then (l.setLevel i.level).setFormatter i.formatter
      else l.setLevel i.level).clearAppenders =
        ⟨i.level, [], (given i.formatter).getD l.formatter⟩ := by
    by_cases hempty : i.formatter = ""
    · simp [hempty, given, Logger.setLevel, Logger.clearAppenders]
    · cases herror : isError i.formatter <;>
        simp [hempty, herror, given, Logger.setFormatter, Logger.putFormatter, Logger.setLevel,
          Logger.clearAppenders]
  simp only [define, hformatter, addAppenders_eq]
  simp [Setup.logger, Touch.setup]

end Define

/-! ## One update -/

section Update

variable {stamp name : String} {old new : LogDefines} {loggers : Loggers} {l : Logger}
  {list : List St_LogDefine}

theorem getLogger_insert (name' : String) :
    Loggers.getLogger (AList.insert name l loggers) name' =
      if name' = name then l else loggers.getLogger name' := by
  by_cases h : name' = name
  · subst h
    simp [Loggers.getLogger]
  · simp [Loggers.getLogger, h, AList.lookup_insert_ne h]

/-- What stands behind has other names. -/
theorem find?_eq_none_of_less (hless : ∀ j ∈ list, less name j.name) :
    list.find? (fun i => i.name = name) = none := by
  simpa using fun j hj => (ne_of_less (hless j hj)).symm

/-- No definition that is stored throws. -/
theorem not_throws_of_find (hold : ¬ old.Throws) {i : St_LogDefine}
    (hfind : old.find name = some i) : ¬ i.Throws :=
  fun hthrows => hold ⟨i, List.mem_of_find?_eq_some hfind, hthrows⟩

theorem defineAll_done (stamp : String) (loggers : Loggers) (hold : ¬ old.Throws)
    (htypes : ∀ i ∈ list, ∀ a ∈ i.appenders, a.type = 1 ∨ a.type = 2) :
    (defineAll stamp old loggers list).2 = true ↔ ∀ j ∈ list, ¬ j.Throws := by
  induction list generalizing loggers with
  | nil => simp [defineAll]
  | cons i rest ih =>
      have hrest : ∀ j ∈ rest, ∀ a ∈ j.appenders, a.type = 1 ∨ a.type = 2 :=
        fun j hj => htypes j (List.mem_cons_of_mem _ hj)
      have hdone := define_done stamp (loggers.getLogger i.name)
        (htypes i List.mem_cons_self)
      rw [defineAll]
      by_cases hsame : old.find i.name = some i
      · simp [hsame, ih _ hrest, not_throws_of_find hold hsame]
      · cases hresult : (define stamp (loggers.getLogger i.name) i).2
        · have hthrows : i.Throws := by
            by_contra h
            simp [hdone.mpr h] at hresult
          simp [hsame, hresult, hthrows]
        · simp [hsame, hresult, ih _ hrest, hdone.mp hresult]

/-- **What the loop over `new_val` does** to each logger. -/
theorem getLogger_defineAll (hold : ¬ old.Throws)
    (hsorted : list.Pairwise fun i j => less i.name j.name)
    (htypes : ∀ i ∈ list, ∀ a ∈ i.appenders, a.type = 1 ∨ a.type = 2) (name : String) :
    (defineAll stamp old loggers list).1.getLogger name =
      (list.find? fun i => i.name = name).elim (loggers.getLogger name) fun i =>
        if old.find name = some i ∨ ¬ ∀ j ∈ list, less j.name name → ¬ j.Throws then
          loggers.getLogger name
        else (define stamp (loggers.getLogger name) i).1 := by
  induction list generalizing loggers with
  | nil => simp [defineAll]
  | cons i rest ih =>
      obtain ⟨hfirst, hsorted⟩ := List.pairwise_cons.mp hsorted
      have hrest : ∀ j ∈ rest, ∀ a ∈ j.appenders, a.type = 1 ∨ a.type = 2 :=
        fun j hj => htypes j (List.mem_cons_of_mem _ hj)
      have hdone := define_done stamp (loggers.getLogger i.name)
        (htypes i List.mem_cons_self)
      rw [defineAll]
      by_cases hname : name = i.name
      · subst hname
        have hnone := find?_eq_none_of_less hfirst
        have hreaches : ∀ j ∈ i :: rest, less j.name i.name → ¬ j.Throws := by
          intro j hj hless
          rcases List.mem_cons.mp hj with rfl | hj
          · exact absurd hless (less_irrefl _)
          · exact absurd (hfirst j hj) (less_asymm hless)
        by_cases hsame : old.find i.name = some i
        · simp [hsame, ih hsorted hrest, hnone]
        · have hhead : (i :: rest).find? (fun j => j.name = i.name) = some i := by simp
          have hcarried : ¬ (old.find i.name = some i ∨
              ¬ ∀ j ∈ i :: rest, less j.name i.name → ¬ j.Throws) := by
            rintro (h | h)
            · exact hsame h
            · exact h hreaches
          rw [hhead, Option.elim_some, if_neg hcarried]
          cases hresult : (define stamp (loggers.getLogger i.name) i).2
          · simp [hsame, hresult, getLogger_insert]
          · simp [hsame, hresult, ih hsorted hrest, hnone, getLogger_insert]
      · have hfind : (i :: rest).find? (fun j => j.name = name) =
            rest.find? fun j => j.name = name := by
          simp [Ne.symm hname]
        rw [hfind]
        by_cases hsame : old.find i.name = some i
        · have hnot := not_throws_of_find hold hsame
          simp [hsame, ih hsorted hrest, hnot]
        · cases hresult : (define stamp (loggers.getLogger i.name) i).2
          · have hthrows : i.Throws := by
              by_contra h
              simp [hdone.mpr h] at hresult
            cases hrestfind : rest.find? fun j => j.name = name with
            | none => simp [hsame, hresult, getLogger_insert, hname]
            | some j =>
                have hfront : less i.name name := by
                  have heq : j.name = name := by simpa using List.find?_some hrestfind
                  exact heq ▸ hfirst j (List.mem_of_find?_eq_some hrestfind)
                simp [hsame, hresult, getLogger_insert, hname, hfront, hthrows]
          · have hnot : ¬ i.Throws := hdone.mp hresult
            simp [hsame, hresult, ih hsorted hrest, getLogger_insert, hname, hnot]

theorem getLogger_deleteAll (new : LogDefines) (list : List St_LogDefine) (loggers : Loggers)
    (name : String) : (deleteAll new loggers list).getLogger name =
      if new.find name = none ∧ ∃ i ∈ list, i.name = name then
        deleteLogger (loggers.getLogger name)
      else loggers.getLogger name := by
  induction list generalizing loggers with
  | nil => simp [deleteAll]
  | cons i rest ih =>
      rw [deleteAll]
      cases hfind : new.find i.name with
      | some j =>
          by_cases hname : i.name = name
          · subst hname
            simp [ih, hfind]
          · simp [ih, hname]
      | none =>
          by_cases hname : i.name = name
          · subst hname
            simp [ih, hfind, getLogger_insert, deleteLogger, Logger.setLevel,
              Logger.clearAppenders]
          · simp [ih, hname, Ne.symm hname, getLogger_insert]

theorem find_eq_none : old.find name = none ↔ ¬ ∃ i ∈ old.list, i.name = name := by
  simp [LogDefines.find]

/-- **What the listener does** to each logger, and whether it comes to its end. -/
theorem listener_spec (stamp : String) (hold : ¬ old.Throws) (hne : new ≠ old)
    (loggers : Loggers) :
    (listener stamp old new loggers).2 = decide (¬ new.Throws) ∧
      ∀ name, (listener stamp old new loggers).1.getLogger name =
        (touch name old new).elim (loggers.getLogger name)
          (Touch.act stamp (loggers.getLogger name)) := by
  have hdone := defineAll_done stamp loggers hold new.types
  have hfirst : ∀ name, (defineAll stamp old loggers new.list).1.getLogger name =
      (new.find name).elim (loggers.getLogger name) fun i =>
        if old.find name = some i ∨ ¬ new.Reaches name then loggers.getLogger name
        else (define stamp (loggers.getLogger name) i).1 :=
    getLogger_defineAll hold new.sorted new.types
  cases hresult : defineAll stamp old loggers new.list with
  | mk mid done =>
      rw [hresult] at hdone hfirst
      cases done with
      | false =>
          have hthrows : new.Throws := by
            by_contra h
            simpa using hdone.mpr fun j hj hj' => h ⟨j, hj, hj'⟩
          refine ⟨by simp [listener, hresult, hthrows], fun name => ?_⟩
          simp only [listener, hresult, hfirst, touch, if_neg hne]
          cases new.find name with
          | none => simp [hthrows]
          | some i =>
              dsimp only [Option.elim_some]
              split <;> rfl
      | true =>
          have hnot : ¬ new.Throws := fun ⟨j, hj, hj'⟩ => hdone.mp rfl j hj hj'
          refine ⟨by simp [listener, hresult, hnot], fun name => ?_⟩
          simp only [listener, hresult, getLogger_deleteAll, hfirst, touch, if_neg hne]
          cases hfind : new.find name with
          | none =>
              by_cases hgone : old.find name = none
              · simp [hgone, find_eq_none.mp hgone]
              · have hthere := not_not.mp (mt find_eq_none.mpr hgone)
                simp only [hnot, hgone, hthere]
                simp [Touch.act]
          | some i =>
              by_cases hskip : old.find name = some i ∨ ¬ new.Reaches name <;>
                simp [hskip, Touch.act]

end Update

/-! ## A whole sequence -/

section Run

variable (stamp : String) {name : String} {s : LogConfig}

theorem update_spec (hold : ¬ s.temp_val.Throws) (v : LogDefines) :
    (LogConfig.update stamp s v).temp_val = stored s.temp_val v ∧
      ∀ name, (LogConfig.update stamp s v).loggers.getLogger name =
        (touch name s.temp_val v).elim (s.loggers.getLogger name)
          (Touch.act stamp (s.loggers.getLogger name)) := by
  by_cases heq : v = s.temp_val
  · subst heq
    simp [LogConfig.update, stored, touch]
  · obtain ⟨hdone, hloggers⟩ := listener_spec stamp hold heq s.loggers
    cases hresult : listener stamp s.temp_val v s.loggers with
    | mk loggers done =>
        rw [hresult] at hdone hloggers
        obtain rfl : done = _ := hdone
        by_cases hthrows : v.Throws <;>
          simp [LogConfig.update, heq, hresult, stored, hthrows, hloggers]

theorem not_throws_stored {old new : LogDefines} (hold : ¬ old.Throws) :
    ¬ (stored old new).Throws := by
  unfold stored
  split
  · exact hold
  · assumption

/-- **A logger is what was carried out on it.** -/
theorem getLogger_run (hold : ¬ s.temp_val.Throws) (updates : List LogDefines) (name : String) :
    (updates.foldl (LogConfig.update stamp) s).loggers.getLogger name =
      (touches name s.temp_val updates).foldl (Touch.act stamp) (s.loggers.getLogger name) := by
  induction updates generalizing s with
  | nil => rfl
  | cons v rest ih =>
      obtain ⟨hstored, hloggers⟩ := update_spec stamp hold v
      have hnext : ¬ (LogConfig.update stamp s v).temp_val.Throws :=
        hstored ▸ not_throws_stored hold
      rw [List.foldl_cons, ih hnext, hstored, hloggers, touches, List.foldl_append]
      cases touch name s.temp_val v <;> rfl

theorem act_eq (l : Logger) (t : Touch) :
    t.act stamp l = (t.setup stamp).logger (t.given.getD l.formatter) := by
  cases t with
  | defined i => exact define_eq l i
  | deleted => rfl

theorem getLogger_initial (name : String) :
    LogManager.getLogger name = (initialSetup name).logger defaultPattern := by
  by_cases hroot : name = "root"
  · subst hroot
    rfl
  · rw [LogManager, getLogger_insert, if_neg hroot]
    simp [initialSetup, hroot, Loggers.getLogger, Setup.logger]

theorem lastFormatter_append (ts : List Touch) (t : Touch) :
    lastFormatter (ts ++ [t]) = t.given.getD (lastFormatter ts) := by
  cases hgiven : t.given <;> simp [lastFormatter, List.filterMap_append, hgiven]

/-- The setup and the formatter are those that were asked for last. -/
theorem foldl_act (name : String) (ts : List Touch) :
    ts.foldl (Touch.act stamp) (LogManager.getLogger name) =
      (lastSetup stamp name ts).logger (lastFormatter ts) := by
  induction ts using List.reverseRecOn with
  | nil => exact getLogger_initial name
  | append_singleton ts t ih =>
      rw [List.foldl_append, ih]
      simp [act_eq, lastSetup, lastFormatter_append, Setup.logger]

/-! ## Two processes -/

/-- An appender says of itself that it has a formatter exactly where it has one. -/
def Plain (ap : LogAppender) : Prop := ap.b_hasFormatter = ap.ptr_formatter.isSome

theorem plain_newAppender {a : St_LogAppenderDefine} {ap : LogAppender}
    (h : newAppender stamp a = some ap) : Plain ap := by
  unfold newAppender at h
  split at h
  · cases htime : a.timeasname
    · obtain rfl : _ = ap := by simpa [FileAppender, htime] using h
      simp [Plain]
    · obtain ⟨-, rfl⟩ : _ ∧ _ = ap := by simpa [FileAppender, htime, resetFileName] using h
      simp [Plain]
  · obtain ⟨-, rfl⟩ : _ ∧ _ = ap := by simpa using h
    simp [Plain, StdoutAppender]

theorem plain_makeAppender {a : St_LogAppenderDefine} {ap : LogAppender}
    (h : makeAppender stamp a = some ap) : Plain ap := by
  obtain ⟨first, hnew, rfl⟩ := Option.map_eq_some_iff.mp h
  have hplain := plain_newAppender stamp hnew
  dsimp only
  split
  · simp [Plain, LogAppender.setFormatter]
  · exact hplain

theorem plain_made {as : List St_LogAppenderDefine} : ∀ ap ∈ made stamp as, Plain ap := by
  induction as with
  | nil => simp [made]
  | cons a rest ih =>
      cases hmake : makeAppender stamp a with
      | none => simp [made, hmake]
      | some ap => simpa [made, hmake] using ⟨plain_makeAppender stamp hmake, ih⟩

theorem plain_lastSetup (name : String) (ts : List Touch) :
    ∀ ap ∈ (lastSetup stamp name ts).2, Plain ap := by
  cases hlast : ts.getLast? with
  | none => simp [lastSetup, hlast, initialSetup, Plain, StdoutAppender]
  | some t =>
      cases t with
      | defined i => simpa [lastSetup, hlast, Touch.setup] using plain_made stamp
      | deleted => simp [lastSetup, hlast, Touch.setup]

/-- The appender without the formatter of its logger. -/
def strip (ap : LogAppender) : LogAppender :=
  if ap.b_hasFormatter then ap else { ap with ptr_formatter := none }

theorem strip_fill {ap : LogAppender} (h : Plain ap) (formatter : String) :
    strip (Logger.fill formatter ap) = ap := by
  cases ap with
  | mk cls level has own time filename => cases own <;> simp_all [Plain, Logger.fill, strip]

theorem map_strip {aps : List LogAppender} (h : ∀ ap ∈ aps, Plain ap) (formatter : String) :
    (aps.map (Logger.fill formatter)).map strip = aps := by
  rw [List.map_map]
  exact (List.map_congr_left fun ap hap => strip_fill (h ap hap) formatter).trans (List.map_id _)

theorem logger_inj {setup setup' : Setup} {formatter formatter' : String}
    (h : ∀ ap ∈ setup.2, Plain ap) (h' : ∀ ap ∈ setup'.2, Plain ap) :
    setup.logger formatter = setup'.logger formatter' ↔
      formatter = formatter' ∧ setup = setup' := by
  constructor
  · intro heq
    obtain rfl : formatter = formatter' := congrArg Logger.formatter heq
    have hlevel : setup.1 = setup'.1 := congrArg Logger.level heq
    have happenders := congrArg (fun l : Logger => l.appenders.map strip) heq
    simp only [Setup.logger, map_strip h, map_strip h'] at happenders
    exact ⟨rfl, Prod.ext hlevel happenders⟩
  · rintro ⟨rfl, rfl⟩
    rfl

theorem historyFree_iff_fits {history : List LogDefines} {last : LogDefines} :
    HistoryFree stamp history last ↔ Fits stamp history last := by
  have hempty : ¬ LogDefines.empty.Throws := by
    simp [LogDefines.Throws, LogDefines.empty]
  refine forall_congr' fun i => forall_congr' fun _ => ?_
  have hlogger := fun updates => (getLogger_run stamp (s := {}) hempty updates i.name).trans
    (foldl_act stamp i.name _)
  rw [LogConfig.run, LogConfig.run, hlogger, hlogger]
  exact logger_inj (plain_lastSetup stamp _ _) (plain_lastSetup stamp _ _)

end Run

/-! ## Sequences in which nothing throws -/

section Quiet

variable {stamp name : String} {old v last : LogDefines} {updates history : List LogDefines}
  {i : St_LogDefine}

theorem touches_append (old : LogDefines) (updates : List LogDefines) (v : LogDefines) :
    touches name old (updates ++ [v]) =
      touches name old updates ++ (touch name (updates.foldl stored old) v).toList := by
  induction updates generalizing old with
  | nil => simp [touches]
  | cons first rest ih => simp [touches, ih]

theorem lastGiven_append (name : String) (updates : List LogDefines) (v : LogDefines) :
    lastGiven name (updates ++ [v]) =
      ((v.find name).bind fun i => given i.formatter).getD (lastGiven name updates) := by
  cases hgiven : (v.find name).bind fun i => given i.formatter <;>
    simp [lastGiven, List.filterMap_append, hgiven]

/-- What is stored was the last to be carried out, and gave its formatter. -/
structure Quiet (stamp name : String) (updates : List LogDefines) : Prop where
  formatter : lastFormatter (touches name .empty updates) = lastGiven name updates
  setup : ∀ i, (updates.foldl stored .empty).find name = some i →
    lastSetup stamp name (touches name .empty updates) = Touch.setup stamp (.defined i)
  own : ∀ i, (updates.foldl stored .empty).find name = some i →
    (given i.formatter).getD (lastGiven name updates) = lastGiven name updates

/-- A definition that is stored already gives nothing new. -/
theorem Quiet.same (h : Quiet stamp name updates) (hv : ¬ v.Throws)
    (hfind : v.find name = (updates.foldl stored .empty).find name)
    (htouch : touch name (updates.foldl stored .empty) v = none) :
    Quiet stamp name (updates ++ [v]) := by
  have hgiven : lastGiven name (updates ++ [v]) = lastGiven name updates := by
    rw [lastGiven_append, hfind]
    cases hold : (updates.foldl stored .empty).find name with
    | none => rfl
    | some i => exact h.own i hold
  have htouches : touches name .empty (updates ++ [v]) = touches name .empty updates := by
    rw [touches_append, htouch]
    simp
  have hstored : (updates ++ [v]).foldl stored .empty = v := by
    simp [stored, hv]
  constructor
  · rw [htouches, hgiven, h.formatter]
  · rw [htouches, hstored, hfind]
    exact h.setup
  · rw [hgiven, hstored, hfind]
    exact h.own

theorem quiet (h : ∀ v ∈ updates, ¬ v.Throws) (name : String) : Quiet stamp name updates := by
  induction updates using List.reverseRecOn with
  | nil =>
      constructor <;> simp [touches, lastFormatter, lastGiven, LogDefines.find, LogDefines.empty]
  | append_singleton updates v ih =>
      have hquiet := ih fun w hw => h w (List.mem_append_left _ hw)
      have hv := h v (by simp)
      have hreaches : v.Reaches name := fun j hj _ hthrows => hv ⟨j, hj, hthrows⟩
      by_cases heq : v = updates.foldl stored .empty
      · exact hquiet.same hv (congrArg (LogDefines.find · name) heq) (by simp [touch, heq])
      · cases hfind : v.find name with
        | none =>
            cases hold : (updates.foldl stored .empty).find name with
            | none =>
                refine hquiet.same hv (hfind.trans hold.symm) ?_
                simp [touch, heq, hfind, hold]
            | some j =>
                have htouch : touch name (updates.foldl stored .empty) v = some .deleted := by
                  simp [touch, heq, hfind, hold, hv]
                constructor
                · rw [touches_append, htouch, Option.toList_some, lastFormatter_append,
                    lastGiven_append, hfind, hquiet.formatter]
                  rfl
                · simp [stored, hv, hfind]
                · simp [stored, hv, hfind]
        | some i =>
            by_cases hold : (updates.foldl stored .empty).find name = some i
            · refine hquiet.same hv (hfind.trans hold.symm) ?_
              simp [touch, heq, hfind, hold]
            · have htouch : touch name (updates.foldl stored .empty) v = some (.defined i) := by
                simp [touch, heq, hfind, hold, hreaches]
              constructor
              · rw [touches_append, htouch, Option.toList_some, lastFormatter_append,
                  lastGiven_append, hfind, hquiet.formatter]
                rfl
              · simp [touches_append, htouch, stored, hv, hfind, lastSetup]
              · rw [lastGiven_append, hfind]
                simp [stored, hv, hfind]
                cases given i.formatter <;> simp

theorem find_of_mem (hi : i ∈ v.list) : v.find i.name = some i := by
  have hnodup : (v.list.map St_LogDefine.name).Nodup :=
    List.pairwise_map.mpr (v.sorted.imp ne_of_less)
  cases hfind : v.find i.name with
  | none => exact absurd ⟨i, hi, rfl⟩ (find_eq_none.mp hfind)
  | some j =>
      have hname : j.name = i.name := by simpa using List.find?_some hfind
      rw [List.inj_on_of_nodup_map hnodup (List.mem_of_find?_eq_some hfind) hi hname]

/-- **The formatter** is all that is left of other configurations when nothing throws. -/
theorem fits_iff (h : ∀ v ∈ history ++ [last], ¬ v.Throws) :
    Fits stamp history last ↔ ∀ i ∈ last.list,
      (given i.formatter).isSome ∨ lastGiven i.name history = defaultPattern := by
  have hlast : ¬ last.Throws := h last (by simp)
  refine forall_congr' fun i => forall_congr' fun hi => ?_
  have hfind := find_of_mem hi
  have hstored : ∀ updates : List LogDefines,
      ((updates ++ [last]).foldl stored .empty).find i.name = some i := by
    intro updates
    simp [stored, hlast, hfind]
  have hall : Quiet stamp i.name (history ++ [last]) := quiet h i.name
  have halone : Quiet stamp i.name [last] := quiet (by simpa using hlast) i.name
  have hone : lastGiven i.name [last] = _ := lastGiven_append i.name [] last
  rw [hall.formatter, hall.setup i (hstored history), halone.formatter,
    halone.setup i (hstored []), lastGiven_append, hone, hfind, Option.bind_some]
  cases given i.formatter with
  | none => simp [lastGiven]
  | some formatter => simp

end Quiet

/-! ## History -/

/-- **What is left of the configurations before the last one.**  The loggers are those of a process
that had no other if the whole sequence asks for the same of them; when nothing throws, that is
where each has a formatter of its own, or was given none before but the default one. -/
theorem historyFree_iff (stamp : String) (history : List LogDefines) (last : LogDefines) :
    (HistoryFree stamp history last ↔ Fits stamp history last) ∧
      ((∀ v ∈ history ++ [last], ¬ v.Throws) →
        (HistoryFree stamp history last ↔ ∀ i ∈ last.list,
          (given i.formatter).isSome ∨ lastGiven i.name history = defaultPattern)) :=
  ⟨historyFree_iff_fits stamp, fun h => (historyFree_iff_fits stamp).trans (fits_iff h)⟩

/-- A logger with this formatter. -/
def oneLogger (formatter : String) : LogDefines :=
  ⟨[⟨"a", INFO, formatter, []⟩], by simp, by simp⟩

/-- The same logger, with a file that has no dot. -/
def throwing : LogDefines := ⟨[⟨"a", WARN, "", [⟨1, UNKNOWN, "", "log", true⟩]⟩], by simp, by simp⟩

/-- **A formatter is kept** that the last configuration does not have, and an update that throws has
changed a logger for good. -/
theorem not_historyFree :
    ¬ HistoryFree "2023-01-08 15:38:12" [oneLogger "%m"] (oneLogger "") ∧
      ¬ HistoryFree "2023-01-08 15:38:12" [oneLogger "", throwing] (oneLogger "") := by
  constructor
  · have hquiet : ∀ v ∈ [oneLogger "%m"] ++ [oneLogger ""], ¬ v.Throws := by
      simp [LogDefines.Throws, St_LogDefine.Throws, oneLogger]
    have herror : isError "%m" = false := by
      have hend : (LogFormatter.makeFrom [] []).error = false := by
        simp [LogFormatter.makeFrom, LogFormatter.initLoop, LogFormatter.make, LogFormatter.flush]
      change (LogFormatter.makeFrom [] ['%', 'm']).error = false
      rw [LogFormatter.makeFrom_item (by decide : _ = some .MessageFormatItem)
        (by simp [LogFormatter.Piece.Ends]), hend]
    rw [historyFree_iff_fits, fits_iff hquiet]
    simp [oneLogger, given, lastGiven, LogDefines.find, herror, defaultPattern]
  · rw [historyFree_iff_fits]
    intro h
    have hlevel := congrArg Prod.fst (h _ List.mem_cons_self).2
    simp [touches, touch, stored, lastSetup, oneLogger, throwing, LogDefines.empty,
      LogDefines.find, LogDefines.Throws, St_LogDefine.Throws, LogDefines.Reaches, less_irrefl,
      Touch.setup] at hlevel

end LogIniter
end Routn
