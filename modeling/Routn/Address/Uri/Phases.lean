import Mathlib.Tactic
import Routn.Address.Uri.Table

/-!
# The phases of a URI

Of the 560 states most tell the octets of an address apart, and their actions do not depend on it.
A phase is what is left: the parts of a URI that the text may be in.  Behind `//` a text may be the
user information or the host until there is an `@` or something that only the one of them can have,
and behind the first `:` it may be the user information or the port.

The phases make a control that refuses less than the machine does (`control_image`).
-/

namespace Routn
namespace UriParser

open Foundation

/-! ## Kinds of characters -/

def isalpha (c : UInt8) : Bool := (65 ≤ c && c ≤ 90) || (97 ≤ c && c ≤ 122)

def isdigit (c : UInt8) : Bool := 48 ≤ c && c ≤ 57

/-- `"+" | "-" | "."` of a scheme. -/
def issign (c : UInt8) : Bool := c == 43 || c == 45 || c == 46

inductive Kind
  | alpha | digit | sign | colon | atSign | slash | question | hash | opening | closing | control
  | other
deriving DecidableEq

def kind (c : UInt8) : Kind :=
  if isalpha c then .alpha
  else if isdigit c then .digit
  else if issign c then .sign
  else if c = 58 then .colon
  else if c = 64 then .atSign
  else if c = 47 then .slash
  else if c = 63 then .question
  else if c = 35 then .hash
  else if c = 91 then .opening
  else if c = 93 then .closing
  else if c ≤ 32 then .control
  else .other

/-- The characters of a kind. -/
def Kind.isOf : Kind → UInt8 → Bool
  | .alpha, c => isalpha c
  | .digit, c => isdigit c
  | .sign, c => issign c
  | .colon, c => c == 58
  | .atSign, c => c == 64
  | .slash, c => c == 47
  | .question, c => c == 63
  | .hash, c => c == 35
  | .opening, c => c == 91
  | .closing, c => c == 93
  | .control, c => c ≤ 32
  | .other, c => 32 < c && !isalpha c && !isdigit c && !issign c &&
      !([58, 64, 47, 63, 35, 91, 93].contains c)

theorem kind_eq_iff {k : Kind} {c : UInt8} : kind c = k ↔ k.isOf c = true := by
  have hbyte : ((kind c == k) == k.isOf c) = true := by
    cases k <;> exact forall_byte (p := fun c => (kind c == _) == Kind.isOf _ c)
      (by decide +kernel) c
  rw [← beq_iff_eq, beq_iff_eq.mp hbyte]

theorem kind_of_isalpha {c : UInt8} (h : isalpha c = true) : kind c = .alpha := kind_eq_iff.mpr h

theorem kind_of_isdigit {c : UInt8} (h : isdigit c = true) : kind c = .digit := kind_eq_iff.mpr h

theorem kind_of_issign {c : UInt8} (h : issign c = true) : kind c = .sign := kind_eq_iff.mpr h

/-- The intervals of the kinds, with the bounds as a `char`. -/
def kinds : Ranges.Kinds Kind :=
  [(.other, -128, -1), (.control, 0, 32), (.other, 33, 34), (.hash, 35, 35), (.other, 36, 42),
    (.sign, 43, 43), (.other, 44, 44), (.sign, 45, 46), (.slash, 47, 47), (.digit, 48, 57),
    (.colon, 58, 58), (.other, 59, 62), (.question, 63, 63), (.atSign, 64, 64), (.alpha, 65, 90),
    (.opening, 91, 91), (.other, 92, 92), (.closing, 93, 93), (.other, 94, 96), (.alpha, 97, 122),
    (.other, 123, 127)]

theorem kinds_complete : ((List.range 256).all fun n => kinds.any fun row =>
    row.1 == kind (.ofNat n) &&
      decide (row.2.1 ≤ signed (.ofNat n) ∧ signed (.ofNat n) ≤ row.2.2)) = true := by
  decide +kernel

theorem holds_kind (c : UInt8) : kinds.Holds (kind c) (signed c) := by
  have hrow := forall_byte (p := fun c => kinds.any fun row =>
    row.1 == kind c && decide (row.2.1 ≤ signed c ∧ signed c ≤ row.2.2)) kinds_complete c
  have ⟨row, hrow, hkind⟩ := List.any_eq_true.mp hrow
  have ⟨hname, hbounds⟩ := Bool.and_eq_true_iff.mp hkind
  exact ⟨row, hrow, beq_iff_eq.mp hname, of_decide_eq_true hbounds⟩

/-! ## Phases -/

/-- The flag says that there is a scheme in front of `//`.  A phase with a zero is in front of the
first character of its part. -/
inductive Phase
  | refused
  | start
  | scheme
  | noscheme
  | relPath
  | colon
  | root (scheme : Bool)
  | auth (scheme : Bool)
  | userOrHost (scheme : Bool)
  | userOrPort0 (scheme : Bool)
  | userOrPort (scheme : Bool)
  | user (scheme : Bool)
  | host0 (scheme : Bool)
  | host (scheme : Bool)
  | literal (scheme : Bool)
  | port0 (scheme : Bool)
  | port (scheme : Bool)
  | path
  | query0
  | query
  | fragment0
  | fragment
deriving DecidableEq

namespace Phase

/-- The actions on leaving a host or a port.  The mark of the path is the one that an empty part has
set, and is not set again: equal actions of a transition are done once. -/
def leave (empty scheme : Bool) (save : Action) : List Action :=
  if empty then [.mark, save] else if scheme then [save, .mark] else [save]

/-- Those of an empty path behind them. -/
def leavePath (empty scheme : Bool) (save : Action) : List Action :=
  leave empty scheme save ++ if scheme then [.savePath] else []

/-- The character behind a host or a port. -/
def leaving (empty scheme : Bool) (save : Action) : Kind → Option (List Action × Phase)
  | .slash => some (leave empty scheme save, if scheme then path else relPath)
  | .question => some (leavePath empty scheme save, query0)
  | .hash => some (leavePath empty scheme save, fragment0)
  | _ => none

/-- A path whose text is not kept. -/
def unsaved : Kind → Option (List Action × Phase)
  | .question => some ([], query0)
  | .hash => some ([], fragment0)
  | _ => some ([], relPath)

/-- A first segment without a colon. -/
def segment : Kind → Option (List Action × Phase)
  | .slash => some ([], relPath)
  | .question => some ([], query0)
  | .hash => some ([], fragment0)
  | .colon => none
  | _ => some ([], noscheme)

def next : Phase → Kind → Option (List Action × Phase)
  | refused, _ => none
  | start, .alpha => some ([.mark], scheme)
  | start, .slash => some ([], root false)
  | start, k => segment k
  | scheme, .alpha => some ([], scheme)
  | scheme, .digit => some ([], scheme)
  | scheme, .sign => some ([], scheme)
  | scheme, .colon => some ([.saveScheme], colon)
  | scheme, k => segment k
  | noscheme, k => segment k
  | relPath, k => unsaved k
  | colon, .slash => some ([], root true)
  | colon, k => unsaved k
  | root s, .slash => some ([], auth s)
  | root _, k => unsaved k
  | auth s, .alpha => some ([.mark], userOrHost s)
  | auth s, .digit => some ([.mark], userOrHost s)
  | auth s, .sign => some ([.mark], userOrHost s)
  | auth s, .other => some ([.mark], userOrHost s)
  | auth s, .control => some ([.mark], host s)
  | auth s, .opening => some ([.mark], literal s)
  | auth s, .colon => some ([.mark, .saveHost], userOrPort0 s)
  | auth s, .atSign => some ([.mark, .saveUserinfo], host0 s)
  | auth s, k => leaving true s .saveHost k
  | userOrHost s, .alpha => some ([], userOrHost s)
  | userOrHost s, .digit => some ([], userOrHost s)
  | userOrHost s, .sign => some ([], userOrHost s)
  | userOrHost s, .other => some ([], userOrHost s)
  | userOrHost s, .control => some ([], host s)
  | userOrHost s, .colon => some ([.saveHost], userOrPort0 s)
  | userOrHost s, .atSign => some ([.saveUserinfo], host0 s)
  | userOrHost s, k => leaving false s .saveHost k
  | userOrPort0 s, .digit => some ([.mark], userOrPort s)
  | userOrPort0 s, .alpha => some ([], user s)
  | userOrPort0 s, .sign => some ([], user s)
  | userOrPort0 s, .other => some ([], user s)
  | userOrPort0 s, .colon => some ([], user s)
  | userOrPort0 s, .atSign => some ([.saveUserinfo], host0 s)
  | userOrPort0 s, k => leaving true s .savePort k
  | userOrPort s, .digit => some ([], userOrPort s)
  | userOrPort s, .alpha => some ([], user s)
  | userOrPort s, .sign => some ([], user s)
  | userOrPort s, .other => some ([], user s)
  | userOrPort s, .colon => some ([], user s)
  | userOrPort s, .atSign => some ([.saveUserinfo], host0 s)
  | userOrPort s, k => leaving false s .savePort k
  | user s, .atSign => some ([.saveUserinfo], host0 s)
  | user s, _ => some ([], user s)
  | host0 s, .alpha => some ([.mark], host s)
  | host0 s, .digit => some ([.mark], host s)
  | host0 s, .sign => some ([.mark], host s)
  | host0 s, .other => some ([.mark], host s)
  | host0 s, .control => some ([.mark], host s)
  | host0 s, .opening => some ([.mark], literal s)
  | host0 s, .colon => some ([.mark, .saveHost], port0 s)
  | host0 s, k => leaving true s .saveHost k
  | host s, .alpha => some ([], host s)
  | host s, .digit => some ([], host s)
  | host s, .sign => some ([], host s)
  | host s, .other => some ([], host s)
  | host s, .control => some ([], host s)
  | host s, .colon => some ([.saveHost], port0 s)
  | host s, k => leaving false s .saveHost k
  | literal s, .closing => some ([], host s)
  | literal s, _ => some ([], literal s)
  | port0 s, .digit => some ([.mark], port s)
  | port0 s, k => leaving true s .savePort k
  | port s, .digit => some ([], port s)
  | port s, k => leaving false s .savePort k
  | path, .question => some ([.savePath], query0)
  | path, .hash => some ([.savePath], fragment0)
  | path, _ => some ([], path)
  | query0, .hash => some ([.mark, .saveQuery], fragment0)
  | query0, _ => some ([.mark], query)
  | query, .hash => some ([.saveQuery], fragment0)
  | query, _ => some ([], query)
  | fragment0, _ => some ([.mark], fragment)
  | fragment, _ => some ([], fragment)

/-- The actions at the end of the text. -/
def eof : Phase → List Action
  | auth s => leavePath true s .saveHost
  | userOrHost s => leavePath false s .saveHost
  | userOrPort0 s => leavePath true s .savePort
  | userOrPort s => leavePath false s .savePort
  | host0 s => leavePath true s .saveHost
  | host s => leavePath false s .saveHost
  | port0 s => leavePath true s .savePort
  | port s => leavePath false s .savePort
  | path => [.savePath]
  | query0 => [.mark, .saveQuery]
  | query => [.saveQuery]
  | fragment0 => [.mark, .saveFragment]
  | fragment => [.saveFragment]
  | _ => []

def control : Control Phase UInt8 Action where
  next := fun φ c => φ.next (kind c)
  halts := fun φ => φ == refused
  refused := refused
  halts_refused := rfl

end Phase

/-! ## The phases of the states -/

/-- The phases, each with the first and the last of its states. -/
def phases : List (Nat × Nat × Phase) := [
  (1, 2, .fragment), (3, 4, .noscheme), (5, 6, .relPath), (7, 8, .query), (9, 30, .host false),
  (31, 32, .userOrHost false), (33, 35, .user false), (36, 37, .host false),
  (38, 228, .literal false), (229, 242, .host true), (243, 244, .path), (245, 252, .host true),
  (253, 254, .userOrHost true), (255, 257, .user true), (258, 259, .host true),
  (260, 450, .literal true), (451, 451, .start), (452, 452, .noscheme), (453, 453, .fragment0),
  (454, 454, .fragment), (455, 455, .relPath), (456, 456, .query0), (457, 457, .query),
  (458, 458, .root false), (459, 459, .auth false), (460, 460, .host false),
  (461, 461, .port0 false), (462, 462, .port false), (463, 466, .host false),
  (467, 467, .userOrHost false), (468, 468, .userOrPort0 false), (469, 469, .host0 false),
  (470, 488, .host false), (489, 489, .userOrPort false), (490, 507, .userOrHost false),
  (508, 508, .scheme), (509, 509, .colon), (510, 510, .root true), (511, 511, .auth true),
  (512, 512, .host true), (513, 513, .path), (514, 514, .port0 true), (515, 515, .port true),
  (516, 519, .host true), (520, 520, .userOrHost true), (521, 521, .userOrPort0 true),
  (522, 522, .host0 true), (523, 541, .host true), (542, 542, .userOrPort true),
  (543, 560, .userOrHost true)]

def phase (cs : Nat) : Phase :=
  if cs = uriParserError then .refused
  else ((phases.find? fun row => row.1 ≤ cs && cs ≤ row.2.1).map (·.2.2)).getD .start

theorem cases_phase : (cases.all fun row => Ranges.checked kinds row.2 fun k goto =>
    (phase row.1).next k == some ((target goto).1, phase (target goto).2)) = true := by
  -- In parts: the memory of one is free for the next.
  rw [← List.take_append_drop 280 cases, ← List.take_append_drop 180 (cases.drop 280),
    ← List.take_append_drop 50 ((cases.drop 280).drop 180)]
  simp only [List.all_append, Bool.and_eq_true]
  refine ⟨?_, ?_, ?_, ?_⟩
  · decide +kernel
  · decide +kernel
  · decide +kernel
  · decide +kernel

end UriParser
end Routn
