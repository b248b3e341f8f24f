import Mathlib.Tactic
import Routn.Address.Uri.Phases

/-!
# `Uri::Create`

The actions of the machine on `p`, `mark` and the URI.  A pointer into the text is the text from it
on, so that `std::string(mark, p - mark)` is what is in front of `p` there, and the null pointer is
`none`.  A string made from the null pointer is undefined, here too `none`; libstdc++ throws.

What the machine creates, the phases create as well (`parse_of_Create`).
-/

namespace Routn

open Foundation UriParser

structure Uri where
  _scheme : List UInt8 := []
  _userinfo : List UInt8 := []
  _host : List UInt8 := []
  _path : List UInt8 := []
  _query : List UInt8 := []
  _fragment : List UInt8 := []
  _port : Int32 := 0
deriving DecidableEq

namespace Uri

/-- The value of a word of digits. -/
def decimal (digits : List UInt8) : Nat := digits.foldl (fun n c => n * 10 + (c.toNat - 48)) 0

/-- `atoi` on a digit, by way of `strtol`, which stops at `LONG_MAX`. -/
def atoi (s : List UInt8) : Int32 := Int32.ofNat (min (decimal (s.takeWhile isdigit)) (2 ^ 63 - 1))

/-- The variables of `Create`. -/
structure Vars where
  p : List UInt8
  mark : Option (List UInt8) := none
  uri : Uri := {}
deriving DecidableEq

/-- `std::string(mark, p - mark)`. -/
def between (mark p : List UInt8) : List UInt8 := mark.take (mark.length - p.length)

namespace Vars

/-- `uri->set…(std::string(mark, fpc - mark))`, and the mark is null. -/
def save (g : Vars) (set : List UInt8 → Uri) : Option Vars :=
  g.mark.map fun mark => { g with uri := set (between mark g.p), mark := none }

def exec : Action → Vars → Option Vars
  | .mark, g => some { g with mark := some g.p }
  | .saveScheme, g => g.save fun s => { g.uri with _scheme := s }
  | .saveUserinfo, g =>
      match g.mark with
      | none => some g
      | some _ => g.save fun s => { g.uri with _userinfo := s }
  | .saveHost, g =>
      match g.mark with
      | none => some g
      | some mark => some { g with uri := { g.uri with _host := between mark g.p } }
  | .savePort, g =>
      g.mark.map fun mark =>
        if g.p = mark then { g with mark := none }
        else { g with uri := { g.uri with _port := atoi mark }, mark := none }
  | .savePath, g => g.save fun s => { g.uri with _path := s }
  | .saveQuery, g => g.save fun s => { g.uri with _query := s }
  | .saveFragment, g => g.save fun s => { g.uri with _fragment := s }

def execAll (actions : List Action) (g : Vars) : Option Vars :=
  actions.foldlM (fun g action => exec action g) g

def store : Store UInt8 Action Vars where
  exec := exec
  tick := fun _ g => { g with p := g.p.tail }

end Vars

open Vars

/-- `none` is undefined, and `some none` is the null pointer that is returned. -/
def Create (uristr : List UInt8) : Option (Option Uri) := do
  let (_, cs, g) ← control.run store uristr uriParserStart { p := uristr }
  if cs = uriParserError then some none
  else
    let g ← execAll (eofActions cs) g
    if uriParserFirstFinal ≤ cs then some (some g.uri) else some none

/-! ## By phases -/

/-- What the phases create, from some phase on. -/
def parse (φ : Phase) (g : Vars) : Option Uri :=
  (Phase.control.run store g.p φ g).bind fun r => (execAll r.2.1.eof r.2.2).map (·.uri)

theorem phase_eq_refused_iff (cs : Nat) : phase cs = .refused ↔ cs = uriParserError := by
  constructor
  · intro h
    by_contra hcs
    rw [phase, if_neg hcs] at h
    cases hrow : phases.find? fun row => row.1 ≤ cs && cs ≤ row.2.1 with
    | none =>
        rw [hrow] at h
        cases h
    | some row =>
        rw [hrow] at h
        have hall : ∀ row ∈ phases, row.2.2 ≠ .refused := by decide
        exact hall row (List.mem_of_find?_eq_some hrow) h
  · rintro rfl
    rfl

theorem halts_phase (cs : Nat) : Phase.control.halts (phase cs) = control.halts cs := by
  show (phase cs == Phase.refused) = (cs == uriParserError)
  rw [Bool.eq_iff_iff, beq_iff_eq, beq_iff_eq, phase_eq_refused_iff]

/-- **Each transition of the machine is one of the phases.** -/
theorem next_phase {cs cs' : Nat} {c : UInt8} {actions : List Action}
    (h : control.next cs c = some (actions, cs')) :
    Phase.control.next (phase cs) c = some (actions, phase cs') := by
  have ⟨edges, hedges, h⟩ := Option.bind_eq_some_iff.mp h
  have ⟨goto, hgoto, htarget⟩ := Option.map_eq_some_iff.mp h
  have ⟨before, rest, hsplit, _⟩ := List.lookup_eq_some_iff.mp hedges
  have hrow : (cs, edges) ∈ cases := by
    rw [hsplit]
    exact List.mem_append_right _ List.mem_cons_self
  have hchecked : Ranges.checked kinds edges (fun k goto => (phase cs).next k ==
      some ((target goto).1, phase (target goto).2)) = true :=
    List.all_eq_true.mp cases_phase _ hrow
  have hsame := Ranges.of_checked hchecked (holds_kind c) hgoto
  have hnext := beq_iff_eq.mp hsame
  rw [htarget] at hnext
  exact hnext

theorem eof_phase {cs : Nat} (h : uriParserFirstFinal ≤ cs) : eofActions cs = (phase cs).eof := by
  have hlast : ∀ row ∈ eofCases, row.2.1 ≤ 560 := by decide
  have hlast' : ∀ row ∈ phases, row.2.1 ≤ 560 := by decide
  by_cases hcs : cs ≤ 560
  · have hall : ∀ n ∈ List.range 110, eofActions (451 + n) = (phase (451 + n)).eof := by
      decide +kernel
    have hfirst : 451 + (cs - 451) = cs := Nat.add_sub_cancel' h
    have hcs := hall (cs - 451) (List.mem_range.mpr (by omega))
    rw [hfirst] at hcs
    exact hcs
  · have hnone : eofCases.find? (fun row => row.1 ≤ cs ∧ cs ≤ row.2.1) = none := by
      apply List.find?_eq_none.mpr
      intro row hrow
      have := hlast row hrow
      simp only [decide_eq_true_eq, not_and]
      omega
    have hnone' : phases.find? (fun row => row.1 ≤ cs && cs ≤ row.2.1) = none := by
      apply List.find?_eq_none.mpr
      intro row hrow
      have := hlast' row hrow
      simp only [Bool.and_eq_true, decide_eq_true_eq, not_and]
      omega
    have hne : cs ≠ uriParserError := by
      rintro rfl
      exact absurd (Nat.zero_le _) hcs
    rw [eofActions, hnone, phase, if_neg hne, hnone']
    rfl

theorem parse_of_Create {uristr : List UInt8} {uri : Uri}
    (h : Create uristr = some (some uri)) : parse .start { p := uristr } = some uri := by
  have ⟨r, hrun, h⟩ := Option.bind_eq_some_iff.mp h
  have ⟨rest, cs, g⟩ := r
  simp only at h
  split at h
  · cases h
  · rename_i hcs
    have ⟨g', heof, h⟩ := Option.bind_eq_some_iff.mp h
    split at h
    · rename_i hfinal
      cases h
      have himage := (Control.run_image halts_phase next_phase uristr uriParserStart _).2 hrun hcs
      rw [eof_phase hfinal] at heof
      show (Phase.control.run store uristr (phase uriParserStart) _).bind _ = _
      rw [himage]
      show (execAll (phase cs).eof g).map _ = _
      rw [heof]
      rfl
    · cases h

end Uri
end Routn
