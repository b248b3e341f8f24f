import Mathlib.Tactic
import Routn.Address.Uri.Create
import Routn.Address.Uri.Grammar

/-!
# The texts that `Create` accepts

The code decides by the state in which the machine stops, and the machine accepts what the grammar
describes: where `Create` returns at all, it returns a URI for the words of the grammar and the null
pointer for the others.  It does not return where a string is made from the null pointer.
-/

namespace Routn
namespace Uri

open Foundation UriParser UriGrammar

/-- The state in which a run stops does not depend on the store. -/
theorem run_after {cs : List UInt8} {q q' : Nat} {g g' : Vars} {rest : List UInt8}
    (hgo : control.halts q = false) (h : control.run Vars.store cs q g = some (rest, q', g')) :
    q' = control.after q cs := by
  induction cs generalizing q g with
  | nil =>
      cases h
      rfl
  | cons c cs ih =>
      cases hnext : control.next q c with
      | none =>
          rw [Control.run_refused hnext] at h
          obtain ⟨-, h⟩ := Prod.mk.inj (Option.some.inj h)
          rw [Control.after_refused hgo hnext]
          exact (Prod.mk.inj h).1.symm
      | some step =>
          obtain ⟨is, q₁⟩ := step
          rw [Control.run, hnext] at h
          obtain ⟨g₁, -, h⟩ := Option.bind_eq_some_iff.mp h
          rw [Control.after_step hgo hnext]
          cases hhalts : control.halts q₁ with
          | true =>
              rw [hhalts, if_pos rfl] at h
              obtain ⟨-, h⟩ := Prod.mk.inj (Option.some.inj h)
              rw [Control.after_halted hhalts]
              exact (Prod.mk.inj h).1.symm
          | false =>
              rw [hhalts, if_neg Bool.false_ne_true] at h
              exact ih hhalts h

/-- A text from which there is a URI is a word of the grammar. -/
theorem accepted_of_Create {uristr : List UInt8} {uri : Uri}
    (h : Create uristr = some (some uri)) : uristr ∈ URIReference.language mem := by
  obtain ⟨⟨rest, cs, g⟩, hrun, h⟩ := Option.bind_eq_some_iff.mp h
  obtain rfl := run_after rfl hrun
  rw [← machine_accepts_iff]
  simp only at h
  split at h
  · cases h
  · obtain ⟨g', -, h⟩ := Option.bind_eq_some_iff.mp h
    split at h
    · assumption
    · cases h

/-- From a text for which there is none it is not. -/
theorem not_accepted_of_Create {uristr : List UInt8} (h : Create uristr = some none) :
    uristr ∉ URIReference.language mem := by
  obtain ⟨⟨rest, cs, g⟩, hrun, h⟩ := Option.bind_eq_some_iff.mp h
  obtain rfl := run_after rfl hrun
  rw [← machine_accepts_iff]
  simp only at h
  split at h
  · next herror =>
      rw [herror]
      decide
  · obtain ⟨g', -, h⟩ := Option.bind_eq_some_iff.mp h
    split at h
    · cases h
    · assumption

/-- **What `Create` returns** is a URI if and only if the text is a word of the grammar. -/
theorem Create_isSome_iff {uristr : List UInt8} {r : Option Uri} (h : Create uristr = some r) :
    r.isSome = true ↔ uristr ∈ URIReference.language mem := by
  cases r with
  | none => exact iff_of_false Bool.false_ne_true (not_accepted_of_Create h)
  | some uri => exact iff_of_true rfl (accepted_of_Create h)

set_option maxRecDepth 8000 in
theorem Create_isSome_iff_relative :
    (some ({ _query := [113] } : Uri)).isSome = true ↔
      ([97, 63, 113] : List UInt8) ∈ URIReference.language mem :=
  Create_isSome_iff rfl

/-- For a word of the grammar the machine creates what the phases do. -/
theorem Create_of_parse {uristr : List UInt8} {uri : Uri}
    (hword : uristr ∈ URIReference.language mem)
    (hparse : parse .start { p := uristr } = some uri) : Create uristr = some (some uri) := by
  have hfinal := (machine_accepts_iff uristr).mpr hword
  have himage := Control.run_image (M := Vars.store) halts_phase next_phase uristr uriParserStart
    { p := uristr }
  obtain ⟨⟨rest, φ, g⟩, hphases, heof⟩ := Option.bind_eq_some_iff.mp hparse
  cases hrun : control.run Vars.store uristr uriParserStart { p := uristr } with
  | none =>
      have hnone := himage.1 hrun
      rw [show phase uriParserStart = Phase.start from rfl, hphases] at hnone
      cases hnone
  | some r =>
      obtain ⟨rest', cs, g'⟩ := r
      obtain rfl := run_after rfl hrun
      have hne : control.after uriParserStart uristr ≠ uriParserError := by
        intro herror
        rw [herror] at hfinal
        exact absurd hfinal (by decide)
      have hsame := himage.2 hrun hne
      rw [show phase uriParserStart = Phase.start from rfl, hphases] at hsame
      cases hsame
      obtain ⟨g'', hexec, rfl⟩ := Option.map_eq_some_iff.mp heof
      rw [← eof_phase hfinal] at hexec
      rw [Create, hrun]
      show (if _ then _ else _) = _
      rw [if_neg hne, hexec]
      show (if _ then _ else _) = _
      rw [if_pos hfinal]

end Uri
end Routn
