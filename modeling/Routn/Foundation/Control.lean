import Mathlib.Data.List.Basic
import Mathlib.Tactic

/-!
# Finite control over a store

A control reads symbols one after the other.  On each it names instructions and a next state, or
refuses the symbol; it stops in a state that halts.  What the instructions do is up to the store,
so that one control can drive two stores.

The second half is about registers.  An instruction reads some and writes some, and a register is
live in a state if its content can still be read.  When two stores agree on the live registers,
they do the same on the whole input (`LiveSimulation.run`): what the others hold does not matter.
-/

namespace Routn
namespace Foundation

/-- `refused` is the state after a symbol that has no transition. -/
structure Control (σ α ι : Type*) where
  next : σ → α → Option (List ι × σ)
  halts : σ → Bool
  refused : σ
  halts_refused : halts refused = true

/-- What instructions do, and what it means to go on to the next symbol. -/
structure Store (α ι γ : Type*) where
  exec : ι → γ → Option γ
  tick : α → γ → γ

variable {σ α ι γ δ ρ : Type*}

namespace Control

variable (C : Control σ α ι)

/-- Run until the input is used up, a symbol is refused or a state halts: the input that is left,
the state and the store. -/
def run (M : Store α ι γ) : List α → σ → γ → Option (List α × σ × γ)
  | [], s, g => some ([], s, g)
  | c :: cs, s, g =>
      match C.next s c with
      | none => some (c :: cs, C.refused, g)
      | some (is, s') =>
          (is.foldlM (fun g i => M.exec i g) g).bind fun g' =>
            if C.halts s' then some (cs, s', M.tick c g') else run M cs s' (M.tick c g')

/-- The state after an input, without a store.  A state that halts is kept. -/
def after : σ → List α → σ
  | s, [] => s
  | s, c :: cs =>
      if C.halts s then s
      else
        match C.next s c with
        | none => C.refused
        | some (_, s') => after s' cs

variable {C} {M : Store α ι γ} {s s' : σ} {c : α} {cs : List α} {is : List ι} {g g' : γ}

theorem run_refused (hnext : C.next s c = none) :
    C.run M (c :: cs) s g = some (c :: cs, C.refused, g) := by
  rw [run, hnext]

theorem run_step (hnext : C.next s c = some (is, s'))
    (hexec : is.foldlM (fun g i => M.exec i g) g = some g') :
    C.run M (c :: cs) s g =
      if C.halts s' then some (cs, s', M.tick c g') else C.run M cs s' (M.tick c g') := by
  rw [run, hnext]
  show (is.foldlM (fun g i => M.exec i g) g).bind _ = _
  rw [hexec]
  rfl

theorem run_fails (hnext : C.next s c = some (is, s'))
    (hexec : is.foldlM (fun g i => M.exec i g) g = none) : C.run M (c :: cs) s g = none := by
  rw [run, hnext]
  show (is.foldlM (fun g i => M.exec i g) g).bind _ = _
  rw [hexec]
  rfl

theorem after_halted (hhalts : C.halts s = true) (cs : List α) : C.after s cs = s := by
  cases cs with
  | nil => rfl
  | cons c cs => exact if_pos hhalts

theorem after_refused (hrun : C.halts s = false) (hnext : C.next s c = none) :
    C.after s (c :: cs) = C.refused := by
  rw [after, hrun, if_neg Bool.false_ne_true, hnext]

theorem after_step (hrun : C.halts s = false) (hnext : C.next s c = some (is, s')) :
    C.after s (c :: cs) = C.after s' cs := by
  rw [after, hrun, if_neg Bool.false_ne_true, hnext]

/-- A store that refuses no instruction. -/
def Total (M : Store α ι γ) : Prop := ∀ i g, ∃ g', M.exec i g = some g'

theorem Total.list (hM : Total M) (is : List ι) (g : γ) :
    ∃ g', is.foldlM (fun g i => M.exec i g) g = some g' := by
  induction is generalizing g with
  | nil => exact ⟨g, rfl⟩
  | cons i is ih =>
      obtain ⟨mid, hmid⟩ := hM i g
      obtain ⟨g', hg'⟩ := ih mid
      refine ⟨g', ?_⟩
      rw [List.foldlM_cons, hmid]
      exact hg'

/-- **A run on a total store** ends in the state the control alone reaches, and stops before the
end of the input only in a state that halts. -/
theorem run_total (hM : Total M) (cs : List α) {s : σ} (hrun : C.halts s = false) (g : γ) :
    ∃ rest g', C.run M cs s g = some (rest, C.after s cs, g') ∧
      rest.IsSuffix cs ∧ (C.halts (C.after s cs) = false → rest = []) := by
  induction cs generalizing s g with
  | nil => exact ⟨[], g, rfl, List.suffix_refl _, fun _ => rfl⟩
  | cons c cs ih =>
      cases hnext : C.next s c with
      | none =>
          rw [after_refused hrun hnext]
          refine ⟨c :: cs, g, run_refused hnext, List.suffix_refl _, ?_⟩
          intro hgo
          exact absurd C.halts_refused (by rw [hgo]; exact Bool.false_ne_true)
      | some step =>
          obtain ⟨is, s'⟩ := step
          obtain ⟨g', hexec⟩ := hM.list is g
          rw [run_step hnext hexec, after_step hrun hnext]
          cases hhalts : C.halts s' with
          | true =>
              rw [after_halted hhalts, hhalts]
              exact ⟨cs, M.tick c g', rfl, List.suffix_cons c cs, fun h => nomatch h⟩
          | false =>
              obtain ⟨rest, g'', hend, hsuffix, hall⟩ := ih hhalts (M.tick c g')
              exact ⟨rest, g'', hend, hsuffix.trans (List.suffix_cons c cs), hall⟩

/-- A control with fewer transitions: what it accepts, the other one accepts too. -/
theorem run_of_sub {D : Control σ α ι}
    (hsub : ∀ {s c step}, D.next s c = some step → C.next s c = some step)
    (hhalts : D.halts = C.halts) {rest : List α} (hgo : s' ≠ D.refused)
    (h : D.run M cs s g = some (rest, s', g')) : C.run M cs s g = some (rest, s', g') := by
  induction cs generalizing s g with
  | nil => exact h
  | cons c cs ih =>
      cases hnext : D.next s c with
      | none =>
          rw [run_refused hnext] at h
          cases h
          exact absurd rfl hgo
      | some step =>
          obtain ⟨is, s₁⟩ := step
          rw [run, hnext] at h
          rw [run, hsub hnext]
          obtain ⟨g₁, hfold, h⟩ := Option.bind_eq_some_iff.mp h
          rw [hhalts] at h
          refine Option.bind_eq_some_iff.mpr ⟨g₁, hfold, ?_⟩
          cases hend : C.halts s₁ with
          | true =>
              rw [hend] at h
              exact h
          | false =>
              rw [hend] at h
              exact ih h

/-- A control that does the same on the images of the states: as long as no symbol is refused, the
two runs end alike. -/
theorem run_image {τ : Type*} {D : Control τ α ι} {φ : σ → τ}
    (hhalts : ∀ s, D.halts (φ s) = C.halts s)
    (himage : ∀ {s s' c is}, C.next s c = some (is, s') → D.next (φ s) c = some (is, φ s'))
    (cs : List α) (s : σ) (g : γ) :
    (C.run M cs s g = none → D.run M cs (φ s) g = none) ∧
    ∀ {rest s' g'}, C.run M cs s g = some (rest, s', g') → s' ≠ C.refused →
      D.run M cs (φ s) g = some (rest, φ s', g') := by
  induction cs generalizing s g with
  | nil =>
      refine ⟨fun h => (nomatch h), ?_⟩
      intro rest s' g' h _
      cases h
      rfl
  | cons c cs ih =>
      cases hnext : C.next s c with
      | none =>
          rw [run_refused hnext]
          refine ⟨fun h => (nomatch h), ?_⟩
          intro rest s' g' h hgo
          cases h
          exact absurd rfl hgo
      | some step =>
          cases hexec : step.1.foldlM (fun g i => M.exec i g) g with
          | none =>
              rw [run_fails hnext hexec, run_fails (himage hnext) hexec]
              exact ⟨fun _ => rfl, fun h => (nomatch h)⟩
          | some g₁ =>
              rw [run_step hnext hexec, run_step (himage hnext) hexec, hhalts]
              cases C.halts step.2 with
              | true =>
                  refine ⟨fun h => (nomatch h), ?_⟩
                  intro rest s' g' h _
                  cases h
                  rfl
              | false => exact ih step.2 (M.tick c g₁)

/-- What the end of a run on a total store says. -/
theorem run_end {rest : List α} (hM : Total M) (hrun : C.halts s = false)
    (h : C.run M cs s g = some (rest, s', g')) :
    s' = C.after s cs ∧ rest <:+ cs ∧ (C.halts s' = false → rest = []) := by
  obtain ⟨rest₁, g₁, hend, hsuffix, hall⟩ := run_total hM cs hrun g
  have hsame := Option.some.inj (h.symm.trans hend)
  obtain rfl : rest = rest₁ := congrArg (·.1) hsame
  obtain rfl : s' = C.after s cs := congrArg (·.2.1) hsame
  exact ⟨rfl, hsuffix, hall⟩

/-- A run that halts otherwise than by refusing has taken the first symbol. -/
theorem run_consumes {rest : List α} (h : C.run M (c :: cs) s g = some (rest, s', g'))
    (htotal : Total M) (hgo : s' ≠ C.refused) : rest.length ≤ cs.length := by
  cases hnext : C.next s c with
  | none =>
      rw [run_refused hnext] at h
      cases h
      exact absurd rfl hgo
  | some step =>
      obtain ⟨is, s₁⟩ := step
      obtain ⟨g₁, hexec⟩ := htotal.list is g
      rw [run_step hnext hexec] at h
      cases hhalts : C.halts s₁ with
      | true =>
          rw [hhalts, if_pos rfl] at h
          cases h
          exact Nat.le_refl _
      | false =>
          rw [hhalts, if_neg Bool.false_ne_true] at h
          exact (run_end htotal hhalts h).2.1.length_le

/-- What each transition keeps, of the state and the store together, holds at the end. -/
theorem run_invariant_state {P : σ → γ → Prop} (hrefused : ∀ {s g}, P s g → P C.refused g)
    (hstep : ∀ {s s' c is g g'}, P s g → C.next s c = some (is, s') →
      is.foldlM (fun g i => M.exec i g) g = some g' → P s' (M.tick c g'))
    (cs : List α) {s s' : σ} {g g' : γ} {rest : List α} (hP : P s g)
    (h : C.run M cs s g = some (rest, s', g')) : P s' g' := by
  induction cs generalizing s g with
  | nil =>
      cases h
      exact hP
  | cons c cs ih =>
      cases hnext : C.next s c with
      | none =>
          rw [run_refused hnext] at h
          cases h
          exact hrefused hP
      | some step =>
          obtain ⟨is, s₁⟩ := step
          rw [run, hnext] at h
          obtain ⟨g₁, hfold, h⟩ := Option.bind_eq_some_iff.mp h
          have hP₁ := hstep hP hnext hfold
          cases hhalts : C.halts s₁ with
          | true =>
              rw [hhalts, if_pos rfl] at h
              cases h
              exact hP₁
          | false =>
              rw [hhalts, if_neg Bool.false_ne_true] at h
              exact ih hP₁ h

theorem list_invariant {P : γ → Prop}
    (hexec : ∀ {g g'}, ∀ i ∈ is, P g → M.exec i g = some g' → P g')
    (hP : P g) (h : is.foldlM (fun g i => M.exec i g) g = some g') : P g' := by
  induction is generalizing g with
  | nil =>
      cases h
      exact hP
  | cons i is ih =>
      rw [List.foldlM_cons] at h
      obtain ⟨mid, hmid, h⟩ := Option.bind_eq_some_iff.mp h
      exact ih (fun j hj => hexec j (List.mem_cons_of_mem i hj))
        (hexec i List.mem_cons_self hP hmid) h

/-- What the instructions and the ticks keep holds at the end. -/
theorem run_invariant {P : γ → Prop} (hexec : ∀ {i g g'}, P g → M.exec i g = some g' → P g')
    (htick : ∀ {c g}, P g → P (M.tick c g)) (cs : List α) {s s' : σ} {g g' : γ} {rest : List α}
    (hP : P g) (h : C.run M cs s g = some (rest, s', g')) : P g' :=
  run_invariant_state (P := fun _ => P) id
    (fun hP _ hfold => htick (list_invariant (fun _ _ => hexec) hP hfold)) cs hP h

/-- **A run in two parts.** -/
theorem run_append (hM : Total M) (u v : List α) {s : σ} (hrun : C.halts s = false) (g : γ) :
    C.run M (u ++ v) s g =
      (C.run M u s g).bind fun r =>
        if C.halts r.2.1 then some (r.1 ++ v, r.2) else C.run M v r.2.1 r.2.2 := by
  induction u generalizing s g with
  | nil =>
      show _ = if C.halts s then _ else C.run M v s g
      rw [hrun]
      rfl
  | cons c u ih =>
      cases hnext : C.next s c with
      | none =>
          rw [List.cons_append, run_refused hnext, run_refused hnext]
          show _ = if C.halts C.refused then _ else _
          rw [C.halts_refused]
          rfl
      | some step =>
          obtain ⟨is, s'⟩ := step
          obtain ⟨g', hexec⟩ := hM.list is g
          rw [List.cons_append, run_step hnext hexec, run_step hnext hexec]
          cases hhalts : C.halts s' with
          | true =>
              show _ = if C.halts s' then _ else _
              rw [hhalts]
              rfl
          | false => exact ih hhalts (M.tick c g')

/-- One symbol on a store whose instructions are functions. -/
theorem run_char {act : ι → γ → γ} (hM : ∀ i g, M.exec i g = some (act i g))
    (hnext : C.next s c = some (is, s')) (hgo : C.halts s' = false) (cs : List α) (g : γ) :
    C.run M (c :: cs) s g =
      C.run M cs s' (M.tick c (is.foldl (fun g i => act i g) g)) := by
  have hexec : ∀ (is : List ι) (g : γ),
      is.foldlM (fun g i => M.exec i g) g = some (is.foldl (fun g i => act i g) g) := by
    intro is
    induction is with
    | nil => exact fun g => rfl
    | cons i is ih =>
        intro g
        rw [List.foldlM_cons, hM]
        exact ih (act i g)
  rw [run_step hnext (hexec is g), hgo, if_neg Bool.false_ne_true]

/-! ## Words without an instruction -/

variable (C) in
/-- The state after a word whose transitions carry no instruction and halt nowhere. -/
def pass : σ → List α → Option σ
  | s, [] => some s
  | s, c :: cs =>
      match C.next s c with
      | some ([], s') => if C.halts s' then none else pass s' cs
      | _ => none

theorem pass_step (hnext : C.next s c = some ([], s')) (hgo : C.halts s' = false) :
    C.pass s (c :: cs) = C.pass s' cs := by
  rw [pass, hnext]
  show (if C.halts s' then none else C.pass s' cs) = _
  rw [hgo, if_neg Bool.false_ne_true]

/-- A state that each symbol of a word leads back to. -/
theorem pass_loop (hgo : C.halts s = false) (hloop : ∀ c ∈ cs, C.next s c = some ([], s)) :
    C.pass s cs = some s := by
  induction cs with
  | nil => rfl
  | cons c cs ih =>
      rw [pass_step (hloop c List.mem_cons_self) hgo]
      exact ih fun c hc => hloop c (List.mem_cons_of_mem _ hc)

/-- **Such a word only makes the store tick.** -/
theorem run_pass (h : C.pass s cs = some s') (M : Store α ι γ) (more : List α) (g : γ) :
    C.run M (cs ++ more) s g = C.run M more s' (cs.foldl (fun g c => M.tick c g) g) := by
  induction cs generalizing s g with
  | nil =>
      cases h
      rfl
  | cons c cs ih =>
      rw [pass] at h
      split at h
      · next s₁ hnext =>
          cases hgo : C.halts s₁ with
          | true =>
              rw [hgo, if_pos rfl] at h
              cases h
          | false =>
              rw [hgo, if_neg Bool.false_ne_true] at h
              rw [List.cons_append, run_step hnext rfl, hgo, if_neg Bool.false_ne_true, ih h]
              rfl
      · cases h

end Control

/-! ## Registers -/

/-- The registers an instruction reads, those it writes, and those whose content it destroys. -/
structure Access (ι ρ : Type*) where
  reads : ι → List ρ
  writes : ι → List ρ
  spoils : ι → List ρ

namespace Access

variable [DecidableEq ρ] (A : Access ι ρ)

/-- The registers that are live before an instruction, from those that are live after it. -/
def liveThrough (i : ι) (live : List ρ) : List ρ :=
  A.reads i ++ live.filter (fun r => r ∉ A.writes i)

def liveBefore (is : List ι) (live : List ρ) : List ρ := is.foldr A.liveThrough live

/-- No instruction destroys a register that is live after it. -/
def spares : List ι → List ρ → Bool
  | [], _ => true
  | i :: is, live =>
      (A.spoils i).all (fun r => r ∉ A.liveBefore is live) && spares is live

/-- A transition into a state with `live'` keeps to the registers that are live before it. -/
def fits (live : List ρ) (is : List ι) (live' : List ρ) : Bool :=
  (A.liveBefore is live').all (fun r => r ∈ live) && A.spares is live'

/-- What is live in a state covers what is live before each of its transitions. -/
def Stable (C : Control σ α ι) (live : σ → List ρ) : Prop :=
  ∀ {s c is s'}, C.next s c = some (is, s') → A.fits (live s) is (live s') = true

variable {A}

theorem reads_live {i : ι} {live : List ρ} {r : ρ} (hr : r ∈ A.reads i) :
    r ∈ A.liveThrough i live := List.mem_append_left _ hr

theorem live_through {i : ι} {live : List ρ} {r : ρ} (hr : r ∈ live) (hw : r ∉ A.writes i) :
    r ∈ A.liveThrough i live :=
  List.mem_append_right _ (List.mem_filter.mpr ⟨hr, decide_eq_true hw⟩)

theorem live_of_fits {live live' : List ρ} {is : List ι} (h : A.fits live is live' = true) {r : ρ}
    (hr : r ∈ A.liveBefore is live') : r ∈ live :=
  of_decide_eq_true (List.all_eq_true.mp (Bool.and_eq_true_iff.mp h).1 r hr)

theorem not_spoiled {i : ι} {is : List ι} {live : List ρ} (h : A.spares (i :: is) live = true)
    {r : ρ} (hr : r ∈ A.liveBefore is live) : r ∉ A.spoils i := by
  intro hspoils
  have hdead := List.all_eq_true.mp (Bool.and_eq_true_iff.mp h).1 r hspoils
  exact of_decide_eq_true hdead hr

end Access

/-- Two stores that do the same as long as the registers they read agree.  `Same` is what holds of
the two besides, with the input still to come. -/
structure LiveSimulation (C : Control σ α ι) (A : Access ι ρ) (M : Store α ι γ) (N : Store α ι δ)
    (Same : List α → γ → δ → Prop) (Agree : ρ → γ → δ → Prop) : Prop where
  exec : ∀ {s s' c cs is i g d}, C.next s c = some (is, s') → i ∈ is → Same (c :: cs) g d →
    (∀ r ∈ A.reads i, Agree r g d) →
    ∃ g' d', M.exec i g = some g' ∧ N.exec i d = some d' ∧ Same (c :: cs) g' d' ∧
      (∀ r ∈ A.writes i, Agree r g' d') ∧
      ∀ r, r ∉ A.writes i → r ∉ A.spoils i → Agree r g d → Agree r g' d'
  tick : ∀ {c cs g d}, Same (c :: cs) g d →
    Same cs (M.tick c g) (N.tick c d) ∧ ∀ r, Agree r g d → Agree r (M.tick c g) (N.tick c d)

namespace LiveSimulation

variable [DecidableEq ρ] {C : Control σ α ι} {A : Access ι ρ} {M : Store α ι γ} {N : Store α ι δ}
  {Same : List α → γ → δ → Prop} {Agree : ρ → γ → δ → Prop}

/-- One transition. -/
theorem list (h : LiveSimulation C A M N Same Agree) {s s' : σ} {c : α} {cs : List α}
    {all : List ι} (hnext : C.next s c = some (all, s')) {is : List ι} (hsub : is ⊆ all)
    {live : List ρ} (hspares : A.spares is live = true) {g : γ} {d : δ}
    (hsame : Same (c :: cs) g d) (hagree : ∀ r ∈ A.liveBefore is live, Agree r g d) :
    ∃ g' d', is.foldlM (fun g i => M.exec i g) g = some g' ∧
      is.foldlM (fun d i => N.exec i d) d = some d' ∧ Same (c :: cs) g' d' ∧
      ∀ r ∈ live, Agree r g' d' := by
  induction is generalizing g d with
  | nil => exact ⟨g, d, rfl, rfl, hsame, hagree⟩
  | cons i is ih =>
      obtain ⟨g₁, d₁, hM, hN, hsame₁, hwritten, hkept⟩ :=
        h.exec hnext (hsub List.mem_cons_self) hsame fun r hr => hagree r (Access.reads_live hr)
      obtain ⟨g₂, d₂, hM₂, hN₂, hsame₂, hagree₂⟩ :=
        ih (fun j hj => hsub (List.mem_cons_of_mem i hj)) (Bool.and_eq_true_iff.mp hspares).2
          hsame₁ fun r hr => by
            by_cases hw : r ∈ A.writes i
            · exact hwritten r hw
            · exact hkept r hw (Access.not_spoiled hspares hr)
                (hagree r (Access.live_through hr hw))
      refine ⟨g₂, d₂, ?_, ?_, hsame₂, hagree₂⟩
      · rw [List.foldlM_cons, hM]
        exact hM₂
      · rw [List.foldlM_cons, hN]
        exact hN₂

/-- **Simulation on the live registers.** -/
theorem run (h : LiveSimulation C A M N Same Agree) {live : σ → List ρ} (hlive : A.Stable C live)
    (cs : List α) {s : σ} {g : γ} {d : δ} (hsame : Same cs g d)
    (hagree : ∀ r ∈ live s, Agree r g d) :
    ∃ rest s' g' d', C.run M cs s g = some (rest, s', g') ∧ C.run N cs s d = some (rest, s', d') ∧
      Same rest g' d' := by
  -- On the input: a transition keeps `Same` and the agreement on what is live in the next state.
  induction cs generalizing s g d with
  | nil => exact ⟨[], s, g, d, rfl, rfl, hsame⟩
  | cons c cs ih =>
      cases hnext : C.next s c with
      | none =>
          exact ⟨c :: cs, C.refused, g, d, Control.run_refused hnext, Control.run_refused hnext,
            hsame⟩
      | some step =>
          obtain ⟨is, s'⟩ := step
          obtain ⟨g₁, d₁, hM, hN, hsame₁, hagree₁⟩ :=
            h.list hnext (List.Subset.refl is) (Bool.and_eq_true_iff.mp (hlive hnext)).2 hsame
              fun r hr => hagree r (Access.live_of_fits (hlive hnext) hr)
          obtain ⟨hsame₂, htick⟩ := h.tick hsame₁
          rw [Control.run_step hnext hM, Control.run_step hnext hN]
          cases hhalts : C.halts s' with
          | true => exact ⟨cs, s', _, _, rfl, rfl, hsame₂⟩
          | false => exact ih hsame₂ fun r hr => htick r (hagree₁ r hr)

end LiveSimulation

end Foundation
end Routn
