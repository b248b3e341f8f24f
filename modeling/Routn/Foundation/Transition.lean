import Mathlib.Data.List.Forall2
import Mathlib.Tactic

/-!
# Runs of deterministic machines and of labelled transition systems

The first part is about a function that consumes one operation and returns an outcome and the next
state.  `trace` feeds it a list of operations; `trace_simulation` lifts a one-step simulation
between two such functions to whole runs.

The second part is about a step function that may refuse an action.  `Reach ok` are the states that
can be reached by steps each of which meets the side condition `ok`; `Reach.invariant` is the
induction rule, and `reach_of_run` turns a computed run into reachability.

The third part is about operations that answer and may fail, where a failure is an error of the run
and not a refusal.
-/

namespace Routn
namespace Foundation

/-! ## Traces -/

section Trace

variable {σ τ ι ο π : Type*}

/-- Feed the operations one after the other, collecting the outcomes. -/
def trace (step : ι → σ → ο × σ) : List ι → σ → List ο × σ
  | [], s => ([], s)
  | i :: is, s =>
      let (o, s') := step i s
      let (os, s'') := trace step is s'
      (o :: os, s'')

@[simp] theorem trace_nil (step : ι → σ → ο × σ) (s : σ) : trace step [] s = ([], s) := rfl

@[simp] theorem trace_cons (step : ι → σ → ο × σ) (i : ι) (is : List ι) (s : σ) :
    trace step (i :: is) s =
      ((step i s).1 :: (trace step is (step i s).2).1, (trace step is (step i s).2).2) := rfl

/-- The side condition holds at every step of the trace. -/
def traceMeets (step : ι → σ → ο × σ) (ok : σ → ι → Prop) : List ι → σ → Prop
  | [], _ => True
  | i :: is, s => ok s i ∧ traceMeets step ok is (step i s).2

instance decidableTraceMeets (step : ι → σ → ο × σ) (ok : σ → ι → Prop)
    [∀ s i, Decidable (ok s i)] : ∀ (is : List ι) (s : σ), Decidable (traceMeets step ok is s)
  | [], _ => inferInstanceAs (Decidable True)
  | i :: is, s =>
      have := decidableTraceMeets step ok is (step i s).2
      inferInstanceAs (Decidable (ok s i ∧ traceMeets step ok is (step i s).2))

/-- **Forward simulation for traces.**  `R` relates the states, `Q` the outcomes; the side
condition of a step is about the right-hand state before it. -/
theorem trace_simulation {step : ι → σ → ο × σ} {step' : ι → τ → π × τ}
    {R : σ → τ → Prop} {Q : ο → π → Prop} {ok : τ → ι → Prop}
    (hstep : ∀ {s t i}, R s t → ok t i →
      Q (step i s).1 (step' i t).1 ∧ R (step i s).2 (step' i t).2)
    (is : List ι) {s : σ} {t : τ} (hR : R s t) (hok : traceMeets step' ok is t) :
    List.Forall₂ Q (trace step is s).1 (trace step' is t).1 ∧
      R (trace step is s).2 (trace step' is t).2 := by
  -- On the operations; the pair of states is what one step hands to the next.
  induction is generalizing s t with
  | nil => exact ⟨.nil, hR⟩
  | cons i is ih =>
      obtain ⟨hfirst, hrest⟩ := hok
      obtain ⟨hQ, hR'⟩ := hstep hR hfirst
      obtain ⟨houts, hend⟩ := ih hR' hrest
      exact ⟨.cons hQ houts, hend⟩

end Trace

/-! ## Guarded reachability -/

section Reach

variable {σ α : Type*} {init : σ} {step : σ → α → Option σ} {ok ok' : σ → α → Prop}

/-- The states reached from `init` by steps that all meet `ok`. -/
inductive Reach (init : σ) (step : σ → α → Option σ) (ok : σ → α → Prop) : σ → Prop
  | init : Reach init step ok init
  | step {s s' : σ} {a : α} : Reach init step ok s → ok s a → step s a = some s' →
      Reach init step ok s'

/-- The induction rule for invariants. -/
theorem Reach.invariant {P : σ → Prop} (hinit : P init)
    (hstep : ∀ {s s' a}, Reach init step ok s → P s → ok s a → step s a = some s' → P s')
    {s : σ} (h : Reach init step ok s) : P s := by
  induction h with
  | init => exact hinit
  | step hreach hok hs ih => exact hstep hreach ih hok hs

/-- A weaker side condition reaches more states. -/
theorem Reach.mono (hle : ∀ s a, ok s a → ok' s a) {s : σ} (h : Reach init step ok s) :
    Reach init step ok' s := by
  induction h with
  | init => exact .init
  | step _ hok hs ih => exact .step ih (hle _ _ hok) hs

/-- Execute a list of actions; `none` when one of them is refused. -/
def runActions (step : σ → α → Option σ) : List α → σ → Option σ
  | [], s => some s
  | a :: as, s => (step s a).bind (runActions step as)

theorem runActions_append (as bs : List α) (s : σ) :
    runActions step (as ++ bs) s = (runActions step as s).bind (runActions step bs) := by
  induction as generalizing s with
  | nil => rfl
  | cons a as ih =>
      simp only [List.cons_append, runActions, Option.bind_assoc]
      congr 1
      funext s'
      exact ih s'

/-- The side condition holds at every step of the run. -/
def runMeets (step : σ → α → Option σ) (ok : σ → α → Prop) : List α → σ → Prop
  | [], _ => True
  | a :: as, s =>
      ok s a ∧
        match step s a with
        | some s' => runMeets step ok as s'
        | none => True

theorem runMeets_cons {a : α} {as : List α} {s s' : σ} (h : step s a = some s') :
    runMeets step ok (a :: as) s ↔ ok s a ∧ runMeets step ok as s' := by
  rw [runMeets, h]

instance decidableRunMeets (step : σ → α → Option σ) (ok : σ → α → Prop)
    [∀ s a, Decidable (ok s a)] : ∀ (as : List α) (s : σ), Decidable (runMeets step ok as s)
  | [], _ => inferInstanceAs (Decidable True)
  | a :: as, s =>
      have : Decidable (match step s a with
          | some s' => runMeets step ok as s'
          | none => True) :=
        match step s a with
        | some s' => decidableRunMeets step ok as s'
        | none => inferInstanceAs (Decidable True)
      inferInstanceAs (Decidable (ok s a ∧ _))

/-- A weaker side condition is met by more runs. -/
theorem runMeets_mono {I : σ → Prop} (hinv : ∀ {s s' a}, I s → ok s a → step s a = some s' → I s')
    (hle : ∀ {s s' a}, I s → ok s a → step s a = some s' → ok' s a) (as : List α) {s s' : σ}
    (hI : I s) (hrun : runActions step as s = some s') (hok : runMeets step ok as s) :
    runMeets step ok' as s := by
  induction as generalizing s with
  | nil => trivial
  | cons a as ih =>
      obtain ⟨mid, hmid, hrun'⟩ := Option.bind_eq_some_iff.mp hrun
      obtain ⟨hfirst, hrest⟩ := (runMeets_cons hmid).mp hok
      exact (runMeets_cons hmid).mpr
        ⟨hle hI hfirst hmid, ih (hinv hI hfirst hmid) hrun' hrest⟩

/-- Side conditions that agree wherever the invariant holds are met by the same runs. -/
theorem runMeets_congr {I : σ → Prop} {legal : σ → α → Prop}
    (hinv : ∀ {s s' a}, I s → legal s a → step s a = some s' → I s')
    (hiff : ∀ {s a}, I s → legal s a → (ok s a ↔ ok' s a)) (as : List α) {s : σ} (hI : I s)
    (hlegal : runMeets step legal as s) : runMeets step ok as s ↔ runMeets step ok' as s := by
  induction as generalizing s with
  | nil => exact Iff.rfl
  | cons a as ih =>
      cases hstep : step s a with
      | none => simp only [runMeets, hstep, and_true, hiff hI hlegal.1]
      | some s' =>
          obtain ⟨hfirst, hrest⟩ := (runMeets_cons hstep).mp hlegal
          rw [runMeets_cons hstep, runMeets_cons hstep, hiff hI hfirst,
            ih (hinv hI hfirst hstep) hrest]

/-- An invariant of the steps holds after every run. -/
theorem invariant_of_runActions {I : σ → Prop}
    (hinv : ∀ {s s' a}, I s → step s a = some s' → I s') (as : List α) {s s' : σ}
    (hI : I s) (hrun : runActions step as s = some s') : I s' := by
  induction as generalizing s with
  | nil =>
      obtain rfl : s = s' := Option.some.inj hrun
      exact hI
  | cons a as ih =>
      obtain ⟨mid, hmid, hrun'⟩ := Option.bind_eq_some_iff.mp hrun
      exact ih (hinv hI hmid) hrun'

theorem reach_of_runActions_from (as : List α) {s s' : σ} (h : Reach init step ok s)
    (hrun : runActions step as s = some s') (hok : runMeets step ok as s) :
    Reach init step ok s' := by
  induction as generalizing s with
  | nil =>
      obtain rfl : s = s' := Option.some.inj hrun
      exact h
  | cons a as ih =>
      obtain ⟨mid, hmid, hrun'⟩ := Option.bind_eq_some_iff.mp hrun
      obtain ⟨hfirst, hrest⟩ := (runMeets_cons hmid).mp hok
      exact ih (.step h hfirst hmid) hrun' hrest

/-- **A run and its side conditions.**  `I` is an invariant, and `P` a property that is never
regained once a step has lost it.  When a step from a state with `P` keeps `P` exactly if it meets
`ok`, a run keeps `P` exactly if all of its steps meet `ok`. -/
theorem runMeets_iff {I P : σ → Prop}
    (hinv : ∀ {s s' a}, I s → step s a = some s' → I s')
    (hlost : ∀ {s s' a}, I s → step s a = some s' → P s' → P s)
    (hkeep : ∀ {s s' a}, I s → P s → step s a = some s' → (P s' ↔ ok s a))
    (as : List α) {s s' : σ} (hI : I s) (hP : P s) (hrun : runActions step as s = some s') :
    P s' ↔ runMeets step ok as s := by
  -- Once lost, `P` stays lost to the end of the run.
  have hlost_run : ∀ (as : List α) {s s' : σ}, I s → ¬ P s → runActions step as s = some s' →
      ¬ P s' := by
    intro as s s' hI hP hrun
    exact (invariant_of_runActions (I := fun s => I s ∧ ¬ P s)
      (fun hs h => ⟨hinv hs.1 h, fun hP' => hs.2 (hlost hs.1 h hP')⟩) as ⟨hI, hP⟩ hrun).2
  induction as generalizing s with
  | nil =>
      obtain rfl : s = s' := Option.some.inj hrun
      exact iff_of_true hP trivial
  | cons a as ih =>
      obtain ⟨mid, hmid, hrun'⟩ := Option.bind_eq_some_iff.mp hrun
      have hImid := hinv hI hmid
      rw [runMeets_cons hmid]
      constructor
      · intro hP'
        have hPmid : P mid := by_contra fun hnot => hlost_run as hImid hnot hrun' hP'
        exact ⟨(hkeep hI hP hmid).mp hPmid, (ih hImid hPmid hrun').mp hP'⟩
      · rintro ⟨hok, hrest⟩
        exact (ih hImid ((hkeep hI hP hmid).mpr hok) hrun').mpr hrest

/-- `P` holds in every state of a run; a refused action ends it. -/
def runAlways (step : σ → α → Option σ) (P : σ → Prop) : List α → σ → Prop
  | [], s => P s
  | a :: as, s =>
      P s ∧
        match step s a with
        | some s' => runAlways step P as s'
        | none => True

theorem runAlways_cons {P : σ → Prop} {a : α} {as : List α} {s s' : σ} (h : step s a = some s') :
    runAlways step P (a :: as) s ↔ P s ∧ runAlways step P as s' := by
  rw [runAlways, h]

theorem runAlways.head {P : σ → Prop} {as : List α} {s : σ} (h : runAlways step P as s) : P s := by
  cases as with
  | nil => exact h
  | cons a as => exact h.1

/-- A property of all states is one of the state a computed run ends in. -/
theorem runAlways.end {P : σ → Prop} {as : List α} {s s' : σ} (h : runAlways step P as s)
    (hrun : runActions step as s = some s') : P s' := by
  induction as generalizing s with
  | nil =>
      obtain rfl : s = s' := Option.some.inj hrun
      exact h
  | cons a as ih =>
      obtain ⟨mid, hmid, hrun'⟩ := Option.bind_eq_some_iff.mp hrun
      exact ih ((runAlways_cons hmid).mp h).2 hrun'

/-- What an invariant of the steps that meet `ok` implies holds in every state of a run of them. -/
theorem runAlways_of_runMeets {I P : σ → Prop}
    (hinv : ∀ {s s' a}, I s → ok s a → step s a = some s' → I s') (hIP : ∀ {s}, I s → P s)
    (as : List α) {s : σ} (hI : I s) (hok : runMeets step ok as s) : runAlways step P as s := by
  induction as generalizing s with
  | nil => exact hIP hI
  | cons a as ih =>
      cases hstep : step s a with
      | none => exact ⟨hIP hI, by rw [hstep]; trivial⟩
      | some s' =>
          obtain ⟨hfirst, hrest⟩ := (runMeets_cons hstep).mp hok
          exact (runAlways_cons hstep).mpr ⟨hIP hI, ih (hinv hI hfirst hstep) hrest⟩

theorem runMeets_of_forall (hok : ∀ s a, ok s a) (as : List α) (s : σ) : runMeets step ok as s := by
  induction as generalizing s with
  | nil => trivial
  | cons a as ih =>
      refine ⟨hok s a, ?_⟩
      split
      · exact ih _
      · trivial

/-- What an invariant implies holds in every state. -/
theorem runAlways_of_invariant {I P : σ → Prop}
    (hinv : ∀ {s s' a}, I s → step s a = some s' → I s') (hIP : ∀ {s}, I s → P s)
    (as : List α) {s : σ} (hI : I s) : runAlways step P as s :=
  runAlways_of_runMeets (fun hs _ => hinv hs) hIP as hI
    (runMeets_of_forall (fun _ _ => trivial) as s)

/-- **A property of all states of a run and its side conditions.**  `I` is an invariant.  When a
step from a state with `P` keeps `P` exactly if it meets `ok`, then `P` holds in all states of a run
exactly if all of its steps meet `ok`. -/
theorem runAlways_iff {I P : σ → Prop} (hinv : ∀ {s s' a}, I s → step s a = some s' → I s')
    (hkeep : ∀ {s s' a}, I s → P s → step s a = some s' → (P s' ↔ ok s a))
    (hrefused : ∀ {s a}, step s a = none → ok s a) (as : List α) {s : σ} (hI : I s) (hP : P s) :
    runAlways step P as s ↔ runMeets step ok as s := by
  induction as generalizing s with
  | nil => exact iff_of_true hP trivial
  | cons a as ih =>
      cases hstep : step s a with
      | none =>
          refine iff_of_true ⟨hP, by rw [hstep]; trivial⟩ ⟨hrefused hstep, ?_⟩
          rw [hstep]
          trivial
      | some s' =>
          rw [runAlways_cons hstep, runMeets_cons hstep]
          have hI' := hinv hI hstep
          constructor
          · rintro ⟨-, hrest⟩
            exact ⟨(hkeep hI hP hstep).mp hrest.head, (ih hI' hrest.head).mp hrest⟩
          · rintro ⟨hok, hrest⟩
            have hP' := (hkeep hI hP hstep).mpr hok
            exact ⟨hP, (ih hI' hP').mpr hrest⟩

/-- A computed run reaches its last state. -/
theorem reach_of_runActions (as : List α) {s : σ} (hrun : runActions step as init = some s)
    (hok : runMeets step ok as init) : Reach init step ok s :=
  reach_of_runActions_from as .init hrun hok

end Reach

/-! ## Operations that may fail -/

section Fallible

variable {σ ι ο : Type*} {step : σ → ι → Option (ο × σ)} {legal ok : σ → ι → Prop}
  {I J : σ → Prop} {right : σ → ι → ο → σ → Prop}

/-- `I` holds before the first operation and after each one, and no operation fails or does
something that is not right.  What comes after an operation that is not legal does not count. -/
def runKeeps (step : σ → ι → Option (ο × σ)) (legal : σ → ι → Prop) (I : σ → Prop)
    (right : σ → ι → ο → σ → Prop) : List ι → σ → Prop
  | [], s => I s
  | i :: is, s => I s ∧ (legal s i →
      ∃ o s', step s i = some (o, s') ∧ right s i o s' ∧ runKeeps step legal I right is s')

/-- The side condition holds at every operation that counts. -/
def runObserves (step : σ → ι → Option (ο × σ)) (legal ok : σ → ι → Prop) : List ι → σ → Prop
  | [], _ => True
  | i :: is, s => legal s i → ok s i ∧
      ∀ o s', step s i = some (o, s') → runObserves step legal ok is s'

/-- What a run keeps after an operation that is legal. -/
theorem runKeeps_tail {i : ι} {is : List ι} {s s' : σ} {o : ο}
    (h : runKeeps step legal I right (i :: is) s) (hlegal : legal s i)
    (hstep : step s i = some (o, s')) :
    right s i o s' ∧ runKeeps step legal I right is s' := by
  obtain ⟨o', s'', hstep', hright, hrest⟩ := h.2 hlegal
  obtain ⟨rfl, rfl⟩ := Prod.mk.inj (Option.some.inj (hstep.symm.trans hstep'))
  exact ⟨hright, hrest⟩

/-- What a run keeps after operations that are computed, all of them legal. -/
theorem runKeeps_after [∀ s i, Decidable (legal s i)] {is : List ι} (js : List ι) {s s' : σ}
    (h : runKeeps step legal I right (is ++ js) s)
    (hrun : runActions (fun s i => if legal s i then (step s i).map Prod.snd else none) is s =
      some s') : runKeeps step legal I right js s' := by
  induction is generalizing s with
  | nil =>
      obtain rfl : s = s' := Option.some.inj hrun
      exact h
  | cons i is ih =>
      obtain ⟨mid, hmid, hrun'⟩ := Option.bind_eq_some_iff.mp hrun
      obtain ⟨hlegal, hmap⟩ := Option.ite_none_right_eq_some.mp hmid
      obtain ⟨⟨o, s₁⟩, hstep, rfl⟩ := Option.map_eq_some_iff.mp hmap
      exact ih (runKeeps_tail h hlegal hstep).2 hrun'

/-- **A run of operations and its side conditions.**  `J` is the invariant that carries the
induction.  When an operation that meets `ok` is right and keeps `J`, and one that does not fails or
is not right, a run is right in all its operations exactly if all of them meet `ok`. -/
theorem runKeeps_iff (hJI : ∀ {s}, J s → I s)
    (hgood : ∀ {s i}, J s → legal s i → ok s i → ∃ o s', step s i = some (o, s') ∧
      right s i o s' ∧ J s')
    (hbad : ∀ {s i o s'}, J s → legal s i → ¬ ok s i → step s i = some (o, s') →
      ¬ right s i o s')
    (is : List ι) {s : σ} (hJ : J s) :
    runKeeps step legal I right is s ↔ runObserves step legal ok is s := by
  induction is generalizing s with
  | nil => exact iff_of_true (hJI hJ) trivial
  | cons i is ih =>
      constructor
      · intro hrun hlegal
        obtain ⟨o, s', hstep, hright, hrest⟩ := hrun.2 hlegal
        have hok : ok s i := by_contra fun hnot => hbad hJ hlegal hnot hstep hright
        refine ⟨hok, fun o' s'' hstep' => ?_⟩
        obtain ⟨o₁, s₁, hstep₁, -, hJ₁⟩ := hgood hJ hlegal hok
        obtain ⟨rfl, rfl⟩ := Prod.mk.inj (Option.some.inj (hstep.symm.trans hstep'))
        obtain ⟨rfl, rfl⟩ := Prod.mk.inj (Option.some.inj (hstep.symm.trans hstep₁))
        exact (ih hJ₁).mp hrest
      · intro hrun
        refine ⟨hJI hJ, fun hlegal => ?_⟩
        obtain ⟨hok, hrest⟩ := hrun hlegal
        obtain ⟨o, s', hstep, hright, hJ'⟩ := hgood hJ hlegal hok
        exact ⟨o, s', hstep, hright, (ih hJ').mpr (hrest o s' hstep)⟩

/-- What every operation does right, a run does right. -/
theorem runKeeps_of_step (hJI : ∀ {s}, J s → I s)
    (hgood : ∀ {s i}, J s → legal s i → ∃ o s', step s i = some (o, s') ∧ right s i o s' ∧ J s')
    (is : List ι) {s : σ} (hJ : J s) : runKeeps step legal I right is s := by
  induction is generalizing s with
  | nil => exact hJI hJ
  | cons i is ih =>
      refine ⟨hJI hJ, fun hlegal => ?_⟩
      obtain ⟨o, s', hstep, hright, hJ'⟩ := hgood hJ hlegal
      exact ⟨o, s', hstep, hright, ih hJ'⟩

end Fallible

end Foundation
end Routn
