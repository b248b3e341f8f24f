import Routn.Foundation.Table
import Routn.Foundation.Transition

/-!
# Threads that run atomic sections

`Code` is the code of calls that share a store.  A call is entered in a thread of its own, and from
then on takes one section after the other; a section reads and writes the store in one step.  A run
is any interleaving of the sections of any number of calls.

`γ` is what the environment decides in a section: what a system call answers, or what the time is.

The rules are for invariants with one assertion for each thread: a section has to establish the
assertion of its own thread and to leave those of the others intact.
-/

namespace Routn
namespace Foundation

/-- What a call starts with, and the next section of a thread; `none` when the call has returned or
the environment cannot answer so. -/
structure Code (σ γ κ τ : Type) where
  enter : κ → τ
  next : σ → γ → τ → Option (σ × τ)

namespace Code

structure State (σ τ : Type) where
  shared : σ
  threads : List τ
deriving DecidableEq, Repr

inductive Act (γ κ : Type)
  | call (k : κ)
  /-- Thread `i` runs its next section. -/
  | run (i : Nat) (ch : γ)
deriving DecidableEq, Repr

variable {σ γ κ τ : Type} (p : Code σ γ κ τ)

def step (s : State σ τ) : Act γ κ → Option (State σ τ)
  | .call k => some { s with threads := s.threads ++ [p.enter k] }
  | .run i ch => do
      let th ← s.threads[i]?
      let (shared, th') ← p.next s.shared ch th
      return ⟨shared, s.threads.set i th'⟩

/-- The ways in which a step can go. -/
inductive Moves (s : State σ τ) : Act γ κ → State σ τ → Prop
  | call (k : κ) : Moves s (.call k) ⟨s.shared, s.threads ++ [p.enter k]⟩
  | run {i : Nat} {ch : γ} {th th' : τ} {shared : σ} (hi : s.threads[i]? = some th)
      (hnext : p.next s.shared ch th = some (shared, th')) :
      Moves s (.run i ch) ⟨shared, s.threads.set i th'⟩

variable {p} {s s' : State σ τ} {a : Act γ κ}

theorem moves_of_step (h : p.step s a = some s') : p.Moves s a s' := by
  cases a with
  | call k =>
      obtain rfl := Option.some.inj h
      exact .call k
  | run i ch =>
      simp only [step, Option.bind_eq_bind, Option.bind_eq_some_iff] at h
      obtain ⟨th, hi, ⟨shared, th'⟩, hnext, h⟩ := h
      obtain rfl := Option.some.inj h
      exact .run hi hnext

/-! ## Assertions of the threads -/

/-- Every thread satisfies its assertion. -/
def All (L : τ → Prop) (threads : List τ) : Prop := ∀ th ∈ threads, L th

section All

variable {L M : τ → Prop} {threads : List τ} {i : Nat} {th th' : τ}

theorem All.at (h : All L threads) (hi : threads[i]? = some th) : L th :=
  h th (List.mem_of_getElem? hi)

theorem All.append (h : All L threads) (hnew : L th) : All L (threads ++ [th]) := by
  intro t ht
  rcases List.mem_append.mp ht with hold | hlast
  · exact h t hold
  · rw [List.mem_singleton.mp hlast]
    exact hnew

/-- A thread is replaced, and the assertions of the others become new ones. -/
theorem All.set (h : All L threads) (hle : ∀ t, L t → M t) (hown : M th') :
    All M (threads.set i th') := by
  intro t ht
  rcases List.mem_or_eq_of_mem_set ht with hold | rfl
  · exact hle t (h t hold)
  · exact hown

end All

/-- **The rule for invariants.**  `I` is about the store; `L` is the assertion of a thread, and may
be about the store as well.  A section that starts in both has to establish both for its own thread,
and must not interfere with the assertions of the others. -/
structure Outline (p : Code σ γ κ τ) (I : σ → Prop) (L : σ → τ → Prop) : Prop where
  enter : ∀ {sh k}, I sh → L sh (p.enter k)
  own : ∀ {sh ch th sh' th'}, I sh → L sh th → p.next sh ch th = some (sh', th') →
    I sh' ∧ L sh' th'
  others : ∀ {sh ch th sh' th' other}, I sh → L sh th → L sh other →
    p.next sh ch th = some (sh', th') → L sh' other

/-- What an outline establishes of a state. -/
def Holds (I : σ → Prop) (L : σ → τ → Prop) (s : State σ τ) : Prop :=
  I s.shared ∧ All (L s.shared) s.threads

theorem Outline.moves {I : σ → Prop} {L : σ → τ → Prop} (o : Outline p I L) (hs : Holds I L s)
    (h : p.Moves s a s') : Holds I L s' := by
  obtain ⟨hI, hL⟩ := hs
  cases h with
  | call k => exact ⟨hI, hL.append (o.enter hI)⟩
  | run hi hnext =>
      obtain ⟨hI', hown⟩ := o.own hI (hL.at hi) hnext
      exact ⟨hI', hL.set (fun _ hother => o.others hI (hL.at hi) hother hnext) hown⟩

theorem Outline.step {I : σ → Prop} {L : σ → τ → Prop} (o : Outline p I L) (hs : Holds I L s)
    (h : p.step s a = some s') : Holds I L s' :=
  o.moves hs (moves_of_step h)

end Code

end Foundation
end Routn
