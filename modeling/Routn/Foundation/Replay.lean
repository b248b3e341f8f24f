import Mathlib.Tactic

/-!
# Writes that are still to be carried out

A table is a function from keys to values, and a write is to one key or replaces the table.
`replay` carries out a list of writes.  A key depends on the last write to it alone (`replay_eq`),
so that writes may overtake one another as long as the last one to each key stays the same.
-/

namespace Routn
namespace Foundation

inductive Write (ι α : Type*)
  | put (k : ι) (a : α)
  | all (f : ι → α)

namespace Write

variable {ι α : Type*} [DecidableEq ι]

def apply (f : ι → α) : Write ι α → ι → α
  | put k a => Function.update f k a
  | all g => g

/-- Carry out some writes. -/
def replay (ws : List (Write ι α)) (f : ι → α) : ι → α := ws.foldl apply f

/-- What is written to a key. -/
def value (k : ι) : Write ι α → Option α
  | put k' a => if k = k' then some a else none
  | all g => some (g k)

/-- What is written to a key last. -/
def last (ws : List (Write ι α)) (k : ι) : Option α := (ws.filterMap (value k)).getLast?

variable {ws : List (Write ι α)} {f : ι → α} {k : ι}

@[simp] theorem replay_nil (f : ι → α) : replay [] f = f := rfl

@[simp] theorem replay_cons (w : Write ι α) (ws : List (Write ι α)) (f : ι → α) :
    replay (w :: ws) f = replay ws (w.apply f) := rfl

@[simp] theorem replay_append (ws ws' : List (Write ι α)) (f : ι → α) :
    replay (ws ++ ws') f = replay ws' (replay ws f) := by
  simp [replay]

/-- Writes that change nothing. -/
theorem replay_idle (h : ∀ w ∈ ws, w.apply f = f) : replay ws f = f := by
  induction ws with
  | nil => simp
  | cons w ws ih => simp_all

@[simp] theorem last_nil (k : ι) : last ([] : List (Write ι α)) k = none := rfl

@[simp] theorem last_append (ws ws' : List (Write ι α)) (k : ι) :
    last (ws ++ ws') k = (last ws' k).or (last ws k) := by
  simp [last, List.getLast?_append]

@[simp] theorem last_singleton (w : Write ι α) (k : ι) : last [w] k = w.value k := by
  cases hvalue : w.value k <;> simp [last, hvalue]

theorem apply_eq (w : Write ι α) (f : ι → α) (k : ι) : w.apply f k = (w.value k).getD (f k) := by
  cases w with
  | put k' a =>
      by_cases hk : k = k'
      · subst hk
        simp [apply, value]
      · simp [apply, value, hk]
  | all g => simp [apply, value]

/-- **The last write to a key** is what comes of it. -/
theorem replay_eq (ws : List (Write ι α)) (f : ι → α) (k : ι) :
    replay ws f k = (last ws k).getD (f k) := by
  induction ws using List.reverseRecOn with
  | nil => simp
  | append_singleton ws w ih =>
      cases hvalue : w.value k <;> simp [apply_eq, ih, hvalue]

end Write

end Foundation
end Routn
