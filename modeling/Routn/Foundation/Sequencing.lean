import Mathlib.Tactic

/-!
# Sequencing of fallible stateful calls

Rules that run the first call of a sequence: it returns and the second call starts in the state it
left (`bind_ok`), or it fails and the whole sequence fails with it (`bind_error`); and the converse,
for a sequence that returned (`of_bind_ok`).
-/

namespace Routn
namespace Foundation

variable {ε σ α β : Type}

theorem bind_ok {x : EStateM ε σ α} {f : α → EStateM ε σ β} {s s' : σ} {a : α}
    (hx : x s = .ok a s') : (x >>= f) s = f a s' := by
  simp only [Bind.bind, EStateM.bind, hx]

theorem bind_error {x : EStateM ε σ α} {f : α → EStateM ε σ β} {s s' : σ} {e : ε}
    (hx : x s = .error e s') : (x >>= f) s = .error e s' := by
  simp only [Bind.bind, EStateM.bind, hx]

theorem of_bind_ok {x : EStateM ε σ α} {f : α → EStateM ε σ β} {s s'' : σ} {b : β}
    (h : (x >>= f) s = .ok b s'') : ∃ a s', x s = .ok a s' ∧ f a s' = .ok b s'' := by
  cases hx : x s with
  | ok a s' => exact ⟨a, s', rfl, (bind_ok hx).symm.trans h⟩
  | error e s' =>
      rw [bind_error hx] at h
      cases h

end Foundation
end Routn
