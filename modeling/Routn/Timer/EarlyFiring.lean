import Routn.Timer.WakeUp

/-!
# No early firing

A callback is handed out early when the clock, at the moment when `listExpiredCb` takes the timer
out, has not reached its deadline.  Without rollover only timers that are due at the clock value
which `listExpiredCb` has read are taken out, and that value belongs to the past.  With rollover all
of them are.

`rollover_iff` shows what the test of `detectClockRollover` asks for.  The values it compares were
read before the lock, so they may come in any order; and in the first hour of the clock every step
back passes the test, because the difference wraps around.
-/

namespace Routn

open Foundation

namespace TimerManager

/-- The test of `detectClockRollover` without unsigned arithmetic. -/
theorem rollover_iff (m : TimerManager) (now_ms : UInt64) :
    m.rollover now_ms = true ↔ now_ms < m.previousTime ∧
      (m.previousTime.toNat < 3600000 ∨ now_ms.toNat + 3600000 < m.previousTime.toNat) := by
  have hhour : (60 * 60 * 1000 : UInt64).toNat = 3600000 := rfl
  have hnow := now_ms.toNat_lt
  have hprevious := m.previousTime.toNat_lt
  simp only [rollover, Bool.and_eq_true, decide_eq_true_eq, UInt64.lt_iff_toNat_lt,
    UInt64.toNat_sub, hhour]
  omega

namespace System

variable {s s' : System} {a : Action} {thread address : Nat} {now_ms : UInt64}

/-- Every callback handed out so far belonged to a timer that was due. -/
def NotEarly (s : System) : Prop := ∀ h ∈ s.handed, h.deadline ≤ h.clock

/-- When `listExpiredCb` takes the clock for rolled over, all timers are due. -/
def RolloverHarmless (s : System) : Action → Prop
  | .resume thread _ => ∀ now_ms ∈ s.listing thread,
      s.manager.rollover now_ms = false ∨ ∀ t ∈ s.manager.timers, (s.manager.timer t).next ≤ s.clock
  | _ => True

instance (s : System) : ∀ a, Decidable (s.RolloverHarmless a)
  | .resume thread _ => Option.decidableForallMem (s.listing thread)
  | .tick _ => inferInstanceAs (Decidable True)
  | .call _ _ => inferInstanceAs (Decidable True)

theorem getElem?_of_listing (h : s.listing thread = some now_ms) :
    s.threads[thread]? = some (.nonEmpty now_ms) := by
  rw [listing] at h
  split at h
  · next heq => rw [heq, Option.some.inj h]
  · cases h

/-- Only the write-locked section of `listExpiredCb` hands callbacks out. -/
theorem handed_of_moves (h : s.Moves a s')
    (hquiet : ∀ thread address, a = .resume thread address → s.listing thread = none) :
    s'.handed = s.handed := by
  cases h with
  | listExpired hbefore =>
      have hnone := hquiet _ _ rfl
      rw [listing, hbefore] at hnone
      cases hnone
  | _ => rfl

theorem handed_of_listing (hlisting : s.listing thread = some now_ms)
    (hstep : s.step (.resume thread address) = some s') :
    s'.handed = s.handed ++ (s.manager.listExpiredCb now_ms address).1.map fun t =>
      Handed.mk t (s.manager.timer t).next s.clock := by
  simp only [step, getElem?_of_listing hlisting, Option.bind_some] at hstep
  obtain rfl := Option.some.inj hstep
  rfl

/-- The timers that are taken out are due, unless a rollover takes out one that is not. -/
theorem due_iff (hnow : now_ms ≤ s.clock) (address : Nat) :
    (∀ t ∈ (s.manager.listExpiredCb now_ms address).1, (s.manager.timer t).next ≤ s.clock) ↔
      s.manager.rollover now_ms = false ∨
        ∀ t ∈ s.manager.timers, (s.manager.timer t).next ≤ s.clock := by
  rcases s.manager.listExpiredCb_cases now_ms address with
    ⟨hnone, previous, heq⟩ | ⟨expired, rest, heq, hsplit, hcut⟩
  · refine iff_of_true (by simp [heq]) ?_
    rcases hnone with hempty | hroll
    · exact .inr (by simp [hempty])
    · exact .inl hroll
  · rw [heq]
    rcases hcut with ⟨hroll, hrest⟩ | ⟨hroll, hdue⟩
    · rw [hrest, List.append_nil] at hsplit
      simp [hroll, hsplit]
    · exact iff_of_true (fun t ht => UInt64.le_trans (hdue t ht) hnow) (.inl hroll)

theorem notEarly_step (hs : s.Tracked) (h : s.NotEarly) (hstep : s.step a = some s') :
    s'.NotEarly ↔ s.RolloverHarmless a := by
  by_cases hquiet : ∀ thread address, a = .resume thread address → s.listing thread = none
  · rw [NotEarly, handed_of_moves (moves_of_step hstep) hquiet]
    refine iff_of_true h ?_
    cases a with
    | resume thread address =>
        intro now_ms hlisting
        rw [hquiet thread address rfl] at hlisting
        cases hlisting
    | tick => trivial
    | call => trivial
  · push Not at hquiet
    obtain ⟨thread, address, rfl, hlisting⟩ := hquiet
    obtain ⟨now_ms, hlisting⟩ := Option.ne_none_iff_exists'.mp hlisting
    have hnow : now_ms ≤ s.clock :=
      hs.past _ (List.mem_of_getElem? (getElem?_of_listing hlisting))
    have hharmless : s.RolloverHarmless (.resume thread address) ↔
        s.manager.rollover now_ms = false ∨
          ∀ t ∈ s.manager.timers, (s.manager.timer t).next ≤ s.clock := by
      simp [RolloverHarmless, hlisting]
    rw [hharmless, ← due_iff hnow address, NotEarly, handed_of_listing hlisting hstep]
    simp only [List.mem_append, List.mem_map]
    constructor
    · exact fun hall t ht => hall _ (.inr ⟨t, ht, rfl⟩)
    · rintro hdue handed (hold | ⟨t, ht, rfl⟩)
      · exact h handed hold
      · exact hdue t ht

/-- Callbacks that were handed out stay handed out. -/
theorem notEarly_of_step (h : s.step a = some s') (hs' : s'.NotEarly) : s.NotEarly := by
  intro handed hhanded
  refine hs' handed ?_
  cases moves_of_step h with
  | listExpired => exact List.mem_append_left _ hhanded
  | _ => exact hhanded

/-- **No early firing** happens in a run exactly if no rollover is detected while a timer is not
due. -/
theorem notEarly_iff_runMeets (now : UInt64) (threads : Nat) (actions : List Action) {s : System}
    (hrun : runActions step actions (init now threads) = some s) :
    s.NotEarly ↔ runMeets step RolloverHarmless actions (init now threads) :=
  runMeets_iff (fun hs hstep => tracked_of_step hs hstep)
    (fun _ hstep hs' => notEarly_of_step hstep hs')
    (fun hs h hstep => notEarly_step hs h hstep) actions (tracked_init now threads)
    (fun _ hhanded => absurd hhanded List.not_mem_nil) hrun

/-- A recurring timer fires when it is due. -/
def dueTimer : List Action :=
  [.call 0 (.addTimer 10 (some 0) true), .resume 0 4096, .resume 0 0, .tick 1010,
    .call 0 .listExpiredCb, .resume 0 0, .resume 0 8192]

theorem notEarly_dueTimer : ∃ s, runActions step dueTimer (init 1000 1) = some s ∧
    s.handed = [⟨4096, 1010, 1010⟩] ∧ s.NotEarly :=
  ⟨_, rfl, by decide, (notEarly_iff_runMeets 1000 1 dueTimer rfl).mpr (by decide)⟩

/-- One second after boot, thread 0 reads the clock in `listExpiredCb`.  Thread 1 reads it a second
later and takes the lock first.  The value of thread 0 is then before `_previousTime`. -/
def swappedSamples : List Action :=
  [.call 0 (.addTimer 50000 (some 0) false), .resume 0 4096, .resume 0 0, .call 0 .listExpiredCb,
    .tick 2000, .call 1 .listExpiredCb, .resume 1 0, .resume 1 8192, .resume 0 0, .resume 0 8192]

theorem not_notEarly_swappedSamples :
    ¬ ∀ (now : UInt64) (threads : Nat) (actions : List Action) (s : System),
      runActions step actions (init now threads) = some s → s.NotEarly := by
  intro hall
  obtain ⟨s, hrun, hhanded⟩ : ∃ s, runActions step swappedSamples (init 1000 2) = some s ∧
      s.handed = [⟨4096, 51000, 2000⟩] := ⟨_, rfl, by decide⟩
  have hearly := hall 1000 2 swappedSamples s hrun ⟨4096, 51000, 2000⟩ (by simp [hhanded])
  exact absurd hearly (by decide)

end System
end TimerManager
end Routn
