import Routn.Timer.Deadlines
import Routn.Timer.System

/-!
# What holds in every state

`Tracked` does not depend on sums that fit or on a clock that has not been taken for rolled over:
the set is in order, and all the clock values that threads and timers carry around belong to the
past.
-/

namespace Routn

open Foundation

namespace TimerManager

/-- The clock value that a thread has read is in the past. -/
def Point.Past (clock : UInt64) : Point → Prop
  | .adding timer => timer.next - timer.ms ≤ clock
  | .sampled now_ms => now_ms ≤ clock
  | .nonEmpty now_ms => now_ms ≤ clock
  | _ => True

theorem Point.Past.mono {clock clock' : UInt64} {point : Point} (h : point.Past clock)
    (hle : clock ≤ clock') : point.Past clock' := by
  cases point with
  | adding timer => exact UInt64.le_trans h hle
  | sampled now_ms => exact UInt64.le_trans h hle
  | nonEmpty now_ms => exact UInt64.le_trans h hle
  | idle => trivial
  | resetting t ms from_now => trivial
  | inserted t calls => trivial

namespace System

variable {s s' : System} {a : Action}

structure Tracked (s : System) : Prop where
  ordered : s.manager.Ordered
  shared : ∀ t ∈ s.manager.timers, t ∈ s.objects
  started : s.manager.Started s.clock
  past : ∀ point ∈ s.threads, point.Past s.clock

theorem tracked_init (now : UInt64) (threads : Nat) : (init now threads).Tracked where
  ordered := List.Pairwise.nil
  shared _ ht := absurd ht List.not_mem_nil
  started _ ht := absurd ht List.not_mem_nil
  past point hpoint := by
    rw [List.eq_of_mem_replicate hpoint]
    trivial

namespace Tracked

/-- A thread goes on, after the manager has changed. -/
theorem goto (h : s.Tracked) {m : TimerManager} {objects : List Nat} (hordered : m.Ordered)
    (hshared : ∀ t ∈ m.timers, t ∈ objects) (hstarted : m.Started s.clock) {handed : List Handed}
    {notified : Bool} {thread : Nat} {after : Point} (hafter : after.Past s.clock) :
    Tracked { s with
      manager := m
      objects := objects
      handed := handed
      notified := notified
      threads := s.threads.set thread after } where
  ordered := hordered
  shared := hshared
  started := hstarted
  past point hpoint := by
    rcases List.mem_or_eq_of_mem_set hpoint with hpoint | rfl
    · exact h.past point hpoint
    · exact hafter

theorem manager (h : s.Tracked) {m : TimerManager} (hordered : m.Ordered)
    (hmem : ∀ t ∈ m.timers, t ∈ s.manager.timers) (hstarted : m.Started s.clock) :
    Tracked { s with manager := m } where
  ordered := hordered
  shared t ht := h.shared t (hmem t ht)
  started := hstarted
  past := h.past

theorem unlock_past (s : System) (t : Nat) (at_front : Bool) :
    Point.Past s.clock (if at_front then .inserted t s.calls else .idle) := by
  cases at_front <;> trivial

theorem moves (h : s.Tracked) (hmoves : s.Moves a s') : s'.Tracked := by
  cases hmoves with
  | tick hle =>
      exact ⟨h.ordered, h.shared, fun t ht => UInt64.le_trans (h.started t ht) hle,
        fun point hpoint => (h.past point hpoint).mono hle⟩
  | @goto _ thread before after hbefore hquiet hafter =>
      refine h.goto h.ordered h.shared h.started ?_
      rcases hafter with rfl | ⟨t, ms, from_now, rfl⟩ | ⟨ms, cb, recurring, rfl⟩ | rfl |
        ⟨now_ms, rfl, rfl⟩
      · trivial
      · trivial
      · show s.clock + ms - ms ≤ s.clock
        rw [UInt64.add_sub_cancel]
        exact UInt64.le_refl _
      · exact UInt64.le_refl _
      · exact h.past (.sampled now_ms) (List.mem_of_getElem? hbefore)
  | stay => exact h
  | refresh =>
      exact h.manager (h.ordered.refresh _ _) (fun _ ht => mem_of_mem_refresh ht)
        (refresh_started h.started)
  | cancel hanswer =>
      obtain ⟨hlater, hkeep⟩ := cancel_spec hanswer
      refine h.manager (h.ordered.cancel hanswer) hlater.mem fun t ht => ?_
      rw [(hkeep t).1, (hkeep t).2]
      exact h.started t (hlater.mem t ht)
  | getNextTimer =>
      rw [getNextTimer_manager]
      exact ⟨h.ordered, h.shared, h.started, h.past⟩
  | @publish thread address timer hbefore hnew =>
      have hout : address ∉ s.manager.timers := fun hin => hnew (h.shared address hin)
      have hpast : timer.next - timer.ms ≤ s.clock := h.past _ (List.mem_of_getElem? hbefore)
      have hadds := publish_adds s.manager address hpast
      refine h.goto ((h.ordered.setTimer fun hin => absurd hin hout).addTimer address)
        (fun t ht => ?_) (hadds.started h.started) (unlock_past s address _)
      rcases hadds.mem t ht with rfl | ht
      · exact List.mem_cons_self
      · exact List.mem_cons_of_mem address (h.shared t ht)
  | @reset thread address t ms from_now hbefore =>
      refine h.goto (h.ordered.reset ..) ?_ ?_ (unlock_past s t _)
      all_goals
        rcases reset_cases h.started t ms from_now with heq | ⟨at_front, m', heq, hfound, hadds⟩
      · rw [heq]
        exact h.shared
      · rw [heq]
        intro u hu
        rcases hadds.mem u hu with rfl | hu
        · exact h.shared u hfound
        · exact h.shared u hu
      · rw [heq]
        exact h.started
      · rw [heq]
        exact hadds.started h.started
  | notify => exact h.goto h.ordered h.shared h.started trivial
  | @listExpired thread address now_ms hbefore =>
      have hnow : now_ms ≤ s.clock := h.past _ (List.mem_of_getElem? hbefore)
      exact h.goto (h.ordered.listExpiredCb ..)
        (fun t ht => h.shared t (mem_of_mem_listExpiredCb ht))
        (listExpiredCb_started h.started hnow address) trivial

end Tracked

theorem tracked_of_step (h : s.Tracked) (hstep : s.step a = some s') : s'.Tracked :=
  h.moves (moves_of_step hstep)

end System
end TimerManager
end Routn
