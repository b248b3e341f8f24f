import Routn.Timer.Invariant

/-!
# A wake-up is not lost

The caller of `getNextTimer` sleeps until the deadline that it was told.  A timer that is due before
that must end the sleep through `onTimerInsertedAtFront`.  `_tickled` says that somebody has taken
care of it; `Noticed` is the invariant about the flag.

`addTimer(val, lock)` looks at the front and at the flag.  `refresh` and the loop of `listExpiredCb`
put a timer back without doing so, which is right as long as the new deadline is not before the old
one.  A sum that wraps around breaks it.
-/

namespace Routn

open Foundation

namespace TimerManager
namespace System

variable {s s' : System} {a : Action}

/-- A deadline is before the one that `getNextTimer` has reported; any is when it has reported that
there is no timer. -/
def Earlier (next : UInt64) : Option UInt64 → Prop
  | none => True
  | some deadline => next < deadline

instance (next : UInt64) : ∀ reported, Decidable (Earlier next reported)
  | none => inferInstanceAs (Decidable True)
  | some deadline => inferInstanceAs (Decidable (next < deadline))

/-- If a timer is due before the deadline that the last `getNextTimer` has reported,
`onTimerInsertedAtFront` has been called since, or a thread which has inserted a timer since is
going to call it. -/
def WakeUpKept (s : System) : Prop :=
  0 < s.calls → ∀ t ∈ s.manager.timers, Earlier (s.manager.timer t).next s.reported →
    s.notified = true ∨ ∃ t', Point.inserted t' s.calls ∈ s.threads

/-- The clock value with which the thread is about to cut the expired timers off. -/
def listing (s : System) (thread : Nat) : Option UInt64 :=
  match s.threads[thread]? with
  | some (.nonEmpty now_ms) => some now_ms
  | _ => none

/-- `listExpiredCb` does not take the clock for rolled over. -/
def NoRollover (s : System) : Action → Prop
  | .resume thread _ =>
      ∀ now_ms ∈ s.listing thread, s.manager.timers = [] ∨ s.manager.rollover now_ms = false
  | _ => True

/-- The sums by which `refresh` and the loop of `listExpiredCb` move a deadline fit into a
`uint64_t`. -/
def SumsFit (s : System) : Action → Prop
  | .call _ (.refresh t) => s.clock.toNat + (s.manager.timer t).ms.toNat < 2 ^ 64
  | .resume thread _ => ∀ now_ms ∈ s.listing thread, s.manager.SumsFit now_ms
  | _ => True

instance (s : System) : ∀ a, Decidable (s.NoRollover a)
  | .resume thread _ => Option.decidableForallMem (s.listing thread)
  | .tick _ => inferInstanceAs (Decidable True)
  | .call _ _ => inferInstanceAs (Decidable True)

instance (s : System) : ∀ a, Decidable (s.SumsFit a)
  | .call _ (.refresh _) => inferInstanceAs (Decidable (_ < _))
  | .resume thread _ => Option.decidableForallMem (s.listing thread)
  | .tick _ => inferInstanceAs (Decidable True)
  | .call _ (.addTimer ..) => inferInstanceAs (Decidable True)
  | .call _ (.cancel _) => inferInstanceAs (Decidable True)
  | .call _ (.reset ..) => inferInstanceAs (Decidable True)
  | .call _ .listExpiredCb => inferInstanceAs (Decidable True)
  | .call _ .getNextTimer => inferInstanceAs (Decidable True)

structure Noticed (s : System) : Prop where
  early : 0 < s.calls → ∀ t ∈ s.manager.timers, Earlier (s.manager.timer t).next s.reported →
    s.manager.tickled = true
  pending : s.manager.tickled = true →
    s.notified = true ∨ ∃ t, Point.inserted t s.calls ∈ s.threads

theorem Earlier.mono {next next' : UInt64} {reported : Option UInt64} (h : Earlier next' reported)
    (hle : next ≤ next') : Earlier next reported := by
  cases reported with
  | none => trivial
  | some deadline => exact UInt64.lt_of_le_of_lt hle h

/-- An entry of the table is still there after another one has been replaced. -/
theorem mem_set_of_ne {threads : List Point} {thread : Nat} {before point : Point}
    (hbefore : threads[thread]? = some before) (hne : before ≠ point) (hpoint : point ∈ threads)
    (after : Point) : point ∈ threads.set thread after := by
  obtain ⟨i, hi⟩ := List.mem_iff_getElem?.mp hpoint
  refine List.mem_iff_getElem?.mpr ⟨i, ?_⟩
  rw [List.getElem?_set_ne, hi]
  rintro rfl
  exact hne (Option.some.inj (hbefore.symm.trans hi))

namespace Noticed

/-- A thread that is not about to call `onTimerInsertedAtFront` goes on. -/
theorem goto (h : s.Noticed) {thread : Nat} {before : Point}
    (hbefore : s.threads[thread]? = some before) (hquiet : ∀ t calls, before ≠ .inserted t calls)
    (after : Point) : (s.goto thread after).Noticed where
  early := h.early
  pending htickled := by
    rcases h.pending htickled with hnotified | ⟨t, ht⟩
    · exact .inl hnotified
    · exact .inr ⟨t, mem_set_of_ne hbefore (hquiet t s.calls) ht after⟩

/-- Timers have left the set or are due later. -/
theorem later (h : s.Noticed) {m : TimerManager} (hlater : s.manager.Later m)
    (handed : List Handed) : Noticed { s with manager := m, handed := handed } where
  early hcalls t ht hearly := by
    show m.tickled = true
    rw [hlater.tickled]
    exact h.early hcalls t (hlater.mem t ht) (hearly.mono (hlater.next_le t ht))
  pending htickled := h.pending (hlater.tickled.symm.trans htickled)

/-- A timer has come in through `addTimer(val, lock)`. -/
theorem adds (h : s.Noticed) {m : TimerManager} {val thread : Nat} {at_front : Bool}
    {before : Point} (hadds : Adds s.clock val at_front s.manager m)
    (hbefore : s.threads[thread]? = some before) (hquiet : ∀ t calls, before ≠ .inserted t calls)
    (objects : List Nat) :
    ({ s with manager := m, objects := objects }.unlock thread val at_front).Noticed where
  early hcalls t ht hearly := by
    show m.tickled = true
    have hold : ∀ u ∈ s.manager.timers, Earlier (s.manager.timer u).next s.reported →
        m.tickled = true := by
      intro u hu hearly'
      rw [hadds.tickled, h.early hcalls u hu hearly', Bool.or_true]
    by_cases heq : t = val
    · -- Either the flag is set now, or another timer was due before and somebody has noticed it.
      subst heq
      rcases hadds.front with hflag | ⟨first, hfirst, -, hle⟩
      · exact hflag
      · exact hold first hfirst (hearly.mono hle)
    · refine hold t ((hadds.mem t ht).resolve_left heq) ?_
      rw [← hadds.same t heq]
      exact hearly
  pending htickled := by
    cases at_front with
    | true =>
        obtain ⟨hlt, -⟩ := List.getElem?_eq_some_iff.mp hbefore
        exact .inr ⟨val, List.mem_set hlt _⟩
    | false =>
        have hold : s.manager.tickled = true := hadds.tickled.symm.trans htickled
        rcases h.pending hold with hnotified | ⟨t, ht⟩
        · exact .inl hnotified
        · exact .inr ⟨t, mem_set_of_ne hbefore (hquiet t s.calls) ht _⟩

theorem init (now : UInt64) (threads : Nat) : (System.init now threads).Noticed where
  early hcalls := absurd hcalls (Nat.lt_irrefl 0)
  pending htickled := absurd htickled Bool.false_ne_true

theorem step (hs : s.Tracked) (h : s.Noticed) (hroll : s.NoRollover a) (hsums : s.SumsFit a)
    (hstep : s.step a = some s') : s'.Noticed := by
  cases moves_of_step hstep with
  | tick => exact ⟨h.early, h.pending⟩
  | goto hbefore hquiet => exact h.goto hbefore hquiet _
  | stay => exact h
  | refresh => exact h.later (refresh_later hs.started hsums) s.handed
  | cancel hanswer => exact h.later (cancel_spec hanswer).1 s.handed
  | getNextTimer =>
      rw [getNextTimer_manager]
      refine ⟨fun _ t ht hearly => ?_, fun htickled => absurd htickled Bool.false_ne_true⟩
      -- The deadline reported is that of the first timer.
      cases htimers : s.manager.timers with
      | nil =>
          replace ht : t ∈ s.manager.timers := ht
          rw [htimers] at ht
          cases ht
      | cons first rest =>
          have hhead := hs.ordered.head_le htimers ht
          replace hearly : Earlier (s.manager.timer t).next
              (s.manager.timers.head?.map fun next => (s.manager.timer next).next) := hearly
          rw [htimers] at hearly
          exact absurd hearly (UInt64.not_lt.mpr hhead)
  | @publish thread address timer hbefore hnew =>
      have hpast : timer.next - timer.ms ≤ s.clock := hs.past _ (List.mem_of_getElem? hbefore)
      exact h.adds (publish_adds s.manager address hpast) hbefore (by simp) (address :: s.objects)
  | @reset thread address t ms from_now hbefore =>
      rcases reset_cases hs.started t ms from_now with heq | ⟨at_front, m', heq, -, hadds⟩
      · rw [heq]
        exact h.goto hbefore (by simp) .idle
      · rw [heq]
        exact h.adds hadds hbefore (by simp) s.objects
  | notify => exact ⟨h.early, fun _ => .inl rfl⟩
  | @listExpired thread address now_ms hbefore =>
      have hlisting : s.listing thread = some now_ms := by rw [listing, hbefore]
      replace hroll := hroll now_ms hlisting
      replace hsums := hsums now_ms hlisting
      have hlater : s.manager.Later (s.manager.listExpiredCb now_ms address).2.2 := by
        rcases hroll with hempty | hroll
        · rw [TimerManager.listExpiredCb, hempty]
          exact .refl _
        · exact listExpiredCb_later hroll hsums address
      exact (h.later hlater _).goto hbefore (by simp) .idle

end Noticed

/-- **A wake-up is not lost** in a run in which the clock is never taken for rolled over and no sum
wraps around. -/
theorem wakeUpKept_of_runMeets (now : UInt64) (threads : Nat) (actions : List Action) {s : System}
    (hrun : runActions step actions (init now threads) = some s)
    (hmeets : runMeets step (fun s a => s.NoRollover a ∧ s.SumsFit a) actions (init now threads)) :
    s.WakeUpKept := by
  have hreach := reach_of_runActions actions hrun hmeets
  have hinv : s.Tracked ∧ s.Noticed := by
    refine hreach.invariant (P := fun s => s.Tracked ∧ s.Noticed)
      ⟨tracked_init now threads, .init now threads⟩ ?_
    rintro s s' a - ⟨htracked, hnoticed⟩ ⟨hroll, hsums⟩ hstep
    exact ⟨tracked_of_step htracked hstep, hnoticed.step htracked hroll hsums hstep⟩
  exact fun hcalls t ht hearly => hinv.2.pending (hinv.2.early hcalls t ht hearly)

/-- Two timers are added; the second is due first, and its thread has not yet called
`onTimerInsertedAtFront`. -/
def shorterTimer : List Action :=
  [.call 0 (.addTimer 100 (some 0) false), .resume 0 4096, .resume 0 0, .call 1 .getNextTimer,
    .call 0 (.addTimer 50 (some 1) false), .resume 0 8192]

theorem wakeUpKept_shorterTimer : ∃ s, runActions step shorterTimer (init 0 2) = some s ∧
    s.manager.timers = [8192, 4096] ∧ s.notified = false ∧ s.WakeUpKept :=
  ⟨_, rfl, by decide, by decide, wakeUpKept_of_runMeets 0 2 shorterTimer rfl (by decide)⟩

/-- A timer for the longest period is refreshed after 5 ms: its deadline wraps around to 4. -/
def wrappedRefresh : List Action :=
  [.call 0 (.addTimer 18446744073709551615 (some 0) false), .resume 0 4096, .resume 0 0,
    .call 0 .getNextTimer, .tick 5, .call 0 (.refresh 4096)]

theorem not_wakeUpKept_wrappedRefresh :
    ¬ ∀ (now : UInt64) (threads : Nat) (actions : List Action) (s : System),
      runActions step actions (init now threads) = some s →
      runMeets step NoRollover actions (init now threads) → s.WakeUpKept := by
  intro hall
  obtain ⟨s, hrun, hcalls, htimers, hearly, hnotified, hthreads⟩ :
      ∃ s, runActions step wrappedRefresh (init 0 1) = some s ∧ 0 < s.calls ∧
        4096 ∈ s.manager.timers ∧ Earlier (s.manager.timer 4096).next s.reported ∧
        s.notified = false ∧ s.threads = [.idle] :=
    ⟨_, rfl, by decide, by decide, by decide, by decide, by decide⟩
  rcases hall 0 1 wrappedRefresh s hrun (by decide) hcalls 4096 htimers hearly with hyes | ⟨t, ht⟩
  · rw [hnotified] at hyes
    cases hyes
  · rw [hthreads] at ht
    simp at ht

end System
end TimerManager
end Routn
