import Routn.WorkerGroup.Basic

/-!
# Which sequences of calls keep the permits of a `WorkerGroup`

`Fits free calls`: no callback throws, and each call passes at most as many callbacks as there are
permits for it.  All of them are there before the first `waitAll`, and none is after it.

`permitsKept_iff`: the permits are kept in every reachable state exactly if the calls fit.  The
one half is an invariant; for the other half, the calls are made one by one while every callback
is run to its end in between, up to the first call that does not fit.
-/

namespace Routn
namespace WorkerGroup

open Foundation
open Fibers

def Fits : Nat → List Call → Prop
  | _, [] => True
  | free, call :: calls =>
      call.callbacks.length ≤ free ∧ (∀ cb ∈ call.callbacks, cb = .returns) ∧
        Fits (if call = .waitAll then 0 else free) calls

instance decidableFits : ∀ (free : Nat) (calls : List Call), Decidable (Fits free calls)
  | _, [] => inferInstanceAs (Decidable True)
  | free, call :: calls =>
      have := decidableFits (if call = .waitAll then 0 else free) calls
      inferInstanceAs (Decidable (_ ∧ _ ∧ Fits _ calls))

example : Fits 2 [.schedule .returns, .scheduleAll [.returns, .returns], .waitAll] := by decide

/-- A call of `schedule` that waits for a permit. -/
def Thread.Blocked (th : Thread) : Prop :=
  ∃ kept calls taken cb todo, th = .client (.asleep taken cb todo) kept calls

/-- A call of `waitAll` that has returned. -/
def Thread.Returned (th : Thread) : Prop := ∃ kept calls, th = .client .returned kept calls

/-- The permits of a group of this size add up, no call of `schedule` is blocked when no callback is
queued or running, and `waitAll` has not returned before the last callback was finished. -/
structure PermitsKept (batch_size : Nat) (s : State) : Prop where
  balance : free s + unfinished s + taken s = batch_size
  blocked : ∀ th ∈ s.threads, th.Blocked → 0 < unfinished s
  returned : ∀ th ∈ s.threads, th.Returned → unfinished s = 0

/-! ## Calls that fit -/

/-- The permits that `waitAll` keeps. -/
def spent (batch_size : Nat) (finish : Bool) : Nat := if finish then batch_size else 0

theorem spent_le (batch_size : Nat) (finish : Bool) : spent batch_size finish ≤ batch_size := by
  cases finish with
  | false => exact Nat.zero_le _
  | true => exact Nat.le_refl _

/-- The calls to come fit, and so does the call in progress. -/
def ClientPc.Sound (batch_size : Nat) (finish : Bool) (kept : Nat) (calls : List Call) :
    ClientPc → Prop
  | .idle => kept = spent batch_size finish ∧ Fits (batch_size - kept) calls
  | .taking taken todo =>
      kept = spent batch_size finish ∧ Fits (batch_size - kept) calls ∧
        kept + taken.length + todo.length ≤ batch_size ∧
        (∀ cb ∈ taken, cb = .returns) ∧ ∀ cb ∈ todo, cb = .returns
  | .asleep taken cb todo =>
      kept = spent batch_size finish ∧ Fits (batch_size - kept) calls ∧
        kept + taken.length + (cb :: todo).length ≤ batch_size ∧
        (∀ cb ∈ taken, cb = .returns) ∧ ∀ cb' ∈ cb :: todo, cb' = .returns
  | .draining taken => finish = true ∧ kept = 0 ∧ taken ≤ batch_size ∧ Fits 0 calls
  | .drainAsleep taken => finish = true ∧ kept = 0 ∧ taken < batch_size ∧ Fits 0 calls
  | .returned => finish = true ∧ kept = batch_size ∧ Fits 0 calls

def WorkPc.Sound : WorkPc → Prop
  | .queued cb => cb = .returns
  | .running cb => cb = .returns
  | .threw => False
  | _ => True

def Sound (batch_size : Nat) (finish : Bool) (j : Nat) : Thread → Prop
  | .client pc kept calls => j = 0 ∧ pc.Sound batch_size finish kept calls
  | .doWork pc => 0 < j ∧ pc.Sound

section Calls

variable {batch_size : Nat} {calls : List Call}

/-- `wait` brings `schedule` the next permit. -/
theorem ClientPc.Sound.take {finish : Bool} {kept : Nat} {taken todo : List Exit} {cb : Exit}
    (h : (ClientPc.asleep taken cb todo).Sound batch_size finish kept calls) :
    (ClientPc.taking (taken ++ [cb]) todo).Sound batch_size finish kept calls := by
  obtain ⟨hkept, hfits, hle, htaken, htodo⟩ := h
  refine ⟨hkept, hfits, ?_, fun cb' hcb' => ?_, fun cb' hcb' => htodo cb' (.tail _ hcb')⟩
  · rw [List.length_append, List.length_singleton]
    rw [List.length_cons] at hle
    omega
  · rcases List.mem_append.mp hcb' with hcb' | hcb'
    · exact htaken cb' hcb'
    · rw [List.mem_singleton.mp hcb']
      exact htodo cb List.mem_cons_self

theorem keeps_sound (batch_size : Nat) : (program batch_size).Keeps (Sound batch_size) where
  wait := by
    rintro finish ch j th k blocked acquired hj h
    rcases next_wait h with ⟨_, _, _, _, _, rfl, rfl, rfl⟩ | ⟨_, _, _, hlt, rfl, rfl, rfl⟩
    · exact ⟨hj, hj.1, ClientPc.Sound.take hj.2⟩
    · obtain ⟨hzero, hfinish, hkept, -, hfits⟩ := hj
      exact ⟨⟨hzero, hfinish, hkept, hlt, hfits⟩, hzero, hfinish, hkept, hlt, hfits⟩
  notify := by
    intro finish ch j th k after hj h
    obtain ⟨rfl, rfl⟩ := next_notify h
    exact hj
  tau := by
    intro finish ch j th finish' after spawned hj h
    cases next_tau h with
    | again =>
        obtain ⟨hzero, hkept, -, -, hfits⟩ := hj
        exact ⟨⟨hzero, rfl, hkept, hfits⟩, by simp, fun _ hl => hl⟩
    | drain =>
        obtain ⟨rfl, hkept, -, -, hfits⟩ := hj
        refine ⟨⟨rfl, rfl, hkept, Nat.zero_le _, hfits⟩, by simp, fun {l th'} hne hl => ?_⟩
        -- `m_finish` changes; the others do not read it.
        cases th' with
        | client => exact absurd hl.1 hne
        | doWork => exact hl
    | begin hcall =>
        obtain ⟨hzero, hkept, hlength, hreturns, hfits⟩ := hj
        rw [if_neg hcall] at hfits
        have hle := spent_le batch_size finish
        refine ⟨⟨hzero, hkept, hfits, ?_, by simp, hreturns⟩, by simp, fun _ hl => hl⟩
        rw [List.length_nil]
        omega
    | schedule =>
        obtain ⟨hzero, hkept, hfits, -, htaken, -⟩ := hj
        refine ⟨⟨hzero, hkept, hfits⟩, fun th' hth' l hl => ?_, fun _ hl => hl⟩
        obtain ⟨cb, hcb, rfl⟩ := List.mem_map.mp hth'
        exact ⟨Nat.zero_lt_of_lt hl, htaken cb hcb⟩
    | drained htaken =>
        obtain ⟨hzero, hfinish, rfl, hle, hfits⟩ := hj
        exact ⟨⟨hzero, hfinish, by omega, hfits⟩, by simp, fun _ hl => hl⟩
    | goOn =>
        obtain ⟨hzero, rfl, rfl, hfits⟩ := hj
        exact ⟨⟨hzero, rfl, by rwa [Nat.sub_self]⟩, by simp, fun _ hl => hl⟩
    | start => exact ⟨hj, by simp, fun _ hl => hl⟩
    | cb => exact ⟨⟨hj.1, trivial⟩, by simp, fun _ hl => hl⟩
    | throw => cases hj.2
  wake := by
    intro finish j th k hj h
    replace h : th.waiting = some k := h
    unfold Thread.waiting at h
    split at h
    · exact ⟨hj.1, ClientPc.Sound.take hj.2⟩
    · exact hj
    · cases h

theorem Reachable.sound {s : State} (h : Reachable batch_size calls s)
    (hfits : Fits batch_size calls) : Program.Entries (Sound batch_size) s := by
  refine Reach.invariant (P := fun s => Structured batch_size s ∧
    Program.Entries (Sound batch_size) s) ⟨structured_init batch_size calls, ?_⟩ ?_ h |>.2
  · intro j th hj
    cases j with
    | zero =>
        obtain rfl : Thread.client .idle 0 calls = th := Option.some.inj hj
        exact ⟨rfl, rfl, hfits⟩
    | succ j => simp [init] at hj
  · rintro s s' i - ⟨hs, hsound⟩ - hstep
    have hmoves := (program batch_size).moves_of_run hstep
    exact ⟨hs.step hstep, hmoves.entries hs.wellFormed (keeps_sound batch_size) hsound⟩

/-- Calls that fit keep the permits. -/
theorem permitsKept_of_fits {s : State} (h : Reachable batch_size calls s)
    (hfits : Fits batch_size calls) : PermitsKept batch_size s := by
  have hs := h.structured
  have hsound := h.sound hfits
  have hfree := hs.free_add
  have hlost : lost s = 0 := by
    refine total_eq_zero fun th hth => ?_
    obtain ⟨j, hj⟩ := List.mem_iff_getElem?.mp hth
    have hth := hsound j th hj
    cases th with
    | client => rfl
    | doWork pc =>
        cases pc with
        | threw => cases hth.2
        | _ => rfl
  refine ⟨by omega, ?_, ?_⟩
  · rintro th hth ⟨kept, calls', taken', cb, todo, rfl⟩
    obtain ⟨j, hj⟩ := List.mem_iff_getElem?.mp hth
    obtain ⟨rfl, -, -, hle, -⟩ := hsound j _ hj
    have htaken : taken s = kept + taken'.length := hs.taken_eq hj
    -- The call waits, so no permit is free; it has not taken them all.
    have hzero : free s = 0 := by
      by_contra hne
      have hwaits := hs.wellFormed.free () (Nat.pos_of_ne_zero hne)
      have hmem : 0 ∈ (s.sems ()).waiters := by
        rw [hs.wellFormed.mem_waiters, Program.waitsOn, hj]
        rfl
      rw [hwaits] at hmem
      cases hmem
    rw [List.length_cons] at hle
    omega
  · rintro th hth ⟨kept, calls', rfl⟩
    obtain ⟨j, hj⟩ := List.mem_iff_getElem?.mp hth
    obtain ⟨rfl, -, rfl, -⟩ := hsound j _ hj
    have htaken : taken s = kept := hs.taken_eq hj
    omega

/-! ## Calls that do not fit -/

/-- The sections a callback has before it. -/
def Thread.remaining : Thread → Nat
  | .doWork (.queued _) => 3
  | .doWork (.running _) => 2
  | .doWork .notify => 1
  | _ => 0

variable {all : List Call} {s : State} {th : Thread}

/-- A section of fiber `j`. -/
theorem step_section {j : Nat} {finish : Bool} {after : Thread} {spawned : List Thread}
    (hj : s.threads[j]? = some th)
    (hnext : next batch_size s.shared () th = some (.tau finish after spawned)) :
    step batch_size s j =
      some { s with shared := finish, threads := s.threads.set j after ++ spawned } :=
  (program batch_size).run_of_moves (.tau hj hnext)

/-- A callback goes one section on, and disturbs nobody. -/
theorem work_step (hs : Structured batch_size s) (hclient : s.threads[0]? = some th)
    (hrunning : th.waiting = none) {j : Nat} {th' : Thread} (hj : s.threads[j]? = some th')
    (hne : th'.unfinished ≠ 0) :
    ∃ after s', step batch_size s j = some s' ∧ s'.shared = s.shared ∧
      s'.threads = s.threads.set j after ∧ after.remaining < th'.remaining := by
  cases th' with
  | client => exact absurd rfl hne
  | doWork pc =>
      cases pc with
      | queued cb =>
          exact ⟨.doWork (.running cb), _, step_section hj rfl, rfl, List.append_nil _,
            Nat.lt_succ_self 2⟩
      | running cb =>
          cases cb with
          | returns =>
              exact ⟨.doWork .notify, _, step_section hj rfl, rfl, List.append_nil _, by decide⟩
          | throws =>
              exact ⟨.doWork .threw, _, step_section hj rfl, rfl, List.append_nil _, by decide⟩
      | notify =>
          have hwaiters := hs.waiters_nil hclient hrunning
          exact ⟨.doWork .finished, _, (program batch_size).run_of_moves (.release hj rfl hwaiters),
            rfl, rfl, by decide⟩
      | finished => exact absurd rfl hne
      | threw => exact absurd rfl hne

/-- Every callback can be run to its end while the client does nothing. -/
theorem exists_finished (h : Reachable batch_size all s) (hclient : s.threads[0]? = some th)
    (hrunning : th.waiting = none) :
    ∃ s', Reachable batch_size all s' ∧ s'.threads[0]? = some th ∧ s'.shared = s.shared ∧
      unfinished s' = 0 := by
  -- On the sections that are left.
  induction hn : total Thread.remaining s.threads using Nat.strong_induction_on generalizing s with
  | h n ih =>
      by_cases hzero : unfinished s = 0
      · exact ⟨s, h, hclient, rfl, hzero⟩
      · obtain ⟨j, th', hj, hne⟩ := exists_of_total_ne_zero hzero
        obtain ⟨after, s', hstep, hshared, hthreads, hlt⟩ :=
          work_step h.structured hclient hrunning hj hne
        have hset := total_set (f := Thread.remaining) (b := after) hj
        rw [← hthreads] at hset
        have hclient' : s'.threads[0]? = some th := by
          have hj0 : j ≠ 0 := by
            rintro rfl
            obtain rfl := Option.some.inj (hclient.symm.trans hj)
            have hplaced := h.structured.placed 0 th hj
            cases th with
            | client => exact hne rfl
            | doWork => exact absurd hplaced (Nat.lt_irrefl 0)
          rw [hthreads, List.getElem?_set_ne hj0, hclient]
        obtain ⟨s'', h'', hclient'', hshared'', hzero''⟩ :=
          ih _ (by omega) (h.step hstep) hclient' rfl
        exact ⟨s'', h'', hclient'', hshared''.trans hshared, hzero''⟩

/-- A fiber that goes on, and the fibers it starts. -/
theorem exists_section (h : Reachable batch_size all s) {j : Nat} {finish : Bool} {after : Thread}
    {spawned : List Thread} (hj : s.threads[j]? = some th)
    (hnext : next batch_size s.shared () th = some (.tau finish after spawned)) :
    ∃ s', Reachable batch_size all s' ∧ s'.threads[j]? = some after ∧ s'.shared = finish ∧
      s'.sems = s.sems ∧ s'.threads = s.threads.set j after ++ spawned := by
  obtain ⟨hlt, -⟩ := List.getElem?_eq_some_iff.mp hj
  refine ⟨_, h.step (step_section hj hnext), ?_, rfl, rfl, rfl⟩
  show (s.threads.set j after ++ spawned)[j]? = some after
  rw [List.getElem?_append_left (by simpa using hlt), List.getElem?_set_self hlt]

/-- The client takes a permit that is free. -/
theorem exists_acquire (h : Reachable batch_size all s) {blocked acquired : Thread}
    (hclient : s.threads[0]? = some th)
    (hnext : next batch_size s.shared () th = some (.wait () blocked acquired))
    (hfree : free s ≠ 0) (hsame : acquired.unfinished = th.unfinished) :
    ∃ s', Reachable batch_size all s' ∧ s'.threads[0]? = some acquired ∧ s'.shared = s.shared ∧
      unfinished s' = unfinished s := by
  obtain ⟨hlt, -⟩ := List.getElem?_eq_some_iff.mp hclient
  have hstep : step batch_size s 0 = some _ :=
    (program batch_size).run_of_moves (.acquire hclient hnext (Nat.pos_of_ne_zero hfree))
  have hset := total_set (f := Thread.unfinished) (b := acquired) hclient
  refine ⟨_, h.step hstep, List.getElem?_set_self hlt, rfl, ?_⟩
  show total Thread.unfinished (s.threads.set 0 acquired) = total Thread.unfinished s.threads
  omega

section Kept

variable (hall : ∀ s, Reachable batch_size all s → PermitsKept batch_size s)

include hall

/-- No callback that was handed to the scheduler throws. -/
theorem returns_of_queued (h : Reachable batch_size all s) {cb : Exit}
    (hmem : .doWork (.queued cb) ∈ s.threads) : cb = .returns := by
  cases cb with
  | returns => rfl
  | throws =>
      obtain ⟨j, hj⟩ := List.mem_iff_getElem?.mp hmem
      obtain ⟨s₁, h₁, hj₁, -⟩ := exists_section h hj rfl
      obtain ⟨s₂, h₂, hj₂, -⟩ := exists_section h₁ hj₁ rfl
      have hlost : 1 ≤ lost s₂ := le_total (f := Thread.lost) hj₂
      have hbalance := (hall s₂ h₂).balance
      have hfree := h₂.structured.free_add
      omega

/-- A call of `schedule` gets its permits one by one, or it is blocked for ever. -/
theorem exists_taken {kept : Nat} {calls : List Call} (todo : List Exit) :
    ∀ {s : State} {taken : List Exit}, Reachable batch_size all s →
      s.threads[0]? = some (.client (.taking taken todo) kept calls) → unfinished s = 0 →
      kept + taken.length + todo.length ≤ batch_size ∧
        ∃ s', Reachable batch_size all s' ∧ s'.shared = s.shared ∧
          s'.threads[0]? = some (.client (.taking (taken ++ todo) []) kept calls) := by
  induction todo with
  | nil =>
      intro s taken h hclient hzero
      have hfree := h.structured.free_add
      have htaken : WorkerGroup.taken s = kept + taken.length := h.structured.taken_eq hclient
      refine ⟨?_, s, h, rfl, ?_⟩
      · rw [List.length_nil]
        omega
      · rwa [List.append_nil]
  | cons cb todo ih =>
      intro s taken h hclient hzero
      by_cases hfree : free s = 0
      · -- The call is blocked, and no callback is left that could give a permit back.
        have hstep : step batch_size s 0 = some _ :=
          (program batch_size).run_of_moves (.block hclient rfl hfree)
        have hset := total_set (f := Thread.unfinished)
          (b := .client (.asleep taken cb todo) kept calls) hclient
        obtain ⟨hlt, -⟩ := List.getElem?_eq_some_iff.mp hclient
        have hpos := (hall _ (h.step hstep)).blocked _ (List.mem_set hlt _) ⟨_, _, _, _, _, rfl⟩
        replace hpos : 0 < total Thread.unfinished (s.threads.set 0 _) := hpos
        replace hzero : total Thread.unfinished s.threads = 0 := hzero
        simp only [Thread.unfinished] at hset
        omega
      · obtain ⟨s', h', hclient', hshared', hzero'⟩ := exists_acquire h hclient rfl hfree rfl
        obtain ⟨hle, s'', h'', hshared'', hclient''⟩ := ih h' hclient' (hzero'.trans hzero)
        rw [List.append_assoc, List.singleton_append] at hclient''
        refine ⟨?_, s'', h'', hshared''.trans hshared', hclient''⟩
        rw [List.length_append, List.length_singleton] at hle
        rw [List.length_cons]
        omega

/-- `waitAll` gets its permits one by one when no callback is left. -/
theorem exists_drained {kept : Nat} {calls : List Call} (missing : Nat) :
    ∀ {s : State} {taken : Nat}, Reachable batch_size all s →
      s.threads[0]? = some (.client (.draining taken) kept calls) → unfinished s = 0 →
      kept + taken + missing = batch_size → kept = 0 →
      ∃ s', Reachable batch_size all s' ∧ s'.shared = s.shared ∧
        s'.threads[0]? = some (.client .returned batch_size calls) := by
  induction missing with
  | zero =>
      intro s taken h hclient hzero hsum hkept
      have hnext : next batch_size s.shared () (.client (.draining taken) kept calls) =
          some (.tau s.shared (.client .returned (kept + taken) calls) []) := by
        rw [next, if_neg (by omega)]
      obtain ⟨s', h', hclient', hshared', -⟩ := exists_section h hclient hnext
      rw [show kept + taken = batch_size by omega] at hclient'
      exact ⟨s', h', hshared', hclient'⟩
  | succ missing ih =>
      intro s taken h hclient hzero hsum hkept
      have hbalance := (hall s h).balance
      have htaken : WorkerGroup.taken s = kept + taken := h.structured.taken_eq hclient
      have hnext : next batch_size s.shared () (.client (.draining taken) kept calls) =
          some (.wait () (.client (.drainAsleep taken) kept calls)
            (.client (.draining (taken + 1)) kept calls)) := by
        rw [next, if_pos (by omega)]
      obtain ⟨s', h', hclient', hshared', hzero'⟩ :=
        exists_acquire h hclient hnext (by omega) rfl
      obtain ⟨s'', h'', hshared'', hclient''⟩ :=
        ih h' hclient' (hzero'.trans hzero) (by omega) hkept
      exact ⟨s'', h'', hshared''.trans hshared', hclient''⟩

/-- The calls the client has before it fit. -/
theorem fits_of_permitsKept (calls : List Call) :
    ∀ {s : State} {kept : Nat}, Reachable batch_size all s →
      s.threads[0]? = some (.client .idle kept calls) → kept = spent batch_size s.shared →
      Fits (batch_size - kept) calls := by
  induction calls with
  | nil => intros; trivial
  | cons call calls ih =>
      intro s kept h hclient hkept
      by_cases hcall : call = .waitAll
      · subst hcall
        refine ⟨Nat.zero_le _, by simp [Call.callbacks], ?_⟩
        rw [if_pos rfl]
        -- Either way `waitAll` returns, and all permits are kept.
        have hreturned : ∃ s', Reachable batch_size all s' ∧ s'.shared = true ∧
            s'.threads[0]? = some (.client .returned batch_size calls) := by
          cases hshared : s.shared with
          | true =>
              have hnext : next batch_size s.shared () (.client .idle kept (.waitAll :: calls)) =
                  some (.tau true (.client .returned kept calls) []) := by
                rw [hshared]
                rfl
              obtain ⟨s', h', hclient', hshared', -⟩ := exists_section h hclient hnext
              rw [hkept, hshared] at hclient'
              exact ⟨s', h', hshared', hclient'⟩
          | false =>
              have hnext : next batch_size s.shared () (.client .idle kept (.waitAll :: calls)) =
                  some (.tau true (.client (.draining 0) kept calls) []) := by
                rw [hshared]
                rfl
              have hzero : kept = 0 := by rw [hkept, hshared]; rfl
              obtain ⟨s₁, h₁, hclient₁, hshared₁, -⟩ := exists_section h hclient hnext
              obtain ⟨s₂, h₂, hclient₂, hshared₂, hzero₂⟩ := exists_finished h₁ hclient₁ rfl
              obtain ⟨s₃, h₃, hshared₃, hclient₃⟩ :=
                exists_drained hall batch_size h₂ hclient₂ hzero₂ (by omega) hzero
              exact ⟨s₃, h₃, hshared₃.trans (hshared₂.trans hshared₁), hclient₃⟩
        obtain ⟨s₁, h₁, hshared₁, hclient₁⟩ := hreturned
        obtain ⟨s₂, h₂, hclient₂, hshared₂, -⟩ := exists_section h₁ hclient₁ rfl
        have hrest := ih h₂ hclient₂ (by rw [hshared₂, hshared₁]; rfl)
        rwa [Nat.sub_self] at hrest
      · have hnext : next batch_size s.shared () (.client .idle kept (call :: calls)) =
            some (.tau s.shared (.client (.taking [] call.callbacks) kept calls) []) := by
          cases call with
          | waitAll => exact absurd rfl hcall
          | _ => rfl
        obtain ⟨s₁, h₁, hclient₁, hshared₁, -⟩ := exists_section h hclient hnext
        obtain ⟨s₂, h₂, hclient₂, hshared₂, hzero₂⟩ := exists_finished h₁ hclient₁ rfl
        obtain ⟨hle, s₃, h₃, hshared₃, hclient₃⟩ :=
          exists_taken hall call.callbacks h₂ hclient₂ hzero₂
        obtain ⟨s₄, h₄, hclient₄, hshared₄, -, hthreads₄⟩ := exists_section h₃ hclient₃ rfl
        rw [List.length_nil] at hle
        refine ⟨by omega, fun cb hcb => ?_, ?_⟩
        · have hmem : .doWork (.queued cb) ∈ s₄.threads := by
            rw [hthreads₄]
            exact List.mem_append_right _ (List.mem_map.mpr ⟨cb, hcb, rfl⟩)
          exact returns_of_queued hall h₄ hmem
        · rw [if_neg hcall]
          exact ih h₄ hclient₄ (by rw [hkept, hshared₄, hshared₃, hshared₂, hshared₁])

end Kept

/-- **The permits of a `WorkerGroup` are kept exactly if the calls fit.** -/
theorem permitsKept_iff (batch_size : Nat) (calls : List Call) :
    (∀ s, Reachable batch_size calls s → PermitsKept batch_size s) ↔ Fits batch_size calls := by
  constructor
  · intro hall
    exact fits_of_permitsKept hall calls .init rfl rfl
  · exact fun hfits s h => permitsKept_of_fits h hfits

end Calls

/-- A callback throws while the client asks for the only permit. -/
def throwingCallback : List Nat := [0, 0, 0, 0, 1, 1, 0]

theorem not_permitsKept_throwingCallback :
    ¬ ∀ (batch_size : Nat) (calls : List Call), 1 ≤ batch_size →
      ∀ s, Reachable batch_size calls s → PermitsKept batch_size s := by
  intro hall
  obtain ⟨s, hrun, hbalance⟩ : ∃ s, runActions (step 1) throwingCallback
      (init 1 [.schedule .throws, .schedule .returns]) = some s ∧
        free s + unfinished s + taken s = 0 := ⟨_, rfl, by decide⟩
  have hreach : Reachable 1 [.schedule .throws, .schedule .returns] s :=
    reach_of_runActions throwingCallback hrun (by decide)
  have hkept := hall 1 _ (Nat.le_refl 1) s hreach
  exact absurd (hbalance.symm.trans hkept.balance) (by decide)

end WorkerGroup
end Routn
