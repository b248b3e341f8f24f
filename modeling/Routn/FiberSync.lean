import Mathlib.Data.List.Infix
import Mathlib.Logic.Function.Basic
import Routn.Foundation.Table

/-!
# `FiberSemaphore`, and fibers that wait on semaphores

`notify` hands a permit over: when a fiber waits, the counter stays as it is and the first waiter is
scheduled.  A scheduled waiter therefore owns a permit before it runs again.

`Program` is the code of fibers that share some data and some semaphores.  The code says what a
fiber does next; `run` lets one fiber do it, each semaphore operation and each other section in one
step.  Two facts are proved for all programs: the waiter lists hold exactly the blocked fibers, and
the permits that are counted and the permits that are held add up to the same number for ever.
-/

namespace Routn

open Foundation

/-- The waiters are `m_waiters`, first to last; a fiber is its index in the thread table. -/
structure FiberSemaphore where
  concurrency : Nat
  waiters : List Nat
deriving DecidableEq, Repr

namespace FiberSemaphore

def new (initial_concurrency : Nat) : FiberSemaphore := ⟨initial_concurrency, []⟩

/-- `tryWait`. -/
def tryWait (sem : FiberSemaphore) : Bool × FiberSemaphore :=
  if 0 < sem.concurrency then (true, { sem with concurrency := sem.concurrency - 1 })
  else (false, sem)

/-- `wait`.  `false`: the fiber is in the list and has called `YieldToHold`. -/
def wait (fiber : Nat) (sem : FiberSemaphore) : Bool × FiberSemaphore :=
  if 0 < sem.concurrency then (true, { sem with concurrency := sem.concurrency - 1 })
  else (false, { sem with waiters := sem.waiters ++ [fiber] })

/-- `notify`.  The fiber that is handed to its scheduler, when there is one. -/
def notify (sem : FiberSemaphore) : Option Nat × FiberSemaphore :=
  match sem.waiters with
  | next :: rest => (some next, { sem with waiters := rest })
  | [] => (none, { sem with concurrency := sem.concurrency + 1 })

/-- `notifyAll`.  The fibers that are handed to their schedulers, first to last. -/
def notifyAll (sem : FiberSemaphore) : List Nat × FiberSemaphore :=
  (sem.waiters, { sem with waiters := [] })

end FiberSemaphore

namespace Fibers

/-- What a fiber does next: an operation on a semaphore, or a section that touches none. -/
inductive Stmt (κ σ τ : Type)
  /-- The fiber is `blocked` or `acquired` after it. -/
  | wait (sem : κ) (blocked acquired : τ)
  | notify (sem : κ) (after : τ)
  /-- Change the shared data and start fibers. -/
  | tau (shared : σ) (after : τ) (spawned : List τ)

/-- The code of the fibers.  `κ` names the semaphores, `γ` is what the environment decides. -/
structure Program (κ σ γ τ : Type) where
  next : σ → γ → τ → Option (Stmt κ σ τ)
  /-- The semaphore a fiber is blocked on. -/
  waiting : τ → Option κ
  /-- A blocked fiber that has been scheduled. -/
  wake : τ → τ
  next_of_waiting : ∀ {sh ch th sem}, waiting th = some sem → next sh ch th = none
  next_wait : ∀ {sh ch th sem blocked acquired},
    next sh ch th = some (.wait sem blocked acquired) →
      waiting blocked = some sem ∧ waiting acquired = none
  next_notify : ∀ {sh ch th sem after}, next sh ch th = some (.notify sem after) →
    waiting after = none
  next_tau : ∀ {sh ch th sh' after spawned}, next sh ch th = some (.tau sh' after spawned) →
    waiting after = none ∧ ∀ th' ∈ spawned, waiting th' = none
  waiting_wake : ∀ th, waiting (wake th) = none

structure State (κ σ τ : Type) where
  sems : κ → FiberSemaphore
  shared : σ
  threads : List τ

variable {κ σ γ τ : Type} [DecidableEq κ]

namespace Program

variable (p : Program κ σ γ τ)

/-- Schedule the fiber that `notify` took out of the waiter list. -/
def wakeAt (threads : List τ) : Option Nat → List τ
  | some fiber => threads.modify fiber p.wake
  | none => threads

/-- One step of fiber `i`. -/
def run (s : State κ σ τ) (i : Nat) (ch : γ) : Option (State κ σ τ) := do
  let th ← s.threads[i]?
  match ← p.next s.shared ch th with
  | .wait sem blocked acquired =>
      let (acquires, sem') := (s.sems sem).wait i
      return { s with
        sems := Function.update s.sems sem sem'
        threads := s.threads.set i (if acquires then acquired else blocked) }
  | .notify sem after =>
      let (woken, sem') := (s.sems sem).notify
      return { s with
        sems := Function.update s.sems sem sem'
        threads := p.wakeAt (s.threads.set i after) woken }
  | .tau shared after spawned =>
      return { s with shared := shared, threads := s.threads.set i after ++ spawned }

/-- The ways in which a step of a fiber can go. -/
inductive Moves (s : State κ σ τ) (i : Nat) (ch : γ) : State κ σ τ → Prop
  | acquire {th : τ} {sem : κ} {blocked acquired : τ} (hi : s.threads[i]? = some th)
      (hnext : p.next s.shared ch th = some (.wait sem blocked acquired))
      (hfree : 0 < (s.sems sem).concurrency) :
      Moves s i ch { s with
        sems := Function.update s.sems sem ⟨(s.sems sem).concurrency - 1, (s.sems sem).waiters⟩
        threads := s.threads.set i acquired }
  | block {th : τ} {sem : κ} {blocked acquired : τ} (hi : s.threads[i]? = some th)
      (hnext : p.next s.shared ch th = some (.wait sem blocked acquired))
      (hfree : (s.sems sem).concurrency = 0) :
      Moves s i ch { s with
        sems := Function.update s.sems sem
          ⟨(s.sems sem).concurrency, (s.sems sem).waiters ++ [i]⟩
        threads := s.threads.set i blocked }
  | handOver {th : τ} {sem : κ} {after : τ} {j : Nat} {rest : List Nat}
      (hi : s.threads[i]? = some th) (hnext : p.next s.shared ch th = some (.notify sem after))
      (hwaiters : (s.sems sem).waiters = j :: rest) :
      Moves s i ch { s with
        sems := Function.update s.sems sem ⟨(s.sems sem).concurrency, rest⟩
        threads := (s.threads.set i after).modify j p.wake }
  | release {th : τ} {sem : κ} {after : τ} (hi : s.threads[i]? = some th)
      (hnext : p.next s.shared ch th = some (.notify sem after))
      (hwaiters : (s.sems sem).waiters = []) :
      Moves s i ch { s with
        sems := Function.update s.sems sem ⟨(s.sems sem).concurrency + 1, []⟩
        threads := s.threads.set i after }
  | tau {th : τ} {shared : σ} {after : τ} {spawned : List τ} (hi : s.threads[i]? = some th)
      (hnext : p.next s.shared ch th = some (.tau shared after spawned)) :
      Moves s i ch { s with shared := shared, threads := s.threads.set i after ++ spawned }

/-- Every step of a fiber is one of these. -/
theorem moves_of_run {s s' : State κ σ τ} {i : Nat} {ch : γ} (h : p.run s i ch = some s') :
    p.Moves s i ch s' := by
  simp only [run, Option.bind_eq_bind, Option.bind_eq_some_iff] at h
  obtain ⟨th, hi, stmt, hnext, h⟩ := h
  cases stmt with
  | wait sem blocked acquired =>
      by_cases hfree : 0 < (s.sems sem).concurrency
      · obtain rfl := by simpa [FiberSemaphore.wait, hfree] using h
        exact .acquire hi hnext hfree
      · obtain rfl := by simpa [FiberSemaphore.wait, hfree] using h
        exact .block hi hnext (Nat.eq_zero_of_not_pos hfree)
  | notify sem after =>
      cases hwaiters : (s.sems sem).waiters with
      | nil =>
          obtain rfl := by simpa [FiberSemaphore.notify, hwaiters, wakeAt] using h
          exact .release hi hnext hwaiters
      | cons j rest =>
          obtain rfl := by simpa [FiberSemaphore.notify, hwaiters, wakeAt] using h
          exact .handOver hi hnext hwaiters
  | tau shared after spawned =>
      obtain rfl := by simpa using h
      exact .tau hi hnext

/-- Every way to go is a step. -/
theorem run_of_moves {s s' : State κ σ τ} {i : Nat} {ch : γ} (h : p.Moves s i ch s') :
    p.run s i ch = some s' := by
  cases h with
  | acquire hi hnext hfree => simp [run, hi, hnext, FiberSemaphore.wait, hfree]
  | block hi hnext hfree => simp [run, hi, hnext, FiberSemaphore.wait, hfree]
  | handOver hi hnext hwaiters =>
      simp [run, hi, hnext, FiberSemaphore.notify, hwaiters, wakeAt]
  | release hi hnext hwaiters =>
      simp [run, hi, hnext, FiberSemaphore.notify, hwaiters, wakeAt]
  | tau hi hnext => simp [run, hi, hnext]

/-! ## The waiter lists -/

/-- The semaphore that fiber `j` is blocked on. -/
def waitsOn (threads : List τ) (j : Nat) : Option κ := (threads[j]?).bind p.waiting

section WaitsOn

variable {threads spawned : List τ} {i j : Nat} {th : τ}

omit [DecidableEq κ] in
theorem waitsOn_set (hi : threads[i]? = some th) (after : τ) (j : Nat) :
    p.waitsOn (threads.set i after) j =
      if i = j then p.waiting after else p.waitsOn threads j := by
  obtain ⟨hlt, -⟩ := List.getElem?_eq_some_iff.mp hi
  by_cases heq : i = j
  · subst heq
    simp [waitsOn, hlt]
  · simp [waitsOn, heq]

omit [DecidableEq κ] in
/-- A fiber that was not blocked and is not blocked now. -/
theorem waitsOn_set_running (hi : threads[i]? = some th) (hbefore : p.waitsOn threads i = none)
    {after : τ} (hafter : p.waiting after = none) (j : Nat) :
    p.waitsOn (threads.set i after) j = p.waitsOn threads j := by
  rw [p.waitsOn_set hi, hafter]
  split
  · next heq => rw [← heq, hbefore]
  · rfl

omit [DecidableEq κ] in
theorem waitsOn_modify (i j : Nat) :
    p.waitsOn (threads.modify i p.wake) j = if i = j then none else p.waitsOn threads j := by
  rw [waitsOn, List.getElem?_modify]
  by_cases heq : i = j
  · subst heq
    cases hget : threads[i]? with
    | none => simp
    | some th => simp [p.waiting_wake]
  · simp [waitsOn, heq]

omit [DecidableEq κ] in
theorem waitsOn_append (hspawned : ∀ th ∈ spawned, p.waiting th = none) (j : Nat) :
    p.waitsOn (threads ++ spawned) j = p.waitsOn threads j := by
  -- A fiber of the table, or one of those just started.
  by_cases hlt : j < threads.length
  · rw [waitsOn, List.getElem?_append_left hlt, waitsOn]
  · have hnone : threads[j]? = none := List.getElem?_eq_none (Nat.le_of_not_lt hlt)
    rw [waitsOn, waitsOn, hnone, List.getElem?_append_right (Nat.le_of_not_lt hlt)]
    cases hget : spawned[j - threads.length]? with
    | none => rfl
    | some th => exact hspawned th (List.mem_of_getElem? hget)

end WaitsOn

/-- The waiter list of a semaphore holds the fibers that are blocked on it, each once, and nobody
waits while a permit is free. -/
structure WellFormed (s : State κ σ τ) : Prop where
  nodup : ∀ sem, (s.sems sem).waiters.Nodup
  mem_waiters : ∀ sem j, j ∈ (s.sems sem).waiters ↔ p.waitsOn s.threads j = some sem
  free : ∀ sem, 0 < (s.sems sem).concurrency → (s.sems sem).waiters = []

section Steps

variable {p} {s s' : State κ σ τ} {i : Nat} {ch : γ}

omit [DecidableEq κ] in
theorem not_waiting {th : τ} {stmt : Stmt κ σ τ} (hi : s.threads[i]? = some th)
    (hnext : p.next s.shared ch th = some stmt) : p.waitsOn s.threads i = none := by
  rw [waitsOn, hi, Option.bind_some]
  cases hwait : p.waiting th with
  | none => rfl
  | some sem =>
      rw [p.next_of_waiting hwait] at hnext
      cases hnext

omit [DecidableEq κ] in
/-- Starting a fiber that is not blocked. -/
theorem WellFormed.spawn (hs : p.WellFormed s) (shared : σ) {th : τ} (hth : p.waiting th = none) :
    p.WellFormed { s with shared := shared, threads := s.threads ++ [th] } where
  nodup := hs.nodup
  mem_waiters sem j := by
    rw [hs.mem_waiters sem j, p.waitsOn_append]
    intro th' hth'
    rw [List.mem_singleton.mp hth', hth]
  free := hs.free

/-- A permit is taken or given back, and nobody joins or leaves a waiter list. -/
theorem WellFormed.permits (hs : p.WellFormed s) {sem : κ} {x : FiberSemaphore} {threads : List τ}
    (hwaiters : x.waiters = (s.sems sem).waiters) (hfree : 0 < x.concurrency → x.waiters = [])
    (hwaits : ∀ j, p.waitsOn threads j = p.waitsOn s.threads j) :
    p.WellFormed { s with sems := Function.update s.sems sem x, threads := threads } := by
  have hsame : ∀ k, (Function.update s.sems sem x k).waiters = (s.sems k).waiters := by
    intro k
    by_cases heq : k = sem
    · subst heq
      rw [Function.update_self, hwaiters]
    · rw [Function.update_of_ne heq]
  refine ⟨fun k => ?_, fun k j => ?_, fun k hk => ?_⟩
  · rw [hsame]
    exact hs.nodup k
  · rw [hsame, hs.mem_waiters, hwaits]
  · rw [hsame]
    by_cases heq : k = sem
    · subst heq
      simp only [Function.update_self] at hk
      rw [← hwaiters]
      exact hfree hk
    · simp only [Function.update_of_ne heq] at hk
      exact hs.free k hk

/-- A fiber that runs joins a waiter list. -/
theorem WellFormed.block (hs : p.WellFormed s) {th blocked : τ} {sem : κ}
    (hi : s.threads[i]? = some th) (hnot : p.waitsOn s.threads i = none)
    (hblocked : p.waiting blocked = some sem) (hfree : (s.sems sem).concurrency = 0) :
    p.WellFormed { s with
      sems := Function.update s.sems sem ⟨(s.sems sem).concurrency, (s.sems sem).waiters ++ [i]⟩
      threads := s.threads.set i blocked } := by
  -- It is on no list, so joining one keeps it free of duplicates.
  have hout : i ∉ (s.sems sem).waiters := by
    rw [hs.mem_waiters, hnot]
    simp
  refine ⟨fun k => ?_, fun k j => ?_, fun k hk => ?_⟩
  · by_cases heq : k = sem
    · subst heq
      have hdisj : ∀ j ∈ (s.sems k).waiters, j ≠ i := by
        rintro j hj rfl
        exact hout hj
      simpa [List.nodup_append, hs.nodup k] using hdisj
    · simpa [heq] using hs.nodup k
  · rw [p.waitsOn_set hi, hblocked]
    by_cases heq : k = sem
    · subst heq
      by_cases hij : i = j
      · simp [hij]
      · simp [hij, hs.mem_waiters, Ne.symm hij]
    · by_cases hij : i = j
      · subst hij
        simp [heq, hs.mem_waiters, hnot, Ne.symm heq]
      · simp [heq, hij, hs.mem_waiters]
  · by_cases heq : k = sem
    · subst heq
      simp [hfree] at hk
    · simp only [Function.update_of_ne heq] at hk ⊢
      exact hs.free k hk

/-- The first waiter is woken. -/
theorem WellFormed.handOver (hs : p.WellFormed s) {sem : κ} {j : Nat} {rest : List Nat}
    {threads : List τ} (hwaiters : (s.sems sem).waiters = j :: rest)
    (hwaits : ∀ l, p.waitsOn threads l = p.waitsOn s.threads l) :
    p.WellFormed { s with
      sems := Function.update s.sems sem ⟨(s.sems sem).concurrency, rest⟩
      threads := threads.modify j p.wake } := by
  -- The head of the list is blocked on this semaphore and on no other.
  have hj : p.waitsOn s.threads j = some sem := by
    rw [← hs.mem_waiters, hwaiters]
    exact List.mem_cons_self
  have hnodup := hs.nodup sem
  rw [hwaiters] at hnodup
  refine ⟨fun k => ?_, fun k l => ?_, fun k hk => ?_⟩
  · by_cases heq : k = sem
    · subst heq
      simpa using (List.nodup_cons.mp hnodup).2
    · simpa [heq] using hs.nodup k
  · rw [p.waitsOn_modify, hwaits]
    by_cases hlj : j = l
    · subst hlj
      by_cases heq : k = sem
      · subst heq
        simpa using (List.nodup_cons.mp hnodup).1
      · simp [heq, hs.mem_waiters, hj, Ne.symm heq]
    · rw [if_neg hlj, ← hs.mem_waiters]
      by_cases heq : k = sem
      · subst heq
        simp [hwaiters, Ne.symm hlj]
      · simp [heq]
  · by_cases heq : k = sem
    · subst heq
      have hempty := hs.free k (by simpa using hk)
      rw [hwaiters] at hempty
      cases hempty
    · simp only [Function.update_of_ne heq] at hk ⊢
      exact hs.free k hk

theorem Moves.wellFormed (hs : p.WellFormed s) (h : p.Moves s i ch s') : p.WellFormed s' := by
  cases h with
  | acquire hi hnext hfree =>
      have hnot := not_waiting hi hnext
      exact hs.permits rfl (fun _ => hs.free _ hfree)
        (p.waitsOn_set_running hi hnot (p.next_wait hnext).2)
  | block hi hnext hfree =>
      exact hs.block hi (not_waiting hi hnext) (p.next_wait hnext).1 hfree
  | handOver hi hnext hwaiters =>
      have hnot := not_waiting hi hnext
      exact hs.handOver hwaiters (p.waitsOn_set_running hi hnot (p.next_notify hnext))
  | release hi hnext hwaiters =>
      have hnot := not_waiting hi hnext
      exact hs.permits hwaiters.symm (fun _ => rfl)
        (p.waitsOn_set_running hi hnot (p.next_notify hnext))
  | tau hi hnext =>
      have hnot := not_waiting hi hnext
      refine ⟨hs.nodup, fun k j => ?_, hs.free⟩
      rw [p.waitsOn_append (p.next_tau hnext).2,
        p.waitsOn_set_running hi hnot (p.next_tau hnext).1, hs.mem_waiters]

end Steps

/-! ## Weights -/

/-- `held` counts the permits of `sem` that a fiber holds: `wait` and waking up bring one, `notify`
gives one back, and other sections pass them on to the fibers they start. -/
structure Holds (sem : κ) (held : τ → Nat) : Prop where
  wait : ∀ {sh ch th k blocked acquired}, p.next sh ch th = some (.wait k blocked acquired) →
    held blocked = held th ∧ held acquired = held th + if k = sem then 1 else 0
  notify : ∀ {sh ch th k after}, p.next sh ch th = some (.notify k after) →
    (held after + if k = sem then 1 else 0) = held th
  tau : ∀ {sh ch th sh' after spawned}, p.next sh ch th = some (.tau sh' after spawned) →
    held after + total held spawned = held th
  wake : ∀ {th k}, p.waiting th = some k → held (p.wake th) = held th + if k = sem then 1 else 0

/-- In every step of a fiber, what it weighs under `f` afterwards is at most what it weighed under
`g` before. -/
structure Bounds (f g : τ → Nat) : Prop where
  le : ∀ th, f th ≤ g th
  wait : ∀ {sh ch th k blocked acquired}, p.next sh ch th = some (.wait k blocked acquired) →
    f blocked ≤ g th ∧ f acquired ≤ g th
  notify : ∀ {sh ch th k after}, p.next sh ch th = some (.notify k after) → f after ≤ g th
  tau : ∀ {sh ch th sh' after spawned}, p.next sh ch th = some (.tau sh' after spawned) →
    f after + total f spawned ≤ g th
  wake : ∀ {th k}, p.waiting th = some k → f (p.wake th) ≤ g th

section Weights

variable {p} {s s' : State κ σ τ} {i : Nat} {ch : γ} {sem : κ} {f g held : τ → Nat}

omit [DecidableEq κ] in
/-- The fiber that `notify` schedules. -/
theorem WellFormed.first_waiter (hs : p.WellFormed s) {k : κ} {j : Nat} {rest : List Nat}
    (hwaiters : (s.sems k).waiters = j :: rest) :
    ∃ th, s.threads[j]? = some th ∧ p.waiting th = some k := by
  have hj : p.waitsOn s.threads j = some k := by
    rw [← hs.mem_waiters, hwaiters]
    exact List.mem_cons_self
  exact Option.bind_eq_some_iff.mp hj

omit [DecidableEq κ] in
/-- The fiber that is woken is not the one that took the step, so two entries of the table are
replaced. -/
theorem woken_entry {threads : List τ} {th' : τ} {k : κ} {j : Nat} (after : τ)
    (hrunning : p.waitsOn threads i = none) (hj : threads[j]? = some th')
    (hwaiting : p.waiting th' = some k) :
    (threads.set i after)[j]? = some th' ∧
      (threads.set i after).modify j p.wake = (threads.set i after).set j (p.wake th') := by
  have hne : i ≠ j := by
    rintro rfl
    rw [waitsOn, hj, Option.bind_some, hwaiting] at hrunning
    cases hrunning
  have hget : (threads.set i after)[j]? = some th' := by rw [List.getElem?_set_ne hne, hj]
  exact ⟨hget, by rw [List.modify_eq_set_getElem?, hget]; rfl⟩

/-- A step leaves alone the other fibers that are not blocked. -/
theorem Moves.getElem?_ne (hs : p.WellFormed s) (h : p.Moves s i ch s') {j : Nat} {th : τ}
    (hne : i ≠ j) (hj : s.threads[j]? = some th) (hrunning : p.waiting th = none) :
    s'.threads[j]? = some th := by
  cases h with
  | acquire => exact (List.getElem?_set_ne hne).trans hj
  | block => exact (List.getElem?_set_ne hne).trans hj
  | @handOver _ k after j' rest hi hnext hwaiters =>
      obtain ⟨th', hj', hwaiting⟩ := hs.first_waiter hwaiters
      have hne' : j' ≠ j := by
        rintro rfl
        obtain rfl : th' = th := Option.some.inj (hj'.symm.trans hj)
        rw [hrunning] at hwaiting
        cases hwaiting
      show ((s.threads.set i after).modify j' p.wake)[j]? = _
      rw [List.getElem?_modify_ne p.wake (s.threads.set i after) hne', List.getElem?_set_ne hne, hj]
  | release => exact (List.getElem?_set_ne hne).trans hj
  | tau hi =>
      obtain ⟨hlt, -⟩ := List.getElem?_eq_some_iff.mp hj
      show (s.threads.set i _ ++ _)[j]? = _
      rw [List.getElem?_append_left (by simpa using hlt), List.getElem?_set_ne hne, hj]

/-- **Permits are neither lost nor made up.** -/
theorem Moves.balance (hs : p.WellFormed s) (hheld : p.Holds sem held) (h : p.Moves s i ch s') :
    (s'.sems sem).concurrency + total held s'.threads =
      (s.sems sem).concurrency + total held s.threads := by
  cases h with
  | @acquire th k blocked acquired hi hnext hfree =>
      have hset := total_set (f := held) (b := acquired) hi
      have hweight := (hheld.wait hnext).2
      by_cases heq : k = sem
      · subst heq
        simp only [Function.update_self, if_true] at hweight ⊢
        omega
      · simp only [Function.update_of_ne (Ne.symm heq), if_neg heq] at hweight ⊢
        omega
  | @block th k blocked acquired hi hnext hfree =>
      have hset := total_set (f := held) (b := blocked) hi
      have hweight := (hheld.wait hnext).1
      by_cases heq : k = sem
      · subst heq
        simp only [Function.update_self]
        omega
      · simp only [Function.update_of_ne (Ne.symm heq)]
        omega
  | @handOver th k after j rest hi hnext hwaiters =>
      obtain ⟨th', hj, hwaiting⟩ := hs.first_waiter hwaiters
      obtain ⟨hget, hmodify⟩ := woken_entry after (not_waiting hi hnext) hj hwaiting
      have hset := total_set (f := held) (b := after) hi
      have hset' := total_set (f := held) (b := p.wake th') hget
      have hweight := hheld.notify hnext
      have hwake := hheld.wake hwaiting
      rw [hmodify]
      -- The permit goes from the fiber that notifies to the one that wakes up.
      by_cases heq : k = sem
      · subst heq
        simp only [Function.update_self]
        omega
      · simp only [Function.update_of_ne (Ne.symm heq)]
        omega
  | @release th k after hi hnext hwaiters =>
      have hset := total_set (f := held) (b := after) hi
      have hweight := hheld.notify hnext
      by_cases heq : k = sem
      · subst heq
        simp only [Function.update_self, if_true] at hweight ⊢
        omega
      · simp only [Function.update_of_ne (Ne.symm heq), if_neg heq] at hweight ⊢
        omega
  | @tau th shared after spawned hi hnext =>
      have hset := total_set (f := held) (b := after) hi
      have hweight := hheld.tau hnext
      simp only [total_append]
      omega

/-- What the fibers weigh under `f` after a step is at most what they weighed under `g` before. -/
theorem Moves.total_le (hs : p.WellFormed s) (hbounds : p.Bounds f g) (h : p.Moves s i ch s') :
    total f s'.threads ≤ total g s.threads := by
  have hall : List.Forall₂ (fun b a => f b ≤ g a) s.threads s.threads :=
    List.forall₂_same.mpr fun th _ => hbounds.le th
  cases h with
  | acquire hi hnext hfree =>
      exact total_le_of_forall₂ (forall₂_set hall hi (hbounds.wait hnext).2)
  | block hi hnext hfree =>
      exact total_le_of_forall₂ (forall₂_set hall hi (hbounds.wait hnext).1)
  | @handOver th k after j rest hi hnext hwaiters =>
      obtain ⟨th', hj, hwaiting⟩ := hs.first_waiter hwaiters
      obtain ⟨-, hmodify⟩ := woken_entry after (not_waiting hi hnext) hj hwaiting
      rw [hmodify]
      exact total_le_of_forall₂
        (forall₂_set (forall₂_set hall hi (hbounds.notify hnext)) hj (hbounds.wake hwaiting))
  | release hi hnext hwaiters =>
      exact total_le_of_forall₂ (forall₂_set hall hi (hbounds.notify hnext))
  | @tau th shared after spawned hi hnext =>
      -- The started fibers are charged to the fiber that starts them.
      have hset := total_set (f := f) (b := after) hi
      have hgap := total_gap hbounds.le hi
      have hweight := hbounds.tau hnext
      simp only [total_append]
      omega

end Weights

/-! ## Entries -/

/-- `Q` is kept by the fiber that takes a step, holds of a fiber that is woken or started, and is
kept by the others when the shared data change. -/
structure Keeps (Q : σ → Nat → τ → Prop) : Prop where
  wait : ∀ {sh ch i th k blocked acquired}, Q sh i th →
    p.next sh ch th = some (.wait k blocked acquired) → Q sh i blocked ∧ Q sh i acquired
  notify : ∀ {sh ch i th k after}, Q sh i th → p.next sh ch th = some (.notify k after) →
    Q sh i after
  tau : ∀ {sh ch i th sh' after spawned}, Q sh i th →
    p.next sh ch th = some (.tau sh' after spawned) →
      Q sh' i after ∧ (∀ th' ∈ spawned, ∀ j, i < j → Q sh' j th') ∧
        ∀ {j th'}, j ≠ i → Q sh j th' → Q sh' j th'
  wake : ∀ {sh i th k}, Q sh i th → p.waiting th = some k → Q sh i (p.wake th)

section Entries

variable {p} {s s' : State κ σ τ} {i : Nat} {ch : γ} {Q : σ → Nat → τ → Prop}

/-- Every entry of the table. -/
def Entries (Q : σ → Nat → τ → Prop) (s : State κ σ τ) : Prop :=
  ∀ j th, s.threads[j]? = some th → Q s.shared j th

omit [DecidableEq κ] in
theorem entries_set {R : Nat → τ → Prop} {threads : List τ} {after : τ}
    (hothers : ∀ j th, j ≠ i → threads[j]? = some th → R j th) (hafter : R i after) :
    ∀ j th, (threads.set i after)[j]? = some th → R j th := by
  intro j th hj
  rcases Foundation.getElem?_of_set hj with ⟨rfl, rfl⟩ | ⟨hne, hj⟩
  · exact hafter
  · exact hothers j th hne hj

theorem Moves.entries (hs : p.WellFormed s) (hkeeps : p.Keeps Q) (hQ : Entries Q s)
    (h : p.Moves s i ch s') : Entries Q s' := by
  cases h with
  | acquire hi hnext =>
      exact entries_set (fun j th _ hj => hQ j th hj) (hkeeps.wait (hQ i _ hi) hnext).2
  | block hi hnext =>
      exact entries_set (fun j th _ hj => hQ j th hj) (hkeeps.wait (hQ i _ hi) hnext).1
  | @handOver th k after j rest hi hnext hwaiters =>
      obtain ⟨th', hj, hwaiting⟩ := hs.first_waiter hwaiters
      obtain ⟨-, hmodify⟩ := woken_entry after (not_waiting hi hnext) hj hwaiting
      have hset := entries_set (fun j th _ hj => hQ j th hj) (hkeeps.notify (hQ i _ hi) hnext)
      rw [Entries, hmodify]
      exact entries_set (fun j th _ hj => hset j th hj) (hkeeps.wake (hQ j _ hj) hwaiting)
  | release hi hnext =>
      exact entries_set (fun j th _ hj => hQ j th hj) (hkeeps.notify (hQ i _ hi) hnext)
  | @tau th shared after spawned hi hnext =>
      obtain ⟨hafter, hspawned, hothers⟩ := hkeeps.tau (hQ i _ hi) hnext
      have hset := entries_set (fun j th hne hj => hothers hne (hQ j th hj)) hafter
      intro j th' hj
      replace hj : (s.threads.set i after ++ spawned)[j]? = some th' := hj
      by_cases hlt : j < (s.threads.set i after).length
      · rw [List.getElem?_append_left hlt] at hj
        exact hset j th' hj
      · -- A fiber that was started stands after the one that started it.
        rw [List.getElem?_append_right (Nat.le_of_not_lt hlt)] at hj
        obtain ⟨hlt', -⟩ := List.getElem?_eq_some_iff.mp hi
        rw [List.length_set] at hlt
        exact hspawned th' (List.mem_of_getElem? hj) j (by omega)

end Entries

end Program

end Fibers
end Routn
