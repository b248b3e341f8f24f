import Routn.Streams.AsyncSocketStream

/-!
# Who holds the permits of `_waitSem`

A fiber has a `Role`, which says how many of the two permits it holds and what it may still become.
A call of `start` collects the permits one by one, passes them on to the reader and the writer, or
gives them back one by one; the reader and the writer give theirs back when they end.

The roles are the abstract model: `RoleStep` is what a step can do to them, and the number of
readers and writers follows from it.
-/

namespace Routn
namespace AsyncSocketStream

open Foundation
open Fibers

inductive Role
  /-- Holds no permit. -/
  | outside
  /-- A call of `start` between its first and its second permit. -/
  | single
  /-- A call of `start` with both permits. -/
  | both
  /-- A failed call of `start` that has given back one permit. -/
  | giving
  /-- A call of `start` that has started the reader and will start the writer. -/
  | handing
  | reader
  | writer
deriving DecidableEq, Repr

namespace Role

def permits : Role → Nat
  | .outside => 0
  | .both => 2
  | _ => 1

/-- The permits that calls of `start` hold. -/
def starting : Role → Nat
  | .single => 1
  | .both => 2
  | .giving => 1
  | .handing => 1
  | _ => 0

def isReader : Role → Nat
  | .reader => 1
  | _ => 0

def isWriter : Role → Nat
  | .writer => 1
  | _ => 0

/-- Is the reader or may start one without taking another permit. -/
def mayRead : Role → Nat
  | .reader => 1
  | .both => 1
  | _ => 0

/-- Is the writer or is about to start it. -/
def writing : Role → Nat
  | .writer => 1
  | .handing => 1
  | _ => 0

/-- Is the writer or may start one without taking another permit. -/
def mayWrite : Role → Nat
  | .writer => 1
  | .handing => 1
  | .both => 1
  | _ => 0

/-- Holds one permit and waits for the other. -/
def isSingle : Role → Nat
  | .single => 1
  | _ => 0

end Role

/-- The reader and the writer are live until they have given back their permit. -/
def Thread.role : Thread → Role
  | .start .enter => .outside
  | .start .blocked1 => .outside
  | .start .woken1 => .single
  | .start .first => .single
  | .start .blocked2 => .single
  | .start .notify2 => .giving
  | .start .startWrite => .handing
  | .start .retry => .outside
  | .start _ => .both
  | .doRead .retry => .outside
  | .doRead _ => .reader
  | .doWrite _ => .writer
  | .enqueue _ => .outside
  | .innerClose _ .start => .both
  | .innerClose _ .doRecv => .reader
  | .innerClose _ .doRead => .reader
  | .innerClose _ .doWrite => .writer
  | .innerClose _ .other => .outside
  | .done => .outside

/-- A weight of roles, as a weight of fibers. -/
def weigh (f : Role → Nat) (th : Thread) : Nat := f th.role

@[simp] theorem role_reader : (Thread.doRead .top).role = .reader := rfl

@[simp] theorem role_writer : (Thread.doWrite .top).role = .writer := rfl

theorem role_innerClose (pc pc' : ClosePc) (caller : Caller) :
    (Thread.innerClose pc caller).role = (Thread.innerClose pc' caller).role := by
  cases caller <;> rfl

@[simp] theorem role_resume (caller : Caller) (pc : ClosePc) :
    caller.resume.role = (Thread.innerClose pc caller).role := by
  cases caller <;> rfl

section Roles

variable {sh sh' : Shared} {ch : Choice} {th after : Thread} {spawned : List Thread}

/-- A section without semaphores keeps the role, or passes one permit on. -/
theorem role_tau (h : next sh ch th = some (.tau sh' after spawned)) :
    (after.role = th.role ∧ spawned = []) ∨
      (th.role = .both ∧ after.role = .handing ∧ spawned = [.doRead .top]) ∨
      (th.role = .handing ∧ after.role = .outside ∧ spawned = [.doWrite .top]) := by
  unfold next at h
  split at h <;> (repeat' split at h) <;> cases h <;> simp [Thread.role]
  · exact role_innerClose .notify .close _
  · exact role_resume _ .clear

/-- `wait` on `_waitSem` brings the next permit; on `_sem` it changes nothing here. -/
theorem role_wait {k : Semaphore} {blocked acquired : Thread}
    (h : next sh ch th = some (.wait k blocked acquired)) :
    blocked.role = th.role ∧
      ((k = .waitSem ∧ th.role = .outside ∧ acquired.role = .single) ∨
        (k = .waitSem ∧ th.role = .single ∧ acquired.role = .both) ∨
        (k = .sem ∧ acquired.role = th.role)) := by
  rcases next_wait h with ⟨rfl, rfl, rfl, rfl⟩ | ⟨rfl, rfl, rfl, rfl⟩ | ⟨rfl, rfl, rfl, rfl⟩ <;>
    simp [Thread.role]

/-- `notify` on `_waitSem` gives a permit back. -/
theorem role_notify {k : Semaphore} (h : next sh ch th = some (.notify k after)) :
    (k = .waitSem ∧ th.role = .both ∧ after.role = .giving) ∨
      (k = .waitSem ∧ th.role.permits = 1 ∧ after.role = .outside) ∨
      (k = .sem ∧ after.role = th.role) := by
  rcases next_notify h with ⟨rfl, hcase⟩ | ⟨rfl, hcase⟩
  · rcases hcase with ⟨rfl, rfl⟩ | ⟨rfl, rfl⟩ | ⟨rfl, rfl⟩ | ⟨rfl, rfl⟩ <;>
      simp [Thread.role, Role.permits]
  · rcases hcase with ⟨ctx, rfl, rfl⟩ | ⟨caller, rfl, rfl⟩
    · simp [Thread.role]
    · cases caller <;> simp [Thread.role]

/-- A fiber that is woken has been handed a permit of the semaphore it waited for. -/
theorem role_wake {k : Semaphore} (h : th.waiting = some k) :
    (k = .waitSem ∧ th.role = .outside ∧ th.wake.role = .single) ∨
      (k = .waitSem ∧ th.role = .single ∧ th.wake.role = .both) ∨
      (k = .sem ∧ th.wake.role = th.role) := by
  unfold Thread.waiting at h
  split at h <;> cases h <;> simp [Thread.role, Thread.wake]

end Roles

/-! ## Weights of roles -/

theorem holds_permits : program.Holds .waitSem (weigh Role.permits) where
  wait := by
    intro sh ch th k blocked acquired h
    obtain ⟨hblocked, hcase⟩ := role_wait h
    rcases hcase with ⟨rfl, hth, hacquired⟩ | ⟨rfl, hth, hacquired⟩ | ⟨rfl, hacquired⟩
    · simp [weigh, hblocked, hth, hacquired, Role.permits]
    · simp [weigh, hblocked, hth, hacquired, Role.permits]
    · simp [weigh, hblocked, hacquired]
  notify := by
    intro sh ch th k after h
    rcases role_notify h with ⟨rfl, hth, hafter⟩ | ⟨rfl, hth, hafter⟩ | ⟨rfl, hafter⟩
    · simp [weigh, hth, hafter, Role.permits]
    · simp only [weigh, hth, hafter, if_true]
      rfl
    · simp [weigh, hafter]
  tau := by
    intro sh ch th sh' after spawned h
    rcases role_tau h with ⟨hafter, rfl⟩ | ⟨hth, hafter, rfl⟩ | ⟨hth, hafter, rfl⟩
    · simp [weigh, hafter]
    · simp [weigh, hth, hafter, Role.permits]
    · simp [weigh, hth, hafter, Role.permits]
  wake := by
    intro th k h
    show weigh Role.permits th.wake = _
    rcases role_wake h with ⟨rfl, hth, hwake⟩ | ⟨rfl, hth, hwake⟩ | ⟨rfl, hwake⟩
    · simp [weigh, hth, hwake, Role.permits]
    · simp [weigh, hth, hwake, Role.permits]
    · simp [weigh, hwake]

/-- What `Bounds` asks for, role by role. -/
structure RoleBounds (f g : Role → Nat) : Prop where
  le : ∀ role, f role ≤ g role
  outside : f .outside = 0
  first : f .single ≤ g .outside
  second : f .both ≤ g .single
  giving : f .giving ≤ g .both
  startRead : f .handing + f .reader ≤ g .both
  startWrite : f .writer ≤ g .handing

theorem RoleBounds.bounds {f g : Role → Nat} (h : RoleBounds f g) :
    program.Bounds (weigh f) (weigh g) where
  le th := h.le th.role
  wait := by
    intro sh ch th k blocked acquired hnext
    obtain ⟨hblocked, hcase⟩ := role_wait hnext
    unfold weigh
    rw [hblocked]
    refine ⟨h.le _, ?_⟩
    rcases hcase with ⟨-, hth, hacquired⟩ | ⟨-, hth, hacquired⟩ | ⟨-, hacquired⟩
    · rw [hth, hacquired]
      exact h.first
    · rw [hth, hacquired]
      exact h.second
    · rw [hacquired]
      exact h.le _
  notify := by
    intro sh ch th k after hnext
    unfold weigh
    rcases role_notify hnext with ⟨-, hth, hafter⟩ | ⟨-, -, hafter⟩ | ⟨-, hafter⟩
    · rw [hth, hafter]
      exact h.giving
    · rw [hafter, h.outside]
      exact Nat.zero_le _
    · rw [hafter]
      exact h.le _
  tau := by
    intro sh ch th sh' after spawned hnext
    rcases role_tau hnext with ⟨hafter, rfl⟩ | ⟨hth, hafter, rfl⟩ | ⟨hth, hafter, rfl⟩
    · simpa [weigh, hafter] using h.le th.role
    · simpa [weigh, hth, hafter] using h.startRead
    · simpa [weigh, hth, hafter, h.outside] using h.startWrite
  wake := by
    intro th k hwaiting
    show f th.wake.role ≤ g th.role
    rcases role_wake hwaiting with ⟨-, hth, hwake⟩ | ⟨-, hth, hwake⟩ | ⟨-, hwake⟩
    · rw [hth, hwake]
      exact h.first
    · rw [hth, hwake]
      exact h.second
    · rw [hwake]
      exact h.le _

/-- Readers come from calls of `start` with both permits. -/
theorem bounds_reader : RoleBounds Role.isReader Role.mayRead where
  le role := by cases role <;> decide
  outside := rfl
  first := by decide
  second := by decide
  giving := by decide
  startRead := by decide
  startWrite := by decide

theorem bounds_writer : RoleBounds Role.writing Role.mayWrite where
  le role := by cases role <;> decide
  outside := rfl
  first := by decide
  second := by decide
  giving := by decide
  startRead := by decide
  startWrite := by decide

/-! ## The permits add up -/

/-- Permits that calls of `start` hold. -/
def startPermits (s : State) : Nat := total (weigh Role.starting) s.threads

/-- Live reader fibers. -/
def readers (s : State) : Nat := total (weigh Role.isReader) s.threads

/-- Live writer fibers. -/
def writers (s : State) : Nat := total (weigh Role.isWriter) s.threads

/-- The permits that are free and those that fibers hold are two, and the fibers that read or may
start to read without another permit are at most one, as are those that write. -/
structure Accounted (s : State) : Prop where
  wellFormed : program.WellFormed s
  permits : (s.sems .waitSem).concurrency + total (weigh Role.permits) s.threads = 2
  reading : total (weigh Role.mayRead) s.threads ≤ 1
  writing : total (weigh Role.mayWrite) s.threads ≤ 1

section Accounted

variable {s s' : State} {a : Action} {connected autoConnect : Bool}

theorem init_accounted : Accounted (init connected autoConnect) where
  wellFormed := init_wellFormed connected autoConnect
  permits := rfl
  reading := Nat.zero_le _
  writing := Nat.zero_le _

/-- A fiber that enters the code weighs nothing. -/
theorem total_spawn {f : Role → Nat} (hf : f .outside = 0) (sh : Shared) {th : Thread}
    (hth : th ∈ [.start .enter, .enqueue .push, .innerClose .close .other]) :
    total (weigh f) (spawn s sh th).threads = total (weigh f) s.threads := by
  have hrole : th.role = .outside := by fin_cases hth <;> rfl
  show total (weigh f) (s.threads ++ [th]) = _
  simp [weigh, hrole, hf]

/-- If what fibers weigh under `f` comes from one of them alone, and the fibers with both permits
are the only other ones that count under `g`, then `g` counts at most one fiber again. -/
theorem at_most_one {f g : Role → Nat} (hf : RoleBounds f g)
    (hpermits : ∀ role, 2 * g role ≤ f role + role.permits) (hs : Accounted s)
    (hone : total (weigh g) s.threads ≤ 1) (hmoves : ∃ i ch, program.Moves s i ch s') :
    total (weigh g) s'.threads ≤ 1 := by
  obtain ⟨i, ch, hmoves⟩ := hmoves
  have hbound := hmoves.total_le hs.wellFormed hf.bounds
  have hbalance := hmoves.balance hs.wellFormed holds_permits
  -- A fiber that counts under `g` counts under `f`, or it holds both permits.
  have hpermits' : 2 * total (weigh g) s'.threads ≤
      total (weigh f) s'.threads + total (weigh Role.permits) s'.threads := by
    have hle := total_le_total (fun th : Thread => hpermits th.role) s'.threads
    rw [total_add] at hle
    have hdouble : total (fun th : Thread => 2 * g th.role) s'.threads =
        2 * total (weigh g) s'.threads := by
      simp only [two_mul]
      exact total_add _ _ _
    rw [hdouble] at hle
    exact hle
  have := hs.permits
  omega

theorem step_accounted (hs : Accounted s) (h : step s a = some s') : Accounted s' := by
  have hwellFormed := step_wellFormed hs.wellFormed h
  rcases step_cases h with ⟨sh, th, rfl, hth, -⟩ | ⟨sh, rfl, -⟩ | ⟨i, ch, -, hmoves⟩
  · refine ⟨hwellFormed, ?_, ?_, ?_⟩
    · rw [total_spawn rfl sh hth]
      exact hs.permits
    · rw [total_spawn rfl sh hth]
      exact hs.reading
    · rw [total_spawn rfl sh hth]
      exact hs.writing
  · exact ⟨hwellFormed, hs.permits, hs.reading, hs.writing⟩
  · refine ⟨hwellFormed, ?_, ?_, ?_⟩
    · exact (hmoves.balance hs.wellFormed holds_permits).trans hs.permits
    · exact at_most_one bounds_reader (fun role => by cases role <;> decide) hs hs.reading
        ⟨i, ch, hmoves⟩
    · exact at_most_one bounds_writer (fun role => by cases role <;> decide) hs hs.writing
        ⟨i, ch, hmoves⟩

theorem reachable_accounted (h : Reachable connected autoConnect s) : Accounted s :=
  Reach.invariant init_accounted (fun _ hs _ hstep => step_accounted hs hstep) h

/-- The permits of the fibers, by kind of fiber. -/
theorem total_permits (threads : List Thread) :
    total (weigh Role.permits) threads =
      total (weigh Role.starting) threads + total (weigh Role.isReader) threads +
        total (weigh Role.isWriter) threads := by
  rw [← total_add, ← total_add]
  congr 1
  funext th
  show th.role.permits = th.role.starting + th.role.isReader + th.role.isWriter
  cases th.role <;> rfl

theorem Accounted.readers_le (hs : Accounted s) : readers s ≤ 1 :=
  (total_le_total (fun th => bounds_reader.le th.role) s.threads).trans hs.reading

theorem Accounted.writers_le (hs : Accounted s) : writers s ≤ 1 := by
  have hle : ∀ role : Role, role.isWriter ≤ role.mayWrite := by
    intro role
    cases role <;> decide
  exact (total_le_total (fun th => hle th.role) s.threads).trans hs.writing

/-- **The two permits are free, or held by calls of `start`, live readers and live writers; there is
at most one reader and one writer.** -/
theorem permits_accounted (h : Reachable connected autoConnect s) :
    (s.sems .waitSem).concurrency + startPermits s + readers s + writers s = 2 ∧
      readers s ≤ 1 ∧ writers s ≤ 1 := by
  have hs := reachable_accounted h
  have hpermits := hs.permits
  rw [total_permits] at hpermits
  refine ⟨?_, hs.readers_le, hs.writers_le⟩
  show _ + total _ _ + total _ _ + total _ _ = 2
  omega

end Accounted

/-- A stream that connects, starts its fibers, and whose reader meets a broken frame. -/
def brokenFrame : List Action :=
  [.start, .run 0 .success, .run 0 .success, .run 0 .success, .run 0 .success, .run 0 .success,
    .run 0 .success, .run 0 .success, .run 1 .success, .run 1 .failure, .run 1 .success,
    .run 1 .success, .run 1 .success, .run 1 .success, .run 1 .success]

theorem permits_accounted_brokenFrame :
    ∃ s, runActions step brokenFrame (init false true) = some s ∧
      (s.sems .waitSem).concurrency + startPermits s + readers s + writers s = 2 ∧
        readers s ≤ 1 ∧ writers s ≤ 1 := by
  have hsome : (runActions step brokenFrame (init false true)).isSome := by decide
  obtain ⟨s, hs⟩ := Option.isSome_iff_exists.mp hsome
  exact ⟨s, hs, permits_accounted (reach_of_runActions brokenFrame hs (by decide))⟩

/-! ## Two calls of `start` -/

/-- Two calls of `start` each hold a permit and are blocked on the second, and no fiber of the
stream is left to give one back. -/
def Deadlock (s : State) : Prop :=
  readers s = 0 ∧ writers s = 0 ∧
    ∃ i j : Nat, i ≠ j ∧ s.threads[i]? = some (.start .blocked2) ∧
      s.threads[j]? = some (.start .blocked2)

/-- The sections that give a permit of `_waitSem` back. -/
def givesBack : List Thread :=
  [.start .notify1, .start .notify2, .doRead .notify, .doWrite .notify]

/-- The step brings a call of `start` its first permit: the call takes it, or a fiber that gives one
back hands it over. -/
def GrantsFirst (s : State) : Action → Prop
  | .run i _ =>
      (s.threads[i]? = some (.start .enter) ∧ 0 < (s.sems .waitSem).concurrency) ∨
        ((∃ th ∈ givesBack, s.threads[i]? = some th) ∧
          ∃ j ∈ (s.sems .waitSem).waiters.head?, s.threads[j]? = some (.start .blocked1))
  | _ => False

/-- No call of `start` is brought its first permit while another one waits for its second. -/
def OneAtATime (s : State) (a : Action) : Prop :=
  GrantsFirst s a → ∀ th ∈ s.threads, th.role ≠ .single

section Deadlock

variable {s s' : State} {a : Action} {connected autoConnect : Bool}

theorem single_notify {sh : Shared} {ch : Choice} {th after : Thread} {k : Semaphore}
    (h : next sh ch th = some (.notify k after)) :
    weigh Role.isSingle after ≤ weigh Role.isSingle th := by
  unfold weigh
  rcases role_notify h with ⟨-, -, hafter⟩ | ⟨-, -, hafter⟩ | ⟨-, hafter⟩
  · rw [hafter]
    exact Nat.zero_le _
  · rw [hafter]
    exact Nat.zero_le _
  · rw [hafter]

/-- A woken call of `start` has its first permit, or no longer waits for its second. -/
theorem single_wake {th : Thread} {k : Semaphore} (h : program.waiting th = some k) :
    (k = .waitSem ∧ th = .start .blocked1 ∧ weigh Role.isSingle (program.wake th) = 1) ∨
      weigh Role.isSingle (program.wake th) ≤ weigh Role.isSingle th := by
  change th.waiting = some k at h
  unfold Thread.waiting at h
  split at h
  · exact .inl ⟨(Option.some.inj h).symm, rfl, rfl⟩
  · exact .inr (by decide)
  · exact .inr (by decide)
  · cases h

/-- A step brings at most one call of `start` to wait for its second permit, and that one has been
granted its first. -/
theorem single_step (hs : program.WellFormed s) (h : step s a = some s') :
    ∃ n ≤ 1, total (weigh Role.isSingle) s'.threads ≤ total (weigh Role.isSingle) s.threads + n ∧
      (0 < n → GrantsFirst s a) := by
  rcases step_cases h with ⟨sh, th, rfl, hth, -⟩ | ⟨sh, rfl, -⟩ | ⟨i, ch, rfl, hmoves⟩
  · exact ⟨0, by omega, (total_spawn rfl sh hth).le, by omega⟩
  · exact ⟨0, by omega, Nat.le_refl _, by omega⟩
  · cases hmoves with
    | @acquire th k blocked acquired hi hnext hfree =>
        have hset := total_set (f := weigh Role.isSingle) (b := acquired) hi
        rcases next_wait hnext with ⟨rfl, rfl, -, rfl⟩ | ⟨rfl, -, -, rfl⟩ | ⟨rfl, -, -, rfl⟩
        · exact ⟨1, Nat.le_refl 1, hset.le, fun _ => .inl ⟨hi, hfree⟩⟩
        · have hboth : weigh Role.isSingle (.start .both) = 0 := rfl
          refine ⟨0, by omega, ?_, by omega⟩
          show total _ (s.threads.set i (.start .both)) ≤ _
          omega
        · exact ⟨0, by omega, hset.le, by omega⟩
    | @block th k blocked acquired hi hnext hfree =>
        have hset := total_set (f := weigh Role.isSingle) (b := blocked) hi
        have hrole : weigh Role.isSingle blocked = weigh Role.isSingle th := by
          rw [weigh, (role_wait hnext).1, weigh]
        refine ⟨0, by omega, ?_, by omega⟩
        show total _ (s.threads.set i blocked) ≤ _
        omega
    | @handOver th k after j rest hi hnext hwaiters =>
        obtain ⟨th', hj, hwaiting⟩ := hs.first_waiter hwaiters
        obtain ⟨hget, hmodify⟩ :=
          Program.woken_entry after (Program.not_waiting hi hnext) hj hwaiting
        have hset := total_set (f := weigh Role.isSingle) (b := after) hi
        have hset' := total_set (f := weigh Role.isSingle) (b := program.wake th') hget
        have hnotify := single_notify hnext
        rw [hmodify]
        rcases single_wake hwaiting with ⟨rfl, rfl, hwake⟩ | hwake
        · -- The permit is handed to a call that waits for its first.
          refine ⟨1, Nat.le_refl 1, ?_, fun _ => .inr ⟨⟨th, ?_, hi⟩, j, ?_, hj⟩⟩
          · show total _ ((s.threads.set i after).set j _) ≤ _
            omega
          · rcases next_notify hnext with ⟨-, hcase⟩ | ⟨heq, -⟩
            · rcases hcase with ⟨rfl, -⟩ | ⟨rfl, -⟩ | ⟨rfl, -⟩ | ⟨rfl, -⟩ <;> decide
            · cases heq
          · rw [hwaiters]
            rfl
        · refine ⟨0, by omega, ?_, by omega⟩
          show total _ ((s.threads.set i after).set j _) ≤ _
          omega
    | @release th k after hi hnext hwaiters =>
        have hset := total_set (f := weigh Role.isSingle) (b := after) hi
        have hnotify := single_notify hnext
        refine ⟨0, by omega, ?_, by omega⟩
        show total _ (s.threads.set i after) ≤ _
        omega
    | @tau th shared after spawned hi hnext =>
        have hset := total_set (f := weigh Role.isSingle) (b := after) hi
        refine ⟨0, by omega, ?_, by omega⟩
        show total _ (s.threads.set i after ++ spawned) ≤ _
        rcases role_tau hnext with ⟨hafter, rfl⟩ | ⟨hth, hafter, rfl⟩ | ⟨hth, hafter, rfl⟩
        · simp only [weigh, hafter, List.append_nil] at hset ⊢
          omega
        · simp only [weigh, hafter, hth, total_append, total_cons, total_nil, role_reader,
            Role.isSingle] at hset ⊢
          omega
        · simp only [weigh, hafter, hth, total_append, total_cons, total_nil, role_writer,
            Role.isSingle] at hset ⊢
          omega

theorem no_single_iff {threads : List Thread} :
    (∀ th ∈ threads, th.role ≠ .single) ↔ total (weigh Role.isSingle) threads = 0 := by
  constructor
  · intro h
    refine total_eq_zero fun th hth => ?_
    have hne := h th hth
    unfold weigh
    cases hrole : th.role with
    | single => exact absurd hrole hne
    | _ => rfl
  · intro h th hth hrole
    obtain ⟨i, hi⟩ := List.mem_iff_getElem?.mp hth
    have hle := le_total (f := weigh Role.isSingle) hi
    rw [weigh, hrole, h] at hle
    exact absurd hle (by decide)

/-- While first permits are granted one at a time, at most one call waits for its second. -/
theorem reach_single_le (h : Reach (init connected autoConnect) step OneAtATime s) :
    total (weigh Role.isSingle) s.threads ≤ 1 := by
  have hboth : Accounted s ∧ total (weigh Role.isSingle) s.threads ≤ 1 := by
    refine Reach.invariant (P := fun s => Accounted s ∧ total (weigh Role.isSingle) s.threads ≤ 1)
      ⟨init_accounted, Nat.zero_le _⟩ ?_ h
    intro s s' a _ hs hok hstep
    refine ⟨step_accounted hs.1 hstep, ?_⟩
    obtain ⟨n, hn, htotal, hgrant⟩ := single_step hs.1.wellFormed hstep
    -- Without a grant the number does not grow; with one it was zero.
    by_cases hzero : n = 0
    · have := hs.2
      omega
    · have hnone := no_single_iff.mp (hok (hgrant (Nat.pos_of_ne_zero hzero)))
      omega
  exact hboth.2

theorem deadlock_single (h : Deadlock s) : 2 ≤ total (weigh Role.isSingle) s.threads := by
  obtain ⟨-, -, i, j, hne, hi, hj⟩ := h
  exact add_le_total (f := weigh Role.isSingle) hi hj hne

/-! ### A second first permit is fatal -/

theorem single_pc {th : Thread} (h : th.role = .single) :
    th = .start .woken1 ∨ th = .start .first ∨ th = .start .blocked2 := by
  unfold Thread.role at h
  split at h <;> first | exact absurd h (by decide) | simp

/-- Two calls that wait for their second permit hold all there is. -/
theorem Accounted.exhausted (hs : Accounted s) {i j : Nat} {th th' : Thread} (hne : i ≠ j)
    (hi : s.threads[i]? = some th) (hj : s.threads[j]? = some th') (hth : th.role = .single)
    (hth' : th'.role = .single) :
    (s.sems .waitSem).concurrency = 0 ∧ readers s = 0 ∧ writers s = 0 := by
  have hstarting := add_le_total (f := weigh Role.starting) hi hj hne
  have hpermits := hs.permits
  rw [total_permits] at hpermits
  have hone : weigh Role.starting th = 1 := by rw [weigh, hth]; rfl
  have hone' : weigh Role.starting th' = 1 := by rw [weigh, hth']; rfl
  show _ ∧ total (weigh _) _ = 0 ∧ total (weigh _) _ = 0
  omega

/-- A call that waits for its second permit while none is free gets blocked, and disturbs no other
fiber. -/
theorem run_to_blocked (hs : Accounted s) {i j : Nat} {th th' : Thread} (hne : i ≠ j)
    (hi : s.threads[i]? = some th) (hj : s.threads[j]? = some th') (hth : th.role = .single)
    (hth' : th'.role = .single) :
    ∃ as s', runActions step as s = some s' ∧ Accounted s' ∧
      s'.threads[i]? = some (.start .blocked2) ∧ s'.threads[j]? = some th' := by
  have hfirst : ∀ {s : State}, Accounted s → s.threads[i]? = some (.start .first) →
      s.threads[j]? = some th' →
      ∃ s', step s (.run i .success) = some s' ∧ Accounted s' ∧
        s'.threads[i]? = some (.start .blocked2) ∧ s'.threads[j]? = some th' := by
    intro s hs hi hj
    have hzero := (hs.exhausted hne hi hj rfl hth').1
    have hstep : step s (.run i .success) = some _ :=
      program.run_of_moves (.block hi rfl hzero)
    obtain ⟨hlt, -⟩ := List.getElem?_eq_some_iff.mp hi
    refine ⟨_, hstep, step_accounted hs hstep, ?_, ?_⟩
    · show (s.threads.set i _)[i]? = _
      rw [List.getElem?_set_self hlt]
    · show (s.threads.set i _)[j]? = _
      rw [List.getElem?_set_ne hne, hj]
  rcases single_pc hth with rfl | rfl | rfl
  · have hstep : step s (.run i .success) = some _ := program.run_of_moves (.tau hi rfl)
    obtain ⟨hlt, -⟩ := List.getElem?_eq_some_iff.mp hi
    obtain ⟨s', hstep', hs', hi', hj'⟩ := hfirst (step_accounted hs hstep)
      (by simp [hlt]) (by simp [List.getElem?_set_ne hne, hj])
    refine ⟨[.run i .success, .run i .success], s', ?_, hs', hi', hj'⟩
    rw [runActions, hstep, Option.bind_some, runActions, hstep']
    rfl
  · obtain ⟨s', hstep, hs', hi', hj'⟩ := hfirst hs hi hj
    exact ⟨[.run i .success], s', by simp [runActions, hstep], hs', hi', hj'⟩
  · exact ⟨[], s, rfl, hs, hi, hj⟩

theorem deadlock_of_singles (hs : Accounted s) {i j : Nat} {th th' : Thread} (hne : i ≠ j)
    (hi : s.threads[i]? = some th) (hj : s.threads[j]? = some th') (hth : th.role = .single)
    (hth' : th'.role = .single) :
    ∃ as s', runActions step as s = some s' ∧ Deadlock s' := by
  -- One call after the other runs into its second `wait`.
  obtain ⟨as, s₁, hrun, hs₁, hi₁, hj₁⟩ := run_to_blocked hs hne hi hj hth hth'
  obtain ⟨bs, s₂, hrun', hs₂, hj₂, hi₂⟩ := run_to_blocked hs₁ (Ne.symm hne) hj₁ hi₁ hth' rfl
  obtain ⟨-, hreaders, hwriters⟩ := hs₂.exhausted hne hi₂ hj₂ rfl rfl
  refine ⟨as ++ bs, s₂, ?_, hreaders, hwriters, i, j, hne, hi₂, hj₂⟩
  rw [runActions_append, hrun]
  exact hrun'

theorem notify_of_givesBack {th : Thread} (h : th ∈ givesBack) :
    th.role ≠ .single ∧ ∃ after, ∀ sh ch, next sh ch th = some (.notify .waitSem after) := by
  fin_cases h <;> exact ⟨by decide, _, fun _ _ => rfl⟩

/-- After a step against the condition, two calls of `start` are on their way into the deadlock. -/
theorem singles_of_violation (h : step s a = some s') (hnot : ¬ OneAtATime s a) :
    ∃ (i j : Nat) (th th' : Thread), i ≠ j ∧ s'.threads[i]? = some th ∧
      s'.threads[j]? = some th' ∧ th.role = .single ∧ th'.role = .single := by
  simp only [OneAtATime, Classical.not_imp, not_forall, not_not] at hnot
  obtain ⟨hgrant, th, hmem, hth⟩ := hnot
  obtain ⟨m, hm⟩ := List.mem_iff_getElem?.mp hmem
  -- The call that waits already is not the fiber that moves, nor the one that is woken.
  have hdiffer : ∀ {i : Nat} {th' : Thread}, s.threads[i]? = some th' → th'.role ≠ .single →
      i ≠ m := by
    rintro i th' hi hrole rfl
    obtain rfl : th' = th := Option.some.inj (hi.symm.trans hm)
    exact hrole hth
  cases a with
  | run i ch =>
      rcases hgrant with ⟨hi, hfree⟩ | ⟨⟨th', hgives, hi⟩, j, hhead, hj⟩
      · obtain rfl := Option.some.inj ((program.run_of_moves (.acquire hi rfl hfree)).symm.trans h)
        have hne := hdiffer hi (by decide)
        obtain ⟨hlt, -⟩ := List.getElem?_eq_some_iff.mp hi
        refine ⟨i, m, .start .first, th, hne, ?_, ?_, rfl, hth⟩
        · show (s.threads.set i _)[i]? = _
          rw [List.getElem?_set_self hlt]
        · show (s.threads.set i _)[m]? = _
          rw [List.getElem?_set_ne hne, hm]
      · obtain ⟨hrole, after, hnext⟩ := notify_of_givesBack hgives
        obtain ⟨rest, hwaiters⟩ : ∃ rest, (s.sems .waitSem).waiters = j :: rest :=
          List.head?_eq_some_iff.mp hhead
        obtain rfl := Option.some.inj
          ((program.run_of_moves (.handOver hi (hnext _ ch) hwaiters)).symm.trans h)
        have hne := hdiffer hi hrole
        have hne' := hdiffer hj (by decide)
        obtain ⟨hget, hmodify⟩ := Program.woken_entry (p := program) after
          (Program.not_waiting hi (hnext _ ch)) hj rfl
        obtain ⟨hlt, -⟩ := List.getElem?_eq_some_iff.mp hget
        refine ⟨j, m, .start .woken1, th, hne', ?_, ?_, rfl, hth⟩
        · show ((s.threads.set i after).modify j program.wake)[j]? = _
          rw [hmodify, List.getElem?_set_self hlt]
          rfl
        · show ((s.threads.set i after).modify j program.wake)[m]? = _
          rw [hmodify, List.getElem?_set_ne hne', List.getElem?_set_ne hne, hm]
  | _ => exact hgrant.elim

end Deadlock

/-- Two calls of `start` at the same time: each takes a permit, then each waits for the other's. -/
def twoStarts : List Action :=
  [.start, .start, .run 0 .success, .run 1 .success, .run 0 .success, .run 1 .success]

end AsyncSocketStream
end Routn
