import Routn.Foundation.Transition
import Routn.IoManager.Coherence

/-!
# Growing the table

Many threads call `addEvent`.  Each looks under the read lock whether the descriptor is in the
table; if it is not, it calls `contextResize` under the write lock, without looking again.  A
context object is the number under which it was constructed.

`contextResize` also cuts a table that is longer.  Two threads whose descriptors are both missing
may therefore undo each other's work, when the one with the smaller descriptor takes the write lock
last.
-/

namespace Routn

open Foundation

namespace IOManager
namespace Growth

/-- Where a thread is in `addEvent`. -/
inductive Point
  | idle
  /-- The descriptor was not in the table. -/
  | growing (fd : Nat)
  /-- `temp_ctx` is the object. -/
  | holding (fd ctx : Nat)
deriving DecidableEq, Repr

inductive Action
  /-- `addEvent` up to the unlock of the read lock. -/
  | addEvent (thread fd : Nat)
  /-- The section under the write lock. -/
  | resize (thread : Nat)
  /-- The section under the lock of `temp_ctx`, and the return. -/
  | finish (thread : Nat)
deriving DecidableEq, Repr

/-- A call of `addEvent` that has returned: the object it has used, and the entry of the table. -/
structure Finished where
  fd : Nat
  ctx : Nat
  entry : Option Nat
deriving DecidableEq, Repr

/-- `past` holds the earlier tables, the last one first; `finished` is a record too. -/
structure State where
  fdContexts : List Nat
  objects : Nat
  threads : List Point
  past : List (List Nat)
  finished : List Finished
deriving DecidableEq, Repr

/-- The constructor of `IOManager` calls `contextResize(32)`. -/
def init (threads : Nat) : State :=
  ⟨contextResize id 32 [], 32, List.replicate threads .idle, [], []⟩

/-- `contextResize` constructs the objects that are missing. -/
def resized (s : State) (size : Nat) : List Nat :=
  contextResize (fun i => s.objects + (i - s.fdContexts.length)) size s.fdContexts

def step (s : State) : Action → Option State
  | .addEvent thread fd =>
      if s.threads[thread]? = some .idle then
        some { s with
          threads := s.threads.set thread
            (match s.fdContexts[fd]? with
            | some ctx => .holding fd ctx
            | none => .growing fd) }
      else none
  | .resize thread =>
      match s.threads[thread]? with
      | some (.growing fd) =>
          match (resized s (fd * 3 / 2))[fd]? with
          | some ctx => some { s with
              fdContexts := resized s (fd * 3 / 2)
              objects := s.objects + (fd * 3 / 2 - s.fdContexts.length)
              threads := s.threads.set thread (.holding fd ctx)
              past := s.fdContexts :: s.past }
          | none => none
      | _ => none
  | .finish thread =>
      match s.threads[thread]? with
      | some (.holding fd ctx) => some { s with
          threads := s.threads.set thread .idle
          finished := ⟨fd, ctx, s.fdContexts[fd]?⟩ :: s.finished }
      | _ => none

/-- The table has only grown, every entry is the object that it was from the beginning, and every
`addEvent` has returned with the entry of its descriptor. -/
def Stable (s : State) : Prop :=
  (s.fdContexts :: s.past).Pairwise (fun later earlier => earlier <+: later) ∧
    ∀ f ∈ s.finished, f.entry = some f.ctx

/-- The descriptor for which the thread is about to call `contextResize`. -/
def missing (s : State) (thread : Nat) : Option Nat :=
  match s.threads[thread]? with
  | some (.growing fd) => some fd
  | _ => none

/-- `contextResize` is not called with a size below that of the table. -/
def NotShrinking (s : State) : Action → Prop
  | .resize thread => ∀ fd ∈ missing s thread, s.fdContexts.length ≤ fd * 3 / 2
  | _ => True

instance (s : State) : ∀ a, Decidable (NotShrinking s a)
  | .resize thread => inferInstanceAs (Decidable (∀ fd ∈ missing s thread, _))
  | .addEvent _ _ => inferInstanceAs (Decidable True)
  | .finish _ => inferInstanceAs (Decidable True)

/-- Every step is one of these. -/
inductive Moves (s : State) : Action → State → Prop
  | found {thread fd ctx : Nat} (hctx : s.fdContexts[fd]? = some ctx) :
      Moves s (.addEvent thread fd)
        { s with threads := s.threads.set thread (.holding fd ctx) }
  | notFound {thread fd : Nat} (hctx : s.fdContexts[fd]? = none) :
      Moves s (.addEvent thread fd) { s with threads := s.threads.set thread (.growing fd) }
  | resize {thread fd ctx : Nat} (hpoint : s.threads[thread]? = some (.growing fd))
      (hctx : (resized s (fd * 3 / 2))[fd]? = some ctx) :
      Moves s (.resize thread) { s with
        fdContexts := resized s (fd * 3 / 2)
        objects := s.objects + (fd * 3 / 2 - s.fdContexts.length)
        threads := s.threads.set thread (.holding fd ctx)
        past := s.fdContexts :: s.past }
  | finish {thread fd ctx : Nat} (hpoint : s.threads[thread]? = some (.holding fd ctx)) :
      Moves s (.finish thread) { s with
        threads := s.threads.set thread .idle
        finished := ⟨fd, ctx, s.fdContexts[fd]?⟩ :: s.finished }

theorem moves_of_step {s s' : State} {a : Action} (h : step s a = some s') : Moves s a s' := by
  cases a with
  | addEvent thread fd =>
      simp only [step, Option.ite_none_right_eq_some, Option.some.injEq] at h
      obtain ⟨-, rfl⟩ := h
      cases hctx : s.fdContexts[fd]? with
      | none => exact .notFound hctx
      | some ctx => exact .found hctx
  | resize thread =>
      simp only [step] at h
      split at h
      · next fd hpoint =>
          split at h
          · next ctx hctx =>
              obtain rfl := Option.some.inj h
              exact .resize hpoint hctx
          · cases h
      · cases h
  | finish thread =>
      simp only [step] at h
      split at h
      · next fd ctx hpoint =>
          obtain rfl := Option.some.inj h
          exact .finish hpoint
      · cases h

/-! ## One resize -/

theorem length_contextResize {α : Type} (make : Nat → α) (size : Nat) (fdContexts : List α) :
    (contextResize make size fdContexts).length = size := by
  rw [contextResize, List.length_append, List.length_take, List.length_map, List.length_range']
  omega

/-- The old table is a part of the new one, in front, exactly if it is not longer. -/
theorem contextResize_grows_iff {α : Type} (make : Nat → α) (size : Nat) (fdContexts : List α) :
    fdContexts <+: contextResize make size fdContexts ↔ fdContexts.length ≤ size := by
  constructor
  · intro hle
    have hlength := hle.length_le
    rwa [length_contextResize] at hlength
  · intro hle
    rw [contextResize, List.take_of_length_le hle]
    exact List.prefix_append ..

/-! ## Runs -/

structure Inv (s : State) : Prop where
  size : 32 ≤ s.fdContexts.length
  growing : ∀ fd, Point.growing fd ∈ s.threads → 32 ≤ fd
  holding : Stable s → ∀ fd ctx, Point.holding fd ctx ∈ s.threads → s.fdContexts[fd]? = some ctx

variable {s s' : State} {a : Action}

theorem inv_init (threads : Nat) : Inv (init threads) where
  size := by
    show 32 ≤ (contextResize id 32 []).length
    rw [length_contextResize]
  growing fd hfd := by cases List.eq_of_mem_replicate hfd
  holding _ fd ctx hfd := by cases List.eq_of_mem_replicate hfd

/-- What was lost is not regained. -/
theorem stable_of_step (hstep : step s a = some s') (h : Stable s') : Stable s := by
  cases moves_of_step hstep with
  | found => exact h
  | notFound => exact h
  | resize => exact ⟨h.1.tail, h.2⟩
  | finish => exact ⟨h.1, fun f hf => h.2 f (List.mem_cons_of_mem _ hf)⟩

theorem inv_of_step (hs : Inv s) (hstep : step s a = some s') : Inv s' := by
  have hlost := stable_of_step hstep
  cases moves_of_step hstep with
  | found hctx =>
      refine ⟨hs.size, fun fd hfd => ?_, fun hstable fd ctx hfd => ?_⟩
      · rcases List.mem_or_eq_of_mem_set hfd with hfd | heq
        · exact hs.growing fd hfd
        · cases heq
      · rcases List.mem_or_eq_of_mem_set hfd with hfd | heq
        · exact hs.holding (hlost hstable) fd ctx hfd
        · cases heq
          exact hctx
  | notFound hctx =>
      refine ⟨hs.size, fun fd hfd => ?_, fun hstable fd ctx hfd => ?_⟩
      · rcases List.mem_or_eq_of_mem_set hfd with hfd | heq
        · exact hs.growing fd hfd
        · cases heq
          exact hs.size.trans (List.getElem?_eq_none_iff.mp hctx)
      · rcases List.mem_or_eq_of_mem_set hfd with hfd | heq
        · exact hs.holding (hlost hstable) fd ctx hfd
        · cases heq
  | @resize thread fd ctx hpoint hctx =>
      have hfd := hs.growing fd (List.mem_of_getElem? hpoint)
      refine ⟨?_, fun fd' hfd' => ?_, fun hstable fd' ctx' hfd' => ?_⟩
      · show 32 ≤ (resized s (fd * 3 / 2)).length
        rw [resized, length_contextResize]
        omega
      · rcases List.mem_or_eq_of_mem_set hfd' with hfd' | heq
        · exact hs.growing fd' hfd'
        · cases heq
      · rcases List.mem_or_eq_of_mem_set hfd' with hfd' | heq
        · -- The old entries are in front of the new ones.
          have hold := hs.holding (hlost hstable) fd' ctx' hfd'
          have hgrows : s.fdContexts <+: resized s (fd * 3 / 2) :=
            List.rel_of_pairwise_cons hstable.1 List.mem_cons_self
          obtain ⟨new, hnew⟩ := hgrows
          obtain ⟨hlt, -⟩ := List.getElem?_eq_some_iff.mp hold
          show (resized s (fd * 3 / 2))[fd']? = some ctx'
          rw [← hnew, List.getElem?_append_left hlt, hold]
        · cases heq
          exact hctx
  | @finish thread fd ctx hpoint =>
      refine ⟨hs.size, fun fd' hfd' => ?_, fun hstable fd' ctx' hfd' => ?_⟩
      · rcases List.mem_or_eq_of_mem_set hfd' with hfd' | heq
        · exact hs.growing fd' hfd'
        · cases heq
      · rcases List.mem_or_eq_of_mem_set hfd' with hfd' | heq
        · exact hs.holding (hlost hstable) fd' ctx' hfd'
        · cases heq

theorem stable_step_iff (hs : Inv s) (h : Stable s) (hstep : step s a = some s') :
    Stable s' ↔ NotShrinking s a := by
  cases moves_of_step hstep with
  | found => exact iff_of_true h trivial
  | notFound => exact iff_of_true h trivial
  | @resize thread fd ctx hpoint hctx =>
      have hmissing : missing s thread = some fd := by rw [missing, hpoint]
      have hok : NotShrinking s (.resize thread) ↔ s.fdContexts.length ≤ fd * 3 / 2 := by
        simp [NotShrinking, hmissing]
      rw [hok, ← contextResize_grows_iff fun i => s.objects + (i - s.fdContexts.length)]
      constructor
      · exact fun hstable => List.rel_of_pairwise_cons hstable.1 List.mem_cons_self
      · intro hgrows
        refine ⟨List.pairwise_cons.mpr ⟨fun earlier hearlier => ?_, h.1⟩, h.2⟩
        rcases List.mem_cons.mp hearlier with rfl | hearlier
        · exact hgrows
        · exact (List.rel_of_pairwise_cons h.1 hearlier).trans hgrows
  | @finish thread fd ctx hpoint =>
      refine iff_of_true ⟨h.1, fun f hf => ?_⟩ trivial
      rcases List.mem_cons.mp hf with rfl | hf
      · exact hs.holding h fd ctx (List.mem_of_getElem? hpoint)
      · exact h.2 f hf

/-- **The table only grows**, its entries stay, and every `addEvent` returns with the entry of its
descriptor, exactly if `contextResize` is never called with a size below that of the table. -/
theorem stable_iff_runMeets (threads : Nat) (actions : List Action) {s : State}
    (hrun : runActions step actions (init threads) = some s) :
    Stable s ↔ runMeets step NotShrinking actions (init threads) :=
  runMeets_iff (fun hs hstep => inv_of_step hs hstep) (fun _ hstep h => stable_of_step hstep h)
    (fun hs h hstep => stable_step_iff hs h hstep) actions (inv_init threads)
    ⟨List.pairwise_singleton .., fun _ hf => absurd hf List.not_mem_nil⟩ hrun

/-- Two descriptors are missing, and the larger one comes last. -/
def smallerFirst : List Action :=
  [.addEvent 0 50, .addEvent 1 32, .resize 1, .resize 0, .finish 0, .finish 1]

theorem stable_smallerFirst : ∃ s, runActions step smallerFirst (init 2) = some s ∧
    s.fdContexts.length = 75 ∧ Stable s :=
  ⟨_, rfl, by decide, (stable_iff_runMeets 2 smallerFirst rfl).mpr (by decide)⟩

/-- The smaller one comes last, and the entry of the larger one is gone before its `addEvent` has
returned. -/
def smallerLast : List Action :=
  [.addEvent 0 50, .addEvent 1 32, .resize 0, .resize 1, .finish 0]

theorem not_stable_smallerLast :
    ¬ ∀ (threads : Nat) (actions : List Action) (s : State),
      runActions step actions (init threads) = some s → Stable s := by
  intro hall
  obtain ⟨s, hrun, hfinished⟩ : ∃ s, runActions step smallerLast (init 2) = some s ∧
      s.finished = [⟨50, 50, none⟩] := ⟨_, rfl, by decide⟩
  have hentry := (hall 2 smallerLast s hrun).2 ⟨50, 50, none⟩ (by simp [hfinished])
  cases hentry

end Growth
end IOManager
end Routn
