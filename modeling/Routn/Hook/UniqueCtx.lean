import Routn.Foundation.Sections

/-!
# One context for each descriptor

`FdManager::get` looks for a context under the read lock.  When there is none and it is to make one,
it gives the lock up, takes the write lock, and stores a new context without looking again: a second
creator replaces the context of the first, which has been returned, and what is set in it is lost.

The table grows to one and a half times the descriptor.  Its size is compared as an `int`: once it
has grown beyond that, every descriptor seems to be outside, and the table is resized to less.

A context is its address.  A descriptor is not negative; `get(-1)` returns at once.
-/

namespace Routn
namespace Hook
namespace Contexts

open Foundation Code

/-! ## The manager -/

structure FdManager where
  datas : List (Option Nat)
  /-- How many contexts have been made, which is the address of the next one. -/
  made : Nat
  /-- The contexts that `get` has returned, each since the last `del` of its descriptor. -/
  results : List (Nat × Nat)
deriving DecidableEq, Repr

namespace FdManager

def new : FdManager := ⟨List.replicate 64 none, 0, []⟩

/-- `(int)_datas.size() <= fd`.  As an `int` the size is negative in the upper half. -/
def outside (mgr : FdManager) (fd : Nat) : Bool :=
  let size := mgr.datas.length % 2 ^ 32
  2 ^ 31 ≤ size || size ≤ fd

/-- `_datas[fd]`. -/
def slot (mgr : FdManager) (fd : Nat) : Option Nat := mgr.datas[fd]?.join

/-- How long the table is when a context for the descriptor is stored. -/
def grown (mgr : FdManager) (fd : Nat) : Nat :=
  if mgr.outside fd then fd * 3 / 2 else mgr.datas.length

/-- `_datas.resize(n)`. -/
def resize (datas : List (Option Nat)) (n : Nat) : List (Option Nat) :=
  datas.take n ++ List.replicate (n - datas.length) none

/-- `get` returns what the slot has. -/
def found (mgr : FdManager) (fd : Nat) : FdManager :=
  match mgr.slot fd with
  | some ctx => { mgr with results := mgr.results ++ [(fd, ctx)] }
  | none => mgr

/-- The section under the write lock of `get`.  A store outside of the table has no effect that can
be relied on; here it has none. -/
def store (mgr : FdManager) (fd : Nat) : FdManager where
  datas :=
    (if mgr.outside fd then resize mgr.datas (fd * 3 / 2) else mgr.datas).set fd (some mgr.made)
  made := mgr.made + 1
  results := mgr.results ++ [(fd, mgr.made)]

def del (mgr : FdManager) (fd : Nat) : FdManager :=
  { mgr with
    datas := if mgr.outside fd then mgr.datas else mgr.datas.set fd none
    results := mgr.results.filter (·.1 ≠ fd) }

end FdManager

/-! ## The calls -/

inductive Call
  | get (fd : Nat) (auto_create : Bool)
  | del (fd : Nat)
deriving DecidableEq, Repr

/-- What a call does next. -/
inductive Phase
  /-- The read lock of `get`. -/
  | looking (fd : Nat) (auto_create : Bool)
  /-- The write lock of `get`. -/
  | storing (fd : Nat)
  | deleting (fd : Nat)
  | returned
deriving DecidableEq, Repr

def code : Code FdManager Unit Call Phase where
  enter
    | .get fd auto_create => .looking fd auto_create
    | .del fd => .deleting fd
  next mgr _
    | .looking fd auto_create =>
        if mgr.outside fd then
          if auto_create = false then some (mgr, .returned) else some (mgr, .storing fd)
        else if (mgr.slot fd).isSome || !auto_create then some (mgr.found fd, .returned)
        else some (mgr, .storing fd)
    | .storing fd => some (mgr.store fd, .returned)
    | .deleting fd => some (mgr.del fd, .returned)
    | .returned => none

abbrev Run := Code.State FdManager Phase

def start : Run := ⟨.new, []⟩

/-- **One context.**  Since the last `del` of a descriptor `get` has returned one context for it,
and that is the one in the table, so that no change of the table has lost it. -/
structure UniqueCtx (s : Run) : Prop where
  same : ∀ fd a b, (fd, a) ∈ s.shared.results → (fd, b) ∈ s.shared.results → a = b
  kept : ∀ fd a, (fd, a) ∈ s.shared.results → s.shared.slot fd = some a

/-- A context is stored for a descriptor for which none has been returned since the last `del`, and
the table has, after it has been resized, a slot for this descriptor and for each one for which a
context has been returned. -/
def FirstOnly (s : Run) (a : Act Unit Call) : Prop :=
  ∀ i fd, a = .run i () → s.threads[i]? = some (.storing fd) →
    (∀ r ∈ s.shared.results, r.1 ≠ fd ∧ r.1 < s.shared.grown fd) ∧ fd < s.shared.grown fd

/-! ## What the sections do -/

namespace FdManager

variable {mgr : FdManager} {fd i ctx : Nat}

theorem slot_eq_some_iff : mgr.slot i = some ctx ↔ mgr.datas[i]? = some (some ctx) := by
  unfold slot
  exact Option.join_eq_some_iff

theorem lt_of_slot (h : mgr.slot i = some ctx) : i < mgr.datas.length :=
  (List.getElem?_eq_some_iff.mp (slot_eq_some_iff.mp h)).1

theorem length_resize (datas : List (Option Nat)) (n : Nat) : (resize datas n).length = n := by
  simp only [resize, List.length_append, List.length_take, List.length_replicate]
  omega

theorem getElem?_resize {datas : List (Option Nat)} {n : Nat} (hi : i < datas.length)
    (hn : i < n) : (resize datas n)[i]? = datas[i]? := by
  have hlt : i < (datas.take n).length := by
    rw [List.length_take]
    omega
  rw [resize, List.getElem?_append_left hlt, List.getElem?_take_of_lt hn]

theorem length_store : (mgr.store fd).datas.length = mgr.grown fd := by
  unfold store grown
  rw [List.length_set]
  split
  · exact length_resize _ _
  · rfl

@[simp] theorem made_store : (mgr.store fd).made = mgr.made + 1 := rfl

theorem slot_store_self (hfd : fd < mgr.grown fd) : (mgr.store fd).slot fd = some mgr.made := by
  rw [← length_store] at hfd
  apply slot_eq_some_iff.mpr
  unfold store at hfd ⊢
  rw [List.length_set] at hfd
  exact List.getElem?_set_self hfd

/-- The other slots that a shorter table has are as they were. -/
theorem slot_store_of_ne (hne : i ≠ fd) (hi : i < mgr.datas.length) (hgrown : i < mgr.grown fd) :
    (mgr.store fd).slot i = mgr.slot i := by
  unfold slot store
  rw [List.getElem?_set_ne (Ne.symm hne)]
  unfold grown at hgrown
  split
  · next hsize =>
      rw [if_pos hsize] at hgrown
      rw [getElem?_resize hi hgrown]
  · rfl

/-- What is stored after a store is the new context, or was stored before it. -/
theorem slot_of_slot_store (h : (mgr.store fd).slot i = some ctx) :
    ctx = mgr.made ∨ mgr.slot i = some ctx := by
  by_cases heq : i = fd
  · subst heq
    have hlt := lt_of_slot h
    rw [length_store] at hlt
    rw [slot_store_self hlt] at h
    exact .inl (Option.some.inj h).symm
  · have hgrown := lt_of_slot h
    rw [length_store] at hgrown
    by_cases hi : i < mgr.datas.length
    · rw [slot_store_of_ne heq hi hgrown] at h
      exact .inr h
    · -- A slot that is new has nothing.
      have hget := slot_eq_some_iff.mp h
      unfold store at hget
      rw [List.getElem?_set_ne (Ne.symm heq)] at hget
      split at hget
      · rw [resize, List.getElem?_append_right (by rw [List.length_take]; omega),
          List.getElem?_replicate] at hget
        split at hget <;> cases hget
      · exact absurd (List.getElem?_eq_some_iff.mp hget).1 hi

theorem slot_del_of_ne (hne : i ≠ fd) : (mgr.del fd).slot i = mgr.slot i := by
  unfold slot del
  dsimp only
  split
  · rfl
  · rw [List.getElem?_set_ne (Ne.symm hne)]

theorem slot_of_slot_del (h : (mgr.del fd).slot i = some ctx) : mgr.slot i = some ctx := by
  have hget := slot_eq_some_iff.mp h
  unfold del at hget
  dsimp only at hget
  split at hget
  · exact slot_eq_some_iff.mpr hget
  · rcases getElem?_of_set hget with ⟨-, hnone⟩ | ⟨-, hold⟩
    · cases hnone
    · exact slot_eq_some_iff.mpr hold

@[simp] theorem made_del : (mgr.del fd).made = mgr.made := rfl

theorem mem_results_del {r : Nat × Nat} :
    r ∈ (mgr.del fd).results ↔ r ∈ mgr.results ∧ r.1 ≠ fd := by
  simp [del]

theorem mem_results_store {r : Nat × Nat} :
    r ∈ (mgr.store fd).results ↔ r ∈ mgr.results ∨ r = (fd, mgr.made) := by
  simp [store]

theorem mem_results_found {r : Nat × Nat} :
    r ∈ (mgr.found fd).results ↔ r ∈ mgr.results ∨ r.1 = fd ∧ mgr.slot fd = some r.2 := by
  obtain ⟨fd', ctx⟩ := r
  unfold found
  cases hslot : mgr.slot fd with
  | none => simp
  | some ctx' => simp [eq_comm]

@[simp] theorem slot_found : (mgr.found fd).slot i = mgr.slot i := by
  unfold found
  split <;> rfl

@[simp] theorem made_found : (mgr.found fd).made = mgr.made := by
  unfold found
  split <;> rfl

end FdManager

/-- The kinds of sections. -/
inductive Goes (mgr : FdManager) : Phase → FdManager → Prop
  | on {th : Phase} (hstoring : ∀ fd, th ≠ .storing fd) : Goes mgr th mgr
  | found (fd : Nat) (auto_create : Bool) : Goes mgr (.looking fd auto_create) (mgr.found fd)
  | store (fd : Nat) : Goes mgr (.storing fd) (mgr.store fd)
  | del (fd : Nat) : Goes mgr (.deleting fd) (mgr.del fd)

theorem goes_of_next {mgr mgr' : FdManager} {th th' : Phase} {ch : Unit}
    (h : code.next mgr ch th = some (mgr', th')) : Goes mgr th mgr' := by
  cases th with
  | looking fd auto_create =>
      simp only [code] at h
      split at h
      · split at h
        · obtain ⟨rfl, rfl⟩ := Prod.mk.inj (Option.some.inj h)
          exact .on (by simp)
        · obtain ⟨rfl, rfl⟩ := Prod.mk.inj (Option.some.inj h)
          exact .on (by simp)
      split at h
      · obtain ⟨rfl, rfl⟩ := Prod.mk.inj (Option.some.inj h)
        exact .found fd auto_create
      · obtain ⟨rfl, rfl⟩ := Prod.mk.inj (Option.some.inj h)
        exact .on (by simp)
  | storing fd =>
      obtain ⟨rfl, rfl⟩ := Prod.mk.inj (Option.some.inj h)
      exact .store fd
  | deleting fd =>
      obtain ⟨rfl, rfl⟩ := Prod.mk.inj (Option.some.inj h)
      exact .del fd
  | returned => cases h

/-! ## The invariant of every run -/

/-- The addresses that are in use have been given out. -/
structure Made (mgr : FdManager) : Prop where
  slot : ∀ {fd ctx}, mgr.slot fd = some ctx → ctx < mgr.made
  result : ∀ r ∈ mgr.results, r.2 < mgr.made

section Steps

variable {s s' : Run} {a : Act Unit Call} {mgr mgr' : FdManager} {th : Phase} {fd : Nat}

theorem Goes.made (hmgr : Made mgr) (h : Goes mgr th mgr') : Made mgr' := by
  cases h with
  | on => exact hmgr
  | found fd auto_create =>
      constructor
      · intro fd' ctx hslot
        rw [FdManager.slot_found] at hslot
        rw [FdManager.made_found]
        exact hmgr.slot hslot
      · intro r hr
        rw [FdManager.made_found]
        rcases FdManager.mem_results_found.mp hr with hold | ⟨-, hslot⟩
        · exact hmgr.result r hold
        · exact hmgr.slot hslot
  | store fd =>
      constructor
      · intro fd' ctx hslot
        rw [FdManager.made_store]
        rcases FdManager.slot_of_slot_store hslot with rfl | hold
        · exact Nat.lt_succ_self _
        · exact Nat.lt_succ_of_lt (hmgr.slot hold)
      · intro r hr
        rw [FdManager.made_store]
        rcases FdManager.mem_results_store.mp hr with hold | rfl
        · exact Nat.lt_succ_of_lt (hmgr.result r hold)
        · exact Nat.lt_succ_self _
  | del fd =>
      constructor
      · intro fd' ctx hslot
        rw [FdManager.made_del]
        exact hmgr.slot (FdManager.slot_of_slot_del hslot)
      · intro r hr
        rw [FdManager.made_del]
        exact hmgr.result r (FdManager.mem_results_del.mp hr).1

theorem made_start : Made start.shared where
  slot {fd ctx} h := by
    rw [FdManager.slot_eq_some_iff, start, FdManager.new, List.getElem?_replicate] at h
    split at h <;> cases h
  result r hr := by cases hr

theorem made_step (hs : Made s.shared) (h : code.step s a = some s') : Made s'.shared := by
  cases moves_of_step h with
  | call k => exact hs
  | run hi hnext => exact (goes_of_next hnext).made hs

/-! ## When there is one context -/

/-- What is in the table is one for each descriptor. -/
theorem UniqueCtx.of_kept (h : ∀ fd a, (fd, a) ∈ s.shared.results → s.shared.slot fd = some a) :
    UniqueCtx s where
  same fd a b ha hb := Option.some.inj ((h fd a ha).symm.trans (h fd b hb))
  kept := h

theorem UniqueCtx.found (hs : UniqueCtx s) (threads : List Phase) :
    UniqueCtx ⟨s.shared.found fd, threads⟩ := by
  apply UniqueCtx.of_kept
  intro fd' ctx hr
  rw [FdManager.slot_found]
  rcases FdManager.mem_results_found.mp hr with hold | ⟨rfl, hslot⟩
  · exact hs.kept fd' ctx hold
  · exact hslot

theorem UniqueCtx.del (hs : UniqueCtx s) (threads : List Phase) :
    UniqueCtx ⟨s.shared.del fd, threads⟩ := by
  apply UniqueCtx.of_kept
  intro fd' ctx hr
  obtain ⟨hold, hne⟩ := FdManager.mem_results_del.mp hr
  rw [FdManager.slot_del_of_ne hne]
  exact hs.kept fd' ctx hold

/-- **A store** keeps what has been returned exactly if it overwrites none of it and cuts none of it
off. -/
theorem UniqueCtx.store_iff (hmade : Made s.shared) (hs : UniqueCtx s) (threads : List Phase) :
    UniqueCtx ⟨s.shared.store fd, threads⟩ ↔
      (∀ r ∈ s.shared.results, r.1 ≠ fd ∧ r.1 < s.shared.grown fd) ∧ fd < s.shared.grown fd := by
  have hnew : (fd, s.shared.made) ∈ (s.shared.store fd).results :=
    FdManager.mem_results_store.mpr (.inr rfl)
  constructor
  · intro hs'
    refine ⟨fun r hr => ⟨?_, ?_⟩, ?_⟩
    · -- Two contexts for one descriptor: the new one has an address of its own.
      rintro rfl
      have hold : r ∈ (s.shared.store r.1).results := FdManager.mem_results_store.mpr (.inl hr)
      have heq := hs'.same r.1 r.2 s.shared.made hold hnew
      exact absurd heq (Nat.ne_of_lt (hmade.result r hr))
    · have hslot := hs'.kept r.1 r.2 (FdManager.mem_results_store.mpr (.inl hr))
      have hlt := FdManager.lt_of_slot hslot
      rwa [FdManager.length_store] at hlt
    · have hlt := FdManager.lt_of_slot (hs'.kept fd _ hnew)
      rwa [FdManager.length_store] at hlt
  · rintro ⟨hothers, hfd⟩
    apply UniqueCtx.of_kept
    intro fd' ctx hr
    rcases FdManager.mem_results_store.mp hr with hold | hlast
    · obtain ⟨hne, hgrown⟩ := hothers _ hold
      have hslot := hs.kept fd' ctx hold
      rw [FdManager.slot_store_of_ne hne (FdManager.lt_of_slot hslot) hgrown]
      exact hslot
    · obtain ⟨rfl, rfl⟩ := Prod.mk.inj hlast
      exact FdManager.slot_store_self hfd

theorem UniqueCtx.step_iff (hmade : Made s.shared) (hs : UniqueCtx s)
    (h : code.step s a = some s') : UniqueCtx s' ↔ FirstOnly s a := by
  cases moves_of_step h with
  | call k => exact iff_of_true ⟨hs.same, hs.kept⟩ fun i fd h => by cases h
  | @run i ch th th' mgr' hi hnext =>
      have hfirst : FirstOnly s (.run i ch) ↔ ∀ fd, th = .storing fd →
          (∀ r ∈ s.shared.results, r.1 ≠ fd ∧ r.1 < s.shared.grown fd) ∧
            fd < s.shared.grown fd := by
        unfold FirstOnly
        constructor
        · intro hall fd heq
          exact hall i fd rfl (heq ▸ hi)
        · rintro hall j fd ⟨⟩ hj
          exact hall fd (Option.some.inj (hi.symm.trans hj))
      rw [hfirst]
      cases goes_of_next hnext with
      | on hstoring =>
          exact iff_of_true ⟨hs.same, hs.kept⟩ fun fd heq => absurd heq (hstoring fd)
      | found fd auto_create => exact iff_of_true (hs.found _) fun fd' heq => by cases heq
      | store fd =>
          rw [hs.store_iff hmade]
          constructor
          · rintro hok fd' ⟨⟩
            exact hok
          · intro hok
            exact hok fd rfl
      | del fd => exact iff_of_true (hs.del _) fun fd' heq => by cases heq

end Steps

/-- **When there is one context for each descriptor.**  In every run of `get` and `del`, in every
state of it: exactly if every context that is stored is the first one for its descriptor, in a table
that still has the others. -/
theorem uniqueCtx_iff (as : List (Act Unit Call)) :
    runAlways code.step UniqueCtx as start ↔ runMeets code.step FirstOnly as start := by
  refine runAlways_iff (I := fun s => Made s.shared) (fun hs hstep => made_step hs hstep)
    (fun hmade hs hstep => hs.step_iff hmade hstep) ?_ as made_start ?_
  · -- A call that is about to store is never refused.
    rintro s a hrefused i fd rfl hi
    simp [Code.step, hi, code] at hrefused
  · apply UniqueCtx.of_kept
    intro fd ctx hr
    cases hr

/-- Two creators that look before either of them has stored. -/
def twoCreators : List (Act Unit Call) :=
  [.call (.get 5 true), .call (.get 5 true), .run 0 (), .run 1 (), .run 0 (), .run 1 ()]

theorem not_uniqueCtx_twoCreators : ¬ runAlways code.step UniqueCtx twoCreators start := by
  intro h
  have hrun : (runActions code.step twoCreators start).map (·.shared.results) =
      some [(5, 0), (5, 1)] := by decide
  obtain ⟨s, hs, hresults⟩ := Option.map_eq_some_iff.mp hrun
  have hboth := (h.end hs).same 5 0 1
  rw [hresults] at hboth
  exact absurd (hboth (by decide) (by decide)) (by decide)

end Contexts
end Hook
end Routn
