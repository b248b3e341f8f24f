import Mathlib.Data.List.Chain
import Routn.Foundation.Sections

/-!
# `ConfigVar::setValue` and its listeners

`setValue` compares and notifies under the read lock, releases it, and stores under the write lock.
Two setters may both compare with the old value; then both notify a change from it, and the value
that is stored last need not be the one that was notified last.  A listener that keeps what it is
told, as those of the request and response sizes do, then disagrees with the variable for good.

A listener is the record of its notifications, and each locked section is one step.
-/

namespace Routn

open Foundation

/-- `_temp_val` and `_m_callbacks`, each callback with the old and new values it was called with. -/
structure ConfigVar (T : Type) where
  temp_val : T
  callbacks : List (Nat × List (T × T))
deriving DecidableEq, Repr

namespace ConfigVar

open Code

variable {T : Type}

/-- `addListener`; keys grow, so the new one is the last of the map. -/
def addListener (s_fun_id : Nat) (var : ConfigVar T) : Nat × ConfigVar T :=
  (s_fun_id + 1, { var with callbacks := var.callbacks ++ [(s_fun_id + 1, [])] })

def delListener (key : Nat) (var : ConfigVar T) : ConfigVar T :=
  { var with callbacks := var.callbacks.filter fun c => c.1 ≠ key }

/-- A variable with this default value and its listeners: `none` adds one, a key takes one away. -/
def listening (value : T) : List (Option Nat) → Nat × ConfigVar T
  | [] => (0, ⟨value, []⟩)
  | none :: earlier => addListener (listening value earlier).1 (listening value earlier).2
  | some key :: earlier =>
      ((listening value earlier).1, delListener key (listening value earlier).2)

/-- The callbacks are called one after the other. -/
def notify (var : ConfigVar T) (v : T) : ConfigVar T :=
  { var with callbacks := var.callbacks.map fun c => (c.1, c.2 ++ [(var.temp_val, v)]) }

/-- Where a call of `setValue` is. -/
inductive Phase (T : Type)
  | called (v : T)
  /-- The read lock has been released, and the listeners have been notified. -/
  | storing (v : T)
  | returned
deriving DecidableEq, Repr

/-- The sections of `setValue`. -/
def setValue [DecidableEq T] : Code (ConfigVar T) Unit T (Phase T) where
  enter v := .called v
  next var _
    | .called v =>
        if v = var.temp_val then some (var, .returned) else some (var.notify v, .storing v)
    | .storing v => some ({ var with temp_val := v }, .returned)
    | .returned => none

abbrev Setters (T : Type) := Code.State (ConfigVar T) (Phase T)

/-- The listeners are there, and `setValue` has not been called. -/
def start (value : T) (listeners : List (Option Nat)) : Setters T :=
  ⟨(listening value listeners).2, []⟩

/-! ## What listeners rely on -/

/-- Each old value is the new value before it. -/
def Chained (log : List (T × T)) : Prop := log.IsChain fun n m => n.2 = m.1

def lastNew (log : List (T × T)) : Option T := log.getLast?.map Prod.snd

/-- The notifications of every listener form a chain, and when all calls have returned, the last one
told it the value that is stored. -/
structure Agrees (s : Setters T) : Prop where
  chained : ∀ c ∈ s.shared.callbacks, Chained c.2
  stored : (∀ th ∈ s.threads, th = .returned) →
    ∀ c ∈ s.shared.callbacks, ∀ v, lastNew c.2 = some v → v = s.shared.temp_val

/-- Nobody notifies a change while a change that has been notified is not stored. -/
def OneAtATime (s : Setters T) (a : Act Unit T) : Prop :=
  ∀ i v, a = .run i () → s.threads[i]? = some (.called v) → v ≠ s.shared.temp_val →
    ∀ w, Phase.storing w ∉ s.threads

/-! ## The order of notifications and stores -/

section Logs

variable {log : List (T × T)} {n : T × T}

theorem lastNew_append : lastNew (log ++ [n]) = some n.2 := by
  simp [lastNew]

theorem chained_append : Chained (log ++ [n]) ↔
    Chained log ∧ ∀ v, lastNew log = some v → v = n.1 := by
  unfold Chained lastNew
  rw [List.isChain_append]
  refine and_congr_right fun _ => ⟨fun h v hv => ?_, fun h => ⟨List.isChain_singleton n, ?_⟩⟩
  · obtain ⟨m, hm, rfl⟩ := Option.map_eq_some_iff.mp hv
    exact h.2 m hm n rfl
  · rintro m hm _ ⟨rfl⟩
    exact h m.2 (by rw [hm]; rfl)

end Logs

theorem log_listening (value : T) (listeners : List (Option Nat)) :
    ∀ c ∈ (listening value listeners).2.callbacks, c.2 = [] := by
  induction listeners with
  | nil => simp [listening]
  | cons l earlier ih =>
      cases l with
      | none =>
          intro c hc
          rcases List.mem_append.mp hc with hold | hnew
          · exact ih c hold
          · rw [List.mem_singleton.mp hnew]
      | some key => exact fun c hc => ih c (List.mem_filter.mp hc).1

/-- While all chains are whole, at most one change is notified and not stored, and it is what every
listener was told last. -/
structure Ordered (s : Setters T) : Prop where
  one : ∀ {i j : Nat} {v w : T}, s.threads[i]? = some (.storing v) →
    s.threads[j]? = some (.storing w) → i = j
  told : ∀ v, Phase.storing v ∈ s.threads →
    v ≠ s.shared.temp_val ∧ ∀ c ∈ s.shared.callbacks, lastNew c.2 = some v
  stored : (∀ v, Phase.storing v ∉ s.threads) →
    ∀ c ∈ s.shared.callbacks, ∀ v, lastNew c.2 = some v → v = s.shared.temp_val

/-- There is a listener, and as long as the chains are whole, the state is ordered. -/
structure Tracked (s : Setters T) : Prop where
  listener : s.shared.callbacks ≠ []
  ordered : (∀ c ∈ s.shared.callbacks, Chained c.2) → Ordered s

theorem Ordered.agrees {s : Setters T} (hs : Ordered s)
    (hchained : ∀ c ∈ s.shared.callbacks, Chained c.2) : Agrees s where
  chained := hchained
  stored hreturned := hs.stored fun v hmem => by cases hreturned _ hmem

section Steps

variable {s s' : Setters T} {a : Act Unit T} {i : Nat} {v : T}

/-- The ways in which a step of `setValue` can go. -/
inductive Sets (s : Setters T) : Act Unit T → Setters T → Prop
  | call (v : T) : Sets s (.call v) ⟨s.shared, s.threads ++ [.called v]⟩
  | same {i : Nat} (hi : s.threads[i]? = some (.called s.shared.temp_val)) :
      Sets s (.run i ()) ⟨s.shared, s.threads.set i .returned⟩
  | notify {i : Nat} {v : T} (hi : s.threads[i]? = some (.called v))
      (hne : v ≠ s.shared.temp_val) :
      Sets s (.run i ()) ⟨s.shared.notify v, s.threads.set i (.storing v)⟩
  | store {i : Nat} {v : T} (hi : s.threads[i]? = some (.storing v)) :
      Sets s (.run i ()) ⟨{ s.shared with temp_val := v }, s.threads.set i .returned⟩

theorem sets_of_step [DecidableEq T] (h : setValue.step s a = some s') : Sets s a s' := by
  cases moves_of_step h with
  | call v => exact .call v
  | @run i ch th th' shared hi hnext =>
      cases th with
      | called v =>
          simp only [setValue] at hnext
          split at hnext
          · next heq =>
              obtain ⟨rfl, rfl⟩ := Prod.mk.inj (Option.some.inj hnext)
              subst heq
              exact .same hi
          · next hne =>
              obtain ⟨rfl, rfl⟩ := Prod.mk.inj (Option.some.inj hnext)
              exact .notify hi hne
      | storing v =>
          obtain ⟨rfl, rfl⟩ := Prod.mk.inj (Option.some.inj hnext)
          exact .store hi
      | returned => cases hnext

/-- What happens outside the stores and the notifications. -/
theorem Ordered.congr (hs : Ordered s) {threads : List (Phase T)}
    (hsame : ∀ (v : T) (j : Nat),
      threads[j]? = some (.storing v) ↔ s.threads[j]? = some (.storing v)) :
    Ordered ⟨s.shared, threads⟩ := by
  have hmem : ∀ v, Phase.storing v ∈ threads ↔ Phase.storing v ∈ s.threads := by
    intro v
    simp only [List.mem_iff_getElem?, hsame]
  constructor
  · intro i j v w hi hj
    exact hs.one ((hsame _ _).mp hi) ((hsame _ _).mp hj)
  · exact fun v hv => hs.told v ((hmem v).mp hv)
  · exact fun hnone => hs.stored fun v hv => hnone v ((hmem v).mpr hv)

/-- Two notifications that are not stored break the chains. -/
theorem Ordered.alone_of_chained (hs : Ordered s) (hlistener : s.shared.callbacks ≠ [])
    (hchained : ∀ c ∈ (s.shared.notify v).callbacks, Chained c.2) (w : T) :
    Phase.storing w ∉ s.threads := by
  intro hw
  obtain ⟨c, hc⟩ := List.exists_mem_of_ne_nil _ hlistener
  obtain ⟨hne, htold⟩ := hs.told w hw
  -- The listener was told `w` last, and is told a change from what is stored.
  have hnext := hchained _ (List.mem_map_of_mem hc)
  exact hne ((chained_append.mp hnext).2 w (htold c hc))

/-- A notification while none is to be stored. -/
theorem Ordered.notify (hlt : i < s.threads.length) (hne : v ≠ s.shared.temp_val)
    (halone : ∀ w, Phase.storing w ∉ s.threads) :
    Ordered ⟨s.shared.notify v, s.threads.set i (.storing v)⟩ := by
  have honly : ∀ {j : Nat} {w : T}, (s.threads.set i (.storing v))[j]? = some (.storing w) →
      j = i ∧ w = v := by
    intro j w hj
    rcases getElem?_of_set hj with ⟨rfl, heq⟩ | ⟨-, hold⟩
    · exact ⟨rfl, by cases heq; rfl⟩
    · exact absurd (List.mem_of_getElem? hold) (halone w)
  constructor
  · intro j k w w' hj hk
    rw [(honly hj).1, (honly hk).1]
  · intro w hw
    obtain ⟨j, hj⟩ := List.mem_iff_getElem?.mp hw
    obtain ⟨-, rfl⟩ := honly hj
    refine ⟨hne, fun c hc => ?_⟩
    obtain ⟨c, -, rfl⟩ := List.mem_map.mp hc
    exact lastNew_append
  · intro hnone
    exact absurd (List.mem_set hlt _) (hnone v)

/-- The store of what was notified last. -/
theorem Ordered.store (hs : Ordered s) (hi : s.threads[i]? = some (.storing v)) :
    Ordered ⟨{ s.shared with temp_val := v }, s.threads.set i .returned⟩ := by
  have hnone : ∀ w, Phase.storing w ∉ s.threads.set i .returned := by
    intro w hw
    obtain ⟨j, hj⟩ := List.mem_iff_getElem?.mp hw
    rcases getElem?_of_set hj with ⟨-, heq⟩ | ⟨hne, hold⟩
    · cases heq
    · exact hne (hs.one hold hi)
  obtain ⟨-, htold⟩ := hs.told v (List.mem_of_getElem? hi)
  constructor
  · intro j k w w' hj hk
    exact absurd (List.mem_of_getElem? hj) (hnone w)
  · exact fun w hw => absurd hw (hnone w)
  · intro _ c hc w hw
    exact Option.some.inj (hw.symm.trans (htold c hc))

/-- Only a notification makes the chains longer. -/
theorem chained_of_sets (h : Sets s a s') (hchained : ∀ c ∈ s'.shared.callbacks, Chained c.2) :
    ∀ c ∈ s.shared.callbacks, Chained c.2 := by
  cases h with
  | call v => exact hchained
  | same hi => exact hchained
  | notify hi hne =>
      exact fun c hc => (chained_append.mp (hchained _ (List.mem_map_of_mem hc))).1
  | store hi => exact hchained

theorem Tracked.sets (hs : Tracked s) (h : Sets s a s') : Tracked s' where
  listener := by
    cases h with
    | call v => exact hs.listener
    | same hi => exact hs.listener
    | notify hi hne => simpa [ConfigVar.notify] using hs.listener
    | store hi => exact hs.listener
  ordered hchained := by
    have hordered := hs.ordered (chained_of_sets h hchained)
    cases h with
    | call v =>
        refine hordered.congr fun w j => ?_
        rw [List.getElem?_append]
        split
        · rfl
        · next hge =>
            rw [List.getElem?_eq_none (Nat.le_of_not_lt hge), List.getElem?_singleton]
            split <;> simp
    | @same i hi =>
        refine hordered.congr fun w j => ?_
        by_cases heq : j = i
        · subst heq
          rw [List.getElem?_set_self (List.getElem?_eq_some_iff.mp hi).1, hi]
          simp
        · rw [List.getElem?_set_ne (Ne.symm heq)]
    | notify hi hne =>
        exact Ordered.notify (List.getElem?_eq_some_iff.mp hi).1 hne
          (hordered.alone_of_chained hs.listener hchained)
    | store hi => exact hordered.store hi

/-- **A step keeps the listeners agreed** exactly if it is not a second notification. -/
theorem Tracked.sets_agrees_iff (hs : Tracked s) (hagrees : Agrees s) (h : Sets s a s') :
    Agrees s' ↔ OneAtATime s a := by
  have hordered := hs.ordered hagrees.chained
  constructor
  · rintro hagrees' i v rfl hi hne
    cases h with
    | same hi' =>
        cases hi.symm.trans hi'
        exact absurd rfl hne
    | notify hi' hne' =>
        cases hi.symm.trans hi'
        exact hordered.alone_of_chained hs.listener hagrees'.chained
    | store hi' => cases hi.symm.trans hi'
  · intro hok
    have hchained : ∀ c ∈ s'.shared.callbacks, Chained c.2 := by
      cases h with
      | call v => exact hagrees.chained
      | same hi => exact hagrees.chained
      | @notify i v hi hne =>
          have halone := hok i v rfl hi hne
          intro c hc
          obtain ⟨c, hmem, rfl⟩ := List.mem_map.mp hc
          exact chained_append.mpr ⟨hagrees.chained c hmem, hordered.stored halone c hmem⟩
      | store hi => exact hagrees.chained
    exact ((hs.sets h).ordered hchained).agrees hchained

end Steps

/-- **When listeners agree with the variable.**  For every run of calls of `setValue`: when nobody
listens, or when no change is notified while another one is notified and not stored. -/
theorem agrees_iff [DecidableEq T] (value : T) (listeners : List (Option Nat))
    (as : List (Act Unit T)) :
    runAlways setValue.step Agrees as (start value listeners) ↔
      (listening value listeners).2.callbacks = [] ∨
        runMeets setValue.step OneAtATime as (start value listeners) := by
  have hlog := log_listening value listeners
  by_cases hnobody : (listening value listeners).2.callbacks = []
  · -- Nobody is told anything.
    refine iff_of_true ?_ (.inl hnobody)
    refine runAlways_of_invariant (I := fun s => s.shared.callbacks = []) ?_ ?_ as hnobody
    · intro s s' a hs hstep
      cases sets_of_step hstep with
      | call v => exact hs
      | same hi => exact hs
      | notify hi hne => simpa [notify] using hs
      | store hi => exact hs
    · intro s hs
      constructor <;> simp [hs]
  · rw [or_iff_right hnobody]
    have hordered : Ordered (start value listeners) := by
      constructor
      · intro i j v w hi
        simp [start] at hi
      · intro v hv
        simp [start] at hv
      · intro _ c hc v hv
        rw [hlog c hc] at hv
        cases hv
    have hchained : ∀ c ∈ (start value listeners).shared.callbacks, Chained c.2 := by
      intro c hc
      rw [hlog c hc]
      exact List.isChain_nil
    refine runAlways_iff (I := Tracked) (fun hs hstep => hs.sets (sets_of_step hstep))
      (fun hs hagrees hstep => hs.sets_agrees_iff hagrees (sets_of_step hstep)) ?_ as
      ⟨hnobody, fun _ => hordered⟩ (hordered.agrees hchained)
    -- A setter that has been called is never refused.
    rintro s a hrefused i v rfl hi hne
    simp [step, hi, setValue, hne] at hrefused

/-- Two setters of a variable that one listener listens to: the first one to notify is the last one
to store. -/
theorem not_agrees_swapped :
    ¬ runAlways setValue.step Agrees
      [.call 1, .call 2, .run 0 (), .run 1 (), .run 1 (), .run 0 ()] (start 0 [none]) := by
  intro h
  obtain ⟨-, -, -, -, -, -, hlast⟩ := h
  have hstored := hlast.stored (by decide) (1, [(0, 1), (0, 2)]) (by decide) 2 rfl
  revert hstored
  decide

end ConfigVar

end Routn
