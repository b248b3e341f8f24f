import Mathlib.Data.List.ReduceOption
import Routn.Foundation.Transition

/-!
# The thread of a libevent loop

`EvThread` runs the callbacks that are dispatched to it on a thread of its own.

* A callback is pushed under the lock, and one byte is sent through a socket pair after it; the
  loop calls `read_cb` while there are bytes to read.  `read_cb` reads up to 4096 of them, takes the
  whole list under the lock and runs it.
* Between the push and the send, and between the read and the lock, other threads take their
  steps.  The socket does not block: with unread bytes in it `send` may fail, and `dispatch`
  returns `false` then.
* An empty function ends the loop, and what is behind it in the list that was taken is dropped.
  `stop` pushes one.  After `join` the thread can be started again.

Every callback in front of the first empty one is run once and in its order, also the one whose
`dispatch` returned `false`: when nothing is left to do, nothing waits (`called_of_run`).
-/

namespace Routn
namespace EvThread

open Foundation

variable {κ : Type*}

/-- Where the thread is. -/
inductive Loop (κ : Type*)
  /-- Not started, or out of the loop. -/
  | off
  | waiting
  /-- In `read_cb`, before the lock. -/
  | received
  /-- In the loop over the list: what was run of it, and what was not. -/
  | running (done rest : List (Option κ))
deriving DecidableEq

structure State (κ : Type*) where
  _callbacks : List (Option κ)
  /-- The unread bytes. -/
  socket : Nat
  /-- The calls between the push and the send. -/
  sending : Nat
  _thread : Bool
  /-- `start` before its last line. -/
  starting : Bool
  _start : Bool
  loop : Loop κ
  _total : Nat
  /-- All that was pushed, the lists that were taken, and the callbacks that were called. -/
  dispatched : List (Option κ)
  taken : List (List (Option κ))
  executed : List κ
deriving DecidableEq

def init : State κ where
  _callbacks := []
  socket := 0
  sending := 0
  _thread := false
  starting := false
  _start := false
  loop := .off
  _total := 0
  dispatched := []
  taken := []
  executed := []

/-- An empty callback is `none`. -/
inductive Action (κ : Type*)
  | dispatch (cb : Option κ)
  | batchDispatch (cbs : List (Option κ))
  | stop
  /-- The send of a call that has pushed, and whether it succeeds. -/
  | send (sent : Bool)
  | start
  | started
  | join
  /-- `read_cb` up to the lock. -/
  | recv
  | swap
  /-- The next callback of the list. -/
  | call
  /-- The end of `read_cb`. -/
  | finish

namespace State

/-- The callbacks are appended under the lock, the byte is still to be sent. -/
def push (s : State κ) (cbs : List (Option κ)) : State κ :=
  { s with
    _callbacks := s._callbacks ++ cbs
    sending := s.sending + 1
    dispatched := s.dispatched ++ cbs }

def dispatch (s : State κ) (cb : Option κ) : State κ := s.push [cb]

def batchDispatch (s : State κ) (cbs : List (Option κ)) : State κ := s.push cbs

/-- There is nobody to wake before `start`. -/
def stop (s : State κ) : State κ :=
  if s._thread then s.push [none]
  else
    { s with
      _callbacks := s._callbacks ++ [none]
      dispatched := s.dispatched ++ [none] }

/-- A socket pair without unread bytes has room. -/
def send (s : State κ) (sent : Bool) : Option (State κ) :=
  if s.sending = 0 then none
  else if sent then some { s with sending := s.sending - 1, socket := s.socket + 1 }
  else if s.socket = 0 then none
  else some { s with sending := s.sending - 1 }

def start (s : State κ) : Option (State κ) :=
  if s._thread then none
  else some { s with _thread := true, starting := true, loop := .waiting }

def started (s : State κ) : Option (State κ) :=
  if s.starting then some { s with starting := false, _start := true } else none

def join (s : State κ) : Option (State κ) :=
  match s._thread, s.loop with
  | false, _ => some s
  | true, .off => some { s with _thread := false }
  | true, _ => none

def recv (s : State κ) : Option (State κ) :=
  match s.loop with
  | .waiting =>
      if s.socket = 0 then none
      else some { s with socket := s.socket - 4096, loop := .received }
  | _ => none

def swap (s : State κ) : Option (State κ) :=
  match s.loop with
  | .received =>
      some { s with
        _callbacks := []
        loop := .running [] s._callbacks
        taken := s.taken ++ [s._callbacks] }
  | _ => none

def call (s : State κ) : Option (State κ) :=
  match s.loop with
  | .running done (some cb :: rest) =>
      some { s with loop := .running (done ++ [some cb]) rest, executed := s.executed ++ [cb] }
  -- `event_base_loopbreak`; the whole list is counted.
  | .running done (none :: rest) =>
      some { s with
        loop := .off
        _start := false
        _total := s._total + (done ++ none :: rest).length }
  | _ => none

def finish (s : State κ) : Option (State κ) :=
  match s.loop with
  | .running done [] => some { s with loop := .waiting, _total := s._total + done.length }
  | _ => none

end State

def step (s : State κ) : Action κ → Option (State κ)
  | .dispatch cb => some (s.dispatch cb)
  | .batchDispatch cbs => some (s.batchDispatch cbs)
  | .stop => some s.stop
  | .send sent => s.send sent
  | .start => s.start
  | .started => s.started
  | .join => s.join
  | .recv => s.recv
  | .swap => s.swap
  | .call => s.call
  | .finish => s.finish

/-! ## What a step does -/

section Inversion

variable {s s' : State κ}

theorem send_eq_some {sent : Bool} (h : s.send sent = some s') :
    0 < s.sending ∧ (s' = { s with sending := s.sending - 1, socket := s.socket + 1 } ∨
      0 < s.socket ∧ s' = { s with sending := s.sending - 1 }) := by
  unfold State.send at h
  split at h
  · cases h
  · rename_i hsending
    refine ⟨Nat.pos_of_ne_zero hsending, ?_⟩
    split at h
    · exact .inl (Option.some.inj h).symm
    · split at h
      · cases h
      · rename_i hsocket
        exact .inr ⟨Nat.pos_of_ne_zero hsocket, (Option.some.inj h).symm⟩

theorem start_eq_some (h : s.start = some s') :
    s._thread = false ∧ s' = { s with _thread := true, starting := true, loop := .waiting } := by
  unfold State.start at h
  split at h
  · cases h
  · rename_i hthread
    exact ⟨Bool.eq_false_iff.mpr hthread, (Option.some.inj h).symm⟩

theorem started_eq_some (h : s.started = some s') :
    s.starting ∧ s' = { s with starting := false, _start := true } := by
  unfold State.started at h
  split at h
  · rename_i hstarting
    exact ⟨hstarting, (Option.some.inj h).symm⟩
  · cases h

theorem join_eq_some (h : s.join = some s') :
    s' = s ∨ s.loop = .off ∧ s' = { s with _thread := false } := by
  unfold State.join at h
  split at h
  · exact .inl (Option.some.inj h).symm
  · rename_i hoff
    exact .inr ⟨hoff, (Option.some.inj h).symm⟩
  · cases h

theorem recv_eq_some (h : s.recv = some s') :
    s.loop = .waiting ∧ 0 < s.socket ∧
      s' = { s with socket := s.socket - 4096, loop := .received } := by
  unfold State.recv at h
  split at h
  · rename_i hloop
    split at h
    · cases h
    · rename_i hsocket
      exact ⟨hloop, Nat.pos_of_ne_zero hsocket, (Option.some.inj h).symm⟩
  · cases h

theorem swap_eq_some (h : s.swap = some s') :
    s.loop = .received ∧
      s' = { s with
        _callbacks := []
        loop := .running [] s._callbacks
        taken := s.taken ++ [s._callbacks] } := by
  unfold State.swap at h
  split at h
  · rename_i hloop
    exact ⟨hloop, (Option.some.inj h).symm⟩
  · cases h

theorem call_eq_some (h : s.call = some s') :
    (∃ done cb rest, s.loop = .running done (some cb :: rest) ∧
      s' = { s with
        loop := .running (done ++ [some cb]) rest
        executed := s.executed ++ [cb] }) ∨
    ∃ done rest, s.loop = .running done (none :: rest) ∧
      s' = { s with
        loop := .off
        _start := false
        _total := s._total + (done ++ none :: rest).length } := by
  unfold State.call at h
  split at h
  · rename_i done cb rest hloop
    exact .inl ⟨done, cb, rest, hloop, (Option.some.inj h).symm⟩
  · rename_i done rest hloop
    exact .inr ⟨done, rest, hloop, (Option.some.inj h).symm⟩
  · cases h

theorem finish_eq_some (h : s.finish = some s') :
    ∃ done, s.loop = .running done [] ∧
      s' = { s with loop := .waiting, _total := s._total + done.length } := by
  unfold State.finish at h
  split at h
  · rename_i done hloop
    exact ⟨done, hloop, (Option.some.inj h).symm⟩
  · cases h

end Inversion

/-! ## What is run of a list -/

/-- The callbacks in front of the first empty one. -/
def beforeStop : List (Option κ) → List κ
  | some cb :: cbs => cb :: beforeStop cbs
  | _ => []

@[simp] theorem beforeStop_nil : beforeStop ([] : List (Option κ)) = [] := rfl

@[simp] theorem beforeStop_some (cb : κ) (cbs : List (Option κ)) :
    beforeStop (some cb :: cbs) = cb :: beforeStop cbs := rfl

@[simp] theorem beforeStop_none (cbs : List (Option κ)) : beforeStop (none :: cbs) = [] := rfl

theorem beforeStop_sublist (cbs : List (Option κ)) :
    (beforeStop cbs).Sublist cbs.reduceOption := by
  induction cbs with
  | nil => exact List.Sublist.refl _
  | cons cb cbs ih =>
      cases cb with
      | none => exact List.nil_sublist _
      | some k => exact ih.cons_cons k

/-- Without an empty one these are all of them. -/
theorem beforeStop_of_not_mem {cbs : List (Option κ)} (h : none ∉ cbs) :
    beforeStop cbs = cbs.reduceOption := by
  induction cbs with
  | nil => rfl
  | cons cb cbs ih =>
      cases cb with
      | none => exact absurd List.mem_cons_self h
      | some k =>
          rw [beforeStop_some, List.reduceOption_cons_of_some]
          exact congrArg (k :: ·) (ih fun hmem => h (List.mem_cons_of_mem _ hmem))

theorem beforeStop_append_of_not_mem {cbs : List (Option κ)} (h : none ∉ cbs)
    (rest : List (Option κ)) :
    beforeStop (cbs ++ rest) = beforeStop cbs ++ beforeStop rest := by
  induction cbs with
  | nil => rfl
  | cons cb cbs ih =>
      cases cb with
      | none => exact absurd List.mem_cons_self h
      | some k =>
          exact congrArg (k :: ·) (ih fun hmem => h (List.mem_cons_of_mem _ hmem))

/-- Behind an empty one nothing counts. -/
theorem beforeStop_append_of_mem {cbs : List (Option κ)} (h : none ∈ cbs)
    (rest : List (Option κ)) : beforeStop (cbs ++ rest) = beforeStop cbs := by
  induction cbs with
  | nil => exact absurd h List.not_mem_nil
  | cons cb cbs ih =>
      cases cb with
      | none => rfl
      | some k =>
          have hrest : none ∈ cbs := (List.mem_cons.mp h).resolve_left (by simp)
          exact congrArg (k :: ·) (ih hrest)

theorem beforeStop_of_forall_none {cbs : List (Option κ)} (h : ∀ cb ∈ cbs, cb = none) :
    beforeStop cbs = [] := by
  cases cbs with
  | nil => rfl
  | cons cb cbs =>
      obtain rfl := h cb List.mem_cons_self
      rfl

/-- Cut into lists, nothing in front of the first empty one is lost. -/
theorem beforeStop_flatten_prefix (lists : List (List (Option κ))) :
    beforeStop lists.flatten <+: lists.flatMap beforeStop := by
  induction lists with
  | nil => exact List.prefix_rfl
  | cons cbs lists ih =>
      rw [List.flatten_cons, List.flatMap_cons]
      by_cases h : none ∈ cbs
      · rw [beforeStop_append_of_mem h]
        exact List.prefix_append _ _
      · rw [beforeStop_append_of_not_mem h]
        exact (List.prefix_append_right_inj _).mpr ih

theorem flatMap_beforeStop_of_not_mem {lists : List (List (Option κ))}
    (h : none ∉ lists.flatten) : lists.flatMap beforeStop = beforeStop lists.flatten := by
  induction lists with
  | nil => rfl
  | cons cbs lists ih =>
      rw [List.flatten_cons, List.mem_append, not_or] at h
      rw [List.flatMap_cons, List.flatten_cons, beforeStop_append_of_not_mem h.1, ih h.2]

theorem flatMap_beforeStop_sublist (lists : List (List (Option κ))) :
    (lists.flatMap beforeStop).Sublist lists.flatten.reduceOption := by
  induction lists with
  | nil => exact List.Sublist.refl _
  | cons cbs lists ih =>
      rw [List.flatMap_cons, List.flatten_cons, List.reduceOption_append]
      exact (beforeStop_sublist cbs).append ih

/-! ## Invariants -/

/-- What is still to be called of the list that was taken. -/
def Loop.remaining : Loop κ → List κ
  | .running _ rest => beforeStop rest
  | _ => []

/-- The length of the list that is not counted yet. -/
def Loop.uncounted : Loop κ → Nat
  | .running done rest => done.length + rest.length
  | _ => 0

structure Inv (s : State κ) : Prop where
  /-- Every callback that was pushed is in one place. -/
  pushed : s.dispatched = s.taken.flatten ++ s._callbacks
  called : s.executed ++ s.loop.remaining = s.taken.flatMap beforeStop
  /-- Who waits in the list has a byte on its way. -/
  bell : (∃ cb, some cb ∈ s._callbacks) → 0 < s.socket ∨ 0 < s.sending ∨ s.loop = .received
  listed : ∀ done rest, s.loop = .running done rest → done ++ rest ∈ s.taken
  /-- A thread leaves its loop by an empty callback. -/
  left : s._thread → s.loop = .off → none ∈ s.taken.flatten
  resting : s.loop ≠ .off → s._thread
  counted : s._total + s.loop.uncounted = s.taken.flatten.length

theorem inv_init : Inv (init : State κ) where
  pushed := rfl
  called := rfl
  bell := fun ⟨_, h⟩ => absurd h List.not_mem_nil
  listed := nofun
  left := fun h => absurd h Bool.false_ne_true
  resting := fun h => absurd rfl h
  counted := rfl

section Steps

variable {s s' : State κ}

theorem Inv.push (h : Inv s) (cbs : List (Option κ)) : Inv (s.push cbs) where
  pushed := by
    simp only [State.push]
    rw [h.pushed, List.append_assoc]
  called := h.called
  bell := fun _ => .inr (.inl (Nat.succ_pos _))
  listed := h.listed
  left := h.left
  resting := h.resting
  counted := h.counted

theorem Inv.stop (h : Inv s) : Inv s.stop := by
  unfold State.stop
  split
  · exact h.push [none]
  · refine { h with pushed := ?_, bell := ?_ }
    · simp only []
      rw [h.pushed, List.append_assoc]
    · -- The empty callback that nobody is woken for is none of those that wait.
      rintro ⟨cb, hcb⟩
      exact h.bell ⟨cb, by simpa using hcb⟩

theorem Inv.send (h : Inv s) {sent : Bool} (hstep : s.send sent = some s') : Inv s' := by
  obtain ⟨-, rfl | ⟨hsocket, rfl⟩⟩ := send_eq_some hstep
  · exact { h with bell := fun _ => .inl (Nat.succ_pos _) }
  · exact { h with bell := fun _ => .inl hsocket }

theorem Inv.start (h : Inv s) (hstep : s.start = some s') : Inv s' := by
  obtain ⟨hthread, rfl⟩ := start_eq_some hstep
  have hoff : s.loop = .off := by
    by_contra hon
    have := h.resting hon
    rw [hthread] at this
    cases this
  have hcalled := h.called
  have hcounted := h.counted
  have hbell := h.bell
  rw [hoff] at hcalled hcounted hbell
  exact { h with
    called := hcalled
    bell := by simpa using hbell
    listed := nofun
    left := nofun
    resting := fun _ => rfl
    counted := hcounted }

theorem Inv.started (h : Inv s) (hstep : s.started = some s') : Inv s' := by
  obtain ⟨-, rfl⟩ := started_eq_some hstep
  exact { h with }

theorem Inv.join (h : Inv s) (hstep : s.join = some s') : Inv s' := by
  obtain rfl | ⟨hoff, rfl⟩ := join_eq_some hstep
  · exact h
  · exact { h with left := fun h => absurd h Bool.false_ne_true, resting := (absurd hoff ·) }

theorem Inv.recv (h : Inv s) (hstep : s.recv = some s') : Inv s' := by
  obtain ⟨hloop, -, rfl⟩ := recv_eq_some hstep
  have hcalled := h.called
  have hcounted := h.counted
  rw [hloop] at hcalled hcounted
  refine ⟨h.pushed, hcalled, fun _ => .inr (.inr rfl), nofun, nofun, fun _ => ?_, hcounted⟩
  exact h.resting (by simp [hloop])

theorem Inv.swap (h : Inv s) (hstep : s.swap = some s') : Inv s' := by
  obtain ⟨hloop, rfl⟩ := swap_eq_some hstep
  have hcalled := h.called
  have hcounted := h.counted
  rw [hloop] at hcalled hcounted
  simp only [Loop.remaining, List.append_nil] at hcalled
  simp only [Loop.uncounted, Nat.add_zero] at hcounted
  exact
    { pushed := by simp [h.pushed]
      called := by simp [Loop.remaining, hcalled]
      bell := fun ⟨_, hcb⟩ => absurd hcb List.not_mem_nil
      listed := by
        rintro _ _ ⟨⟩
        simp
      left := nofun
      resting := fun _ => h.resting (by simp [hloop])
      counted := by simp [Loop.uncounted, hcounted] }

theorem Inv.call (h : Inv s) (hstep : s.call = some s') : Inv s' := by
  have hcalled := h.called
  have hcounted := h.counted
  have hbell := h.bell
  obtain ⟨done, cb, rest, hloop, rfl⟩ | ⟨done, rest, hloop, rfl⟩ := call_eq_some hstep
  · have hlisted := h.listed done (some cb :: rest) hloop
    rw [hloop] at hcalled hcounted hbell
    exact { h with
      called := by simpa [Loop.remaining] using hcalled
      bell := by simpa using hbell
      listed := by
        rintro _ _ ⟨⟩
        simpa using hlisted
      left := nofun
      resting := fun _ => h.resting (by simp [hloop])
      counted := by
        rw [← hcounted]
        simp only [Loop.uncounted, List.length_append, List.length_cons, List.length_nil]
        omega }
  · have hlisted := h.listed done (none :: rest) hloop
    rw [hloop] at hcalled hcounted hbell
    exact { h with
      called := by simpa [Loop.remaining] using hcalled
      bell := by simpa using hbell
      listed := nofun
      left := fun _ _ => List.mem_flatten_of_mem hlisted (by simp)
      resting := (absurd rfl ·)
      counted := by
        rw [← hcounted]
        simp [Loop.uncounted] }

theorem Inv.finish (h : Inv s) (hstep : s.finish = some s') : Inv s' := by
  have hcalled := h.called
  have hcounted := h.counted
  have hbell := h.bell
  obtain ⟨done, hloop, rfl⟩ := finish_eq_some hstep
  rw [hloop] at hcalled hcounted hbell
  exact { h with
    called := hcalled
    bell := by simpa using hbell
    listed := nofun
    left := nofun
    resting := fun _ => h.resting (by simp [hloop])
    counted := by simpa [Loop.uncounted] using hcounted }

theorem inv_step {a : Action κ} (h : Inv s) (hstep : step s a = some s') : Inv s' := by
  cases a with
  | dispatch cb => exact Option.some.inj hstep ▸ h.push [cb]
  | batchDispatch cbs => exact Option.some.inj hstep ▸ h.push cbs
  | stop => exact Option.some.inj hstep ▸ h.stop
  | send sent => exact h.send hstep
  | start => exact h.start hstep
  | started => exact h.started hstep
  | join => exact h.join hstep
  | recv => exact h.recv hstep
  | swap => exact h.swap hstep
  | call => exact h.call hstep
  | finish => exact h.finish hstep

end Steps

/-! ## What the loop and the calls that have pushed do by themselves -/

def Action.own : Action κ → Bool
  | .send _ | .recv | .swap | .call | .finish => true
  | _ => false

/-- A bound for the steps that are left. -/
def Loop.work : Loop κ → Nat
  | .received => 2
  | .running _ rest => rest.length + 1
  | _ => 0

def State.work (s : State κ) : Nat :=
  4 * s.sending + 3 * s.socket + s._callbacks.length + s.loop.work

theorem work_step {s s' : State κ} {a : Action κ} (hown : a.own) (hstep : step s a = some s') :
    s'.work < s.work := by
  cases a with
  | send sent =>
      obtain ⟨hsending, rfl | ⟨-, rfl⟩⟩ := send_eq_some hstep
      · simp only [State.work]
        omega
      · simp only [State.work]
        omega
  | recv =>
      obtain ⟨hloop, hsocket, rfl⟩ := recv_eq_some hstep
      simp only [State.work, hloop, Loop.work]
      omega
  | swap =>
      obtain ⟨hloop, rfl⟩ := swap_eq_some hstep
      simp only [State.work, hloop, Loop.work, List.length_nil]
      omega
  | call =>
      obtain ⟨done, cb, rest, hloop, rfl⟩ | ⟨done, rest, hloop, rfl⟩ := call_eq_some hstep
      · simp only [State.work, hloop, Loop.work, List.length_cons]
        omega
      · simp only [State.work, hloop, Loop.work, List.length_cons]
        omega
  | finish =>
      obtain ⟨done, hloop, rfl⟩ := finish_eq_some hstep
      simp only [State.work, hloop, Loop.work, List.length_nil]
      omega
  | _ => cases hown

theorem length_le_work {as : List (Action κ)} {s s' : State κ} (hown : ∀ a ∈ as, a.own)
    (hrun : runActions step as s = some s') : as.length ≤ s.work := by
  induction as generalizing s with
  | nil => exact Nat.zero_le _
  | cons a as ih =>
      obtain ⟨mid, hmid, hrun'⟩ := Option.bind_eq_some_iff.mp hrun
      have hrest := ih (fun b hb => hown b (List.mem_cons_of_mem _ hb)) hrun'
      have hless := work_step (hown a List.mem_cons_self) hmid
      rw [List.length_cons]
      omega

/-- Where nothing is left to do, the thread is out of its loop or waits with nothing to read. -/
theorem quiet_cases {s : State κ} (hquiet : ∀ a : Action κ, a.own → step s a = none) :
    s.sending = 0 ∧ (s.loop = .off ∨ s.loop = .waiting ∧ s.socket = 0) := by
  constructor
  · have hsend := hquiet (.send true) rfl
    simp only [step, State.send] at hsend
    by_contra hsending
    simp [hsending] at hsend
  · have hrecv := hquiet .recv rfl
    have hswap := hquiet .swap rfl
    have hcall := hquiet .call rfl
    have hfinish := hquiet .finish rfl
    simp only [step, State.recv, State.swap, State.call, State.finish] at hrecv hswap hcall hfinish
    cases hloop : s.loop with
    | off => exact .inl rfl
    | waiting =>
        rw [hloop] at hrecv
        exact .inr ⟨rfl, by simpa using hrecv⟩
    | received =>
        rw [hloop] at hswap
        cases hswap
    | running done rest =>
        rw [hloop] at hcall hfinish
        match rest with
        | [] => cases hfinish
        | none :: _ => cases hcall
        | some _ :: _ => cases hcall

/-! ## Main results -/

/-- What is called of the callbacks that were dispatched. -/
structure Called (s : State κ) : Prop where
  once : s.executed.Sublist s.dispatched.reduceOption
  inOrder : s.executed <+: beforeStop s.dispatched ∨ beforeStop s.dispatched <+: s.executed
  /-- With nothing left to do, everything in front of the first empty callback was called. -/
  complete : s._thread → (∀ a : Action κ, a.own → step s a = none) →
    beforeStop s.dispatched <+: s.executed
  /-- However the loop and the calls that have pushed go on, they come to that end. -/
  ends : ∀ (bs : List (Action κ)) (t : State κ), (∀ b ∈ bs, b.own) →
    runActions step bs s = some t → bs.length ≤ s.work
  /-- Outside `read_cb`, what `dump` prints adds up, empty and dropped callbacks included. -/
  total : s.loop = .off ∨ s.loop = .waiting → s._total + s._callbacks.length = s.dispatched.length

section Main

variable {s : State κ}

theorem Inv.executed_sublist (h : Inv s) : s.executed.Sublist s.dispatched.reduceOption := by
  have hprefix : s.executed <+: s.taken.flatMap beforeStop := h.called ▸ List.prefix_append _ _
  have hall := hprefix.sublist.trans (flatMap_beforeStop_sublist s.taken)
  rw [h.pushed]
  exact hall.trans ((List.sublist_append_left _ _).filterMap _)

/-- What was called is a part of what is in front of the first empty callback, or has all of it. -/
theorem Inv.executed_prefix (h : Inv s) :
    s.executed <+: beforeStop s.dispatched ∨ beforeStop s.dispatched <+: s.executed := by
  have hexecuted : s.executed <+: s.taken.flatMap beforeStop := h.called ▸ List.prefix_append _ _
  have hwanted := beforeStop_flatten_prefix s.taken
  rw [h.pushed]
  by_cases hstop : none ∈ s.taken.flatten
  · rw [beforeStop_append_of_mem hstop]
    exact List.prefix_or_prefix_of_prefix hexecuted hwanted
  · refine .inl (hexecuted.trans ?_)
    rw [beforeStop_append_of_not_mem hstop, flatMap_beforeStop_of_not_mem hstop]
    exact List.prefix_append _ _

/-- Where nothing is left to do, nothing waits. -/
theorem Inv.executed_of_quiet (h : Inv s) (hthread : s._thread)
    (hquiet : ∀ a : Action κ, a.own → step s a = none) :
    beforeStop s.dispatched <+: s.executed := by
  obtain ⟨hsending, hloop⟩ := quiet_cases hquiet
  have hall : s.taken.flatMap beforeStop = s.executed := by
    rw [← h.called]
    rcases hloop with hoff | ⟨hwaiting, -⟩
    · rw [hoff, Loop.remaining, List.append_nil]
      exact nofun
    · rw [hwaiting, Loop.remaining, List.append_nil]
      exact nofun
  rw [h.pushed, ← hall]
  rcases hloop with hoff | ⟨hwaiting, hsocket⟩
  · rw [beforeStop_append_of_mem (h.left hthread hoff)]
    exact beforeStop_flatten_prefix s.taken
  · -- Nobody rings, so what is in the list are empty callbacks.
    have hnone : ∀ cb ∈ s._callbacks, cb = none := by
      intro cb hcb
      by_contra hne
      obtain ⟨k, rfl⟩ := Option.ne_none_iff_exists'.mp hne
      have hbell := h.bell ⟨k, hcb⟩
      rw [hsending, hsocket, hwaiting] at hbell
      simp at hbell
    by_cases hstop : none ∈ s.taken.flatten
    · rw [beforeStop_append_of_mem hstop]
      exact beforeStop_flatten_prefix s.taken
    · rw [beforeStop_append_of_not_mem hstop, beforeStop_of_forall_none hnone, List.append_nil]
      exact beforeStop_flatten_prefix s.taken

theorem Inv.total_eq (h : Inv s) (hloop : s.loop = .off ∨ s.loop = .waiting) :
    s._total + s._callbacks.length = s.dispatched.length := by
  have hcounted := h.counted
  rw [h.pushed, List.length_append, ← hcounted]
  rcases hloop with hoff | hwaiting
  · rw [hoff]
    rfl
  · rw [hwaiting]
    rfl

/-- **The callbacks of a thread.**  In every run each callback is called at most once and in the
order of the dispatches; up to the first empty one none is left out, also when its `dispatch`
returned `false`. -/
theorem called_of_run (as : List (Action κ)) (hrun : runActions step as init = some s) :
    Called s := by
  have h : Inv s := invariant_of_runActions inv_step as inv_init hrun
  exact
    { once := h.executed_sublist
      inOrder := h.executed_prefix
      complete := h.executed_of_quiet
      ends := fun _ _ hown hrest => length_le_work hown hrest
      total := h.total_eq }

/-- The second dispatch finds a socket that takes nothing, and the third comes after `stop`. -/
def stoppedInBetween : List (Action Nat) :=
  [.start, .started, .dispatch (some 1), .send true, .dispatch (some 2), .send false, .stop,
    .dispatch (some 3), .recv, .swap, .call, .call, .call, .send true, .send true, .join]

theorem called_stoppedInBetween :
    ∃ s, runActions step stoppedInBetween init = some s ∧ Called s := by
  obtain ⟨s, hrun⟩ := Option.isSome_iff_exists.mp
    (show (runActions step stoppedInBetween init).isSome by decide +kernel)
  exact ⟨s, hrun, called_of_run stoppedInBetween hrun⟩

end Main

/-! ## What the thread holds -/

/-- The list in which `read_cb` is, and what it has not called of it. -/
def Loop.batch : Loop κ → List (Option κ)
  | .running done rest => done ++ rest
  | _ => []

def Loop.rest : Loop κ → List (Option κ)
  | .running _ rest => rest
  | _ => []

namespace State

/-- The functions that are not destroyed yet, and those that are not called yet. -/
def held (s : State κ) : List (Option κ) := s.loop.batch ++ s._callbacks

def waiting (s : State κ) : List (Option κ) := s.loop.rest ++ s._callbacks

theorem waiting_sublist (s : State κ) : s.waiting.Sublist s.held := by
  refine List.Sublist.append ?_ (List.Sublist.refl _)
  cases s.loop with
  | running done rest => exact List.sublist_append_right done rest
  | _ => exact List.Sublist.refl _

/-- Unless it was given an empty callback, the thread is in its loop. -/
def Running (s : State κ) : Prop := none ∈ s.dispatched ∨ s._thread ∧ s.loop ≠ .off

end State

section Held

variable {s s' : State κ} {a : Action κ}

/-- What a step of the loop or of a call that has pushed does to the functions of the thread. -/
theorem own_cases (hown : a.own) (hstep : step s a = some s') :
    s'.dispatched = s.dispatched ∧
    (a ≠ .call ∧ a ≠ .finish ∧ s'.held = s.held ∧ s'.waiting = s.waiting ∨
    (∃ done cb rest, a = .call ∧ s.loop = .running done (some cb :: rest) ∧ s'.held = s.held ∧
      s.waiting = some cb :: s'.waiting) ∨
    (∃ done rest, a = .call ∧ s.loop = .running done (none :: rest) ∧
      s.held = (done ++ none :: rest) ++ s'.held ∧ s.waiting = (none :: rest) ++ s'.waiting) ∨
    ∃ done, a = .finish ∧ s.loop = .running done [] ∧ s.held = done ++ s'.held ∧
      s'.waiting = s.waiting) := by
  cases a with
  | send sent =>
      obtain ⟨-, rfl | ⟨-, rfl⟩⟩ := send_eq_some hstep
      · exact ⟨rfl, .inl ⟨nofun, nofun, rfl, rfl⟩⟩
      · exact ⟨rfl, .inl ⟨nofun, nofun, rfl, rfl⟩⟩
  | recv =>
      obtain ⟨hloop, -, rfl⟩ := recv_eq_some hstep
      refine ⟨rfl, .inl ⟨nofun, nofun, ?_⟩⟩
      simp only [State.held, State.waiting, hloop, Loop.batch, Loop.rest, and_self]
  | swap =>
      obtain ⟨hloop, rfl⟩ := swap_eq_some hstep
      refine ⟨rfl, .inl ⟨nofun, nofun, ?_⟩⟩
      simp [State.held, State.waiting, hloop, Loop.batch, Loop.rest]
  | call =>
      obtain ⟨done, cb, rest, hloop, rfl⟩ | ⟨done, rest, hloop, rfl⟩ := call_eq_some hstep
      · refine ⟨rfl, .inr (.inl ⟨done, cb, rest, rfl, hloop, ?_⟩)⟩
        simp [State.held, State.waiting, hloop, Loop.batch, Loop.rest]
      · refine ⟨rfl, .inr (.inr (.inl ⟨done, rest, rfl, hloop, ?_⟩))⟩
        simp [State.held, State.waiting, hloop, Loop.batch, Loop.rest]
  | finish =>
      obtain ⟨done, hloop, rfl⟩ := finish_eq_some hstep
      refine ⟨rfl, .inr (.inr (.inr ⟨done, rfl, hloop, ?_⟩))⟩
      simp [State.held, State.waiting, hloop, Loop.batch, Loop.rest]
  | _ => cases hown

/-- Who leaves the loop was given an empty callback. -/
theorem Inv.stopped_of_call (h : Inv s) {done rest : List (Option κ)}
    (hloop : s.loop = .running done (none :: rest)) : none ∈ s.dispatched := by
  rw [h.pushed]
  refine List.mem_append_left _ (List.mem_flatten_of_mem (h.listed _ _ hloop) ?_)
  simp

theorem dispatched_step (hstep : step s a = some s') : s.dispatched <+: s'.dispatched := by
  cases a with
  | dispatch cb =>
      obtain rfl := Option.some.inj hstep
      exact List.prefix_append _ _
  | batchDispatch cbs =>
      obtain rfl := Option.some.inj hstep
      exact List.prefix_append _ _
  | stop =>
      obtain rfl := Option.some.inj hstep
      rw [State.stop]
      split <;> exact List.prefix_append _ _
  | start =>
      obtain ⟨-, rfl⟩ := start_eq_some hstep
      exact List.prefix_rfl
  | started =>
      obtain ⟨-, rfl⟩ := started_eq_some hstep
      exact List.prefix_rfl
  | join =>
      obtain rfl | ⟨-, rfl⟩ := join_eq_some hstep <;> exact List.prefix_rfl
  | _ => rw [(own_cases rfl hstep).1]

/-- Only an empty callback ends the loop, and `_start` with it. -/
theorem Inv.running_step (h : Inv s) (hrunning : s.Running) (hstep : step s a = some s') :
    s'.Running ∧ (s._start → s'._start ∨ none ∈ s'.dispatched) := by
  have hmore := dispatched_step hstep
  rcases hrunning with hstop | ⟨hthread, hloop⟩
  · exact ⟨.inl (hmore.subset hstop), fun _ => .inr (hmore.subset hstop)⟩
  cases a with
  | dispatch cb =>
      obtain rfl := Option.some.inj hstep
      exact ⟨.inr ⟨hthread, hloop⟩, .inl⟩
  | batchDispatch cbs =>
      obtain rfl := Option.some.inj hstep
      exact ⟨.inr ⟨hthread, hloop⟩, .inl⟩
  | stop =>
      obtain rfl := Option.some.inj hstep
      rw [State.stop, if_pos hthread]
      exact ⟨.inr ⟨hthread, hloop⟩, .inl⟩
  | send sent =>
      obtain ⟨-, rfl | ⟨-, rfl⟩⟩ := send_eq_some hstep <;> exact ⟨.inr ⟨hthread, hloop⟩, .inl⟩
  | start =>
      obtain ⟨hnot, -⟩ := start_eq_some hstep
      rw [hthread] at hnot
      cases hnot
  | started =>
      obtain ⟨-, rfl⟩ := started_eq_some hstep
      exact ⟨.inr ⟨hthread, hloop⟩, fun _ => .inl rfl⟩
  | join =>
      obtain rfl | ⟨hoff, -⟩ := join_eq_some hstep
      · exact ⟨.inr ⟨hthread, hloop⟩, .inl⟩
      · exact absurd hoff hloop
  | recv =>
      obtain ⟨-, -, rfl⟩ := recv_eq_some hstep
      exact ⟨.inr ⟨hthread, nofun⟩, .inl⟩
  | swap =>
      obtain ⟨-, rfl⟩ := swap_eq_some hstep
      exact ⟨.inr ⟨hthread, nofun⟩, .inl⟩
  | call =>
      obtain ⟨done, cb, rest, -, rfl⟩ | ⟨done, rest, hloop, -⟩ := call_eq_some hstep
      · exact ⟨.inr ⟨hthread, nofun⟩, .inl⟩
      · have hstop := hmore.subset (h.stopped_of_call hloop)
        exact ⟨.inl hstop, fun _ => .inr hstop⟩
  | finish =>
      obtain ⟨done, -, rfl⟩ := finish_eq_some hstep
      exact ⟨.inr ⟨hthread, nofun⟩, .inl⟩

/-- `start` puts the thread into its loop. -/
theorem running_of_starting (hstep : step s a = some s') (hs : s'.starting)
    (hnot : ¬ s.starting) : s'.Running := by
  cases a with
  | start =>
      obtain ⟨-, rfl⟩ := start_eq_some hstep
      exact .inr ⟨rfl, nofun⟩
  | dispatch cb =>
      obtain rfl := Option.some.inj hstep
      exact absurd hs hnot
  | batchDispatch cbs =>
      obtain rfl := Option.some.inj hstep
      exact absurd hs hnot
  | stop =>
      obtain rfl := Option.some.inj hstep
      rw [State.stop] at hs
      split at hs <;> exact absurd hs hnot
  | send sent => obtain ⟨-, rfl | ⟨-, rfl⟩⟩ := send_eq_some hstep <;> exact absurd hs hnot
  | started =>
      obtain ⟨-, rfl⟩ := started_eq_some hstep
      cases hs
  | join => obtain rfl | ⟨-, rfl⟩ := join_eq_some hstep <;> exact absurd hs hnot
  | recv =>
      obtain ⟨-, -, rfl⟩ := recv_eq_some hstep
      exact absurd hs hnot
  | swap =>
      obtain ⟨-, rfl⟩ := swap_eq_some hstep
      exact absurd hs hnot
  | call =>
      obtain ⟨_, _, _, -, rfl⟩ | ⟨_, _, -, rfl⟩ := call_eq_some hstep <;> exact absurd hs hnot
  | finish =>
      obtain ⟨_, -, rfl⟩ := finish_eq_some hstep
      exact absurd hs hnot

/-- A thread that runs and has nothing to do holds nothing. -/
theorem Inv.held_of_quiet (h : Inv s) (hrunning : s.Running) (hstop : none ∉ s.dispatched)
    (hquiet : ∀ a : Action κ, a.own → step s a = none) : s.held = [] := by
  obtain ⟨-, hloop⟩ := hrunning.resolve_left hstop
  obtain ⟨hsending, hwaiting⟩ := quiet_cases hquiet
  obtain ⟨hwaiting, hsocket⟩ := hwaiting.resolve_left hloop
  have hbatch : s.loop.batch = [] := by
    rw [hwaiting]
    rfl
  rw [State.held, hbatch, List.nil_append]
  refine List.eq_nil_iff_forall_not_mem.mpr fun cb hcb => ?_
  cases cb with
  | none => exact hstop (by rw [h.pushed]; exact List.mem_append_right _ hcb)
  | some k =>
      have hbell := h.bell ⟨k, hcb⟩
      rw [hsending, hsocket, hwaiting] at hbell
      simp at hbell

end Held

end EvThread
end Routn
