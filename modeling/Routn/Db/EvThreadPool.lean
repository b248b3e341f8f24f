import Routn.Db.EvThread
import Routn.Foundation.Table

/-!
# A pool of libevent threads

With `_advance`, `EvThreadPool` keeps the callbacks in a list of its own and the threads that have
nothing to do in another.

* `check` takes a thread and a callback, and hands the callback to the thread together with a
  reference to it, in a loop until one of the lists is empty.  Each `dispatch` and each release ends
  with `check`, so any number of threads may be in its loop at once.
* The thread goes back to the free ones when the last reference to it is gone: the one that `check`
  holds until the end of its round, and the one that is in the list of the thread until `read_cb`
  has run that list.  Either may be the last.
* A thread that is not started is not given the callback, which goes back to the front.

The threads are those of `EvThread`.  A callback is the number of its dispatch.  The pool is started
once; `stop` and `join` may come at any time, and so may what is dispatched to a thread directly.
-/

namespace Routn
namespace EvThreadPool

open Foundation

/-- What a thread of the pool is given. -/
inductive Job
  /-- `wrapCb`, with a reference that `check` has made. -/
  | pooled (lease : Nat)
  /-- A callback from `dispatch` with an id, from `broadcast`, or without `_advance`. -/
  | direct
deriving DecidableEq

/-- Where a round of `check` is with the thread and the callback it has taken. -/
inductive Stage
  /-- Before `isStart`, after it has said yes, and after it has said no. -/
  | taken
  | ready
  | refused
  /-- The callback was given to the thread: whether `check` still has its reference, whether the
  thread has one in its list, and whether it has called the callback. -/
  | handed (own listed called : Bool)
  /-- The callback was put back: whether `check` still has its reference. -/
  | returned (own : Bool)
deriving DecidableEq

/-- A `shared_ptr` to a thread and its copies, and the callback that was taken with it. -/
structure Lease where
  thread : Nat
  cb : Nat
  stage : Stage
deriving DecidableEq

structure State where
  _threads : List (EvThread.State Job)
  _freeEvThreads : List Nat
  _callbacks : List Nat
  _start : Bool
  _advance : Bool
  _cur : UInt32
  _total : Nat
  /-- The threads that `start` has started. -/
  started : Nat
  /-- The calls of `check` before the test of `_start`, and after it. -/
  checking : Nat
  entered : Nat
  leases : List Lease
  /-- The functions of the lists that `read_cb` is through with, before their destructors. -/
  dying : List (Option Job)
  /-- The calls of `releaseEvThread` before the lock. -/
  releasing : List Nat
  /-- How many callbacks were put into the list, and those that were called. -/
  pushed : Nat
  executed : List Nat
deriving DecidableEq

def init (_size : Nat) (_advance : Bool) : State where
  _threads := List.replicate _size EvThread.init
  _freeEvThreads := []
  _callbacks := []
  _start := false
  _advance := _advance
  _cur := 0
  _total := 0
  started := 0
  checking := 0
  entered := 0
  leases := []
  dying := []
  releasing := []
  pushed := 0
  executed := []

inductive Action
  /-- Whether the callback is an empty function. -/
  | dispatch (empty : Bool)
  | batchDispatch (empties : List Bool)
  | dispatchTo (id : UInt32) (empty : Bool)
  /-- One round of `broadcast`. -/
  | broadcast (thread : Nat) (empty : Bool)
  /-- A round of `start`: the thread is started, and it is put to the free ones. -/
  | startThread
  | startedThread
  | startEnd
  /-- A round of `stop` and its end, and a round of `join`. -/
  | stopThread (thread : Nat)
  | stopEnd
  | joinThread (thread : Nat)
  /-- A round of `check`. -/
  | test
  | take
  | isStart (lease : Nat)
  | hand (lease : Nat)
  | giveBack (lease : Nat)
  | close (lease : Nat)
  | destroy (index : Nat)
  | release (thread : Nat)
  /-- A step of a thread, or the send of a call that has pushed to it. -/
  | own (thread : Nat) (a : EvThread.Action Job)

namespace State

def setStage (s : State) (l : Nat) (x : Lease) (stage : Stage) : State :=
  { s with leases := s.leases.set l { x with stage := stage } }

/-- Put a job into the list of a thread. -/
def give (s : State) (t : Nat) (job : Option Job) : Option State := do
  let th ← s._threads[t]?
  return { s with _threads := s._threads.set t (th.dispatch job) }

/-- What a callback is to a thread that gets it directly. -/
def directJob (empty : Bool) : Option Job := if empty then none else some .direct

/-- `_threads[_cur++ % _size]->dispatch(cb)`. -/
def giveNext (s : State) (empty : Bool) : Option State :=
  { s with _cur := s._cur + 1 }.give (s._cur.toNat % s._threads.length) (directJob empty)

/-- Append callbacks to the list of the pool, under the lock. -/
def push (s : State) (n : Nat) : State :=
  { s with
    _callbacks := s._callbacks ++ List.range' s.pushed n
    pushed := s.pushed + n
    checking := s.checking + 1 }

def dispatch (s : State) (empty : Bool) : Option State :=
  let s := { s with _total := s._total + 1 }
  if s._advance then some (s.push 1) else s.giveNext empty

def giveAll (s : State) : List Bool → Option State
  | [] => some s
  | empty :: empties => do
      let s ← s.giveNext empty
      s.giveAll empties

def batchDispatch (s : State) (empties : List Bool) : Option State :=
  let s := { s with _total := s._total + empties.length }
  if s._advance then some (s.push empties.length) else s.giveAll empties

def dispatchTo (s : State) (id : UInt32) (empty : Bool) : Option State :=
  { s with _total := s._total + 1 }.give (id.toNat % s._threads.length) (directJob empty)

def startThread (s : State) : Option State := do
  let th ← s._threads[s.started]?
  let th ← th.start
  return { s with _threads := s._threads.set s.started th }

def startedThread (s : State) : Option State := do
  let th ← s._threads[s.started]?
  let th ← th.started
  return { s with
    _threads := s._threads.set s.started th
    _freeEvThreads := s._freeEvThreads ++ [s.started]
    started := s.started + 1 }

def startEnd (s : State) : Option State :=
  if s.started = s._threads.length then
    some { s with _start := true, checking := s.checking + 1 }
  else none

def stopThread (s : State) (t : Nat) : Option State := do
  let th ← s._threads[t]?
  return { s with _threads := s._threads.set t th.stop }

def joinThread (s : State) (t : Nat) : Option State := do
  let th ← s._threads[t]?
  let th ← th.join
  return { s with _threads := s._threads.set t th }

/-- `check`, from the top of its loop to the lock. -/
def test (s : State) : Option State :=
  if s.checking = 0 then none
  else if s._start then some { s with checking := s.checking - 1, entered := s.entered + 1 }
  else some { s with checking := s.checking - 1 }

/-- Under the lock. -/
def take (s : State) : Option State :=
  if s.entered = 0 then none
  else
    match s._freeEvThreads, s._callbacks with
    | t :: free, cb :: cbs =>
        some { s with
          entered := s.entered - 1
          _freeEvThreads := free
          _callbacks := cbs
          leases := s.leases ++ [⟨t, cb, .taken⟩] }
    | _, _ => some { s with entered := s.entered - 1 }

def isStart (s : State) (l : Nat) : Option State := do
  let x ← s.leases[l]?
  let th ← s._threads[x.thread]?
  if x.stage = .taken then
    return s.setStage l x (if th._start then .ready else .refused)
  else none

def hand (s : State) (l : Nat) : Option State := do
  let x ← s.leases[l]?
  if x.stage = .ready then
    (s.setStage l x (.handed true true false)).give x.thread (some (.pooled l))
  else none

def giveBack (s : State) (l : Nat) : Option State := do
  let x ← s.leases[l]?
  if x.stage = .refused then
    return { s.setStage l x (.returned true) with _callbacks := x.cb :: s._callbacks }
  else none

/-- The end of a round, where `check` gives up its reference and goes on with the next one.  When
it was the last, the thread is released first. -/
def close (s : State) (l : Nat) : Option State := do
  let x ← s.leases[l]?
  match x.stage with
  | .handed true listed called =>
      let s' := { s.setStage l x (.handed false listed called) with checking := s.checking + 1 }
      if listed then some s' else some { s' with releasing := s.releasing ++ [x.thread] }
  | .returned true =>
      some { s.setStage l x (.returned false) with
        checking := s.checking + 1
        releasing := s.releasing ++ [x.thread] }
  | _ => none

def release (s : State) (t : Nat) : Option State :=
  if t ∈ s.releasing then
    some { s with
      releasing := s.releasing.erase t
      _freeEvThreads := s._freeEvThreads ++ [t]
      checking := s.checking + 1 }
  else none

/-- The call of `wrapCb`. -/
def wrapCb (s : State) (l : Nat) : State :=
  match s.leases[l]? with
  | some x =>
      match x.stage with
      | .handed own listed _ =>
          { s.setStage l x (.handed own listed true) with executed := s.executed ++ [x.cb] }
      | _ => s
  | none => s

/-- A function is destroyed, and its reference with it. -/
def destroy (s : State) (i : Nat) : Option State := do
  let job ← s.dying[i]?
  let s := { s with dying := s.dying.eraseIdx i }
  match job with
  | some (.pooled l) =>
      let x ← s.leases[l]?
      match x.stage with
      | .handed true true called => some (s.setStage l x (.handed true false called))
      | .handed false true called =>
          some { s.setStage l x (.handed false false called) with
            releasing := s.releasing ++ [x.thread] }
      | _ => none
  | _ => some s

/-- What a step of a thread means to the pool: which function is called, and which lists are left. -/
def notice (s : State) (loop : EvThread.Loop Job) (a : EvThread.Action Job) : State :=
  match a, loop with
  | .call, .running _ (some (.pooled l) :: _) => s.wrapCb l
  | .call, .running done (none :: rest) => { s with dying := s.dying ++ (done ++ none :: rest) }
  | .finish, .running done [] => { s with dying := s.dying ++ done }
  | _, _ => s

def own (s : State) (t : Nat) (a : EvThread.Action Job) : Option State := do
  let th ← s._threads[t]?
  if a.own then
    let th' ← EvThread.step th a
    return { s with _threads := s._threads.set t th' }.notice th.loop a
  else none

end State

def step (s : State) : Action → Option State
  | .dispatch empty => s.dispatch empty
  | .batchDispatch empties => s.batchDispatch empties
  | .dispatchTo id empty => s.dispatchTo id empty
  | .broadcast t empty => s.give t (State.directJob empty)
  | .startThread => s.startThread
  | .startedThread => s.startedThread
  | .startEnd => s.startEnd
  | .stopThread t => s.stopThread t
  | .stopEnd => some { s with _start := false }
  | .joinThread t => s.joinThread t
  | .test => s.test
  | .take => s.take
  | .isStart l => s.isStart l
  | .hand l => s.hand l
  | .giveBack l => s.giveBack l
  | .close l => s.close l
  | .destroy i => s.destroy i
  | .release t => s.release t
  | .own t a => s.own t a

/-! ## What a step does -/

section Inversion

variable {s s' : State} {t l i : Nat} {a : EvThread.Action Job}

theorem isStart_eq_some (h : s.isStart l = some s') :
    ∃ x th, s.leases[l]? = some x ∧ s._threads[x.thread]? = some th ∧ x.stage = .taken ∧
      s' = s.setStage l x (if th._start then .ready else .refused) := by
  simp only [State.isStart, Option.bind_eq_bind, Option.bind_eq_some_iff] at h
  obtain ⟨x, hx, th, ht, hif⟩ := h
  obtain ⟨hstage, heq⟩ := Option.ite_none_right_eq_some.mp hif
  exact ⟨x, th, hx, ht, hstage, (Option.some.inj heq).symm⟩

theorem hand_eq_some (h : s.hand l = some s') :
    ∃ x th, s.leases[l]? = some x ∧ s._threads[x.thread]? = some th ∧ x.stage = .ready ∧
      s' = { s.setStage l x (.handed true true false) with
        _threads := s._threads.set x.thread (th.dispatch (some (.pooled l))) } := by
  simp only [State.hand, State.give, Option.bind_eq_bind, Option.bind_eq_some_iff] at h
  obtain ⟨x, hx, hif⟩ := h
  obtain ⟨hstage, hgive⟩ := Option.ite_none_right_eq_some.mp hif
  obtain ⟨th, ht, heq⟩ := Option.bind_eq_some_iff.mp hgive
  exact ⟨x, th, hx, ht, hstage, (Option.some.inj heq).symm⟩

theorem giveBack_eq_some (h : s.giveBack l = some s') :
    ∃ x, s.leases[l]? = some x ∧ x.stage = .refused ∧
      s' = { s.setStage l x (.returned true) with _callbacks := x.cb :: s._callbacks } := by
  simp only [State.giveBack, Option.bind_eq_bind, Option.bind_eq_some_iff] at h
  obtain ⟨x, hx, hif⟩ := h
  obtain ⟨hstage, heq⟩ := Option.ite_none_right_eq_some.mp hif
  exact ⟨x, hx, hstage, (Option.some.inj heq).symm⟩

theorem close_eq_some (h : s.close l = some s') :
    ∃ x, s.leases[l]? = some x ∧
      ((∃ called, x.stage = .handed true true called ∧
        s' = { s.setStage l x (.handed false true called) with checking := s.checking + 1 }) ∨
      (∃ called, x.stage = .handed true false called ∧
        s' = { s.setStage l x (.handed false false called) with
          checking := s.checking + 1
          releasing := s.releasing ++ [x.thread] }) ∨
      x.stage = .returned true ∧
        s' = { s.setStage l x (.returned false) with
          checking := s.checking + 1
          releasing := s.releasing ++ [x.thread] }) := by
  simp only [State.close, Option.bind_eq_bind, Option.bind_eq_some_iff] at h
  obtain ⟨x, hx, hmatch⟩ := h
  refine ⟨x, hx, ?_⟩
  split at hmatch
  · next listed called hstage =>
      cases listed with
      | true => exact .inl ⟨called, hstage, (Option.some.inj hmatch).symm⟩
      | false => exact .inr (.inl ⟨called, hstage, (Option.some.inj hmatch).symm⟩)
  · next hstage => exact .inr (.inr ⟨hstage, (Option.some.inj hmatch).symm⟩)
  · cases hmatch

theorem destroy_eq_some (h : s.destroy i = some s') :
    ∃ job, s.dying[i]? = some job ∧
      ((∀ l, job ≠ some (.pooled l)) ∧ s' = { s with dying := s.dying.eraseIdx i } ∨
      ∃ l x called, job = some (.pooled l) ∧ s.leases[l]? = some x ∧
        (x.stage = .handed true true called ∧
          s' = { s.setStage l x (.handed true false called) with dying := s.dying.eraseIdx i } ∨
        x.stage = .handed false true called ∧
          s' = { s.setStage l x (.handed false false called) with
            dying := s.dying.eraseIdx i
            releasing := s.releasing ++ [x.thread] })) := by
  simp only [State.destroy, Option.bind_eq_bind, Option.bind_eq_some_iff] at h
  obtain ⟨job, hjob, hmatch⟩ := h
  refine ⟨job, hjob, ?_⟩
  split at hmatch
  · next l =>
      obtain ⟨x, hx, hmatch⟩ := Option.bind_eq_some_iff.mp hmatch
      refine .inr ⟨l, x, ?_⟩
      split at hmatch
      · next called hstage =>
          exact ⟨called, rfl, hx, .inl ⟨hstage, (Option.some.inj hmatch).symm⟩⟩
      · next called hstage =>
          exact ⟨called, rfl, hx, .inr ⟨hstage, (Option.some.inj hmatch).symm⟩⟩
      · cases hmatch
  · next hother => exact .inl ⟨fun l heq => hother l heq, (Option.some.inj hmatch).symm⟩

/-- A step of a thread moves nothing, calls a function of the pool, or leaves a list. -/
theorem own_eq_some (h : s.own t a = some s') :
    ∃ th th', s._threads[t]? = some th ∧ a.own ∧ EvThread.step th a = some th' ∧
      ((th'.held = th.held ∧ (∀ l, th'.waiting.count (some (.pooled l)) =
          th.waiting.count (some (.pooled l))) ∧
        s' = { s with _threads := s._threads.set t th' }) ∨
      (∃ l, th'.held = th.held ∧ th.waiting = some (.pooled l) :: th'.waiting ∧
        s' = { s with _threads := s._threads.set t th' }.wrapCb l) ∨
      ∃ gone skipped, th.held = gone ++ th'.held ∧ th.waiting = skipped ++ th'.waiting ∧
        (skipped ≠ [] → ∃ done rest, th.loop = .running done (none :: rest)) ∧
        s' = { s with _threads := s._threads.set t th', dying := s.dying ++ gone }) := by
  simp only [State.own, Option.bind_eq_bind, Option.bind_eq_some_iff, Option.pure_def] at h
  obtain ⟨th, ht, hif⟩ := h
  obtain ⟨hown, hbind⟩ := Option.ite_none_right_eq_some.mp hif
  obtain ⟨th', hth, heq⟩ := Option.bind_eq_some_iff.mp hbind
  obtain rfl := Option.some.inj heq
  refine ⟨th, th', ht, hown, hth, ?_⟩
  obtain ⟨-, hcases⟩ := EvThread.own_cases hown hth
  rcases hcases with ⟨hcall, hfinish, hheld, hwait⟩ | ⟨done, job, rest, rfl, hloop, hheld, hwait⟩ |
    ⟨done, rest, rfl, hloop, hheld, hwait⟩ | ⟨done, rfl, hloop, hheld, hwait⟩
  · refine .inl ⟨hheld, fun l => by rw [hwait], ?_⟩
    cases a <;> first | rfl | exact absurd rfl hcall | exact absurd rfl hfinish
  · rw [hloop]
    cases job with
    | pooled l => exact .inr (.inl ⟨l, hheld, hwait, rfl⟩)
    | direct => exact .inl ⟨hheld, fun l => by rw [hwait]; simp, rfl⟩
  · rw [hloop]
    exact .inr (.inr ⟨_, _, hheld, hwait, fun _ => ⟨done, rest, rfl⟩, rfl⟩)
  · rw [hloop]
    exact .inr (.inr ⟨_, [], hheld, hwait.symm, absurd rfl, rfl⟩)

end Inversion

end EvThreadPool
end Routn
