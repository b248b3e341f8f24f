import Mathlib.Data.List.AList
import Routn.Foundation.Transition

/-!
# Requests in flight

`AsyncSocketStream` registers the context of each request under its sequence number in `_ctxs`, and
three paths complete a request: the response, the timeout timer and `innerClose`.  They run on
different fibers and race.

* The state holds every context ever created (a `Ctx::ptr` is its index in `heap`), the map, the
  timers that are armed, and the threads that are inside one of the paths.  A section under a mutex
  is one step, and so is each access to `scheduler` in `doRsp`.
* `step` lets any thread move, and lets requests, responses, expired timers and `innerClose` come at
  any moment.  `isConnected()` in `request` is not under a lock and may be outdated when `addCtx`
  runs, so it restricts nothing here.
* `log` records what happened, the newest event first.  The code does not read it.
-/

namespace Routn
namespace Completion

open Foundation

/-- A message of type `RESPONSE`.  `answers` is the request the peer answers with it, when there is
one; it is not on the wire. -/
structure Response where
  sn : UInt32
  result : UInt32
  answers : Option Nat
deriving DecidableEq, Repr

/-- `AsyncSocketStream::Error`, converted to the type of `Ctx::result`. -/
def TIMEOUT : UInt32 := 0xFFFFFFFF

def IO_ERROR : UInt32 := 0xFFFFFFFE

/-- `RockStream::RockCtx`.  `timer` tells whether the pointer is set. -/
structure Ctx where
  sn : UInt32
  result : UInt32
  timed : Bool
  scheduler : Option Nat
  fiber : Option Nat
  timer : Bool
  response : Option Response
deriving DecidableEq, Repr

/-- The paths that complete a request. -/
inductive Cause
  | onTimeOut (c : Nat)
  | doRecv (response : Response)
  | innerClose
deriving DecidableEq, Repr

/-- The path was taken on behalf of this context: its own timer, a response to it, or the closing of
the stream.  A response that answers no request may meet any context. -/
def Cause.Own : Cause → Nat → Prop
  | .onTimeOut c, target => target = c
  | .doRecv response, target => response.answers = none ∨ response.answers = some target
  | .innerClose, _ => True

instance : ∀ (cause : Cause) (target : Nat), Decidable (cause.Own target)
  | .onTimeOut c, target => inferInstanceAs (Decidable (target = c))
  | .doRecv response, target =>
      inferInstanceAs (Decidable (response.answers = none ∨ response.answers = some target))
  | .innerClose, _ => inferInstanceAs (Decidable True)

inductive Event
  /-- `addCtx` returned `true`. -/
  | added (c : Nat)
  /-- The context was taken out of `_ctxs`. -/
  | removed (cause : Cause) (c : Nat)
  /-- The response was stored in the context. -/
  | delivered (response : Response) (c : Nat)
  /-- `doRsp` handed the fiber of the context to its scheduler. -/
  | scheduled (cause : Cause) (c : Nat)
deriving DecidableEq, Repr

def Event.scheduledCtx : Event → Option Nat
  | .scheduled _ c => some c
  | _ => none

/-- Who called `doRsp`, and for `innerClose` the contexts its loop has still to visit. -/
inductive Caller
  | onTimeOut (c : Nat)
  | doRecv (response : Response)
  | innerClose (rest : List Nat)
deriving DecidableEq, Repr

def Caller.cause : Caller → Cause
  | .onTimeOut c => .onTimeOut c
  | .doRecv response => .doRecv response
  | .innerClose _ => .innerClose

/-- The points of `doRsp` between two accesses to shared data. -/
inductive RspPc
  | load
  | compareAndSwap (t : Option Nat)
  | cancel (t : Nat)
  | schedule (t : Nat)
deriving DecidableEq, Repr

inductive Thread
  /-- `request`, after `addCtx`: the call of `addTimer`, then the assignment of `ctx->timer`. -/
  | addTimer (c : Nat)
  | setTimer (c : Nat)
  /-- `onTimeOut`: before the lock, and after it. -/
  | onTimeOut (c : Nat)
  | timed (c : Nat)
  /-- `doRecv`, after `getAndDelCtx` found a context. -/
  | deliver (response : Response) (c : Nat)
  /-- The loop of `innerClose` over the contexts it swapped out. -/
  | innerClose (rest : List Nat)
  | doRsp (caller : Caller) (c : Nat) (pc : RspPc)
  | done
deriving DecidableEq, Repr

/-- Where the caller goes on after `doRsp`. -/
def Caller.resume : Caller → Thread
  | .innerClose rest => .innerClose rest
  | _ => .done

structure State where
  heap : List Ctx
  _ctxs : AList fun _ : UInt32 => Nat
  timers : List Nat
  threads : List Thread
  log : List Event
deriving DecidableEq

/-- A stream without requests. -/
def init : State where
  heap := []
  _ctxs := ∅
  timers := []
  threads := []
  log := []

namespace State

/-- The contexts in the map. -/
def registered (s : State) : List Nat := s._ctxs.entries.map Sigma.snd

/-- Assign to fields of a context. -/
def assign (s : State) (c : Nat) (ctx : Ctx) : State := { s with heap := s.heap.set c ctx }

def record (s : State) (event : Event) : State := { s with log := event :: s.log }

/-- `addCtx`.  `emplace` leaves the map alone when the key is there; the result is `true` in any
case. -/
def addCtx (s : State) (c : Nat) (sn : UInt32) : State :=
  { s with
    _ctxs := if sn ∈ s._ctxs then s._ctxs else s._ctxs.insert sn c
    log := .added c :: s.log }

/-- `_ctxs.erase(sn)`. -/
def erase (s : State) (cause : Cause) (sn : UInt32) : State :=
  { s with
    _ctxs := s._ctxs.erase sn
    log := ((s._ctxs.lookup sn).toList.map fun c => .removed cause c) ++ s.log }

end State

/-- One step of a thread: the shared state and the thread after it.  `index` is the position at
which the iteration of `innerClose` goes on, since `unordered_map` has no order. -/
def advance (s : State) (index : Nat) : Thread → Option (State × Thread)
  | .addTimer c => return ({ s with timers := c :: s.timers }, .setTimer c)
  | .setTimer c => do
      let ctx ← s.heap[c]?
      return (s.assign c { ctx with timer := true }, .done)
  | .onTimeOut c => do
      let ctx ← s.heap[c]?
      return (s.erase (.onTimeOut c) ctx.sn, .timed c)
  | .timed c => do
      let ctx ← s.heap[c]?
      return (s.assign c { ctx with timed := true }, .doRsp (.onTimeOut c) c .load)
  | .deliver response c => do
      let ctx ← s.heap[c]?
      let ctx' := { ctx with result := response.result, response := some response }
      return ((s.assign c ctx').record (.delivered response c), .doRsp (.doRecv response) c .load)
  | .innerClose [] => return (s, .done)
  | .innerClose rest => do
      let c ← rest[index]?
      let ctx ← s.heap[c]?
      return (s.assign c { ctx with result := IO_ERROR },
        .doRsp (.innerClose (rest.eraseIdx index)) c .load)
  | .doRsp caller c .load => do
      let ctx ← s.heap[c]?
      return (s, .doRsp caller c (.compareAndSwap ctx.scheduler))
  | .doRsp caller c (.compareAndSwap t) => do
      let ctx ← s.heap[c]?
      if ctx.scheduler = t then
        let s' := s.assign c { ctx with scheduler := none }
        -- `if(!t || !fiber) return;` only the thread that swapped a scheduler out changes `fiber`
        match t, ctx.fiber with
        | some t, some _ => return (s', .doRsp caller c (.cancel t))
        | _, _ => return (s', caller.resume)
      else
        return (s, caller.resume)
  | .doRsp caller c (.cancel t) => do
      let ctx ← s.heap[c]?
      if ctx.timer then
        -- `cancel()` does nothing when the callback has been taken out already
        return ({ s.assign c { ctx with timer := false } with timers := s.timers.erase c },
          .doRsp caller c (.schedule t))
      else
        return (s, .doRsp caller c (.schedule t))
  | .doRsp caller c (.schedule _) => do
      let ctx ← s.heap[c]?
      let result := if ctx.timed then TIMEOUT else ctx.result
      return ((s.assign c { ctx with result := result, fiber := none }).record
        (.scheduled caller.cause c), caller.resume)
  | .done => none

inductive Action
  /-- `RockStream::request`, up to and including `addCtx`. -/
  | request (sn : UInt32) (scheduler fiber : Nat)
  /-- `doRecv` received a response: `getAndDelCtx`. -/
  | getAndDelCtx (response : Response)
  /-- `listExpiredCb` takes the callback of the context's timer. -/
  | listExpiredCb (c : Nat)
  /-- `innerClose`, up to and including the swap of the map. -/
  | innerClose
  | run (thread index : Nat)
deriving DecidableEq, Repr

def step (s : State) : Action → Option State
  | .request sn scheduler fiber =>
      let c := s.heap.length
      let ctx : Ctx := ⟨sn, 0, false, some scheduler, some fiber, false, none⟩
      some { s.addCtx c sn with
        heap := s.heap ++ [ctx]
        threads := s.threads ++ [.addTimer c] }
  | .getAndDelCtx response =>
      -- a response to a request carries its sequence number
      if ∀ c ∈ response.answers, (s.heap[c]?).map Ctx.sn = some response.sn then
        match s._ctxs.lookup response.sn with
        | some c =>
            some { s.erase (.doRecv response) response.sn with
              threads := s.threads ++ [.deliver response c] }
        | none => some s
      else none
  | .listExpiredCb c =>
      if c ∈ s.timers then
        some { s with timers := s.timers.erase c, threads := s.threads ++ [.onTimeOut c] }
      else none
  | .innerClose =>
      some { s with
        _ctxs := ∅
        threads := s.threads ++ [.innerClose s.registered]
        log := s.registered.map (fun c => .removed .innerClose c) ++ s.log }
  | .run thread index => do
      let th ← s.threads[thread]?
      let (s', th') ← advance s index th
      return { s' with threads := s'.threads.set thread th' }

end Completion
end Routn
