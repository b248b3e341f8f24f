import Routn.Foundation.Table
import Routn.Rpc.Message
import Routn.Streams.Completion

/-!
# A connection and its server

`RockStream` on both ends: a `RockConnection` that sends requests, and the `RockSession` that the
server has for each of its sockets.

* The contexts of the requests are those of the completion machine; what is added is the peer.  A
  message on a socket is the message that was serialized, with the context of the request beside it,
  which is not on the wire.
* The server reads requests and schedules `handleRequest` on its workers, where they end in any
  order.  A handler fills in the response that `createResponse` makes, and may refuse to go on.
* The connection may break off at any moment, at either end, and be made again: a session that
  belongs to an older socket goes on with what it has.

What comes back to a request is the answer that the handler gave to it, which is shown in `Answers`.
-/

namespace Routn

/-- What `createResponse` copies. -/
def RockRequest.createResponse (m : RockRequest) : RockResponse := { sn := m.sn, cmd := m.cmd }

namespace Peers

open Foundation

/-- What a session sends. -/
inductive Reply
  | response (c : Nat) (rsp : RockResponse)
  | notify (ntf : RockNotify)
deriving DecidableEq

/-- A socket and the session that the server has for it. -/
structure Session where
  /-- On the socket, in both directions. -/
  up : List (Nat × RockRequest) := []
  down : List Reply := []
  /-- The calls of `handleRequest` that are scheduled on the worker. -/
  tasks : List (Nat × RockRequest) := []
  _queue : List Reply := []
  connected : Bool := true
deriving DecidableEq

structure State where
  calls : Completion.State
  /-- `ctx->request`. -/
  requests : List RockRequest
  /-- The calls of `request` between `addCtx` and `enqueue`. -/
  entering : List Nat
  _queue : List Nat
  /-- The session at the other end of the socket, while it is connected. -/
  socket : Option Nat
  sessions : List Session
  /-- What was answered, for each request that was handled. -/
  handled : List (Nat × RockRequest × RockResponse)
  notified : List RockNotify

def init : State where
  calls := Completion.init
  requests := []
  entering := []
  _queue := []
  socket := none
  sessions := []
  handled := []
  notified := []

/-- What the completion machine is told of a response. -/
def received (c : Nat) (rsp : RockResponse) : Completion.Response := ⟨rsp.sn, rsp.result, some c⟩

inductive Action
  /-- `request`, up to and including `addCtx`. -/
  | request (req : RockRequest) (scheduler fiber : Nat)
  | enqueue (c : Nat)
  /-- `doWrite` sends the first context of the queue. -/
  | doWrite
  /-- `doRecv` reads the first message. -/
  | doRecv
  /-- A timer, or a thread in one of the paths that complete a request. -/
  | listExpiredCb (c : Nat)
  | run (thread index : Nat)
  | innerClose
  /-- `start` after `reconnect`. -/
  | start
  /-- The session reads a request. -/
  | accept (session : Nat)
  | handleRequest (session task : Nat) (result : UInt32) (resStr body : List UInt8) (goOn : Bool)
  | sendNotify (session : Nat) (ntf : RockNotify)
  /-- The session's `doWrite`, and its `innerClose`. -/
  | reply (session : Nat)
  | closeSession (session : Nat)

namespace State

def setSession (s : State) (k : Nat) (x : Session) : State :=
  { s with sessions := s.sessions.set k x }

end State

namespace Session

/-- `sendMessage`. -/
def sendMessage (x : Session) (msg : Reply) : Session :=
  if x.connected then { x with _queue := x._queue ++ [msg] } else x

/-- `innerClose`, or `close` after which it comes. -/
def close (x : Session) : Session := { x with connected := false, _queue := [] }

end Session

open Completion in
def step (s : State) : Action → Option State
  | .request req scheduler fiber => do
      let calls ← Completion.step s.calls (.request req.sn scheduler fiber)
      return { s with
        calls := calls
        requests := s.requests ++ [req]
        entering := s.entering ++ [s.requests.length] }
  | .enqueue c =>
      if c ∈ s.entering then
        some { s with entering := s.entering.erase c, _queue := s._queue ++ [c] }
      else none
  | .doWrite => do
      let k ← s.socket
      let x ← s.sessions[k]?
      match s._queue with
      | [] => none
      | c :: rest => do
          let req ← s.requests[c]?
          return { s with _queue := rest }.setSession k { x with up := x.up ++ [(c, req)] }
  | .doRecv => do
      let k ← s.socket
      let x ← s.sessions[k]?
      match x.down with
      | [] => none
      | .response c rsp :: rest => do
          let calls ← Completion.step s.calls (.getAndDelCtx (received c rsp))
          return { s with calls := calls }.setSession k { x with down := rest }
      | .notify ntf :: rest =>
          return { s with notified := s.notified ++ [ntf] }.setSession k { x with down := rest }
  | .listExpiredCb c => do
      let calls ← Completion.step s.calls (.listExpiredCb c)
      return { s with calls := calls }
  | .run thread index => do
      let calls ← Completion.step s.calls (.run thread index)
      return { s with calls := calls }
  | .innerClose => do
      let calls ← Completion.step s.calls .innerClose
      return { s with calls := calls, _queue := [], socket := none }
  | .start =>
      if s.socket = none then
        some { s with socket := some s.sessions.length, sessions := s.sessions ++ [{}] }
      else none
  | .accept k => do
      let x ← s.sessions[k]?
      match x.up with
      | [] => none
      | first :: rest =>
          if x.connected then
            return s.setSession k { x with up := rest, tasks := x.tasks ++ [first] }
          else none
  | .handleRequest k i result resStr body goOn => do
      let x ← s.sessions[k]?
      let (c, req) ← x.tasks[i]?
      let rsp : RockResponse :=
        { req.createResponse with result := result, resStr := resStr, body := body }
      let x' := { x with tasks := x.tasks.eraseIdx i }.sendMessage (.response c rsp)
      return { s with handled := (c, req, rsp) :: s.handled }.setSession k
        (if goOn then x' else x'.close)
  | .sendNotify k ntf => do
      let x ← s.sessions[k]?
      return s.setSession k (x.sendMessage (.notify ntf))
  | .reply k => do
      let x ← s.sessions[k]?
      match x._queue with
      | [] => none
      | first :: rest =>
          if x.connected then
            return s.setSession k { x with _queue := rest, down := x.down ++ [first] }
          else none
  | .closeSession k => do
      let x ← s.sessions[k]?
      return s.setSession k x.close

/-- The sequence number is one that no earlier request has used, as callers do that count. -/
def FreshSn (s : State) : Action → Prop
  | .request req _ _ => ∀ earlier ∈ s.requests, earlier.sn ≠ req.sn
  | _ => True

end Peers
end Routn
