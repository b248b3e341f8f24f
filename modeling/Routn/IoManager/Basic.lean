import Mathlib.Logic.Function.Basic
import Routn.Foundation.Table

/-!
# The event table of `IOManager`

A fiber or a callback that waits for a file descriptor is registered in the `FdContext` of the
descriptor, under the event it waits for, and with the kernel.  Schedulers, fibers and callbacks are
numbers.  Operations answer `none` when an assertion fails, or when a null pointer or an entry
outside the table would be used.

The kernel is a partial function from descriptors to masks; `epoll_ctl` with `ADD` succeeds exactly
if the descriptor is not in it, with `MOD` and `DEL` exactly if it is.  The read end of the tickle
pipe, which no caller of the operations has, is left out.
-/

namespace Routn

/-- `IOManager::Event` without `NONE`, the events that can be waited for. -/
inductive Event
  | READ
  | WRITE
deriving DecidableEq, Repr

/-- The value of the enumerator. -/
def Event.bit : Event → UInt32
  | .READ => 0x1
  | .WRITE => 0x4

/-- What is handed to a scheduler. -/
inductive Task
  | fiber (fiber : Nat)
  | callback (callback : Nat)
deriving DecidableEq, Repr

/-- `FdContext::EventContext`. -/
structure EventContext where
  scheduler : Option Nat
  fiber : Option Nat
  callback : Option Nat
deriving DecidableEq, Repr

/-- `FdContext`. -/
structure FdContext where
  fd : Nat
  read : EventContext
  write : EventContext
  events : UInt32
deriving DecidableEq, Repr

namespace FdContext

/-- The value of `NONE`. -/
def NONE : UInt32 := 0x0

def new (fd : Nat) : FdContext := ⟨fd, ⟨none, none, none⟩, ⟨none, none, none⟩, NONE⟩

def getContext (ctx : FdContext) : Event → EventContext
  | .READ => ctx.read
  | .WRITE => ctx.write

def setContext (ctx : FdContext) (event : Event) (slot : EventContext) : FdContext :=
  match event with
  | .READ => { ctx with read := slot }
  | .WRITE => { ctx with write := slot }

def resetContext (ctx : FdContext) (event : Event) : FdContext :=
  ctx.setContext event ⟨none, none, none⟩

/-- `triggerEvent`: what it hands over to which scheduler, and the context afterwards. -/
def triggerEvent (ctx : FdContext) (event : Event) : Option ((Nat × Task) × FdContext) :=
  if ctx.events &&& event.bit = 0 then none
  else
    let ctx := { ctx with events := ctx.events &&& ~~~event.bit }
    let slot := ctx.getContext event
    match slot.scheduler, slot.callback, slot.fiber with
    | some scheduler, some callback, _ =>
        some ((scheduler, .callback callback),
          ctx.setContext event { slot with scheduler := none, callback := none })
    | some scheduler, none, some fiber =>
        some ((scheduler, .fiber fiber),
          ctx.setContext event { slot with scheduler := none, fiber := none })
    | _, _, _ => none

end FdContext

/-- The record of a call of `triggerEvent`. -/
structure Triggered where
  fd : Nat
  event : Event
  scheduler : Nat
  task : Task
deriving DecidableEq, Repr

/-- `triggered` is a record, the last entry first. -/
structure IOManager where
  fdContexts : List FdContext
  epoll : Nat → Option UInt32
  pendingEventCount : UInt64
  triggered : List Triggered

namespace IOManager

def EPOLLIN : UInt32 := 0x1
def EPOLLOUT : UInt32 := 0x4
def EPOLLERR : UInt32 := 0x8
def EPOLLHUP : UInt32 := 0x10
def EPOLLET : UInt32 := 0x80000000

/-- `contextResize`, for entries of any kind: the entries behind `size` go, and `make` constructs
those that are missing. -/
def contextResize {α : Type} (make : Nat → α) (size : Nat) (fdContexts : List α) : List α :=
  fdContexts.take size ++ (List.range' fdContexts.length (size - fdContexts.length)).map make

/-- The constructor, without the tickle pipe. -/
def new : IOManager := ⟨contextResize FdContext.new 32 [], fun _ => none, 0, []⟩

/-! ## The kernel -/

inductive EpollOp
  | ADD
  | MOD
  | DEL
deriving DecidableEq, Repr

/-- `none`: the call returns an error. -/
def epoll_ctl (m : IOManager) (op : EpollOp) (fd : Nat) (events : UInt32) : Option IOManager :=
  match op, m.epoll fd with
  | .ADD, none => some { m with epoll := Function.update m.epoll fd (some events) }
  | .MOD, some _ => some { m with epoll := Function.update m.epoll fd (some events) }
  | .DEL, some _ => some { m with epoll := Function.update m.epoll fd none }
  | _, _ => none

/-! ## Operations -/

/-- `triggerEvent` on the context of a descriptor, and the decrement that follows it everywhere. -/
def trigger (m : IOManager) (fd : Nat) (event : Event) : Option IOManager := do
  let ctx ← m.fdContexts[fd]?
  let ((scheduler, task), ctx) ← ctx.triggerEvent event
  return { m with
    fdContexts := m.fdContexts.set fd ctx
    pendingEventCount := m.pendingEventCount - 1
    triggered := ⟨fd, event, scheduler, task⟩ :: m.triggered }

/-- The first part of `addEvent`, after which the context of the descriptor is in the table. -/
def grow (m : IOManager) (fd : Nat) : IOManager :=
  if fd < m.fdContexts.length then m
  else { m with fdContexts := contextResize FdContext.new (fd * 3 / 2) m.fdContexts }

/-- `addEvent` called by `fiber`, which runs under `scheduler`. -/
def addEvent (m : IOManager) (fd : Nat) (event : Event) (cb : Option Nat) (scheduler fiber : Nat) :
    Option (Int × IOManager) :=
  let m := m.grow fd
  match m.fdContexts[fd]? with
  | none => none
  | some ctx =>
      if ctx.events &&& event.bit ≠ 0 then none
      else
        match m.epoll_ctl (if ctx.events ≠ 0 then .MOD else .ADD) fd
            (EPOLLET ||| ctx.events ||| event.bit) with
        | none => some (-1, m)
        | some m =>
            if ctx.getContext event ≠ ⟨none, none, none⟩ then none
            else
              let event_ctx : EventContext :=
                match cb with
                | some callback => ⟨some scheduler, none, some callback⟩
                | none => ⟨some scheduler, some fiber, none⟩
              some (0, { m with
                fdContexts := m.fdContexts.set fd
                  ({ ctx with events := ctx.events ||| event.bit }.setContext event event_ctx)
                pendingEventCount := m.pendingEventCount + 1 })

/-- The test `(!fd_ctx->events) & event` of `delEvent` and `cancelEvent`. -/
def notRegistered (ctx : FdContext) (event : Event) : Bool :=
  (if ctx.events = 0 then 1 else 0) &&& event.bit != 0

/-- The call of `epoll_ctl` in `delEvent`, `cancelEvent` and `idle`. -/
def removeFromEpoll (m : IOManager) (fd : Nat) (new_events : UInt32) : Option IOManager :=
  m.epoll_ctl (if new_events ≠ 0 then .MOD else .DEL) fd (EPOLLET ||| new_events)

def delEvent (m : IOManager) (fd : Nat) (event : Event) : Option (Bool × IOManager) :=
  match m.fdContexts[fd]? with
  | none => some (false, m)
  | some ctx =>
      if notRegistered ctx event then some (false, m)
      else
        let new_events := ctx.events &&& ~~~event.bit
        match m.removeFromEpoll fd new_events with
        | none => some (false, m)
        | some m =>
            some (true, { m with
              fdContexts := m.fdContexts.set fd
                ({ ctx with events := new_events }.resetContext event)
              pendingEventCount := m.pendingEventCount - 1 })

def cancelEvent (m : IOManager) (fd : Nat) (event : Event) : Option (Bool × IOManager) :=
  match m.fdContexts[fd]? with
  | none => some (false, m)
  | some ctx =>
      if notRegistered ctx event then some (false, m)
      else
        let new_events := ctx.events &&& ~~~event.bit
        match m.removeFromEpoll fd new_events with
        | none => some (false, m)
        | some m => (m.trigger fd event).map fun m => (true, m)

/-- The registered events of a descriptor. -/
def events (m : IOManager) (fd : Nat) : UInt32 :=
  match m.fdContexts[fd]? with
  | none => 0
  | some ctx => ctx.events

/-- `triggerEvent` when the event is in the mask. -/
def triggerIf (m : IOManager) (fd : Nat) (mask : UInt32) (event : Event) : Option IOManager :=
  if mask &&& event.bit ≠ 0 then m.trigger fd event else some m

def cancelAll (m : IOManager) (fd : Nat) : Option (Bool × IOManager) :=
  match m.fdContexts[fd]? with
  | none => some (false, m)
  | some ctx =>
      if ctx.events = 0 then some (false, m)
      else
        match m.epoll_ctl .DEL fd 0 with
        | none => some (false, m)
        | some m => do
            let m ← m.triggerIf fd (m.events fd) .READ
            let m ← m.triggerIf fd (m.events fd) .WRITE
            if m.events fd = 0 then some (true, m) else none

/-! ## Dispatch -/

/-- The events reported by `epoll_wait` as `idle` reads them: an error or a hang-up stands for all
registered events. -/
def realEvents (registered reported : UInt32) : UInt32 :=
  let reported :=
    if reported &&& (EPOLLERR ||| EPOLLHUP) ≠ 0 then
      reported ||| ((EPOLLIN ||| EPOLLOUT) &&& registered)
    else reported
  (if reported &&& EPOLLIN ≠ 0 then Event.READ.bit else 0) |||
    (if reported &&& EPOLLOUT ≠ 0 then Event.WRITE.bit else 0)

/-- What `idle` does with one event of `epoll_wait` that is not a tickle. -/
def dispatch (m : IOManager) (fd : Nat) (reported : UInt32) : Option IOManager :=
  match m.fdContexts[fd]? with
  | none => none
  | some ctx =>
      let real_events := realEvents ctx.events reported
      if ctx.events &&& real_events = 0 then some m
      else
        let left_events := ctx.events &&& ~~~real_events
        match m.removeFromEpoll fd left_events with
        | none => some m
        | some m => do
            let m ← m.triggerIf fd real_events .READ
            m.triggerIf fd real_events .WRITE

end IOManager
end Routn
