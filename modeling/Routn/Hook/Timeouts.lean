import Mathlib.Data.UInt
import Routn.Hook.FdManager

/-!
# The timeouts of a socket

`Socket` writes a `timeval`, the hooked `setsockopt` turns it back into milliseconds, and `FdCtx`
keeps them by the type of the option, where `do_io` reads them.  The seconds of the `timeval` go
through an `int`, and its microseconds are always zero.

`setsockopt_f` is the one of the system; what it returns is arbitrary.
-/

namespace Routn
namespace Hook

def SOL_SOCKET : Int32 := 1

def SO_RCVTIMEO : Int32 := 20

def SO_SNDTIMEO : Int32 := 21

def SO_RCVTIMEO_NEW : Int32 := 66

def SO_SNDTIMEO_NEW : Int32 := 67

structure Timeval where
  tv_sec : Int64
  tv_usec : Int64
deriving DecidableEq, Repr

/-! ## `FdCtx` -/

structure TimedCtx extends FdCtx where
  recvTimeout : UInt64
  sendTimeout : UInt64
deriving DecidableEq, Repr

namespace TimedCtx

def setTimeout (ctx : TimedCtx) (type : Int32) (v : UInt64) : TimedCtx :=
  if type = SO_RCVTIMEO ∨ type = SO_RCVTIMEO_NEW then { ctx with recvTimeout := v }
  else { ctx with sendTimeout := v }

def getTimeout (ctx : TimedCtx) (type : Int32) : UInt64 :=
  if type = SO_RCVTIMEO ∨ type = SO_RCVTIMEO_NEW then ctx.recvTimeout else ctx.sendTimeout

variable (ctx : TimedCtx) (type : Int32) (v : UInt64)

@[simp] theorem getTimeout_setTimeout_self : (ctx.setTimeout type v).getTimeout type = v := by
  by_cases htype : type = SO_RCVTIMEO ∨ type = SO_RCVTIMEO_NEW <;>
    simp [setTimeout, getTimeout, htype]

@[simp] theorem setTimeout_toFdCtx : (ctx.setTimeout type v).toFdCtx = ctx.toFdCtx := by
  unfold setTimeout
  split <;> rfl

end TimedCtx

/-- The contexts, by descriptor. -/
abbrev TimedFds := Int → Option TimedCtx

/-- `FdMgr::GetInstance()->get(fd)`. -/
def TimedFds.get (fds : TimedFds) (fd : Int) : Option TimedCtx := if fd = -1 then none else fds fd

/-! ## `setsockopt` and `do_io` -/

section System

variable (t_hook_enable : Bool) (setsockopt_f : Int → Int32 → Int32 → Timeval → Int32)

/-- `setsockopt` of a `timeval`. -/
def setsockopt (fds : TimedFds) (sockfd : Int) (level optname : Int32) (v : Timeval) :
    TimedFds × Int32 :=
  if !t_hook_enable then (fds, setsockopt_f sockfd level optname v)
  else
    let fds :=
      if level = SOL_SOCKET then
        if optname = SO_RCVTIMEO ∨ optname = SO_SNDTIMEO ∨ optname = SO_SNDTIMEO_NEW ∨
            optname = SO_RCVTIMEO_NEW then
          match fds.get sockfd with
          | some ctx =>
              let ctx := ctx.setTimeout optname (v.tv_sec * 1000 + v.tv_usec / 1000).toUInt64
              Function.update fds sockfd (some ctx)
          | none => fds
        else fds
      else fds
    (fds, setsockopt_f sockfd level optname v)

/-- The milliseconds of the timer that `do_io` adds when the call would block, if it adds one. -/
def do_io_timeout (fds : TimedFds) (fd : Int) (timeout_so : Int32) : Option UInt64 :=
  if !t_hook_enable then none
  else
    match fds.get fd with
    | none => none
    | some ctx =>
        if ctx.isClosed then none
        else if !ctx.isSocket || ctx.userNonblock then none
        else
          let timeout := ctx.getTimeout timeout_so
          if timeout ≠ -1 then some timeout else none

/-! ## `Socket` -/

namespace Socket

def setOption (fds : TimedFds) (sock : Int) (level option : Int32) (result : Timeval) :
    TimedFds × Bool :=
  let (fds, ret) := setsockopt t_hook_enable setsockopt_f fds sock level option result
  (fds, ret = 0)

/-- The body that `setSendTimeout` and `setRecvTimeout` share. -/
def setTimeout (option : Int32) (fds : TimedFds) (sock : Int) (v : Int64) : TimedFds × Bool :=
  setOption t_hook_enable setsockopt_f fds sock SOL_SOCKET option ⟨(v / 1000).toInt32.toInt64, 0⟩

/-- The body that `getSendTimeout` and `getRecvTimeout` share. -/
def getTimeout (option : Int32) (fds : TimedFds) (sock : Int) : Int64 :=
  match fds.get sock with
  | some ctx => (ctx.getTimeout option).toInt64
  | none => -1

def getSendTimeout : TimedFds → Int → Int64 := getTimeout SO_SNDTIMEO

def setSendTimeout : TimedFds → Int → Int64 → TimedFds × Bool :=
  setTimeout t_hook_enable setsockopt_f SO_SNDTIMEO

def getRecvTimeout : TimedFds → Int → Int64 := getTimeout SO_RCVTIMEO

def setRecvTimeout : TimedFds → Int → Int64 → TimedFds × Bool :=
  setTimeout t_hook_enable setsockopt_f SO_RCVTIMEO

end Socket

end System

/-! ## Both directions -/

inductive Direction
  | send
  | recv
deriving DecidableEq, Repr

namespace Direction

/-- The option that `do_io` looks at. -/
def timeout_so : Direction → Int32
  | send => SO_SNDTIMEO
  | recv => SO_RCVTIMEO

/-- `getSendTimeout()` or `getRecvTimeout()`. -/
def get : Direction → TimedFds → Int → Int64
  | send => Socket.getSendTimeout
  | recv => Socket.getRecvTimeout

/-- `setSendTimeout(v)` or `setRecvTimeout(v)` on a hooked thread. -/
def set (setsockopt_f : Int → Int32 → Int32 → Timeval → Int32) :
    Direction → TimedFds → Int → Int64 → TimedFds × Bool
  | send => Socket.setSendTimeout true setsockopt_f
  | recv => Socket.setRecvTimeout true setsockopt_f

end Direction

/-- A call that sets a timeout. -/
structure TimeoutCall where
  sock : Int
  direction : Direction
  v : Int64
deriving DecidableEq, Repr

namespace TimeoutCall

/-- The contexts after the calls. -/
def run (setsockopt_f : Int → Int32 → Int32 → Timeval → Int32) (fds : TimedFds)
    (calls : List TimeoutCall) : TimedFds :=
  calls.foldl (fun fds call => (call.direction.set setsockopt_f fds call.sock call.v).1) fds

/-- What the last call for a direction of a socket has set. -/
def last (sock : Int) (direction : Direction) : List TimeoutCall → Option Int64
  | [] => none
  | call :: calls =>
      last sock direction calls <|>
        if call.sock = sock ∧ call.direction = direction then some call.v else none

end TimeoutCall

/-- Whole seconds that fit an `int`. -/
def WholeSeconds (v : Int64) : Prop := v % 1000 = 0 ∧ v < 2147483648000

/-! ## What is stored -/

/-- What reaches the context. -/
def stored (v : Int64) : UInt64 := ((v / 1000).toInt32.toInt64 * 1000 + 0 / 1000).toUInt64

theorem toInt_stored (v : Int64) :
    (stored v).toInt64.toInt = (v.toInt.tdiv 1000).bmod (2 ^ 32) * 1000 := by
  have hlow := Int.le_bmod (x := v.toInt.tdiv 1000) (m := 2 ^ 32) (by decide)
  have hhigh := Int.bmod_lt (x := v.toInt.tdiv 1000) (m := 2 ^ 32) (by decide)
  have hdiv : (v / 1000).toInt = v.toInt.tdiv 1000 :=
    Int64.toInt_div_of_ne_right v 1000 (by decide)
  have hthousand : (1000 : Int64).toInt = 1000 := by decide
  simp only [stored, Int64.toInt64_toUInt64, Int64.zero_div, Int64.add_zero, Int64.toInt_mul,
    Int32.toInt_toInt64, Int64.toInt_toInt32, hdiv, hthousand]
  generalize (v.toInt.tdiv 1000).bmod (2 ^ 32) = seconds at hlow hhigh
  exact Int.bmod_eq_of_le (by omega) (by omega)

/-- **The round trip of one value.** -/
theorem stored_iff {v : Int64} (hv : 0 ≤ v) : (stored v).toInt64 = v ↔ WholeSeconds v := by
  have hnonneg : 0 ≤ v.toInt := by simpa using Int64.le_iff_toInt_le.mp hv
  have hlt := v.toInt_lt
  have hthousand : (1000 : Int64).toInt = 1000 := by decide
  have hbound : (2147483648000 : Int64).toInt = 2147483648000 := by decide
  have hrem : v % 1000 = 0 ↔ v.toInt % 1000 = 0 := by
    rw [← Int64.toInt_inj, Int64.toInt_mod, hthousand, Int.tmod_eq_emod_of_nonneg hnonneg]
    simp
  rw [WholeSeconds, hrem, Int64.lt_iff_toInt_lt, hbound, ← Int64.toInt_inj, toInt_stored,
    Int.tdiv_eq_ediv_of_nonneg hnonneg, Int.bmod_def]
  split <;> omega

/-- A stored timeout is never the one that stands for none. -/
theorem stored_ne (v : Int64) : stored v ≠ -1 := by
  intro h
  have hint := toInt_stored v
  have hneg : ((-1 : UInt64).toInt64).toInt = -1 := by decide
  rw [h, hneg] at hint
  omega

/-! ## One call -/

section Call

variable {setsockopt_f : Int → Int32 → Int32 → Timeval → Int32} {fds : TimedFds} {sock : Int}
  {ctx : TimedCtx}

theorem get_eq (direction : Direction) (hctx : fds.get sock = some ctx) :
    direction.get fds sock = (ctx.getTimeout direction.timeout_so).toInt64 := by
  cases direction <;>
    simp [Direction.get, Socket.getSendTimeout, Socket.getRecvTimeout, Socket.getTimeout, hctx,
      Direction.timeout_so]

/-- A call on a socket that has a context stores its value there. -/
theorem set_eq (direction : Direction) (v : Int64) (hctx : fds.get sock = some ctx) :
    (direction.set setsockopt_f fds sock v).1 =
      Function.update fds sock (some (ctx.setTimeout direction.timeout_so (stored v))) := by
  have hsend : SO_SNDTIMEO ≠ SO_RCVTIMEO := by decide
  cases direction <;>
    simp [Direction.set, Socket.setSendTimeout, Socket.setRecvTimeout, Socket.setTimeout,
      Socket.setOption, setsockopt, hctx, Direction.timeout_so, stored]

/-- A call on a socket that has none stores nothing. -/
theorem set_none (direction : Direction) (v : Int64) (hctx : fds.get sock = none) :
    (direction.set setsockopt_f fds sock v).1 = fds := by
  cases direction <;>
    simp [Direction.set, Socket.setSendTimeout, Socket.setRecvTimeout, Socket.setTimeout,
      Socket.setOption, setsockopt, hctx]

theorem getTimeout_setTimeout {direction other : Direction} (hne : direction ≠ other)
    (v : UInt64) : (ctx.setTimeout other.timeout_so v).getTimeout direction.timeout_so =
      ctx.getTimeout direction.timeout_so := by
  cases direction <;> cases other <;>
    simp_all [TimedCtx.setTimeout, TimedCtx.getTimeout, Direction.timeout_so, SO_SNDTIMEO,
      SO_RCVTIMEO, SO_RCVTIMEO_NEW]

/-- **One call**: the socket that it is about has the value in its direction, and everything else is
as before. -/
theorem get_set (setsockopt_f : Int → Int32 → Int32 → Timeval → Int32) (call : TimeoutCall)
    (hctx : fds.get sock = some ctx) :
    ∃ ctx', TimedFds.get (call.direction.set setsockopt_f fds call.sock call.v).1 sock = some ctx' ∧
      ctx'.toFdCtx = ctx.toFdCtx ∧
      ∀ direction, ctx'.getTimeout direction.timeout_so =
        if call.sock = sock ∧ call.direction = direction then stored call.v
        else ctx.getTimeout direction.timeout_so := by
  have hvalid : sock ≠ -1 := by
    intro h
    simp [TimedFds.get, h] at hctx
  by_cases hsock : call.sock = sock
  · refine ⟨ctx.setTimeout call.direction.timeout_so (stored call.v), ?_, by simp, ?_⟩
    · rw [hsock, set_eq _ _ hctx]
      simp [TimedFds.get, hvalid]
    · intro direction
      by_cases hdirection : call.direction = direction
      · simp [hsock, hdirection]
      · simp [hdirection, getTimeout_setTimeout (Ne.symm hdirection)]
  · refine ⟨ctx, ?_, rfl, by simp [hsock]⟩
    cases hcall : fds.get call.sock with
    | none => rw [set_none _ _ hcall, hctx]
    | some other =>
        rw [set_eq _ _ hcall]
        simpa [TimedFds.get, hvalid, Function.update_of_ne (Ne.symm hsock)] using hctx

/-- What the context of a socket has after any calls. -/
theorem get_run (setsockopt_f : Int → Int32 → Int32 → Timeval → Int32) (calls : List TimeoutCall)
    (hctx : fds.get sock = some ctx) :
    ∃ ctx', (TimeoutCall.run setsockopt_f fds calls).get sock = some ctx' ∧
      ctx'.toFdCtx = ctx.toFdCtx ∧
      ∀ direction, ctx'.getTimeout direction.timeout_so =
        ((TimeoutCall.last sock direction calls).map stored).getD
          (ctx.getTimeout direction.timeout_so) := by
  induction calls generalizing fds ctx with
  | nil => exact ⟨ctx, hctx, rfl, by simp [TimeoutCall.last]⟩
  | cons call calls ih =>
      obtain ⟨mid, hmid, hsame, hcall⟩ := get_set setsockopt_f call hctx
      obtain ⟨ctx', hget, hsame', hlast⟩ := ih hmid
      refine ⟨ctx', hget, by rw [hsame', hsame], ?_⟩
      intro direction
      rw [hlast, hcall, TimeoutCall.last]
      cases TimeoutCall.last sock direction calls <;> simp
      split <;> simp

end Call

/-! ## The round trip -/

/-- **The timeouts of a socket**, after any calls on any sockets, in each direction. -/
theorem timeout_iff (setsockopt_f : Int → Int32 → Int32 → Timeval → Int32) {fds : TimedFds}
    {sock : Int} {ctx : TimedCtx} (hctx : fds.get sock = some ctx) (calls : List TimeoutCall)
    (direction : Direction) {v : Int64} (hlast : TimeoutCall.last sock direction calls = some v)
    (hv : 0 ≤ v) :
    let fds' := TimeoutCall.run setsockopt_f fds calls
    (direction.get fds' sock = v ↔ WholeSeconds v) ∧
      (ctx.isSocket ∧ ¬ ctx.isClosed ∧ ¬ ctx.userNonblock →
        (do_io_timeout true fds' sock direction.timeout_so = some v.toUInt64 ↔
          WholeSeconds v)) := by
  obtain ⟨ctx', hget, hsame, hvalues⟩ := get_run setsockopt_f calls hctx
  have hvalue : ctx'.getTimeout direction.timeout_so = stored v := by
    simp [hvalues, hlast]
  constructor
  · rw [get_eq direction hget, hvalue]
    exact stored_iff hv
  · rintro ⟨hsocket, hopen, hblocking⟩
    have hround : stored v = v.toUInt64 ↔ WholeSeconds v := by
      rw [← stored_iff hv]
      constructor <;> intro h
      · rw [h, Int64.toInt64_toUInt64]
      · rw [← congrArg Int64.toUInt64 h, UInt64.toUInt64_toInt64]
    simpa [do_io_timeout, hget, hsame, hsocket, hopen, hblocking, hvalue, stored_ne] using hround

/-- A context for descriptor zero, which is a blocking socket for its user. -/
def oneSocket : TimedFds :=
  Function.update (fun _ => none) 0 (some ⟨⟨true, true, true, false, false⟩, -1, -1⟩)

/-- `timeout_iff` for two seconds to receive and three to send. -/
theorem timeout_iff_two :
    let fds' := TimeoutCall.run (fun _ _ _ _ => 0) oneSocket [⟨0, .recv, 2000⟩, ⟨0, .send, 3000⟩]
    Socket.getRecvTimeout fds' 0 = 2000 ∧
      do_io_timeout true fds' 0 SO_RCVTIMEO = some 2000 := by
  have hctx : oneSocket.get 0 = some ⟨⟨true, true, true, false, false⟩, -1, -1⟩ := by
    decide
  have hboth := timeout_iff (fun _ _ _ _ => 0) hctx
    [⟨0, .recv, 2000⟩, ⟨0, .send, 3000⟩] .recv (v := 2000) (by decide) (by decide)
  have hwhole : WholeSeconds 2000 := by
    unfold WholeSeconds
    decide
  exact ⟨hboth.1.mpr hwhole, (hboth.2 (by decide)).mpr hwhole⟩

/-- **A second and a half**: a second is stored, and `do_io` waits a second. -/
theorem not_timeout_millis :
    let fds' := TimeoutCall.run (fun _ _ _ _ => 0) oneSocket [⟨0, .recv, 1500⟩]
    Socket.getRecvTimeout fds' 0 ≠ 1500 ∧
      do_io_timeout true fds' 0 SO_RCVTIMEO = some 1000 := by
  decide

end Hook
end Routn
