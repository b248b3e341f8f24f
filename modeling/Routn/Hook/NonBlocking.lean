import Routn.Foundation.Transition
import Routn.Hook.FdManager

/-!
# `O_NONBLOCK` of a hooked socket

The hook keeps its sockets non-blocking and is to hide that from the program: `fcntl` and `ioctl`
translate between the flag that the program has set and the one of the kernel.  `user` below is a
descriptor that no hook touches; the program is to see the answers of that one.

`F_SETFL` does it.  `F_GETFL` answers for a socket what the kernel has, and `FIONBIO` is handed on
as it is, so the flag shows through when the program has it cleared, and is lost when the program
clears it with `ioctl`.
-/

namespace Routn
namespace Hook

open Foundation

/-! ## The hooked calls -/

structure State where
  mgr : FdManager
  files : Files

/-- The calls that set or report the flag; `ioctl` is the one with `FIONBIO`. -/
inductive Call
  | F_SETFL (fd : Nat) (arg : Flags)
  | F_GETFL (fd : Nat)
  | ioctl (fd : Nat) (v : BitVec 32)
deriving DecidableEq, Repr

def Call.fd : Call → Nat
  | F_SETFL fd _ | F_GETFL fd | ioctl fd _ => fd

section Calls

variable (kernel : Kernel)

/-- The system call on a file: what it returns, and the file. -/
def plain (file : File) : Call → Flags × File
  | .F_SETFL _ arg =>
      let (ok, file') := kernel.setfl file arg
      (if ok then 0 else -1, file')
  | .F_GETFL _ => (file.flags, file)
  | .ioctl _ v => (0, file.fionbio v)

/-- `fcntl_f` and `ioctl_f`. -/
def raw (s : State) (call : Call) : Flags × State :=
  match s.files call.fd with
  | none => (-1, s)
  | some file =>
      let (ret, file') := plain kernel file call
      (ret, { s with files := Function.update s.files call.fd (some file') })

/-- `setUserNonblock` of the context. -/
def State.setUserNonblock (s : State) (fd : Nat) (ctx : FdCtx) (v : Bool) : State :=
  { s with mgr := s.mgr.put fd (some { ctx with userNonblock := v }) }

/-- The hooked `fcntl` and `ioctl`. -/
def call (s : State) : Call → Flags × State
  | .F_SETFL fd arg =>
      match s.mgr.get fd with
      | none => raw kernel s (.F_SETFL fd arg)
      | some ctx =>
          if ctx.isClosed || !ctx.isSocket then raw kernel s (.F_SETFL fd arg)
          else
            let s' := s.setUserNonblock fd ctx arg.nonblock
            if ctx.sysNonblock then raw kernel s' (.F_SETFL fd (arg ||| O_NONBLOCK))
            else raw kernel s' (.F_SETFL fd (arg &&& ~~~O_NONBLOCK))
  | .F_GETFL fd =>
      let (arg, s') := raw kernel s (.F_GETFL fd)
      match s.mgr.get fd with
      | none => (arg, s')
      | some ctx =>
          if ctx.isClosed || ctx.isSocket then (arg, s')
          else if ctx.userNonblock then (arg ||| O_NONBLOCK, s')
          else (arg &&& ~~~O_NONBLOCK, s')
  | .ioctl fd v =>
      match s.mgr.get fd with
      | none => raw kernel s (.ioctl fd v)
      | some ctx =>
          if ctx.isClosed || !ctx.isSocket then raw kernel s (.ioctl fd v)
          else raw kernel (s.setUserNonblock fd ctx (v ≠ 0)) (.ioctl fd v)

/-- `socket` and `accept`: the kernel has returned `fd` with these flags. -/
def opened (s : State) (fd : Nat) (flags : Flags) : State :=
  let (mgr, files) :=
    s.mgr.getOrCreate kernel (Function.update s.files fd (some ⟨true, flags⟩)) fd
  ⟨mgr, files⟩

/-- `close`, in a thread with the hook (`t_hook_enable`) or without. -/
def closed (s : State) (fd : Nat) (hooked : Bool) : State :=
  { mgr := if hooked ∧ (s.mgr.get fd).isSome then s.mgr.del fd else s.mgr
    files := Function.update s.files fd none }

/-- What may have happened in the process. -/
inductive Event
  | opened (fd : Nat) (flags : Flags)
  | closed (fd : Nat) (hooked : Bool)
  | called (c : Call)

def happen (s : State) : Event → State
  | .opened fd flags => opened kernel s fd flags
  | .closed fd hooked => closed s fd hooked
  | .called c => (call kernel s c).2

/-- The process after some events. -/
def after (events : List Event) : State :=
  events.foldl (happen kernel) ⟨.new, fun _ => none⟩

end Calls

/-! ## The contexts -/

/-- Every context is one that `init` has made for a socket. -/
structure Made (mgr : FdManager) : Prop where
  size : 64 ≤ mgr.datas.length
  ctx : ∀ fd ctx, mgr.get fd = some ctx →
    ctx.isSocket = true ∧ ctx.sysNonblock = true ∧ ctx.isClosed = false

section Made

variable {kernel : Kernel} {mgr : FdManager} {s : State} {fd : Nat}

theorem Made.new : Made .new where
  size := by simp [FdManager.new]
  ctx fd ctx h := by
    simp only [FdManager.get, FdManager.new, List.getElem?_replicate] at h
    split at h <;> simp at h

/-- Replacing a context by one of the same kind. -/
theorem Made.put (hmgr : Made mgr) (hlt : fd < mgr.datas.length) {ctx : Option FdCtx}
    (hctx : ∀ c, ctx = some c → c.isSocket = true ∧ c.sysNonblock = true ∧ c.isClosed = false) :
    Made (mgr.put fd ctx) where
  size := by rw [FdManager.length_put]; exact hmgr.size
  ctx i c h := by
    rw [FdManager.get_put _ hlt] at h
    split at h
    · exact hctx c h
    · exact hmgr.ctx i c h

theorem Made.lt_length {ctx : FdCtx} (h : mgr.get fd = some ctx) : fd < mgr.datas.length := by
  by_contra hle
  rw [FdManager.get_of_length_le (Nat.le_of_not_lt hle)] at h
  cases h

/-- `init` makes the file of a socket non-blocking. -/
theorem new_socket (flags : Flags) :
    FdCtx.new kernel (some ⟨true, flags⟩) =
      (⟨true, true, true, false, false⟩, some ⟨true, flags ||| O_NONBLOCK⟩) := by
  unfold FdCtx.new
  by_cases hnon : flags.nonblock = true
  · simp [hnon, Flags.or_eq_self flags hnon]
  · -- The flags of the file itself are not refused, and `O_NONBLOCK` makes no difference.
    have hrefuses : kernel.refuses ⟨true, flags⟩ (flags ||| O_NONBLOCK) = false := by
      rw [kernel.refuses_congr rfl (Flags.or_or flags)]
      exact kernel.refuses_self _
    have hset : flags.setfl (flags ||| O_NONBLOCK) = flags ||| O_NONBLOCK :=
      Flags.ext_nonblock (by simp) fun i _ hne => by
        simp only [Flags.setfl, BitVec.getLsbD_or, BitVec.getLsbD_and, BitVec.getLsbD_not,
          Flags.getLsbD_O_NONBLOCK, hne, decide_false, Bool.or_false]
        cases flags.getLsbD i <;> cases settable.getLsbD i <;> simp_all
    simp [hnon, Kernel.setfl, hrefuses, hset]

/-- What `socket` and `accept` do with the manager and the file. -/
theorem getOrCreate_socket (kernel : Kernel) {files : Files} (flags : Flags) (hmgr : Made mgr)
    (hfile : files fd = some ⟨true, flags⟩) :
    Made (mgr.getOrCreate kernel files fd).1 ∧
      ((mgr.getOrCreate kernel files fd).1.get fd).isSome = true ∧
      (mgr.getOrCreate kernel files fd).2 fd =
        some ⟨true, if mgr.get fd = none then flags ||| O_NONBLOCK else flags⟩ := by
  unfold FdManager.getOrCreate
  cases hget : mgr.get fd with
  | some ctx => exact ⟨hmgr, by simp [hget], by simp [hfile]⟩
  | none =>
      simp only [hfile, new_socket]
      -- The table is long enough for the descriptor, or it is made so.
      obtain ⟨hroom, hlt⟩ :
          Made (if mgr.datas.length ≤ fd then mgr.resize (fd * 3 / 2) else mgr) ∧
            fd < (if mgr.datas.length ≤ fd then mgr.resize (fd * 3 / 2) else mgr).datas.length := by
        have hsize := hmgr.size
        split
        · next hle =>
            have hgrow : mgr.datas.length ≤ fd * 3 / 2 := by omega
            rw [FdManager.length_resize hgrow]
            refine ⟨⟨?_, fun i ctx h => ?_⟩, by omega⟩
            · rw [FdManager.length_resize hgrow]
              omega
            · rw [FdManager.get_resize hgrow] at h
              exact hmgr.ctx i ctx h
        · next hle => exact ⟨hmgr, Nat.lt_of_not_le hle⟩
      refine ⟨hroom.put hlt ?_, by simp [FdManager.get_put _ hlt], by simp⟩
      rintro c ⟨rfl⟩
      exact ⟨rfl, rfl, rfl⟩

theorem raw_mgr (s : State) (c : Call) : (raw kernel s c).2.mgr = s.mgr := by
  unfold raw
  cases s.files c.fd <;> rfl

/-- Two states that differ in `_userNonblock` of a context. -/
structure SameSockets (s s' : State) : Prop where
  files : s'.files = s.files
  made : Made s'.mgr
  get : ∀ i, (s'.mgr.get i).isSome = (s.mgr.get i).isSome

theorem SameSockets.refl (hs : Made s.mgr) : SameSockets s s := ⟨rfl, hs, fun _ => rfl⟩

theorem sameSockets_setUserNonblock (hs : Made s.mgr) {ctx : FdCtx} (hget : s.mgr.get fd = some ctx)
    (v : Bool) : SameSockets s (s.setUserNonblock fd ctx v) where
  files := rfl
  made := by
    refine hs.put (Made.lt_length hget) ?_
    rintro c ⟨rfl⟩
    exact hs.ctx fd ctx hget
  get i := by
    unfold State.setUserNonblock
    rw [FdManager.get_put_of_get hget]
    split
    · next heq => rw [heq, hget]; rfl
    · rfl

/-- What the hook asks the kernel for a socket that it has a context of. -/
def Call.hooked : Call → Call
  | F_SETFL fd arg => F_SETFL fd (arg ||| O_NONBLOCK)
  | F_GETFL fd => F_GETFL fd
  | ioctl fd v => ioctl fd v

/-- **What a hooked call does:** it asks the kernel, for a socket with `O_NONBLOCK` in the argument
of `F_SETFL` and otherwise with what it was given. -/
theorem call_eq_raw (kernel : Kernel) (hs : Made s.mgr) (c : Call) :
    ∃ s', SameSockets s s' ∧
      call kernel s c = raw kernel s' (if (s.mgr.get c.fd).isSome then c.hooked else c) := by
  cases hget : s.mgr.get c.fd with
  | none =>
      refine ⟨s, .refl hs, ?_⟩
      cases c <;> simp_all [call, Call.fd]
  | some ctx =>
      obtain ⟨hsocket, hsys, hopen⟩ := hs.ctx _ ctx hget
      cases c with
      | F_SETFL fd arg =>
          refine ⟨_, sameSockets_setUserNonblock hs hget arg.nonblock, ?_⟩
          rw [call, show s.mgr.get fd = some ctx from hget]
          simp [hsocket, hsys, hopen, Call.hooked, Call.fd]
      | F_GETFL fd =>
          refine ⟨s, .refl hs, ?_⟩
          rw [call, show s.mgr.get fd = some ctx from hget]
          simp [hsocket, Call.hooked]
      | ioctl fd v =>
          refine ⟨_, sameSockets_setUserNonblock hs hget (decide (v ≠ 0)), ?_⟩
          rw [call, show s.mgr.get fd = some ctx from hget]
          simp [hsocket, hopen, Call.hooked, Call.fd]

theorem Made.call (hs : Made s.mgr) (c : Call) : Made (call kernel s c).2.mgr := by
  obtain ⟨s', hsame, heq⟩ := call_eq_raw kernel hs c
  rw [heq, raw_mgr]
  exact hsame.made

/-- **Every process.** -/
theorem made_after (kernel : Kernel) (events : List Event) : Made (after kernel events).mgr := by
  unfold after
  -- From the back: what the last event makes of the manager.
  induction events using List.reverseRecOn with
  | nil => exact .new
  | append_singleton events event ih =>
      rw [List.foldl_append, List.foldl_cons, List.foldl_nil]
      cases event with
      | opened fd flags => exact (getOrCreate_socket kernel flags ih (Function.update_self ..)).1
      | closed fd hooked =>
          rw [happen, closed]
          dsimp only
          split
          · unfold FdManager.del
            split
            · exact ih
            · next hlt => exact ih.put (Nat.lt_of_not_le hlt) (fun _ h => by cases h)
          · exact ih
      | called c => exact ih.call c

end Made

/-! ## What the program sees -/

/-- A socket of the process, and the descriptor that the program believes to have. -/
structure Watched where
  s : State
  user : File

section Watched

variable (kernel : Kernel) (fd : Nat)

/-- A call, and what the program believes it does. -/
def step (w : Watched) (c : Call) : Option (Flags × Watched) :=
  let (ret, s') := call kernel w.s c
  some (ret, ⟨s', if c.fd = fd then (plain kernel w.user c).2 else w.user⟩)

/-- The kernel has the socket non-blocking. -/
def SysNonblock (w : Watched) : Prop :=
  ∃ file, w.s.files fd = some file ∧ file.flags.nonblock = true

/-- A call on the socket answers what the program expects, and the socket stays non-blocking. -/
def Expected (w : Watched) (c : Call) (ret : Flags) (w' : Watched) : Prop :=
  (c.fd = fd → ret = (plain kernel w.user c).1) ∧ SysNonblock fd w'

/-- `socket` or `accept` has returned `fd`. -/
def start (events : List Event) (flags : Flags) : Watched :=
  ⟨opened kernel (after kernel events) fd flags, ⟨true, flags.withNonblock false⟩⟩

/-- **The hook is not seen.**  The answers are those of a descriptor without a hook, on which
`O_NONBLOCK` is what the program has set last and at first not set, and the socket of the kernel is
non-blocking from the beginning and after every call. -/
def Virtualised (events : List Event) (flags : Flags) (calls : List Call) : Prop :=
  runKeeps (step kernel fd) (fun _ _ => True) (SysNonblock fd) (Expected kernel fd) calls
    (start kernel fd events flags)

/-- `F_GETFL` while the program has the flag set, and `FIONBIO` to set it. -/
def Harmless (w : Watched) (c : Call) : Prop :=
  c.fd = fd →
    (c = .F_GETFL fd → w.user.flags.nonblock = true) ∧ (∀ v, c = .ioctl fd v → v ≠ 0)

end Watched

section Steps

variable {kernel : Kernel} {fd : Nat} {w : Watched} {c : Call}

/-- On a file that only has `O_NONBLOCK` more, the hooked call answers the same, and leaves a file
that only has `O_NONBLOCK` more. -/
theorem plain_hooked (kernel : Kernel) (file : File)
    (hget : c = .F_GETFL c.fd → file.flags.nonblock = true)
    (hset : ∀ v, c = .ioctl c.fd v → v ≠ 0) :
    plain kernel ⟨file.isSocket, file.flags ||| O_NONBLOCK⟩ c.hooked =
      ((plain kernel file c).1,
        ⟨(plain kernel file c).2.isSocket, (plain kernel file c).2.flags ||| O_NONBLOCK⟩) := by
  cases c with
  | F_SETFL fd arg =>
      have hrefuses :
          kernel.refuses ⟨file.isSocket, file.flags ||| O_NONBLOCK⟩ (arg ||| O_NONBLOCK) =
            kernel.refuses ⟨file.isSocket, file.flags⟩ arg :=
        kernel.refuses_congr (Flags.or_or file.flags) (Flags.or_or arg)
      simp only [plain, Call.hooked, Kernel.setfl, hrefuses]
      split
      · rfl
      · rw [Flags.setfl_or]
  | F_GETFL fd =>
      have hon := Flags.or_eq_self file.flags (hget rfl)
      simp [plain, Call.hooked, hon]
  | ioctl fd v =>
      have hon : decide (v ≠ 0) = true := decide_eq_true (hset v rfl)
      simp only [plain, Call.hooked, File.fionbio, hon, Flags.withNonblock_or]

theorem Call.fd_hooked (c : Call) : c.hooked.fd = c.fd := by
  cases c <;> rfl

/-- The kernel has what the program has, and `O_NONBLOCK`. -/
structure Hidden (kernel : Kernel) (fd : Nat) (w : Watched) : Prop where
  made : Made w.s.mgr
  ctx : (w.s.mgr.get fd).isSome = true
  file : w.s.files fd = some ⟨w.user.isSocket, w.user.flags ||| O_NONBLOCK⟩

theorem Hidden.sysNonblock (hw : Hidden kernel fd w) : SysNonblock fd w :=
  ⟨_, hw.file, Flags.nonblock_or _⟩

/-- A call on another descriptor. -/
theorem Hidden.other (hw : Hidden kernel fd w) (hne : c.fd ≠ fd) :
    Hidden kernel fd ⟨(call kernel w.s c).2, w.user⟩ := by
  obtain ⟨s', hsame, heq⟩ := call_eq_raw kernel hw.made c
  have hfd : (if (w.s.mgr.get c.fd).isSome then c.hooked else c).fd = c.fd := by
    split
    · exact c.fd_hooked
    · rfl
  have hfile : (raw kernel s' (if (w.s.mgr.get c.fd).isSome then c.hooked else c)).2.files fd =
      w.s.files fd := by
    unfold raw
    rw [hsame.files, hfd]
    split
    · exact congrFun hsame.files fd
    · exact Function.update_of_ne (Ne.symm hne) ..
  constructor
  · exact hw.made.call c
  · rw [heq, raw_mgr, hsame.get]
    exact hw.ctx
  · rw [heq, hfile]
    exact hw.file

/-- A call on the socket asks the kernel for what `plain` says of the socket's file. -/
theorem Hidden.own (hw : Hidden kernel fd w) (hfd : c.fd = fd) :
    (call kernel w.s c).1 =
        (plain kernel ⟨w.user.isSocket, w.user.flags ||| O_NONBLOCK⟩ c.hooked).1 ∧
      (call kernel w.s c).2.files fd =
        some (plain kernel ⟨w.user.isSocket, w.user.flags ||| O_NONBLOCK⟩ c.hooked).2 ∧
      ((call kernel w.s c).2.mgr.get fd).isSome = true := by
  subst hfd
  obtain ⟨s', hsame, heq⟩ := call_eq_raw kernel hw.made c
  rw [hw.ctx, if_pos rfl] at heq
  have hfile : s'.files c.hooked.fd =
      some ⟨w.user.isSocket, w.user.flags ||| O_NONBLOCK⟩ := by
    rw [hsame.files, c.fd_hooked, hw.file]
  have hctx : ((raw kernel s' c.hooked).2.mgr.get c.fd).isSome = true := by
    rw [raw_mgr, hsame.get, hw.ctx]
  rw [heq]
  refine ⟨?_, ?_, hctx⟩
  · rw [raw, hfile]
  · rw [raw, hfile]
    dsimp only
    rw [c.fd_hooked, Function.update_self]

/-- **A harmless call** answers what the program expects, and leaves the flag hidden. -/
theorem Hidden.harmless (hw : Hidden kernel fd w) (hok : Harmless fd w c) :
    ∃ ret w', step kernel fd w c = some (ret, w') ∧ Expected kernel fd w c ret w' ∧
      Hidden kernel fd w' := by
  by_cases hfd : c.fd = fd
  · obtain ⟨hget, hset⟩ := hok hfd
    have hplain := plain_hooked kernel w.user (c := c)
      (fun h => hget (by rwa [hfd] at h)) (fun v h => hset v (by rwa [hfd] at h))
    obtain ⟨hret, hfile, hctx⟩ := hw.own hfd
    rw [hplain] at hret hfile
    have hidden : Hidden kernel fd ⟨(call kernel w.s c).2, (plain kernel w.user c).2⟩ :=
      ⟨hw.made.call c, hctx, hfile⟩
    refine ⟨_, _, rfl, ?_⟩
    rw [if_pos hfd]
    exact ⟨⟨fun _ => hret, hidden.sysNonblock⟩, hidden⟩
  · have hidden := hw.other hfd
    refine ⟨_, _, rfl, ?_⟩
    rw [if_neg hfd]
    exact ⟨⟨fun h => absurd h hfd, hidden.sysNonblock⟩, hidden⟩

/-- **Any other call** shows the flag, or loses it. -/
theorem Hidden.harmful {ret : Flags} {w' : Watched} (hw : Hidden kernel fd w)
    (hnot : ¬ Harmless fd w c) (hstep : step kernel fd w c = some (ret, w')) :
    ¬ Expected kernel fd w c ret w' := by
  obtain ⟨rfl, rfl⟩ := Prod.mk.inj (Option.some.inj hstep)
  rintro ⟨hanswer, file, hnow, hnon⟩
  have hfd : c.fd = fd := by
    by_contra hne
    exact hnot fun h => absurd h hne
  obtain ⟨hret, hfile, -⟩ := hw.own hfd
  refine hnot fun _ => ⟨fun hc => ?_, fun v hc => ?_⟩
  · -- `F_GETFL` answers with the flag set.
    subst hc
    have hsame : w.user.flags ||| O_NONBLOCK = w.user.flags := hret.symm.trans (hanswer rfl)
    exact (Flags.or_eq_self_iff _).mp hsame
  · -- `FIONBIO` does to the kernel what it was told.
    rintro rfl
    subst hc
    obtain rfl := Option.some.inj (hnow.symm.trans hfile)
    simp [plain, Call.hooked, File.fionbio] at hnon

/-- The socket is handed out non-blocking when its context is new, or when the kernel has it so. -/
theorem sysNonblock_start (events : List Event) (flags : Flags) :
    SysNonblock fd (start kernel fd events flags) ↔
      (after kernel events).mgr.get fd = none ∨ flags.nonblock = true := by
  obtain ⟨-, -, hfile⟩ := getOrCreate_socket kernel flags
    (made_after kernel events) (Function.update_self (f := (after kernel events).files) ..)
  unfold SysNonblock
  rw [show (start kernel fd events flags).s.files fd = _ from hfile]
  split
  · next hnone => simp [hnone]
  · next hsome => simp [hsome]

theorem hidden_start {events : List Event} {flags : Flags}
    (h : SysNonblock fd (start kernel fd events flags)) :
    Hidden kernel fd (start kernel fd events flags) := by
  obtain ⟨hmade, hctx, hfile⟩ := getOrCreate_socket kernel flags
    (made_after kernel events) (Function.update_self (f := (after kernel events).files) ..)
  refine ⟨hmade, hctx, hfile.trans ?_⟩
  rw [start, Flags.withNonblock_false_or]
  split
  · rfl
  · next hsome =>
      have hnon := ((sysNonblock_start events flags).mp h).resolve_left hsome
      rw [Flags.or_eq_self flags hnon]

/-- **When the hook is not seen.**  Whatever has happened before: the socket was handed out
non-blocking, `F_GETFL` was called while the program had the flag set, and `FIONBIO` never to clear
it. -/
theorem virtualised_iff (kernel : Kernel) (fd : Nat) (events : List Event) (flags : Flags)
    (calls : List Call) :
    Virtualised kernel fd events flags calls ↔
      ((after kernel events).mgr.get fd = none ∨ flags.nonblock = true) ∧
        runObserves (step kernel fd) (fun _ _ => True) (Harmless fd) calls
          (start kernel fd events flags) := by
  have hrun : ∀ {w}, Hidden kernel fd w →
      (runKeeps (step kernel fd) (fun _ _ => True) (SysNonblock fd) (Expected kernel fd) calls w ↔
        runObserves (step kernel fd) (fun _ _ => True) (Harmless fd) calls w) := fun hw =>
    runKeeps_iff (J := Hidden kernel fd) (fun hw => hw.sysNonblock)
      (fun hw _ hok => hw.harmless hok) (fun hw _ hnot hstep => hw.harmful hnot hstep) calls hw
  rw [← sysNonblock_start]
  constructor
  · intro h
    have hstart : SysNonblock fd (start kernel fd events flags) := by
      cases calls with
      | nil => exact h
      | cons c calls => exact h.1
    exact ⟨hstart, (hrun (hidden_start hstart)).mp h⟩
  · rintro ⟨hstart, hcalls⟩
    exact (hrun (hidden_start hstart)).mpr hcalls

/-- A kernel that refuses nothing. -/
def Kernel.obliging : Kernel := ⟨fun _ _ => false, fun _ _ => rfl, fun _ => rfl⟩

/-- The first descriptor of a process, asked for its flags before anything has been set. -/
theorem not_virtualised_fresh :
    ¬ Virtualised .obliging 3 [] 2 [.F_GETFL 3] := by
  intro h
  obtain ⟨ret, w', hstep, hright, -⟩ := h.2 trivial
  have hanswer := hright.1 rfl
  obtain ⟨rfl, rfl⟩ := Prod.mk.inj (Option.some.inj hstep)
  revert hanswer
  decide

end Steps

end Hook
end Routn
