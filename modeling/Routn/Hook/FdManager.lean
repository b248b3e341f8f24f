import Mathlib.Tactic

/-!
# `FdCtx`, `FdManager` and the descriptors of the kernel

`FdManager` keeps a context for each descriptor that `socket` or `accept` has returned.  A context
is made with the descriptor: `init` looks what the descriptor is and makes a socket non-blocking.

The kernel is a table of open files with their status flags.  `F_SETFL` changes the flags that Linux
lets it change and may be refused, `F_GETFL` reports all of them, and `FIONBIO` changes one.
-/

namespace Routn
namespace Hook

/-! ## File status flags -/

abbrev Flags := BitVec 32

def O_NONBLOCK : Flags := 0x800

/-- `O_APPEND`, `O_ASYNC`, `O_DIRECT`, `O_NOATIME` and `O_NONBLOCK`: what `F_SETFL` can change. -/
def settable : Flags := 0x46C00

namespace Flags

def nonblock (flags : Flags) : Bool := flags &&& O_NONBLOCK ≠ 0

/-- The flags with `O_NONBLOCK` set or cleared. -/
def withNonblock (flags : Flags) (on : Bool) : Flags :=
  if on then flags ||| O_NONBLOCK else flags &&& ~~~O_NONBLOCK

/-- `F_SETFL` leaves the flags that it cannot change. -/
def setfl (flags arg : Flags) : Flags := (flags &&& ~~~settable) ||| (arg &&& settable)

variable {a b : Flags} (flags arg : Flags) (on : Bool)

theorem getLsbD_O_NONBLOCK (i : Nat) : O_NONBLOCK.getLsbD i = decide (i = 11) := by
  have hpow : O_NONBLOCK = BitVec.twoPow 32 11 := by decide
  rw [hpow, BitVec.getLsbD_twoPow]
  simp [eq_comm]

theorem nonblock_eq : nonblock flags = flags.getLsbD 11 := by
  have hpow : O_NONBLOCK = BitVec.twoPow 32 11 := by decide
  unfold nonblock
  rw [hpow, BitVec.and_twoPow]
  cases flags.getLsbD 11 <;> decide

/-- Words of flags that agree in `O_NONBLOCK` and in the others are the same. -/
theorem ext_nonblock (hbit : nonblock a = nonblock b)
    (hrest : ∀ i, i < 32 → i ≠ 11 → a.getLsbD i = b.getLsbD i) : a = b := by
  apply BitVec.eq_of_getLsbD_eq
  intro i hi
  by_cases h11 : i = 11
  · subst h11
    rwa [nonblock_eq, nonblock_eq] at hbit
  · exact hrest i hi h11

@[simp] theorem nonblock_or : nonblock (flags ||| O_NONBLOCK) = true := by
  simp [nonblock_eq, getLsbD_O_NONBLOCK]

@[simp] theorem nonblock_withNonblock : nonblock (withNonblock flags on) = on := by
  cases on <;> simp [withNonblock, nonblock_eq, getLsbD_O_NONBLOCK]

@[simp] theorem nonblock_setfl : nonblock (setfl flags arg) = nonblock arg := by
  have hset : settable[11] = true := by decide
  simp [setfl, nonblock_eq, hset]

theorem or_or : flags ||| O_NONBLOCK ||| O_NONBLOCK = flags ||| O_NONBLOCK := by
  rw [BitVec.or_assoc, BitVec.or_self]

/-- A word with `O_NONBLOCK` set is itself. -/
theorem or_eq_self (h : nonblock flags = true) : flags ||| O_NONBLOCK = flags :=
  ext_nonblock (by rw [nonblock_or, h]) fun i _ hne => by simp [getLsbD_O_NONBLOCK, hne]

theorem setfl_or : setfl (flags ||| O_NONBLOCK) (arg ||| O_NONBLOCK) =
    setfl flags arg ||| O_NONBLOCK :=
  ext_nonblock (by simp) fun i _ hne => by simp [setfl, getLsbD_O_NONBLOCK, hne]

theorem or_eq_self_iff : flags ||| O_NONBLOCK = flags ↔ nonblock flags = true :=
  ⟨fun h => h ▸ nonblock_or flags, or_eq_self flags⟩

theorem withNonblock_or : withNonblock (flags ||| O_NONBLOCK) true =
    withNonblock flags true ||| O_NONBLOCK :=
  ext_nonblock (by simp) fun i _ hne => by simp [withNonblock, getLsbD_O_NONBLOCK, hne]

theorem withNonblock_false_or : withNonblock flags false ||| O_NONBLOCK = flags ||| O_NONBLOCK :=
  ext_nonblock (by simp) fun i hi hne => by
    have hoff : (if false = true then flags ||| O_NONBLOCK else flags &&& ~~~O_NONBLOCK) =
        flags &&& ~~~O_NONBLOCK := rfl
    simp only [withNonblock, hoff, BitVec.getLsbD_or, BitVec.getLsbD_and, BitVec.getLsbD_not,
      getLsbD_O_NONBLOCK, hne, hi, decide_true, decide_false, Bool.not_false, Bool.and_true,
      Bool.or_false]

end Flags

/-! ## The kernel -/

structure File where
  isSocket : Bool
  flags : Flags
deriving DecidableEq, Repr

/-- `FIONBIO` on a file. -/
def File.fionbio (file : File) (v : BitVec 32) : File :=
  { file with flags := file.flags.withNonblock (v ≠ 0) }

/-- What Linux does beyond the flags: `F_SETFL` may be refused.  Whether it is does not depend on
`O_NONBLOCK`, and the flags that a file has are not refused. -/
structure Kernel where
  refuses : File → Flags → Bool
  refuses_congr : ∀ {isSocket flags flags' arg arg'}, flags ||| O_NONBLOCK = flags' ||| O_NONBLOCK →
    arg ||| O_NONBLOCK = arg' ||| O_NONBLOCK →
      refuses ⟨isSocket, flags⟩ arg = refuses ⟨isSocket, flags'⟩ arg'
  refuses_self : ∀ file, refuses file file.flags = false

/-- The open files, by descriptor. -/
abbrev Files := Nat → Option File

/-- `F_SETFL` on a file; `false` is minus one. -/
def Kernel.setfl (kernel : Kernel) (file : File) (arg : Flags) : Bool × File :=
  if kernel.refuses file arg then (false, file)
  else (true, { file with flags := file.flags.setfl arg })

/-! ## Contexts -/

/-- The timeouts are not part of it. -/
structure FdCtx where
  isInit : Bool
  isSocket : Bool
  sysNonblock : Bool
  userNonblock : Bool
  isClosed : Bool
deriving DecidableEq, Repr

/-- The constructor, which calls `init`. -/
def FdCtx.new (kernel : Kernel) : Option File → FdCtx × Option File
  | none => (⟨false, false, false, false, false⟩, none)
  | some file =>
      if file.isSocket then
        let flags := file.flags
        (⟨true, true, true, false, false⟩,
          some (if !flags.nonblock then (kernel.setfl file (flags ||| O_NONBLOCK)).2 else file))
      else (⟨true, false, false, false, false⟩, some file)

/-- `_datas`. -/
structure FdManager where
  datas : List (Option FdCtx)
deriving DecidableEq, Repr

namespace FdManager

def new : FdManager := ⟨List.replicate 64 none⟩

/-- `get(fd)`. -/
def get (mgr : FdManager) (fd : Nat) : Option FdCtx := mgr.datas[fd]?.join

/-- `_datas.resize(n)`. -/
def resize (mgr : FdManager) (n : Nat) : FdManager :=
  ⟨mgr.datas.take n ++ List.replicate (n - mgr.datas.length) none⟩

def put (mgr : FdManager) (fd : Nat) (ctx : Option FdCtx) : FdManager := ⟨mgr.datas.set fd ctx⟩

/-- `get(fd, true)`. -/
def getOrCreate (kernel : Kernel) (mgr : FdManager) (files : Files) (fd : Nat) :
    FdManager × Files :=
  match mgr.get fd with
  | some _ => (mgr, files)
  | none =>
      let (ctx, file) := FdCtx.new kernel (files fd)
      let mgr' := if mgr.datas.length ≤ fd then mgr.resize (fd * 3 / 2) else mgr
      (mgr'.put fd (some ctx), Function.update files fd file)

def del (mgr : FdManager) (fd : Nat) : FdManager :=
  if mgr.datas.length ≤ fd then mgr else mgr.put fd none

variable {mgr : FdManager} {fd i : Nat}

theorem get_of_length_le (h : mgr.datas.length ≤ i) : mgr.get i = none := by
  simp [get, List.getElem?_eq_none h]

theorem get_put (ctx : Option FdCtx) (h : fd < mgr.datas.length) :
    (mgr.put fd ctx).get i = if i = fd then ctx else mgr.get i := by
  by_cases heq : i = fd
  · subst heq
    simp [get, put, h]
  · simp [get, put, heq, Ne.symm heq]

theorem get_put_of_get {ctx : FdCtx} (h : mgr.get fd = some ctx) (ctx' : FdCtx) :
    (mgr.put fd (some ctx')).get i = if i = fd then some ctx' else mgr.get i := by
  refine get_put _ (Nat.lt_of_not_le fun hle => ?_)
  rw [get_of_length_le hle] at h
  cases h

@[simp] theorem length_put (ctx : Option FdCtx) :
    (mgr.put fd ctx).datas.length = mgr.datas.length := by
  simp [put]

/-- Growing keeps every context and makes none. -/
theorem get_resize {n : Nat} (h : mgr.datas.length ≤ n) : (mgr.resize n).get i = mgr.get i := by
  unfold get resize
  rw [List.take_of_length_le h]
  by_cases hlt : i < mgr.datas.length
  · rw [List.getElem?_append_left hlt]
  · rw [List.getElem?_append_right (Nat.le_of_not_lt hlt),
      List.getElem?_eq_none (Nat.le_of_not_lt hlt), List.getElem?_replicate]
    split <;> rfl

theorem length_resize {n : Nat} (h : mgr.datas.length ≤ n) : (mgr.resize n).datas.length = n := by
  simp [resize, h]

end FdManager

end Hook
end Routn
