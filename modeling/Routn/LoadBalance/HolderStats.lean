import Routn.Foundation.Sections

/-!
# The statistics of a load-balance item

`HolderStatsSet` is a ring of counters, one slot for each of the last seconds; `get` clears the
slots of the seconds that have passed since it was called last, and returns the slot of this one.
`RockSDLoadBalance::request` takes a slot when it starts and counts on it until it has its answer.

The counters are changed by atomic operations, each a step; `get` is a step as well.
-/

namespace Routn
namespace LoadBalance

open Foundation

structure HolderStats where
  usedTime : UInt32 := 0
  total : UInt32 := 0
  doing : UInt32 := 0
  timeouts : UInt32 := 0
  oks : UInt32 := 0
  errs : UInt32 := 0
deriving DecidableEq, Repr

namespace HolderStats

def clear (_ : HolderStats) : HolderStats := {}

def incUsedTime (v : UInt32) (hs : HolderStats) : HolderStats :=
  { hs with usedTime := hs.usedTime + v }

def incTotal (v : UInt32) (hs : HolderStats) : HolderStats := { hs with total := hs.total + v }

def incDoing (v : UInt32) (hs : HolderStats) : HolderStats := { hs with doing := hs.doing + v }

def incTimeouts (v : UInt32) (hs : HolderStats) : HolderStats :=
  { hs with timeouts := hs.timeouts + v }

def incOks (v : UInt32) (hs : HolderStats) : HolderStats := { hs with oks := hs.oks + v }

def incErrs (v : UInt32) (hs : HolderStats) : HolderStats := { hs with errs := hs.errs + v }

def decDoing (v : UInt32) (hs : HolderStats) : HolderStats := { hs with doing := hs.doing - v }

end HolderStats

structure HolderStatsSet where
  lastUpdateTime : UInt32
  stats : List HolderStats
deriving DecidableEq, Repr

namespace HolderStatsSet

/-- The constructor; a `LoadBalanceItem` has the default size. -/
def new (size : Nat) : HolderStatsSet := ⟨0, List.replicate size {}⟩

/-- The loop of `init` at `t`, with `n` rounds left. -/
def initLoop (now : UInt32) : Nat → UInt32 → List HolderStats → List HolderStats
  | 0, _, stats => stats
  | n + 1, t, stats =>
      if t ≤ now then
        initLoop now n (t + 1) (stats.modify (t.toNat % stats.length) HolderStats.clear)
      else stats

def init (now : UInt32) (set : HolderStatsSet) : HolderStatsSet :=
  if set.lastUpdateTime < now then
    ⟨now, initLoop now set.stats.length (set.lastUpdateTime + 1) set.stats⟩
  else set

/-- The slot is its place in the ring. -/
def get (now : UInt32) (set : HolderStatsSet) : Nat × HolderStatsSet :=
  let set' := set.init now
  (now.toNat % set'.stats.length, set')

/-- What is done to a slot. -/
def update (set : HolderStatsSet) (slot : Nat) (f : HolderStats → HolderStats) : HolderStatsSet :=
  { set with stats := set.stats.modify slot f }

/-! ## Which slots `get` clears -/

/-- The slots that the loop of `init` comes to. -/
def passed (now : UInt32) (size : Nat) : Nat → UInt32 → List Nat
  | 0, _ => []
  | n + 1, t => if t ≤ now then t.toNat % size :: passed now size n (t + 1) else []

/-- The slots of the seconds that have passed. -/
def cleared (now : UInt32) (set : HolderStatsSet) : List Nat :=
  if set.lastUpdateTime < now then
    passed now set.stats.length set.stats.length (set.lastUpdateTime + 1)
  else []

theorem getElem?_initLoop (now : UInt32) (n : Nat) (t : UInt32) (stats : List HolderStats)
    (j : Nat) : (initLoop now n t stats)[j]? =
      if j ∈ passed now stats.length n t then stats[j]?.map HolderStats.clear else stats[j]? := by
  induction n generalizing t stats with
  | zero => simp [initLoop, passed]
  | succ n ih =>
      unfold initLoop passed
      split
      · rw [ih, List.length_modify, List.getElem?_modify]
        by_cases heq : t.toNat % stats.length = j
        · -- Clearing twice is clearing once.
          have htwice : HolderStats.clear ∘ HolderStats.clear = HolderStats.clear := rfl
          subst heq
          simp [htwice]
        · simp [heq, Ne.symm heq]
      · simp

theorem length_initLoop (now : UInt32) (n : Nat) (t : UInt32) (stats : List HolderStats) :
    (initLoop now n t stats).length = stats.length := by
  induction n generalizing t stats with
  | zero => rfl
  | succ n ih =>
      unfold initLoop
      split
      · rw [ih, List.length_modify]
      · rfl

variable (now : UInt32) (set : HolderStatsSet)

theorem getElem?_init (j : Nat) : (set.init now).stats[j]? =
    if j ∈ set.cleared now then set.stats[j]?.map HolderStats.clear else set.stats[j]? := by
  unfold init cleared
  split
  · exact getElem?_initLoop ..
  · simp

@[simp] theorem length_init : (set.init now).stats.length = set.stats.length := by
  unfold init
  split
  · exact length_initLoop ..
  · rfl

@[simp] theorem length_update (slot : Nat) (f : HolderStats → HolderStats) :
    (set.update slot f).stats.length = set.stats.length := by
  simp [update]

theorem getElem?_update (slot j : Nat) (f : HolderStats → HolderStats) :
    (set.update slot f).stats[j]? = if slot = j then set.stats[j]?.map f else set.stats[j]? := by
  rw [update, List.getElem?_modify]
  split <;> simp

end HolderStatsSet

/-! ## `RockSDLoadBalance::request` -/

/-- Where a request is; `ts` is the time it started at and `slot` what it counts on. -/
inductive Phase
  | called (ts : UInt64)
  /-- It has its slot. -/
  | located (ts : UInt64) (slot : Nat)
  /-- After `incDoing`. -/
  | charged (ts : UInt64) (slot : Nat)
  /-- After `incTotal`: the request is sent, and the answer awaited. -/
  | requesting (ts : UInt64) (slot : Nat)
  /-- After `incOks`. -/
  | timing (used : UInt32) (slot : Nat)
  /-- The answer has been counted. -/
  | answered (slot : Nat)
  | returned
deriving DecidableEq, Repr

/-- `r->result`, and the time when it was there. -/
structure Answer where
  result : Int
  ts2 : UInt64
deriving DecidableEq, Repr

def TIMEOUT : Int := -1

/-- The sections of `request` on one item, called at `ts` milliseconds. -/
def request : Code HolderStatsSet Answer UInt64 Phase where
  enter ts := .called ts
  next set answer
    | .called ts =>
        let (slot, set') := set.get (ts / 1000).toUInt32
        some (set', .located ts slot)
    | .located ts slot => some (set.update slot (.incDoing 1), .charged ts slot)
    | .charged ts slot => some (set.update slot (.incTotal 1), .requesting ts slot)
    | .requesting ts slot =>
        if answer.result = 0 then
          some (set.update slot (.incOks 1), .timing (answer.ts2 - ts).toUInt32 slot)
        else if answer.result = TIMEOUT then
          some (set.update slot (.incTimeouts 1), .answered slot)
        else if answer.result < 0 then some (set.update slot (.incErrs 1), .answered slot)
        else some (set, .answered slot)
    | .timing used slot => some (set.update slot (.incUsedTime used), .answered slot)
    | .answered slot => some (set.update slot (.decDoing 1), .returned)
    | .returned => none

end LoadBalance
end Routn
