import Routn.Foundation.Indexed
import Routn.Foundation.Rounding
import Routn.LoadBalance.HolderStats
import Routn.Streams.Stream

/-!
# Weights

`WeightLoadBalance` and `FairLoadBalance` choose an item by its weight.  The one reads the weight of
each item, the other computes it from the statistics and sets it; both then add the weights up, and
`getIdx` searches the sums.

`float` and `double` are rationals that are rounded to 24 and to 53 bits.  What is computed with
them here is far from the ends of their ranges.  `none` stands for undefined behaviour and for an
assertion that fails.
-/

namespace Routn
namespace LoadBalance

open Foundation

/-- A rational rounded as a `float`. -/
def float (q : ℚ) : ℚ := if q < 0 then -roundTo 24 (-q) else roundTo 24 q

/-- A rational rounded as a `double`. -/
def double (q : ℚ) : ℚ := if q < 0 then -roundTo 53 (-q) else roundTo 53 q

/-- The integer next to a number, towards zero. -/
def towardZero (q : ℚ) : Int := if q < 0 then ⌈q⌉ else ⌊q⌋

/-- Conversion of a floating-point number to `int`. -/
def truncate (q : ℚ) : Option Int :=
  if -2 ^ 31 ≤ towardZero q ∧ towardZero q < 2 ^ 31 then some (towardZero q) else none

namespace HolderStats

def add (this hs : HolderStats) : HolderStats where
  usedTime := this.usedTime + hs.usedTime
  total := this.total + hs.total
  doing := this.doing + hs.doing
  timeouts := this.timeouts + hs.timeouts
  oks := this.oks + hs.oks
  errs := this.errs + hs.errs

/-- `cost_weight`.  When `all_avg_cost` is zero the quotient is infinite or not a number, and
`std::min` answers 1.9. -/
def costWeight (this hs : HolderStats) : ℚ :=
  let all_avg_cost := float (double (hs.usedTime.toNat / hs.total.toNat))
  let most := double (19 / 10)
  let cost :=
    if all_avg_cost = 0 then most
    else min most (double (double (this.usedTime.toNat / this.total.toNat) / all_avg_cost))
  float (double (2 - cost))

/-- `1 - std::min(0.9, n * rate / _total)`, as `err_weight`, `timeout_weight` and `doing_weight`
have it. -/
def rateWeight (this : HolderStats) (n : UInt32) (rate : ℚ) : ℚ :=
  float (double (1 - min (double (9 / 10)) (double (double (n.toNat * rate) / this.total.toNat))))

/-- `time_weight`, at `now`. -/
def timeWeight (join_time now : UInt64) : ℚ :=
  let time_diff := (now - join_time).toInt64.toInt
  if time_diff < 180 then float (min (double (1 / 10)) (double (double time_diff / 180))) else 1

/-- The product that `getWeight` converts to `int`. -/
def score (this hs : HolderStats) (join_time now : UInt64) : ℚ :=
  let counted := 10 < this.total
  let cost_weight := if counted then this.costWeight hs else 1
  let err_weight := if counted then this.rateWeight this.errs 5 else 1
  let timeout_weight := if counted then this.rateWeight this.timeouts (5 / 2) else 1
  let doing_weight := if counted then this.rateWeight this.doing 1 else 1
  float (float (float (float (float (200 * cost_weight) * err_weight) * timeout_weight) *
    doing_weight) * timeWeight join_time now)

/-- `getWeight(hs, join_time)`, at `now`.  The answer is an `int` that is converted to `uint64_t`,
and back by `setWeight`. -/
def getWeight (this hs : HolderStats) (join_time now : UInt64) : Option Int :=
  if hs.total = 0 then some 100
  else (truncate (this.score hs join_time now)).map (min 1)

end HolderStats

def HolderStatsSet.getTotal (set : HolderStatsSet) : HolderStats :=
  set.stats.foldl HolderStats.add {}

/-- `LoadBalanceItem`.  `valid` is what `isValid` answers for its stream. -/
structure WeighedItem where
  id : UInt64 := 0
  valid : Bool := false
  weight : Int := 0
  discoveryTime : UInt64
  stats : HolderStatsSet := .new 5

/-- `WeightLoadBalance`, and `FairLoadBalance` which is derived from it.  Items are objects, and
`taken` are the weights that the last `initNolock` added up. -/
structure WeightLoadBalance where
  heap : Nat → WeighedItem
  datas : Index UInt64 := ∅
  lastInitTime : UInt64 := 0
  items : List Nat := []
  weights : List Int := []
  taken : List Int := []

namespace WeightLoadBalance

/-- The valid items of `_datas`, which is iterated over in this order. -/
def validItems (lb : WeightLoadBalance) (order : List Nat) : List Nat :=
  order.filter fun p => (lb.heap p).valid

/-- The loop of `initNolock`, behind `total`: the elements of `_weights`. -/
def accumulate : Int → List Int → Option (List Int)
  | _, [] => some []
  | total, w :: ws =>
      if -2 ^ 63 ≤ total + w ∧ total + w < 2 ^ 63 then
        (accumulate (total + w) ws).map ((total + w) :: ·)
      else none

def initNolock (lb : WeightLoadBalance) (order : List Nat) : Option WeightLoadBalance :=
  let items := lb.validItems order
  let taken := items.map fun p => (lb.heap p).weight
  (accumulate 0 taken).map fun weights =>
    { lb with items := items, weights := weights, taken := taken }

/-- The number that `getIdx` takes: `rand` is what `rand()` answers. -/
def draw (v : UInt64) (rand : Nat) : Nat := if v = -1 then rand else v.toNat

/-- `std::upper_bound`, which needs that the weights above `dis` come last. -/
def upperBound (weights : List Int) (dis : Nat) : Option Nat :=
  if weights.Pairwise fun w w' => dis < toSize w → dis < toSize w' then
    some (weights.findIdx fun w => dis < toSize w)
  else none

def getIdx (lb : WeightLoadBalance) (v : UInt64) (rand : Nat) : Option Int :=
  match lb.weights.getLast? with
  | none => some (-1)
  | some total =>
      if toSize total = 0 then none
      else
        (upperBound lb.weights (draw v rand % toSize total)).bind fun it =>
          if it = lb.weights.length then none else some (toInt it)

/-- `get`, with the item that it returns. -/
def get (lb : WeightLoadBalance) (v : UInt64) (rand : Nat) : Option (Option Nat) :=
  (lb.getIdx v rand).map fun idx =>
    if idx = -1 then none
    else
      (List.range lb.items.length).findSome? fun i =>
        (lb.items[toSize (idx + i) % lb.items.length]?).filter fun p => (lb.heap p).valid

end WeightLoadBalance

namespace FairLoadBalance

open WeightLoadBalance

/-- The loop of `initNolock`, where `total` becomes a `uint64_t` and an `int64_t` again. -/
def accumulate : Int → List Int → List Int
  | _, [] => []
  | total, w :: ws => (total + w).bmod (2 ^ 64) :: accumulate ((total + w).bmod (2 ^ 64)) ws

/-- The statistics of the items together. -/
def totalStats (lb : WeightLoadBalance) (items : List Nat) : HolderStats :=
  items.foldl (fun total p => total.add (lb.heap p).stats.getTotal) {}

/-- The weight of an item, of those that are valid. -/
def weigh (lb : WeightLoadBalance) (items : List Nat) (now : UInt64) (p : Nat) : Option Int :=
  (lb.heap p).stats.getTotal.getWeight (totalStats lb items) (lb.heap p).discoveryTime now

/-- `setWeight` of each item. -/
def setWeights (heap : Nat → WeighedItem) : List (Nat × Int) → Nat → WeighedItem
  | [] => heap
  | (p, w) :: rest =>
      setWeights (Function.update heap p { heap p with weight := w }) rest

def initNolock (now : UInt64) (lb : WeightLoadBalance) (order : List Nat) :
    Option WeightLoadBalance :=
  let items := lb.validItems order
  (items.mapM (weigh lb items now)).map fun taken =>
    { lb with
      heap := setWeights lb.heap (items.zip taken)
      items := items
      weights := accumulate 0 taken
      taken := taken }

end FairLoadBalance

/-! ## Calls -/

namespace WeightLoadBalance

/-- What changes `_datas` and then calls `initNolock`.  The keys and the items of `adds` are those
of a map, and so are the keys that `update` deletes. -/
inductive Change
  | add (v : Nat)
  | del (v : Nat)
  | update (adds : List (UInt64 × Nat)) (dels : List UInt64)
  | set (vs : List Nat)
  | init
deriving DecidableEq, Repr

/-- `_datas` afterwards. -/
def changed (lb : WeightLoadBalance) : Change → Index UInt64
  | .add v => lb.datas.insert (lb.heap v).id v
  | .del v => lb.datas.erase (lb.heap v).id
  | .update adds dels =>
      adds.foldl (fun datas (id, v) => datas.insert id v)
        (dels.foldl (fun datas id => datas.erase id) lb.datas)
  | .set vs => vs.foldl (fun datas v => datas.insert (lb.heap v).id v) ∅
  | .init => lb.datas

/-- The items that `update` takes out, for the keys of `dels` that have one. -/
def deleted (lb : WeightLoadBalance) : Change → List (UInt64 × Nat)
  | .update _ dels => dels.filterMap fun id => (lb.datas.lookup id).map fun v => (id, v)
  | _ => []

/-- The calls, and what becomes of the items meanwhile.  `order` is the order in which `_datas` is
iterated over. -/
inductive Call
  | change (change : Change) (order : List Nat) (now : UInt64)
  | checkInit (ts : UInt64) (order : List Nat) (now : UInt64)
  | get (v : UInt64) (rand : Nat)
  | setWeight (p : Nat) (w : Int)
  | setId (p : Nat) (id : UInt64)
  /-- The stream is set, connected or closed. -/
  | stream (p : Nat) (valid : Bool)
  /-- `LoadBalanceItem::get`. -/
  | touch (p : Nat) (now : UInt32)
  /-- Something is done to a slot of the statistics. -/
  | count (p : Nat) (slot : Nat) (f : HolderStats → HolderStats)

inductive Answer
  | done
  | deleted (items : List (UInt64 × Nat))
  | item (p : Option Nat)
deriving DecidableEq, Repr

/-- An item is changed. -/
def modify (lb : WeightLoadBalance) (p : Nat) (f : WeighedItem → WeighedItem) :
    WeightLoadBalance :=
  { lb with heap := Function.update lb.heap p (f (lb.heap p)) }

/-- `initNolock` is virtual. -/
def initNolockOf (fair : Bool) (now : UInt64) (lb : WeightLoadBalance) (order : List Nat) :
    Option WeightLoadBalance :=
  if fair then FairLoadBalance.initNolock now lb order else lb.initNolock order

def perform (fair : Bool) (lb : WeightLoadBalance) : Call → Option (Answer × WeightLoadBalance)
  | .change change order now =>
      (initNolockOf fair now { lb with datas := lb.changed change } order).map fun lb' =>
        (.deleted (lb.deleted change), lb')
  | .checkInit ts order now =>
      if ts - lb.lastInitTime > 500 then
        (initNolockOf fair now lb order).map fun lb' =>
          (.done, { lb' with lastInitTime := ts })
      else some (.done, lb)
  | .get v rand => (lb.get v rand).map fun p => (.item p, lb)
  | .setWeight p w => some (.done, lb.modify p fun item => { item with weight := w })
  | .setId p id => some (.done, lb.modify p fun item => { item with id := id })
  | .stream p valid => some (.done, lb.modify p fun item => { item with valid := valid })
  | .touch p now =>
      some (.done, lb.modify p fun item => { item with stats := (item.stats.get now).2 })
  | .count p slot f =>
      some (.done, lb.modify p fun item => { item with stats := item.stats.update slot f })

/-- A balancer without items, and the items that there will be. -/
def start (discoveryTime : Nat → UInt64) : WeightLoadBalance where
  heap p := { discoveryTime := discoveryTime p }

end WeightLoadBalance
end LoadBalance
end Routn
