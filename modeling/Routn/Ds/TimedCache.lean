import Routn.Ds.LRUCache
import Routn.Foundation.OrderedSet

/-!
# `Timed_Cache`

`_cache` maps keys to iterators into `_timed`, a set of items in the order of their deadlines.  As
for `LRU_Cache`, each operation is one critical section, and `none` stands for undefined behaviour.
`now` is what `GetCurrentMs()` shows.  Where items are removed the model answers which; the prune
callback, when there is one, is called with each of them.
-/

namespace Routn
namespace Ds

open Foundation

/-- `Timed_Cache::Item`. -/
structure Item (K V : Type*) where
  key : K
  val : V
  ts : UInt64
deriving DecidableEq, Repr

namespace Item

variable {K V : Type*} [LinearOrder K]

/-- `operator<`, on the pairs of `ts` and `key`. -/
def less (lhs rhs : UInt64 × K) : Bool :=
  if lhs.1 ≠ rhs.1 then lhs.1 < rhs.1 else lhs.2 < rhs.2

/-- What the set compares. -/
def rank (node : Node (Item K V)) : UInt64 × K := (node.item.ts, node.item.key)

theorem less_iff {lhs rhs : UInt64 × K} :
    less lhs rhs = true ↔ lhs.1 < rhs.1 ∨ lhs.1 = rhs.1 ∧ lhs.2 < rhs.2 := by
  simp only [less, ne_eq, ite_not]
  split
  · next heq => simp [heq]
  · next hne => simp [hne]

theorem le_of_less {lhs rhs : UInt64 × K} (h : less lhs rhs = true) : lhs.1 ≤ rhs.1 := by
  rcases less_iff.mp h with hlt | ⟨heq, -⟩
  · exact UInt64.le_of_lt hlt
  · exact heq ▸ UInt64.le_refl _

theorem less_strictOrder : StrictOrder (less (K := K)) where
  irrefl k := by simp [less]
  trans {i j k} hij hjk := by
    rw [less_iff] at hij hjk ⊢
    rcases hij with hij | ⟨hij, hij'⟩
    · rcases hjk with hjk | ⟨hjk, -⟩
      · exact .inl (UInt64.lt_trans hij hjk)
      · exact .inl (hjk ▸ hij)
    · rcases hjk with hjk | ⟨hjk, hjk'⟩
      · exact .inl (hij ▸ hjk)
      · exact .inr ⟨hij.trans hjk, hij'.trans hjk'⟩
  connected {i j} hij hji := by
    have hij' := mt less_iff.mpr (Bool.eq_false_iff.mp hij)
    have hji' := mt less_iff.mpr (Bool.eq_false_iff.mp hji)
    push Not at hij' hji'
    have hts : i.1 = j.1 := UInt64.le_antisymm (UInt64.not_lt.mp hji'.1) (UInt64.not_lt.mp hij'.1)
    exact Prod.ext hts (le_antisymm (hji'.2 hts.symm) (hij'.2 hts))

end Item

structure TimedCache (K V : Type*) where
  cache : Index K
  timed : List (Node (Item K V))
  maxSize : UInt64
  elasticity : UInt64
  status : CacheStatus

namespace TimedCache

variable {K V : Type*} [LinearOrder K]

def new (max_size elasticity : UInt64) : TimedCache K V := ⟨∅, [], max_size, elasticity, {}⟩

def getMaxAllowedSize (c : TimedCache K V) : UInt64 := c.maxSize + c.elasticity

/-- `_timed.insert`, or `emplace`: the address of the item in the set.  An item that is equivalent
to one in the set is not inserted; `node` is the address of a new one. -/
def insertItem (timed : List (Node (Item K V))) (node : Nat) (item : Item K V) :
    Nat × List (Node (Item K V)) :=
  match OrderedSet.find Item.less Item.rank (item.ts, item.key) timed with
  | some found => (found.address, timed)
  | none => (node, OrderedSet.insert Item.less Item.rank ⟨node, item⟩ timed)

/-- `*it`. -/
def itemAt (timed : List (Node (Item K V))) (it : Nat) : Option (Item K V) :=
  (unlink it timed).map fun found => found.1.item

/-- `prune`, with the items that it removes: those with the earliest deadlines. -/
def prune (c : TimedCache K V) : Option (List (Item K V) × TimedCache K V) :=
  if c.maxSize = 0 ∨ c.cache.size < c.getMaxAllowedSize.toNat then some ([], c)
  else
    (c.cache.shrink Item.key c.maxSize.toNat c.timed).map fun (removed, cache, timed) =>
      (removed, { c with
        cache := cache, timed := timed, status := c.status.incPrune removed.length })

/-- `set`.  Only the map forgets what the key had before. -/
def set (c : TimedCache K V) (k : K) (v : V) (expired now : UInt64) (node : Nat) :
    Option (List (Item K V) × TimedCache K V) :=
  let cache : Index K := if (c.cache.lookup k).isSome then c.cache.erase k else c.cache
  let (it, timed) := insertItem c.timed node ⟨k, v, expired + now⟩
  prune { c with cache := cache.emplace k it, timed := timed, status := c.status.incSet }

/-- `bool get(k, v)`: the value that is assigned to `v`, when the answer is `true`. -/
def get (c : TimedCache K V) (k : K) : Option (Option V × TimedCache K V) :=
  let c := { c with status := c.status.incGet }
  match c.cache.lookup k with
  | none => some (none, c)
  | some it =>
      (itemAt c.timed it).map fun item => (some item.val, { c with status := c.status.incHit })

/-- `V get(k)`, which answers `V()` when the key is not there. -/
def getValue [Inhabited V] (c : TimedCache K V) (k : K) : Option (V × TimedCache K V) :=
  let c := { c with status := c.status.incGet }
  match c.cache.lookup k with
  | none => some (default, c)
  | some it =>
      (itemAt c.timed it).map fun item => (item.val, { c with status := c.status.incHit })

/-- `del`.  There is no `return` behind the deletion, and `returned` is what the caller gets for
that; `none` when the program does not go on. -/
def del (c : TimedCache K V) (k : K) (returned : Option Bool) :
    Option (Bool × TimedCache K V) :=
  let c := { c with status := c.status.incDel }
  match c.cache.lookup k with
  | none => some (false, c)
  | some it =>
      match unlink it c.timed with
      | none => none
      | some (_, timed) => returned.map fun answer =>
          (answer, { c with
            timed := timed, cache := c.cache.erase k, status := c.status.incHit })

/-- `expired`.  `node` is the address of the item that is inserted again. -/
def expired (c : TimedCache K V) (k : K) (ts now : UInt64) (node : Nat) :
    Option (Bool × TimedCache K V) :=
  match c.cache.lookup k with
  | none => some (false, c)
  | some it =>
      match unlink it c.timed with
      | none => none
      | some (found, timed) =>
          if found.item.ts = ts + now then some (true, c)
          else
            let (it, timed) := insertItem timed node found.item
            -- `it->second = iit.first`
            some (true, { c with timed := timed, cache := c.cache.insert k it })

/-- `exists`. -/
def existsKey (c : TimedCache K V) (k : K) : Bool := (c.cache.lookup k).isSome

def clear (c : TimedCache K V) : Bool × TimedCache K V := (true, { c with timed := [], cache := ∅ })

/-- The loop of `checkTimeout`: the items that are removed, and what is left.  After `erase(it++)`
the loop increments `it` once more, so that the next item is skipped; at the end of the set that is
undefined. -/
def checkTimeoutLoop (ts : UInt64) : Index K → List (Node (Item K V)) →
    Option (List (Item K V) × Index K × List (Node (Item K V)))
  | cache, [] => some ([], cache, [])
  | cache, [node] => if node.item.ts ≤ ts then none else some ([], cache, [node])
  | cache, node :: next :: rest =>
      if node.item.ts ≤ ts then
        (checkTimeoutLoop ts (cache.erase node.item.key) rest).map
          fun (removed, cache, timed) => (node.item :: removed, cache, next :: timed)
      else some ([], cache, node :: next :: rest)

/-- `checkTimeout`, with the items that it removes.  Their number is what it returns. -/
def checkTimeout (c : TimedCache K V) (ts : UInt64) :
    Option (List (Item K V) × TimedCache K V) :=
  (checkTimeoutLoop ts c.cache c.timed).map fun (removed, cache, timed) =>
    (removed, { c with cache := cache, timed := timed })

/-! ## Calls -/

/-- The operations, with the values of the clock that they read.  `node` is the address of a new
item of the set. -/
inductive Operation (K V : Type*)
  | set (k : K) (v : V) (expired now : UInt64) (node : Nat)
  | get (k : K)
  | getValue (k : K)
  | del (k : K) (returned : Option Bool)
  | expired (k : K) (ts now : UInt64) (node : Nat)
  | existsKey (k : K)
  | clear
  | checkTimeout (ts : UInt64)
deriving DecidableEq, Repr

inductive Answer (K V : Type*)
  /-- What `set` and `checkTimeout` remove. -/
  | removed (items : List (Item K V))
  | found (v : Option V)
  | value (v : V)
  | flag (value : Bool)
deriving DecidableEq, Repr

def perform [Inhabited V] (c : TimedCache K V) : Operation K V →
    Option (Answer K V × TimedCache K V)
  | .set k v expired now node =>
      (c.set k v expired now node).map fun (removed, c) => (.removed removed, c)
  | .get k => (c.get k).map fun (v, c) => (.found v, c)
  | .getValue k => (c.getValue k).map fun (v, c) => (.value v, c)
  | .del k returned => (c.del k returned).map fun (answer, c) => (.flag answer, c)
  | .expired k ts now node => (c.expired k ts now node).map fun (answer, c) => (.flag answer, c)
  | .existsKey k => some (.flag (c.existsKey k), c)
  | .clear => some (.flag c.clear.1, c.clear.2)
  | .checkTimeout ts => (c.checkTimeout ts).map fun (removed, c) => (.removed removed, c)

end TimedCache
end Ds
end Routn
