import Routn.Foundation.Indexed

/-!
# `CacheStatus` and `LRU_Cache`

`_cache` maps keys to iterators into the list `_keys`.  Each operation is one critical section of
`_mutex`.  An operation answers `none` where the source uses an iterator or an element that is not
there.
-/

namespace Routn
namespace Ds

open Foundation

/-- The counters that the caches use. -/
structure CacheStatus where
  get : Int64 := 0
  set : Int64 := 0
  del : Int64 := 0
  prune : Int64 := 0
  hit : Int64 := 0
deriving DecidableEq, Repr

namespace CacheStatus

def incGet (status : CacheStatus) : CacheStatus := { status with get := status.get + 1 }

def incSet (status : CacheStatus) : CacheStatus := { status with set := status.set + 1 }

def incDel (status : CacheStatus) : CacheStatus := { status with del := status.del + 1 }

def incPrune (status : CacheStatus) (count : Nat) : CacheStatus :=
  { status with prune := status.prune + Int64.ofNat count }

@[simp] theorem incPrune_zero (status : CacheStatus) : status.incPrune 0 = status := by
  simp [incPrune]

def incHit (status : CacheStatus) : CacheStatus := { status with hit := status.hit + 1 }

end CacheStatus

/-- `callback`: the prune callback is not null.  `status` is what `_status` points to. -/
structure LRUCache (K V : Type*) where
  cache : Index K
  keys : List (Node (K × V))
  maxSize : UInt64
  elasticity : UInt64
  callback : Bool
  status : CacheStatus

namespace LRUCache

variable {K V : Type*} [DecidableEq K]

def new (max_size elasticity : UInt64) (callback : Bool) : LRUCache K V :=
  ⟨∅, [], max_size, elasticity, callback, {}⟩

def getMaxAllowedSize (c : LRUCache K V) : UInt64 := c.maxSize + c.elasticity

/-- `_keys.splice(_keys.begin(), _keys, it)`, after `it->second` was set. -/
def spliceFront (keys : List (Node (K × V))) (it : Nat) (v : Option V) :
    Option (V × List (Node (K × V))) :=
  (unlink it keys).map fun (node, rest) =>
    let v := v.getD node.item.2
    (v, { node with item := (node.item.1, v) } :: rest)

/-- `prune`, with the pairs that it removes.  Their number is what it returns.  The loop goes on
from the back of `_keys`, and erases the entry of each key before its node. -/
def prune (c : LRUCache K V) : Option (List (K × V) × LRUCache K V) :=
  if c.maxSize = 0 ∨ c.cache.size < c.getMaxAllowedSize.toNat then some ([], c)
  else
    (c.cache.shrink Prod.fst c.maxSize.toNat c.keys.reverse).map fun (removed, cache, nodes) =>
      (removed, { c with
        cache := cache
        keys := nodes.reverse
        status := c.status.incPrune removed.length })

/-- `set`, with the calls of the prune callback.  `node` is the address of a new list node. -/
def set (c : LRUCache K V) (k : K) (v : V) (node : Nat) : Option (List (K × V) × LRUCache K V) :=
  let c := { c with status := c.status.incSet }
  match c.cache.lookup k with
  | some it => (spliceFront c.keys it (some v)).map fun (_, keys) => ([], { c with keys := keys })
  | none =>
      let c := { c with keys := ⟨node, (k, v)⟩ :: c.keys, cache := c.cache.emplace k node }
      c.prune.map fun (removed, c) => (if c.callback then removed else [], c)

/-- `bool get(k, v)`: the value that is assigned to `v`, when the answer is `true`. -/
def get (c : LRUCache K V) (k : K) : Option (Option V × LRUCache K V) :=
  let c := { c with status := c.status.incGet }
  match c.cache.lookup k with
  | some it =>
      (spliceFront c.keys it none).map fun (v, keys) =>
        (some v, { c with keys := keys, status := c.status.incHit })
  | none => some (none, c)

/-- `V get(k)`, which answers `V()` when the key is not there. -/
def getValue [Inhabited V] (c : LRUCache K V) (k : K) : Option (V × LRUCache K V) :=
  let c := { c with status := c.status.incGet }
  match c.cache.lookup k with
  | none => some (default, c)
  | some it =>
      (spliceFront c.keys it none).map fun (v, keys) =>
        (v, { c with keys := keys, status := c.status.incHit })

def del (c : LRUCache K V) (k : K) : Option (Bool × LRUCache K V) :=
  let c := { c with status := c.status.incDel }
  match c.cache.lookup k with
  | none => some (false, c)
  | some it =>
      (unlink it c.keys).map fun (_, rest) =>
        (true, { c with keys := rest, cache := c.cache.erase k })

/-- `exists`. -/
def existsKey (c : LRUCache K V) (k : K) : Bool := (c.cache.lookup k).isSome

def clear (c : LRUCache K V) : Bool × LRUCache K V := (true, { c with cache := ∅, keys := [] })

/-! ## Calls -/

end LRUCache

/-- The operations of `LRU_Cache` and `HashLRU_Cache`. -/
inductive Operation (K V : Type*)
  /-- `node` is the address of the list node that `set` makes for a new key. -/
  | set (k : K) (v : V) (node : Nat)
  | get (k : K)
  | getValue (k : K)
  | del (k : K)
  | existsKey (k : K)
  | clear
deriving DecidableEq, Repr

inductive Answer (K V : Type*)
  /-- `set` returns nothing; these are the calls of the prune callback. -/
  | calls (pairs : List (K × V))
  | found (v : Option V)
  | value (v : V)
  | flag (value : Bool)
deriving DecidableEq, Repr

namespace LRUCache

variable {K V : Type*} [DecidableEq K] [Inhabited V]

def perform (c : LRUCache K V) : Operation K V → Option (Answer K V × LRUCache K V)
  | .set k v node => (c.set k v node).map fun (pairs, c) => (.calls pairs, c)
  | .get k => (c.get k).map fun (v, c) => (.found v, c)
  | .getValue k => (c.getValue k).map fun (v, c) => (.value v, c)
  | .del k => (c.del k).map fun (answer, c) => (.flag answer, c)
  | .existsKey k => some (.flag (c.existsKey k), c)
  | .clear => some (.flag c.clear.1, c.clear.2)

end LRUCache
end Ds
end Routn
