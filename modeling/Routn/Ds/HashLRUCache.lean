import Routn.Ds.Eviction
import Routn.Foundation.Rounding

/-!
# `HashLRU_Cache`

The keys are spread over several caches by their hash.  All of these have one `CacheStatus`, so what
they hold themselves for it is not used: an operation gets the shared one and leaves it behind.

`del` calls `get` of the cache, and its value is converted to `bool`.
-/

namespace Routn
namespace Ds

open Foundation

structure HashLRUCache (K V : Type*) where
  datas : List (LRUCache K V)
  maxSize : UInt64
  bucket : UInt64
  elasticity : UInt64
  hash : K → UInt64
  status : CacheStatus

namespace HashLRUCache

variable {K V : Type*}

/-- `std::ceil(n * 1.0 / bucket)` as a `size_t`; `none` when it is out of range, which is
undefined. -/
def perBucket (n bucket : UInt64) : Option UInt64 :=
  let quotient := ⌈roundTo 53 (roundTo 53 n.toNat / roundTo 53 bucket.toNat)⌉.toNat
  if bucket = 0 ∨ 2 ^ 64 ≤ quotient then none else some (.ofNat quotient)

/-- The constructor, and `setPruneCallback` when there is a callback. -/
def new (hash : K → UInt64) (bucket max_size elasticity : UInt64) (callback : Bool) :
    Option (HashLRUCache K V) :=
  match perBucket max_size bucket, perBucket elasticity bucket with
  | some pre_max_size, some pre_elasticity =>
      some ⟨List.replicate bucket.toNat (.new pre_max_size pre_elasticity callback),
        pre_max_size * bucket, bucket, pre_elasticity * bucket, hash, {}⟩
  | _, _ => none

/-- `_hash(k) % _bucket`. -/
def index (h : HashLRUCache K V) (k : K) : Nat := (h.hash k % h.bucket).toNat

/-- The cache that a key belongs to, with the status that it shares. -/
def shard (h : HashLRUCache K V) (k : K) : Option (LRUCache K V) :=
  h.datas[h.index k]?.map fun data => { data with status := h.status }

/-- Put a cache back. -/
def store (h : HashLRUCache K V) (k : K) (c : LRUCache K V) : HashLRUCache K V :=
  { h with datas := h.datas.set (h.index k) { c with status := {} }, status := c.status }

/-- Call an operation of the cache that the key belongs to. -/
def onShard {α : Type*} (h : HashLRUCache K V) (k : K)
    (operation : LRUCache K V → Option (α × LRUCache K V)) : Option (α × HashLRUCache K V) :=
  match h.shard k with
  | none => none
  | some c => (operation c).map fun (answer, c) => (answer, h.store k c)

variable [DecidableEq K]

def set (h : HashLRUCache K V) (k : K) (v : V) (node : Nat) :
    Option (List (K × V) × HashLRUCache K V) :=
  h.onShard k fun c => c.set k v node

def get (h : HashLRUCache K V) (k : K) : Option (Option V × HashLRUCache K V) :=
  h.onShard k fun c => c.get k

def getValue [Inhabited V] (h : HashLRUCache K V) (k : K) : Option (V × HashLRUCache K V) :=
  h.onShard k fun c => c.getValue k

/-- `truth` is the conversion of `V` to `bool`. -/
def del [Inhabited V] (truth : V → Bool) (h : HashLRUCache K V) (k : K) :
    Option (Bool × HashLRUCache K V) :=
  (h.onShard k fun c => c.getValue k).map fun (v, h) => (truth v, h)

def existsKey (h : HashLRUCache K V) (k : K) : Option Bool :=
  (h.shard k).map fun c => c.existsKey k

def clear (h : HashLRUCache K V) : HashLRUCache K V :=
  { h with datas := h.datas.map fun c => c.clear.2 }

/-- `clear` returns nothing, and calls no callback. -/
def perform [Inhabited V] (truth : V → Bool) (h : HashLRUCache K V) :
    Operation K V → Option (Answer K V × HashLRUCache K V)
  | .set k v node => (h.set k v node).map fun (pairs, h) => (.calls pairs, h)
  | .get k => (h.get k).map fun (v, h) => (.found v, h)
  | .getValue k => (h.getValue k).map fun (v, h) => (.value v, h)
  | .del k => (h.del truth k).map fun (answer, h) => (.flag answer, h)
  | .existsKey k => (h.existsKey k).map fun answer => (.flag answer, h)
  | .clear => some (.calls [], h.clear)

end HashLRUCache

/-- The key that an operation is about. -/
def Operation.key {K V : Type*} : Operation K V → Option K
  | .set k _ _ | .get k | .getValue k | .del k | .existsKey k => some k
  | .clear => none

namespace HashLRUCache

variable {K V : Type*} [DecidableEq K]

/-! ## Invariant -/

/-- There is a cache for every remainder, and each one is sound. -/
structure Sound (h : HashLRUCache K V) : Prop where
  bucket : h.bucket ≠ 0
  length : h.datas.length = h.bucket.toNat
  datas : ∀ c ∈ h.datas, (∃ r, c.Represents r) ∧ c.Bounded ∧ c.status = {}

variable {h h' : HashLRUCache K V} {k : K}

omit [DecidableEq K] in
theorem index_lt (hbucket : h.bucket ≠ 0) (k : K) : h.index k < h.bucket.toNat := by
  rw [index, UInt64.toNat_mod]
  refine Nat.mod_lt _ (Nat.pos_of_ne_zero fun hzero => hbucket ?_)
  exact UInt64.toNat_inj.mp hzero

namespace Sound

theorem new {hash : K → UInt64} {bucket max_size elasticity : UInt64} {callback : Bool}
    (hnew : HashLRUCache.new hash bucket max_size elasticity callback = some h) : h.Sound := by
  rw [HashLRUCache.new] at hnew
  split at hnew
  · next pre_max_size pre_elasticity hmax _ =>
      obtain rfl := Option.some.inj hnew
      have hbucket : bucket ≠ 0 := by
        rintro rfl
        simp [perBucket] at hmax
      refine ⟨hbucket, List.length_replicate .., fun c hc => ?_⟩
      obtain rfl := List.eq_of_mem_replicate hc
      exact ⟨⟨_, .new ..⟩, fun _ => Nat.zero_le _, rfl⟩
  · cases hnew

/-- Every key has a cache. -/
theorem shard (hs : h.Sound) (k : K) :
    ∃ c, h.shard k = some c ∧ (∃ r, c.Represents r) ∧ c.Bounded ∧ c.status = h.status := by
  have hlt : h.index k < h.datas.length := hs.length ▸ index_lt hs.bucket k
  have hget := List.getElem?_eq_getElem hlt
  obtain ⟨⟨r, hrep⟩, hbounded, -⟩ := hs.datas _ (List.getElem_mem hlt)
  exact ⟨{ h.datas[h.index k] with status := h.status }, by rw [HashLRUCache.shard, hget]; rfl,
    ⟨r, hrep.indexes, hrep.agrees⟩, hbounded, rfl⟩

theorem store (hs : h.Sound) (k : K) {c : LRUCache K V} (hrep : ∃ r, c.Represents r)
    (hbounded : c.Bounded) : (h.store k c).Sound where
  bucket := hs.bucket
  length := (List.length_set ..).trans hs.length
  datas c' hc' := by
    rcases List.mem_or_eq_of_mem_set hc' with hin | rfl
    · exact hs.datas c' hin
    · obtain ⟨r, hrep⟩ := hrep
      exact ⟨⟨r, hrep.indexes, hrep.agrees⟩, hbounded, rfl⟩

theorem clear (hs : h.Sound) : h.clear.Sound where
  bucket := hs.bucket
  length := (List.length_map ..).trans hs.length
  datas c hc := by
    obtain ⟨data, hdata, rfl⟩ := List.mem_map.mp hc
    exact ⟨⟨_, .empty, .empty⟩, fun _ => Nat.zero_le _, (hs.datas data hdata).2.2⟩

end Sound

/-- What is read where it was stored. -/
theorem shard_store (hs : h.Sound) (k : K) (c : LRUCache K V) :
    (h.store k c).shard k = some c := by
  have hlt : h.index k < h.datas.length := hs.length ▸ index_lt hs.bucket k
  have hindex : (h.store k c).index k = h.index k := rfl
  rw [HashLRUCache.shard, hindex, HashLRUCache.store, List.getElem?_set_self hlt]
  rfl

/-- Storing the cache that is there changes nothing. -/
theorem store_shard {c : LRUCache K V} (hs : h.Sound) (hshard : h.shard k = some c) :
    h.store k c = h := by
  obtain ⟨data, hdata, rfl⟩ := Option.map_eq_some_iff.mp hshard
  have hstatus : data.status = {} := (hs.datas data (List.mem_of_getElem? hdata)).2.2
  have hsame : h.datas.set (h.index k) { data with status := {} } = h.datas := by
    obtain ⟨hlt, rfl⟩ := List.getElem?_eq_some_iff.mp hdata
    rw [← hstatus]
    exact List.set_getElem_self hlt
  rw [HashLRUCache.store, hsame]

theorem existsKey_eq {c : LRUCache K V} (hshard : h.shard k = some c) :
    h.existsKey k = some (c.existsKey k) := by
  rw [HashLRUCache.existsKey, hshard]
  rfl

/-- `get` keeps the keys, and counts no deletion. -/
theorem get_keeps {c c' : LRUCache K V} {v : Option V} (hget : c.get k = some (v, c')) :
    c'.cache = c.cache ∧ c'.status.del = c.status.del := by
  rw [LRUCache.get] at hget
  simp only at hget
  split at hget
  · obtain ⟨found, -, heq⟩ := Option.map_eq_some_iff.mp hget
    obtain ⟨-, rfl⟩ := Prod.mk.inj heq
    exact ⟨rfl, rfl⟩
  · obtain ⟨-, rfl⟩ := Prod.mk.inj (Option.some.inj hget)
    exact ⟨rfl, rfl⟩

theorem del_counts {c c' : LRUCache K V} {answer : Bool} (hdel : c.del k = some (answer, c')) :
    c'.status.del = c.status.del + 1 := by
  rw [LRUCache.del] at hdel
  simp only at hdel
  split at hdel
  · obtain ⟨-, rfl⟩ := Prod.mk.inj (Option.some.inj hdel)
    rfl
  · obtain ⟨found, -, heq⟩ := Option.map_eq_some_iff.mp hdel
    obtain ⟨-, rfl⟩ := Prod.mk.inj heq
    rfl

/-! ## What the operations should do -/

section Operations

variable [Inhabited V]

/-- The operation does and answers what the operation of the cache does that the key belongs to, and
leaves the other caches alone.  The counters are compared by `agree`. -/
def Forwards (agree : CacheStatus → CacheStatus → Prop) (h : HashLRUCache K V)
    (op : Operation K V) (answer : Answer K V) (h' : HashLRUCache K V) : Prop :=
  match op.key with
  | some k => ∃ c c', h.shard k = some c ∧ c.perform op = some (answer, c') ∧
      ∃ status, agree status c'.status ∧ h' = { h.store k c' with status := status }
  | none => answer = .calls [] ∧ h' = h.clear

/-- The new list node is not where one is that the list holds. -/
def Legal (h : HashLRUCache K V) (op : Operation K V) : Prop :=
  ∀ k ∈ op.key, ∀ c ∈ h.shard k, c.Legal op

/-- `del` deletes the key, and answers whether it was there. -/
def Deletes (h : HashLRUCache K V) (op : Operation K V) (answer : Answer K V)
    (h' : HashLRUCache K V) : Prop :=
  ∀ k, op = .del k →
    (∃ present, h.existsKey k = some present ∧ answer = .flag present) ∧
      h'.existsKey k = some false

/-! ## What they do -/

variable {c c' : LRUCache K V} {op : Operation K V} {truth : V → Bool}

/-- Everything but `del` is the operation of the cache. -/
theorem perform_eq (hs : h.Sound) (hkey : op.key = some k) (hdel : op ≠ .del k)
    (hshard : h.shard k = some c) :
    h.perform truth op = (c.perform op).map fun (answer, c') => (answer, h.store k c') := by
  cases op with
  | set k' v node =>
      obtain rfl := Option.some.inj hkey
      simp only [perform, HashLRUCache.set, onShard, hshard, LRUCache.perform, Option.map_map]
      rfl
  | get k' =>
      obtain rfl := Option.some.inj hkey
      simp only [perform, HashLRUCache.get, onShard, hshard, LRUCache.perform, Option.map_map]
      rfl
  | getValue k' =>
      obtain rfl := Option.some.inj hkey
      simp only [perform, HashLRUCache.getValue, onShard, hshard, LRUCache.perform, Option.map_map]
      rfl
  | del k' => exact absurd (congrArg Operation.del (Option.some.inj hkey)) hdel
  | existsKey k' =>
      obtain rfl := Option.some.inj hkey
      simp [perform, HashLRUCache.existsKey, hshard, LRUCache.perform, store_shard hs hshard]
  | clear => cases hkey

/-- `del` is `get` of the cache. -/
theorem perform_del (hshard : h.shard k = some c) :
    h.perform truth (.del k) = (c.get k).map fun (v, c') =>
      (.flag (truth (v.getD default)), h.store k c') := by
  simp only [perform, HashLRUCache.del, onShard, hshard, LRUCache.getValue_eq, Option.map_map]
  rfl

/-- What any operation but `del` does. -/
theorem perform_good {agree : CacheStatus → CacheStatus → Prop} (hagree : ∀ s, agree s s)
    (hs : h.Sound) (hlegal : h.Legal op) (hdel : ∀ k, op ≠ .del k) :
    ∃ answer h', h.perform truth op = some (answer, h') ∧
      (h.Forwards agree op answer h' ∧ h.Deletes op answer h') ∧ h'.Sound := by
  cases hkey : op.key with
  | none =>
      obtain rfl : op = .clear := by
        cases op <;> first | rfl | cases hkey
      exact ⟨_, _, rfl, ⟨⟨rfl, rfl⟩, fun k heq => absurd heq (hdel k)⟩, hs.clear⟩
  | some k =>
      obtain ⟨c, hshard, ⟨r, hrep⟩, hbounded, -⟩ := hs.shard k
      obtain ⟨answer, c', hperform, hrep', hbounded'⟩ :=
        LRUCache.perform_sound hrep hbounded (hlegal k hkey c hshard)
      refine ⟨answer, h.store k c', ?_, ⟨?_, fun k heq => absurd heq (hdel k)⟩,
        hs.store k hrep' hbounded'⟩
      · rw [perform_eq hs hkey (hdel k) hshard, hperform]
        rfl
      · rw [Forwards, hkey]
        exact ⟨c, c', hshard, hperform, c'.status, hagree _, rfl⟩

/-- A `del` that finds nothing, when `V()` converts to `false`. -/
def Idle (truth : V → Bool) (h : HashLRUCache K V) (op : Operation K V) : Prop :=
  ∀ k, op = .del k → h.existsKey k = some false ∧ truth default = false

/-- The contents are right, whatever the counters say. -/
abbrev RightContents (h : HashLRUCache K V) (op : Operation K V) (answer : Answer K V)
    (h' : HashLRUCache K V) : Prop :=
  h.Forwards (fun _ _ => True) op answer h' ∧ h.Deletes op answer h'

/-- All is right. -/
abbrev Right (h : HashLRUCache K V) (op : Operation K V) (answer : Answer K V)
    (h' : HashLRUCache K V) : Prop :=
  h.Forwards (· = ·) op answer h' ∧ h.Deletes op answer h'

/-- What `del` does. -/
theorem del_spec (truth : V → Bool) (hs : h.Sound) (k : K) :
    ∃ c v c', h.shard k = some c ∧ h.perform truth (.del k) =
        some (.flag (truth (v.getD default)), h.store k c') ∧
      v.isSome = c.existsKey k ∧ c.get k = some (v, c') ∧
      (h.store k c').existsKey k = some (c.existsKey k) ∧ (h.store k c').Sound := by
  obtain ⟨c, hshard, ⟨r, hrep⟩, hbounded, -⟩ := hs.shard k
  obtain ⟨c', hget, hrep', hbounded'⟩ := LRUCache.get_spec hrep hbounded k
  refine ⟨c, (r.get k).1, c', hshard, by rw [perform_del hshard, hget]; rfl,
    (hrep.isSome_lookup k).symm, hget, ?_, hs.store k ⟨_, hrep'⟩ hbounded'⟩
  rw [existsKey_eq (shard_store hs k c'), LRUCache.existsKey, (get_keeps hget).1]
  rfl

theorem perform_idle (hs : h.Sound) (hlegal : h.Legal op) (hidle : h.Idle truth op) :
    ∃ answer h', h.perform truth op = some (answer, h') ∧ h.RightContents op answer h' ∧
      h'.Sound := by
  by_cases hdel : ∃ k, op = .del k
  · obtain ⟨k, rfl⟩ := hdel
    obtain ⟨hnone, htruth⟩ := hidle k rfl
    obtain ⟨c, v, c', hshard, hperform, hv, hget, hexists, hs'⟩ := del_spec truth hs k
    rw [existsKey_eq hshard] at hnone
    have hnone := Option.some.inj hnone
    rw [hnone] at hv hexists
    obtain rfl : v = none := by simpa using hv
    refine ⟨_, _, hperform, ⟨?_, ?_⟩, hs'⟩
    · have hlookup : c.cache.lookup k = none := by simpa [LRUCache.existsKey] using hnone
      obtain rfl : { c with status := c.status.incGet } = c' := by
        simpa [LRUCache.get, hlookup] using hget
      refine ⟨c, { c with status := c.status.incDel }, hshard, ?_, c.status.incGet, trivial, rfl⟩
      simp [LRUCache.perform, LRUCache.del, hlookup, htruth]
    · rintro k' heq
      obtain rfl := Operation.del.inj heq
      exact ⟨⟨false, by rw [existsKey_eq hshard, hnone], congrArg _ htruth⟩, hexists⟩
  · exact perform_good (fun _ => trivial) hs hlegal fun k heq => hdel ⟨k, heq⟩

theorem perform_bad {answer : Answer K V} (hs : h.Sound) (hbad : ¬ h.Idle truth op)
    (hperform : h.perform truth op = some (answer, h')) : ¬ h.RightContents op answer h' := by
  rintro ⟨-, hdeletes⟩
  refine hbad fun k heq => ?_
  subst heq
  obtain ⟨c, v, c', hshard, hperform', hv, -, hexists, -⟩ := del_spec truth hs k
  obtain ⟨rfl, rfl⟩ := Prod.mk.inj (Option.some.inj (hperform.symm.trans hperform'))
  obtain ⟨⟨present, hpresent, hanswer⟩, hgone⟩ := hdeletes k rfl
  -- `get` leaves the key where it was, so it was not there.
  have habsent : c.existsKey k = false := Option.some.inj (hexists.symm.trans hgone)
  rw [existsKey_eq hshard, habsent] at hpresent ⊢
  rw [habsent] at hv
  obtain rfl : v = none := by simpa using hv
  obtain rfl := Option.some.inj hpresent
  exact ⟨rfl, Answer.flag.inj hanswer⟩

theorem perform_del_bad {answer : Answer K V} (hs : h.Sound) (hbad : ¬ ∀ k, op ≠ .del k)
    (hperform : h.perform truth op = some (answer, h')) : ¬ h.Right op answer h' := by
  rintro ⟨hforwards, -⟩
  refine hbad fun k heq => ?_
  subst heq
  obtain ⟨c, v, c', hshard, hperform', -, hget, -, -⟩ := del_spec truth hs k
  obtain ⟨-, rfl⟩ := Prod.mk.inj (Option.some.inj (hperform.symm.trans hperform'))
  obtain ⟨c₁, c₁', hshard₁, hdel, status, hstatus, hstore⟩ := hforwards
  obtain rfl : c = c₁ := Option.some.inj (hshard.symm.trans hshard₁)
  obtain ⟨⟨deleted, c₂⟩, hdeleted, hpair⟩ := Option.map_eq_some_iff.mp hdel
  obtain ⟨-, rfl⟩ := Prod.mk.inj hpair
  -- The one counts a `get`, the other a `del`.
  have hsame : c'.status = c₂.status := (congrArg HashLRUCache.status hstore).trans hstatus
  have hcount := congrArg CacheStatus.del hsame
  rw [(get_keeps hget).2, del_counts hdeleted] at hcount
  simp at hcount

/-- **`HashLRU_Cache` and its caches.**  In a sequence of operations every one does and answers what
the operation of the key's cache does, counters included, exactly if none of them is a `del`.  When
the counters are left out of account, exactly if every `del` is of a key that is not there, and
`V()` converts to `false`. -/
theorem hashLRU_iff (truth : V → Bool) {hash : K → UInt64} {bucket max_size elasticity : UInt64}
    {callback : Bool} {h : HashLRUCache K V}
    (hnew : new hash bucket max_size elasticity callback = some h) (ops : List (Operation K V)) :
    (runKeeps (perform truth) Legal (fun _ => True) Right ops h ↔
      runObserves (perform truth) Legal (fun _ op => ∀ k, op ≠ .del k) ops h) ∧
    (runKeeps (perform truth) Legal (fun _ => True) RightContents ops h ↔
      runObserves (perform truth) Legal (Idle truth) ops h) :=
  ⟨runKeeps_iff (fun _ => trivial)
    (fun hs hlegal hok =>
      let ⟨answer, h', hperform, hright, hs'⟩ := perform_good (fun _ => rfl) hs hlegal hok
      ⟨answer, h', hperform, hright, hs'⟩)
    (fun hs _ hbad hperform => perform_del_bad hs hbad hperform) ops (Sound.new hnew),
  runKeeps_iff (fun _ => trivial)
    (fun hs hlegal hok =>
      let ⟨answer, h', hperform, hright, hs'⟩ := perform_idle hs hlegal hok
      ⟨answer, h', hperform, hright, hs'⟩)
    (fun hs _ hbad hperform => perform_bad hs hbad hperform) ops (Sound.new hnew)⟩

end Operations

/-! ## A key that is deleted -/

section Numbers

/-- Numbers, each its own hash; as values they are all `true` but zero. -/
def numbers : Option (HashLRUCache Nat Nat) := new UInt64.ofNat 2 30 10 false

theorem isSome_numbers : numbers.isSome := by decide +kernel

theorem hashLRU_iff_numbers : ∃ h, new UInt64.ofNat 2 30 10 false = some h ∧
    ((runKeeps (perform (· != 0)) Legal (fun _ => True) Right [.set 1 10 0, .get 1] h ↔
      runObserves (perform (· != 0)) Legal (fun _ op => ∀ k, op ≠ .del k)
        [.set 1 10 0, .get 1] h) ∧
    (runKeeps (perform (· != 0)) Legal (fun _ => True) RightContents [.set 1 10 0, .get 1] h ↔
      runObserves (perform (· != 0)) Legal (Idle (· != 0)) [.set 1 10 0, .get 1] h)) := by
  obtain ⟨h, hnew⟩ := Option.isSome_iff_exists.mp isSome_numbers
  exact ⟨h, hnew, hashLRU_iff (· != 0) hnew [.set 1 10 0, .get 1]⟩

/-- What is left of a key that was set and then deleted. -/
theorem existsKey_deleted : (numbers.bind fun h =>
    (h.perform (· != 0) (.set 1 10 0)).bind fun set =>
      (set.2.perform (· != 0) (.del 1)).bind fun del => del.2.existsKey 1) = some true := by
  decide +kernel

theorem not_rightContents_deleted : ¬ ∀ (ops : List (Operation Nat Nat)) (h : HashLRUCache Nat Nat),
    new UInt64.ofNat 2 30 10 false = some h →
      runKeeps (perform (· != 0)) Legal (fun _ => True) RightContents ops h := by
  intro hall
  obtain ⟨h, hnew, hkept⟩ := Option.bind_eq_some_iff.mp existsKey_deleted
  obtain ⟨⟨calls, h₁⟩, hset, hkept⟩ := Option.bind_eq_some_iff.mp hkept
  obtain ⟨⟨answer, h₂⟩, hdel, hkept⟩ := Option.bind_eq_some_iff.mp hkept
  have hlegal : h.Legal (.set 1 10 0) := by
    have hempty : (numbers.bind fun h => (h.shard 1).map fun c => c.keys) = some [] := by
      decide +kernel
    rw [hnew, Option.bind_some] at hempty
    intro k hk c hc
    obtain rfl : 1 = k := Option.some.inj hk
    obtain ⟨c', hc', hkeys⟩ := Option.map_eq_some_iff.mp hempty
    obtain rfl : c = c' := Option.some.inj (hc.symm.trans hc')
    simp [LRUCache.Legal, hkeys]
  obtain ⟨-, hrest⟩ := runKeeps_tail (hall [.set 1 10 0, .del 1] h hnew) hlegal hset
  have hlegal' : h₁.Legal (.del 1) := fun _ _ _ _ => trivial
  obtain ⟨⟨-, hdeletes⟩, -⟩ := runKeeps_tail hrest hlegal' hdel
  cases hkept.symm.trans (hdeletes 1 rfl).2

end Numbers

end HashLRUCache
end Ds
end Routn
