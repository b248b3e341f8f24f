import Routn.Ds.HashLRUCache
import Routn.Ds.Rearming

/-!
# `HashTimed_Cache`

The keys are integers of one type, and are spread over several caches.  Unlike those of a
`HashLRU_Cache` these count for themselves: the constructor of `Timed_Cache` replaces the
`CacheStatus` that it is given.

Every operation finds its cache anew, and `set` does it otherwise than the rest: it takes the
remainder of the key before the hash.  `get(k, v)` calls the other overload, converts its value to
`bool`, and leaves `v` alone.
-/

namespace Routn
namespace Ds

open Foundation

/-- An integral type of at most 64 bits. -/
structure IntegralType where
  width : Nat
  isSigned : Bool
deriving DecidableEq, Repr

namespace IntegralType

/-- Conversion to the type. -/
def convert (t : IntegralType) (n : Int) : Int :=
  if t.isSigned then n.bmod (2 ^ t.width) else n % 2 ^ t.width

/-- `k % _bucket`, as the argument of `_hash`.  `_bucket` is a `size_t`, so that the key becomes
one, and the remainder is converted back. -/
def rem (t : IntegralType) (k : Int) (bucket : UInt64) : Int :=
  t.convert (k % 2 ^ 64 % bucket.toNat)

end IntegralType

structure HashTimedCache (V : Type*) where
  datas : List (TimedCache Int V)
  maxSize : UInt64
  bucket : UInt64
  elasticity : UInt64
  keys : IntegralType
  hash : Int → UInt64

namespace HashTimedCache

variable {V : Type*}

/-- The constructor. -/
def new (keys : IntegralType) (hash : Int → UInt64) (bucket max_size elasticity : UInt64) :
    Option (HashTimedCache V) :=
  match HashLRUCache.perBucket max_size bucket, HashLRUCache.perBucket elasticity bucket with
  | some pre_max_size, some pre_elasticity =>
      some ⟨List.replicate bucket.toNat (.new pre_max_size pre_elasticity), pre_max_size * bucket,
        bucket, pre_elasticity * bucket, keys, hash⟩
  | _, _ => none

/-- Call an operation of `_datas[i]`; `none` when there is no such cache. -/
def onShard {α : Type*} (h : HashTimedCache V) (i : UInt64)
    (operation : TimedCache Int V → Option (α × TimedCache Int V)) :
    Option (α × HashTimedCache V) :=
  match h.datas[i.toNat]? with
  | none => none
  | some c => (operation c).map fun (answer, c) =>
      (answer, { h with datas := h.datas.set i.toNat c })

/-- `_hash(k) % _bucket`. -/
def index (h : HashTimedCache V) (k : Int) : UInt64 := h.hash k % h.bucket

/-- `set`, which takes `_hash(k % _bucket)`. -/
def set (h : HashTimedCache V) (k : Int) (v : V) (expired now : UInt64) (node : Nat) :
    Option (List (Item Int V) × HashTimedCache V) :=
  h.onShard (h.hash (h.keys.rem k h.bucket)) fun c => c.set k v expired now node

def expired (h : HashTimedCache V) (k : Int) (ts now : UInt64) (node : Nat) :
    Option (Bool × HashTimedCache V) :=
  h.onShard (h.index k) fun c => c.expired k ts now node

/-- `V get(k)`. -/
def getValue [Inhabited V] (h : HashTimedCache V) (k : Int) : Option (V × HashTimedCache V) :=
  h.onShard (h.index k) fun c => c.getValue k

/-- `bool get(k, v)`: the answer, and `v` afterwards.  `truth` is the conversion of `V` to
`bool`. -/
def get [Inhabited V] (truth : V → Bool) (h : HashTimedCache V) (k : Int) (v : V) :
    Option ((Bool × V) × HashTimedCache V) :=
  (h.onShard (h.index k) fun c => c.getValue k).map fun (value, h) => ((truth value, v), h)

def del (h : HashTimedCache V) (k : Int) (returned : Option Bool) :
    Option (Bool × HashTimedCache V) :=
  h.onShard (h.index k) fun c => c.del k returned

def existsKey (h : HashTimedCache V) (k : Int) : Option (Bool × HashTimedCache V) :=
  h.onShard (h.index k) fun c => some (c.existsKey k, c)

def clear (h : HashTimedCache V) : HashTimedCache V :=
  { h with datas := h.datas.map fun c => c.clear.2 }

/-- `checkTimeout`, with the items that the caches remove. -/
def checkTimeout (h : HashTimedCache V) (ts : UInt64) :
    Option (List (Item Int V) × HashTimedCache V) :=
  (h.datas.mapM fun c => TimedCache.checkTimeout c ts).map fun answers =>
    (answers.flatMap Prod.fst, { h with datas := answers.map Prod.snd })

/-! ## Calls -/

/-- The operations, with the values of the clock that they read.  `node` is the address of a new
item, and the `v` of `get` is what the argument holds before. -/
inductive Call (V : Type*)
  | set (k : Int) (v : V) (expired now : UInt64) (node : Nat)
  | expired (k : Int) (ts now : UInt64) (node : Nat)
  | get (k : Int) (v : V)
  | getValue (k : Int)
  | del (k : Int) (returned : Option Bool)
  | existsKey (k : Int)
  | clear
  | checkTimeout (ts : UInt64)
deriving DecidableEq, Repr

inductive Result (V : Type*)
  | removed (items : List (Item Int V))
  | flag (value : Bool)
  | got (found : Bool) (v : V)
  | value (v : V)
deriving DecidableEq, Repr

section Perform

variable [Inhabited V]

def perform (truth : V → Bool) (h : HashTimedCache V) :
    Call V → Option (Result V × HashTimedCache V)
  | .set k v expired now node =>
      (h.set k v expired now node).map fun (items, h) => (.removed items, h)
  | .expired k ts now node =>
      (h.expired k ts now node).map fun (answer, h) => (.flag answer, h)
  | .get k v => (h.get truth k v).map fun ((found, v), h) => (.got found v, h)
  | .getValue k => (h.getValue k).map fun (v, h) => (.value v, h)
  | .del k returned => (h.del k returned).map fun (answer, h) => (.flag answer, h)
  | .existsKey k => (h.existsKey k).map fun (answer, h) => (.flag answer, h)
  | .clear => some (.removed [], h.clear)
  | .checkTimeout ts => (h.checkTimeout ts).map fun (items, h) => (.removed items, h)

/-- The map of the caches: each call is one of the cache with the number `_hash(k) % _bucket`. -/
def reference (h : HashTimedCache V) : Call V → Option (Result V × HashTimedCache V)
  | .set k v expired now node =>
      (h.onShard (h.index k) fun c => c.set k v expired now node).map fun (items, h) =>
        (.removed items, h)
  | .expired k ts now node =>
      (h.onShard (h.index k) fun c => c.expired k ts now node).map fun (answer, h) =>
        (.flag answer, h)
  | .get k v =>
      (h.onShard (h.index k) fun c => c.get k).map fun (found, h) =>
        (.got found.isSome (found.getD v), h)
  | .getValue k =>
      (h.onShard (h.index k) fun c => c.getValue k).map fun (v, h) => (.value v, h)
  | .del k returned =>
      (h.onShard (h.index k) fun c => c.del k returned).map fun (answer, h) => (.flag answer, h)
  | .existsKey k =>
      (h.onShard (h.index k) fun c => some (c.existsKey k, c)).map fun (answer, h) =>
        (.flag answer, h)
  | .clear => some (.removed [], h.clear)
  | .checkTimeout ts => (h.checkTimeout ts).map fun (items, h) => (.removed items, h)

end Perform

/-! ## Soundness -/

/-- There is a cache for every remainder, and the entries of each point to items of their keys. -/
structure Sound (h : HashTimedCache V) : Prop where
  bucket : h.bucket ≠ 0
  length : h.datas.length = h.bucket.toNat
  datas : ∀ c ∈ h.datas, c.Pointed

variable {h h' : HashTimedCache V} {k : Int}

namespace Sound

theorem new {keys : IntegralType} {hash : Int → UInt64} {bucket max_size elasticity : UInt64}
    (hnew : HashTimedCache.new keys hash bucket max_size elasticity = some h) : h.Sound := by
  rw [HashTimedCache.new] at hnew
  split at hnew
  · next pre_max_size pre_elasticity hmax _ =>
      obtain rfl := Option.some.inj hnew
      have hbucket : bucket ≠ 0 := by
        rintro rfl
        simp [HashLRUCache.perBucket] at hmax
      refine ⟨hbucket, List.length_replicate .., fun c hc => ?_⟩
      obtain rfl := List.eq_of_mem_replicate hc
      exact .new ..
  · cases hnew

/-- Every remainder has a cache. -/
theorem shard (hs : h.Sound) (k : Int) :
    ∃ c, h.datas[(h.index k).toNat]? = some c ∧ c ∈ h.datas ∧ c.Pointed := by
  have hlt : (h.index k).toNat < h.datas.length := by
    rw [hs.length, index, UInt64.toNat_mod]
    apply Nat.mod_lt
    apply Nat.pos_of_ne_zero
    intro hzero
    exact hs.bucket (UInt64.toNat_inj.mp hzero)
  exact ⟨_, List.getElem?_eq_getElem hlt, List.getElem_mem hlt, hs.datas _ (List.getElem_mem hlt)⟩

/-- An operation of one cache leaves the others alone. -/
theorem onShard {α : Type*} {i : UInt64} {a : α}
    {operation : TimedCache Int V → Option (α × TimedCache Int V)} (hs : h.Sound)
    (hon : h.onShard i operation = some (a, h'))
    (hop : ∀ c ∈ h.datas, ∀ a c', operation c = some (a, c') → c'.Pointed) : h'.Sound := by
  unfold HashTimedCache.onShard at hon
  split at hon
  · cases hon
  · next c hc =>
      obtain ⟨⟨answer, c'⟩, hcall, heq⟩ := Option.map_eq_some_iff.mp hon
      cases heq
      refine ⟨hs.bucket, (List.length_set ..).trans hs.length, fun d hd => ?_⟩
      rcases List.mem_or_eq_of_mem_set hd with hin | rfl
      · exact hs.datas d hin
      · exact hop c (List.mem_of_getElem? hc) _ d hcall

theorem clear (hs : h.Sound) : h.clear.Sound where
  bucket := hs.bucket
  length := (List.length_map ..).trans hs.length
  datas c hc := by
    obtain ⟨data, -, rfl⟩ := List.mem_map.mp hc
    exact ⟨.nil, .nil, by simp [TimedCache.clear]⟩

/-- The loop of `checkTimeout` over the caches. -/
theorem pointed_of_mapM {ts : UInt64} {datas : List (TimedCache Int V)}
    {answers : List (List (Item Int V) × TimedCache Int V)} (hdatas : ∀ c ∈ datas, c.Pointed)
    (hloop : (datas.mapM fun c => TimedCache.checkTimeout c ts) = some answers) :
    answers.length = datas.length ∧ ∀ answer ∈ answers, answer.2.Pointed := by
  induction datas generalizing answers with
  | nil =>
      cases hloop
      exact ⟨rfl, by simp⟩
  | cons c datas ih =>
      rw [List.mapM_cons] at hloop
      obtain ⟨⟨removed, c'⟩, hcheck, hloop⟩ := Option.bind_eq_some_iff.mp hloop
      obtain ⟨rest, hrest, heq⟩ := Option.bind_eq_some_iff.mp hloop
      cases heq
      obtain ⟨hlength, hpointed⟩ := ih (fun d hd => hdatas d (List.mem_cons_of_mem _ hd)) hrest
      obtain ⟨-, hfirst, -⟩ := (hdatas c List.mem_cons_self).checkTimeout hcheck
      refine ⟨by simp [hlength], fun answer hanswer => ?_⟩
      rcases List.mem_cons.mp hanswer with rfl | hanswer
      · exact hfirst
      · exact hpointed answer hanswer

theorem checkTimeout {ts : UInt64} {removed : List (Item Int V)} (hs : h.Sound)
    (hcheck : h.checkTimeout ts = some (removed, h')) : h'.Sound := by
  obtain ⟨answers, hloop, heq⟩ := Option.map_eq_some_iff.mp hcheck
  cases heq
  obtain ⟨hlength, hpointed⟩ := pointed_of_mapM hs.datas hloop
  refine ⟨hs.bucket, ?_, fun c hc => ?_⟩
  · rw [← hs.length, ← hlength, List.length_map]
  · obtain ⟨answer, hanswer, rfl⟩ := List.mem_map.mp hc
    exact hpointed answer hanswer

end Sound

/-- The operation of one cache. -/
def Call.operation : Call V → TimedCache.Operation Int V
  | .set k v ts now node => .set k v ts now node
  | .expired k ts now node => .expired k ts now node
  | .get k _ => .get k
  | .getValue k => .getValue k
  | .del k returned => .del k returned
  | .existsKey k => .existsKey k
  | .clear => .clear
  | .checkTimeout ts => .checkTimeout ts

/-- A new item is not where another one is, of whatever cache. -/
def Allocates (h : HashTimedCache V) (op : Call V) : Prop :=
  ∀ c ∈ h.datas, TimedCache.Allocates c op.operation

instance (h : HashTimedCache V) (op : Call V) : Decidable (Allocates h op) :=
  inferInstanceAs (Decidable (∀ c ∈ h.datas, TimedCache.Allocates c op.operation))

variable [Inhabited V] {truth : V → Bool} {op : Call V}

theorem Sound.perform {answer : Result V} (hs : h.Sound) (hallocates : Allocates h op)
    (hperform : h.perform truth op = some (answer, h')) : h'.Sound := by
  cases op with
  | set k v expired now node =>
      obtain ⟨⟨removed, h₁⟩, hset, heq⟩ := Option.map_eq_some_iff.mp hperform
      cases heq
      apply hs.onShard hset
      intro c hc removed c' hcall
      exact ((hs.datas c hc).set (hallocates c hc) hcall).1
  | expired k ts now node =>
      obtain ⟨⟨found, h₁⟩, hexpired, heq⟩ := Option.map_eq_some_iff.mp hperform
      cases heq
      apply hs.onShard hexpired
      intro c hc found c' hcall
      exact ((hs.datas c hc).expired (hallocates c hc) hcall).1
  | get k v =>
      obtain ⟨⟨⟨found, v'⟩, h₁⟩, hget, heq⟩ := Option.map_eq_some_iff.mp hperform
      cases heq
      obtain ⟨⟨value, h₂⟩, hvalue, heq⟩ := Option.map_eq_some_iff.mp hget
      cases heq
      apply hs.onShard hvalue
      intro c hc value c' hcall
      exact ((hs.datas c hc).getValue hcall).1
  | getValue k =>
      obtain ⟨⟨value, h₁⟩, hvalue, heq⟩ := Option.map_eq_some_iff.mp hperform
      cases heq
      apply hs.onShard hvalue
      intro c hc value c' hcall
      exact ((hs.datas c hc).getValue hcall).1
  | del k returned =>
      obtain ⟨⟨deleted, h₁⟩, hdel, heq⟩ := Option.map_eq_some_iff.mp hperform
      cases heq
      apply hs.onShard hdel
      intro c hc deleted c' hcall
      exact ((hs.datas c hc).del hcall).1
  | existsKey k =>
      obtain ⟨⟨present, h₁⟩, hexists, heq⟩ := Option.map_eq_some_iff.mp hperform
      cases heq
      apply hs.onShard hexists
      intro c hc present c' hcall
      cases hcall
      exact hs.datas c hc
  | clear =>
      cases hperform
      exact hs.clear
  | checkTimeout ts =>
      obtain ⟨⟨removed, h₁⟩, hcheck, heq⟩ := Option.map_eq_some_iff.mp hperform
      cases heq
      exact hs.checkTimeout hcheck

/-! ## The map of the caches -/

/-- What the cache of the key holds for it. -/
def holds (h : HashTimedCache V) (k : Int) : Option V :=
  (h.datas[(h.index k).toNat]?).bind fun c => TimedCache.holds c k

/-- The values of the latest `set`s are remembered. -/
def call (truth : V → Bool) (s : HashTimedCache V × (Int → Option V)) (op : Call V) :
    Option (HashTimedCache V × (Int → Option V)) :=
  (s.1.perform truth op).map fun (_, h) =>
    (h, match op with
      | .set k v _ _ _ => Function.update s.2 k (some v)
      | _ => s.2)

/-- The call is that of the map of the caches, and `get(k, v)` finds the value of the latest `set`
exactly if the key is there. -/
def Right (truth : V → Bool) (s : HashTimedCache V × (Int → Option V)) (op : Call V) : Prop :=
  s.1.perform truth op = s.1.reference op ∧
    ∀ k v, op = .get k v → ∃ found v' h', s.1.perform truth op = some (.got found v', h') ∧
      (found = true ↔ (s.1.holds k).isSome) ∧ (found = true → s.2 k = some v')

/-- `set` finds the cache of the key.  `get(k, v)` reads a key that is not there, and `V()`
converts to `false`, or a value that converts to `true`, is that of the latest `set`, and is in `v`
already. -/
def Routed (truth : V → Bool) (s : HashTimedCache V × (Int → Option V)) : Call V → Prop
  | .set k _ _ _ _ => s.1.hash (s.1.keys.rem k s.1.bucket) = s.1.index k
  | .get k v =>
      match s.1.holds k with
      | none => truth default = false
      | some value => truth value = true ∧ s.2 k = some value ∧ v = value
  | _ => True

/-! ## One call -/

omit [Inhabited V] in
theorem onShard_eq {α : Type*} {c : TimedCache Int V} {i : UInt64}
    (hc : h.datas[i.toNat]? = some c)
    (operation : TimedCache Int V → Option (α × TimedCache Int V)) :
    h.onShard i operation = (operation c).map fun (answer, c') =>
      (answer, { h with datas := h.datas.set i.toNat c' }) := by
  rw [onShard, hc]

omit [Inhabited V] in
/-- The same `set` of two caches does not leave the same behind. -/
theorem onShard_set_ne {i : UInt64} {node : Nat} (hs : h.Sound)
    (hfresh : ∀ c ∈ h.datas, node ∉ c.timed.map Node.address) (hne : i ≠ h.index k) (v : V)
    (ts now : UInt64) :
    h.onShard i (fun c => c.set k v ts now node) ≠
      h.onShard (h.index k) fun c => c.set k v ts now node := by
  obtain ⟨c, hc, hmem, hpointed⟩ := hs.shard k
  obtain ⟨removed, c', hset, hcount⟩ :=
    hpointed.exists_set k now (hfresh c hmem) v ts
  intro heq
  rw [onShard_eq hc, hset, onShard] at heq
  split at heq
  · cases heq
  · next d hd =>
      obtain ⟨⟨others, d'⟩, -, heq⟩ := Option.map_eq_some_iff.mp heq
      have hdatas : h.datas.set i.toNat d' = h.datas.set (h.index k).toNat c' :=
        congrArg (fun r => r.2.datas) heq
      have hlt : (h.index k).toNat < h.datas.length := (List.getElem?_eq_some_iff.mp hc).1
      have hother : i.toNat ≠ (h.index k).toNat := fun hsame => hne (UInt64.toNat_inj.mp hsame)
      -- The one leaves the cache of the key as it is, and the other counts in it.
      have hsame : some c = some c' := by
        rw [← hc, ← List.getElem?_set_self (a := c') hlt, ← hdatas, List.getElem?_set_ne hother]
      cases hsame
      simp at hcount

/-- What `get(k, v)` does, and what it should do. -/
theorem get_spec (hs : h.Sound) (truth : V → Bool) (k : Int) (v : V) :
    ∃ h', h.perform truth (.get k v) =
        some (.got (truth ((h.holds k).getD default)) v, h') ∧
      h.reference (.get k v) =
        some (.got (h.holds k).isSome ((h.holds k).getD v), h') := by
  obtain ⟨c, hc, -, hpointed⟩ := hs.shard k
  obtain ⟨c', hget⟩ := hpointed.get_eq k
  have hholds : h.holds k = c.holds k := by rw [holds, hc, Option.bind_some]
  refine ⟨{ h with datas := h.datas.set (h.index k).toNat c' }, ?_, ?_⟩
  · simp [perform, get, onShard_eq hc, TimedCache.getValue_eq, hget, hholds]
  · simp [reference, onShard_eq hc, hget, hholds]

/-- **One call.** -/
theorem right_iff {s : HashTimedCache V × (Int → Option V)} (hs : s.1.Sound)
    (hallocates : Allocates s.1 op) : Right truth s op ↔ Routed truth s op := by
  obtain ⟨h, latest⟩ := s
  cases op with
  | set k v ts now node =>
      constructor
      · rintro ⟨hsame, -⟩
        by_contra hne
        refine onShard_set_ne hs hallocates hne v ts now (Option.map_injective ?_ hsame)
        rintro ⟨removed, h₁⟩ ⟨others, h₂⟩ heq
        cases heq
        rfl
      · intro hsame
        refine ⟨?_, fun k' v' heq => nomatch heq⟩
        show (h.onShard (h.hash (h.keys.rem k h.bucket)) _).map _ = _
        rw [show h.hash (h.keys.rem k h.bucket) = h.index k from hsame]
        rfl
  | get k v =>
      obtain ⟨h', hperform, hreference⟩ := get_spec hs truth k v
      unfold Right Routed
      simp only at hperform hreference ⊢
      rw [hperform, hreference]
      cases hholds : h.holds k with
      | none =>
          simp only
          constructor
          · rintro ⟨hsame, -⟩
            simpa [hholds] using hsame
          · intro hfalse
            refine ⟨by simp [hfalse], fun k' v' heq => ?_⟩
            cases heq
            exact ⟨_, _, _, rfl, by simp [hfalse, hholds]⟩
      | some value =>
          simp only
          constructor
          · rintro ⟨hsame, hlast⟩
            obtain ⟨found, v', h₁, heq, hfound, hlatest⟩ := hlast k v rfl
            cases heq
            simp only [hholds, Option.isSome_some, iff_true, Option.getD_some] at hfound hlatest
            obtain ⟨-, rfl⟩ : truth value = true ∧ v = value := by simpa using hsame
            exact ⟨hfound, hlatest hfound, rfl⟩
          · rintro ⟨htrue, hlatest, rfl⟩
            refine ⟨by simp [htrue], fun k' v' heq => ?_⟩
            cases heq
            exact ⟨_, _, _, rfl, by simp [htrue, hholds, hlatest]⟩
  | expired k ts now node => exact iff_of_true ⟨rfl, fun k' v' heq => nomatch heq⟩ trivial
  | getValue k => exact iff_of_true ⟨rfl, fun k' v' heq => nomatch heq⟩ trivial
  | del k returned => exact iff_of_true ⟨rfl, fun k' v' heq => nomatch heq⟩ trivial
  | existsKey k => exact iff_of_true ⟨rfl, fun k' v' heq => nomatch heq⟩ trivial
  | clear => exact iff_of_true ⟨rfl, fun k' v' heq => nomatch heq⟩ trivial
  | checkTimeout ts => exact iff_of_true ⟨rfl, fun k' v' heq => nomatch heq⟩ trivial

/-! ## Runs -/

/-- **`HashTimed_Cache` and the map of its caches.**  In a sequence of calls on a new cache every
call is right exactly if every call is routed. -/
theorem hashTimed_iff (truth : V → Bool) {keys : IntegralType} {hash : Int → UInt64}
    {bucket max_size elasticity : UInt64}
    (hnew : new keys hash bucket max_size elasticity = some h) (ops : List (Call V))
    (hallocates : runMeets (call truth) (fun s => Allocates s.1) ops (h, fun _ => none)) :
    runMeets (call truth) (Right truth) ops (h, fun _ => none) ↔
      runMeets (call truth) (Routed truth) ops (h, fun _ => none) := by
  apply runMeets_congr (I := fun s => s.1.Sound) ?_ ?_ ops (.new hnew) hallocates
  · intro s s' op hs hallocates hcall
    obtain ⟨⟨answer, h'⟩, hperform, rfl⟩ := Option.map_eq_some_iff.mp hcall
    exact hs.perform hallocates hperform
  · intro s op hs hallocates
    exact right_iff hs hallocates

/-! ## A number that is set and read -/

/-- The type `int`. -/
def int : IntegralType := ⟨32, true⟩

/-- Two caches for numbers, each its own hash; as values they are all `true` but zero. -/
def numbers : Option (HashTimedCache Int) := new int UInt64.ofInt 2 30 10

/-- A value is set and read into a zero. -/
def setThenGet : List (Call Int) := [.set 1 10 100 0 0, .get 1 0]

/-- How the two calls go: whether the item is new, and what is read and should be. -/
theorem numbers_setThenGet : (numbers.map fun h =>
    (decide (runMeets (call (· != 0)) (fun s => Allocates s.1) setThenGet (h, fun _ => none)),
      (call (· != 0) (h, fun _ => none) (.set 1 10 100 0 0)).map fun s =>
        ((s.1.perform (· != 0) (.get 1 0)).map Prod.fst,
          (s.1.reference (.get 1 0)).map Prod.fst))) =
      some (true, some (some (.got true 0), some (.got true 10))) := by
  decide +kernel

theorem hashTimed_iff_setThenGet : ∃ h, new int UInt64.ofInt 2 30 10 = some h ∧
    (runMeets (call (· != 0)) (Right (· != 0)) setThenGet (h, fun _ => none) ↔
      runMeets (call (· != 0)) (Routed (· != 0)) setThenGet (h, fun _ => none)) := by
  obtain ⟨h, hnew, heq⟩ := Option.map_eq_some_iff.mp numbers_setThenGet
  exact ⟨h, hnew, hashTimed_iff (· != 0) hnew setThenGet
    (of_decide_eq_true (Prod.mk.inj heq).1)⟩

/-- **`get(k, v)` leaves the zero where it was.** -/
theorem not_right_setThenGet : ∃ h, new int UInt64.ofInt 2 30 10 = some h ∧
    runMeets (call (· != 0)) (fun s => Allocates s.1) setThenGet (h, fun _ => none) ∧
      ¬ runMeets (call (· != 0)) (Right (· != 0)) setThenGet (h, fun _ => none) := by
  obtain ⟨h, hnew, heq⟩ := Option.map_eq_some_iff.mp numbers_setThenGet
  obtain ⟨hallocates, hcalls⟩ := Prod.mk.inj heq
  refine ⟨h, hnew, of_decide_eq_true hallocates, fun hright => ?_⟩
  obtain ⟨s, hset, hreads⟩ := Option.map_eq_some_iff.mp hcalls
  obtain ⟨hperform, hreference⟩ := Prod.mk.inj hreads
  obtain ⟨-, ⟨hsame, -⟩, -⟩ := (runMeets_cons hset).mp hright
  rw [hsame, hreference] at hperform
  exact absurd hperform (by decide)

end HashTimedCache
end Ds
end Routn
