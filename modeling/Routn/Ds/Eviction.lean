import Routn.Ds.Recency
import Routn.Foundation.Transition

/-!
# `LRU_Cache` is the least-recently-used list

`Represents` says that the entries of `_cache` point to the nodes of `_keys`, one for each, and that
the nodes hold the pairs of the reference list in its order.  Each operation keeps it and answers
what the reference answers.
-/

namespace Routn
namespace Ds

open Foundation

namespace LRUCache

variable {K V : Type*} [DecidableEq K]

structure Represents (c : LRUCache K V) (r : Recency K V) : Prop where
  indexes : Indexes Prod.fst c.cache c.keys
  agrees : Recency.Agrees (c.keys.map Node.item) r

variable {c c' : LRUCache K V} {r : Recency K V} {k : K} {it : Nat}

namespace Represents

theorem new (max_size elasticity : UInt64) (callback : Bool) :
    (LRUCache.new max_size elasticity callback : LRUCache K V).Represents Recency.empty :=
  ⟨.empty, .empty⟩

/-- Both know the same keys. -/
theorem isSome_lookup (h : c.Represents r) (k : K) :
    (c.cache.lookup k).isSome = (r.content k).isSome := by
  rw [Bool.eq_iff_iff, Option.isSome_iff_exists, Option.isSome_iff_exists]
  simp only [h.indexes.lookup, h.agrees.content, List.mem_map]
  constructor
  · rintro ⟨it, node, hnode, -, rfl⟩
    exact ⟨node.item.2, node, hnode, rfl⟩
  · rintro ⟨v, node, hnode, hitem⟩
    exact ⟨node.address, node, hnode, rfl, by rw [hitem]⟩

theorem content_eq_none (h : c.Represents r) (hlookup : c.cache.lookup k = none) :
    r.content k = none := by
  have hsome := h.isSome_lookup k
  rw [hlookup] at hsome
  exact Option.not_isSome_iff_eq_none.mp (by simp [← hsome])

/-- What an entry points to is taken out of its place. -/
theorem unlink (h : c.Represents r) (hlookup : c.cache.lookup k = some it) :
    ∃ v front back, Foundation.unlink it c.keys = some (⟨it, (k, v)⟩, front ++ back) ∧
      c.keys = front ++ ⟨it, (k, v)⟩ :: back ∧ r.content k = some v := by
  obtain ⟨⟨address, key, v⟩, rest, hunlink, rfl⟩ := h.indexes.unlink hlookup
  obtain ⟨rfl, front, back, hkeys, rfl⟩ := split_of_unlink hunlink
  refine ⟨v, front, back, hunlink, hkeys, (h.agrees.content key v).mpr ?_⟩
  rw [hkeys]
  simp

end Represents

/-! ## `prune` -/

/-- What is left of a list when it is cut down from the back, and what is cut off. -/
theorem cut_reverse {α : Type*} (l : List α) (n : Nat) :
    (l.reverse.drop (l.length - n)).reverse = l.take n ∧
      l.reverse.take (l.length - n) = (l.drop n).reverse := by
  rw [List.drop_reverse, List.take_reverse, List.reverse_reverse]
  rcases Nat.le_total n l.length with hle | hle
  · rw [Nat.sub_sub_self hle]
    exact ⟨rfl, rfl⟩
  · rw [Nat.sub_eq_zero_of_le hle, Nat.sub_zero, List.take_of_length_le hle,
      List.drop_of_length_le hle]
    exact ⟨List.take_length, by rw [List.drop_length]⟩

/-- `prune` lets the cache grow, or evicts. -/
theorem prune_spec (h : c.Represents r) :
    ((c.maxSize = 0 ∨ c.keys.length < c.getMaxAllowedSize.toNat) ∧ c.prune = some ([], c)) ∨
      (¬ (c.maxSize = 0 ∨ c.keys.length < c.getMaxAllowedSize.toNat) ∧
        ∃ cache', c.prune = some ((r.evict c.maxSize.toNat).1, { c with
            cache := cache'
            keys := c.keys.take c.maxSize.toNat
            status := c.status.incPrune (r.evict c.maxSize.toNat).1.length }) ∧
          Indexes Prod.fst cache' (c.keys.take c.maxSize.toNat) ∧
          Recency.Agrees ((c.keys.take c.maxSize.toNat).map Node.item)
            (r.evict c.maxSize.toNat).2) := by
  rw [prune, h.indexes.size_eq]
  split
  · next hfew => exact .inl ⟨hfew, rfl⟩
  · next hfull =>
      obtain ⟨cache', hloop, hindexes⟩ :=
        (h.indexes.perm (List.reverse_perm c.keys).symm).shrink c.maxSize.toNat
      obtain ⟨hevicted, hagrees⟩ := h.agrees.evict c.maxSize.toNat
      obtain ⟨hleft, hcut⟩ := cut_reverse c.keys c.maxSize.toNat
      rw [List.length_reverse] at hloop hindexes
      rw [hloop, hcut, hevicted, List.map_take]
      refine .inr ⟨hfull, cache', ?_, ?_, hagrees⟩
      · simp only [Option.map_some, hleft, List.map_reverse, List.map_drop]
      · rw [← hleft]
        exact hindexes.perm (List.reverse_perm _).symm

/-! ## Operations -/

/-- The new list node is not where one is that the list holds. -/
def Legal (c : LRUCache K V) : Operation K V → Prop
  | .set _ _ node => node ∉ c.keys.map Node.address
  | _ => True

/-- Unless it is unlimited, the cache has room for the elasticity at most. -/
def Bounded (c : LRUCache K V) : Prop :=
  c.maxSize ≠ 0 → c.cache.size ≤ c.maxSize.toNat + c.elasticity.toNat

/-- The cache with a new pair, before `prune`. -/
def push (c : LRUCache K V) (k : K) (v : V) (node : Nat) : LRUCache K V :=
  { c with
    keys := ⟨node, (k, v)⟩ :: c.keys
    cache := c.cache.emplace k node
    status := c.status.incSet }

theorem set_of_lookup_eq_none {v : V} {node : Nat} (hlookup : c.cache.lookup k = none) :
    c.set k v node = (c.push k v node).prune.map fun (removed, c) =>
      (if c.callback then removed else [], c) := by
  simp only [set, hlookup]
  rfl

theorem Represents.push (h : c.Represents r) {v : V} {node : Nat}
    (hlegal : node ∉ c.keys.map Node.address) (hlookup : c.cache.lookup k = none) :
    (c.push k v node).Represents
      ⟨Function.update r.content k (some v), k :: r.recency⟩ where
  indexes := h.indexes.cons (k, v) hlegal hlookup
  agrees := h.agrees.push (h.content_eq_none hlookup) v

omit [DecidableEq K] in
theorem getMaxAllowedSize_le (c : LRUCache K V) :
    c.getMaxAllowedSize.toNat ≤ c.maxSize.toNat + c.elasticity.toNat := by
  rw [getMaxAllowedSize, UInt64.toNat_add]
  exact Nat.mod_le ..

theorem set_spec (h : c.Represents r) {v : V} {node : Nat}
    (hlegal : node ∉ c.keys.map Node.address) (hbounded : c.Bounded) :
    ∃ c', c.set k v node = some (if c.callback then
        (r.set c.maxSize.toNat c.getMaxAllowedSize.toNat k v).1 else [], c') ∧
      c'.Represents (r.set c.maxSize.toNat c.getMaxAllowedSize.toNat k v).2 ∧ c'.Bounded := by
  cases hlookup : c.cache.lookup k with
  | some it =>
      obtain ⟨w, front, back, hunlink, hkeys, hcontent⟩ := h.unlink hlookup
      rw [Recency.set, hcontent]
      refine ⟨{ c with keys := ⟨it, (k, v)⟩ :: (front ++ back), status := c.status.incSet },
        by simp [set, hlookup, spliceFront, hunlink], ⟨?_, ?_⟩, hbounded⟩
      · exact (h.indexes.perm (hkeys ▸ List.perm_middle)).update (k, v) rfl
      · have hagrees := h.agrees
        rw [hkeys, List.map_append, List.map_cons] at hagrees
        simpa [Recency.touch] using hagrees.move v
  | none =>
      have hpush := h.push (v := v) hlegal hlookup
      have hlength : (k :: r.recency).length = (c.push k v node).keys.length := by
        rw [h.agrees.recency]
        simp [LRUCache.push]
      rw [set_of_lookup_eq_none hlookup, Recency.set, h.content_eq_none hlookup]
      simp only [Option.isSome_none, Bool.false_eq_true, if_false, hlength]
      have hcond : (c.maxSize.toNat = 0 ∨
          (c.push k v node).keys.length < c.getMaxAllowedSize.toNat) ↔
          ((c.push k v node).maxSize = 0 ∨
            (c.push k v node).keys.length < (c.push k v node).getMaxAllowedSize.toNat) :=
        or_congr_left (UInt64.toNat_inj (b := 0))
      rcases prune_spec hpush with ⟨hfew, hprune⟩ | ⟨hfull, cache', hprune, hindexes, hagrees⟩
      · rw [hprune, if_pos (hcond.mpr hfew)]
        refine ⟨c.push k v node, by simp, hpush, fun hlimited => ?_⟩
        have hlt := hfew.resolve_left hlimited
        have hle := c.getMaxAllowedSize_le
        rw [hpush.indexes.size_eq]
        exact (Nat.le_of_lt hlt).trans hle
      · rw [hprune, if_neg (fun hfew => hfull (hcond.mp hfew))]
        refine ⟨_, rfl, ⟨hindexes, hagrees⟩, fun _ => ?_⟩
        rw [hindexes.size_eq]
        exact (List.length_take_le ..).trans (Nat.le_add_right ..)

/-- A node moves to the front, and its value is read. -/
theorem spliceFront_spec (h : c.Represents r) (hlookup : c.cache.lookup k = some it) :
    ∃ v keys, spliceFront c.keys it none = some (v, keys) ∧ r.content k = some v ∧
      Indexes Prod.fst c.cache keys ∧ Recency.Agrees (keys.map Node.item) (r.touch k) := by
  obtain ⟨v, front, back, hunlink, hkeys, hcontent⟩ := h.unlink hlookup
  refine ⟨v, ⟨it, (k, v)⟩ :: (front ++ back), by simp [spliceFront, hunlink], hcontent,
    h.indexes.perm (hkeys ▸ List.perm_middle), ?_⟩
  have hagrees := h.agrees
  rw [hkeys, List.map_append, List.map_cons] at hagrees
  simpa using hagrees.touch

theorem get_spec (h : c.Represents r) (hbounded : c.Bounded) (k : K) :
    ∃ c', c.get k = some ((r.get k).1, c') ∧ c'.Represents (r.get k).2 ∧ c'.Bounded := by
  cases hlookup : c.cache.lookup k with
  | some it =>
      obtain ⟨v, keys, hsplice, hcontent, hindexes, hagrees⟩ := spliceFront_spec h hlookup
      rw [Recency.get, hcontent]
      exact ⟨{ c with keys := keys, status := c.status.incGet.incHit },
        by simp [get, hlookup, hsplice], ⟨hindexes, hagrees⟩, hbounded⟩
  | none =>
      rw [Recency.get, h.content_eq_none hlookup]
      exact ⟨{ c with status := c.status.incGet }, by simp [get, hlookup],
        ⟨h.indexes, h.agrees⟩, hbounded⟩

/-- The two overloads differ in what they answer for a key that is not there. -/
theorem getValue_eq [Inhabited V] (c : LRUCache K V) (k : K) :
    c.getValue k = (c.get k).map fun (v, c) => (v.getD default, c) := by
  cases hlookup : c.cache.lookup k with
  | none => simp [getValue, get, hlookup]
  | some it =>
      simp only [getValue, get, hlookup, Option.map_map]
      rfl

theorem del_spec (h : c.Represents r) (hbounded : c.Bounded) (k : K) :
    ∃ c', c.del k = some ((r.del k).1, c') ∧ c'.Represents (r.del k).2 ∧ c'.Bounded := by
  cases hlookup : c.cache.lookup k with
  | none =>
      rw [h.agrees.del_eq (h.content_eq_none hlookup)]
      exact ⟨{ c with status := c.status.incDel }, by simp [del, hlookup],
        ⟨h.indexes, h.agrees⟩, hbounded⟩
  | some it =>
      obtain ⟨v, front, back, hunlink, hkeys, hcontent⟩ := h.unlink hlookup
      have htail := (h.indexes.perm (hkeys ▸ List.perm_middle)).tail
      rw [Recency.del, hcontent]
      refine ⟨{ c with
          keys := front ++ back, cache := c.cache.erase k, status := c.status.incDel },
        by simp [del, hlookup, hunlink], ⟨htail, ?_⟩, fun hlimited => ?_⟩
      · have hagrees := h.agrees
        rw [hkeys, List.map_append, List.map_cons] at hagrees
        simpa using hagrees.remove
      · have hsize := hbounded hlimited
        rw [h.indexes.size_eq, hkeys] at hsize
        rw [htail.size_eq]
        simp only [List.length_append, List.length_cons] at hsize ⊢
        omega

/-! ## Runs -/

variable [Inhabited V]

/-- The cache and the reference list serve the same operation. -/
def jointly (s : LRUCache K V × Recency K V) (op : Operation K V) :
    Option ((Answer K V × Answer K V) × LRUCache K V × Recency K V) :=
  let (answer', r) :=
    s.2.perform s.1.maxSize.toNat s.1.getMaxAllowedSize.toNat s.1.callback op
  (s.1.perform op).map fun (answer, c) => ((answer, answer'), (c, r))

/-- What holds between two operations. -/
def Sound (s : LRUCache K V × Recency K V) : Prop := s.1.Represents s.2 ∧ s.1.Bounded

theorem jointly_sound {s : LRUCache K V × Recency K V} {op : Operation K V} (h : Sound s)
    (hlegal : s.1.Legal op) :
    ∃ answers s', jointly s op = some (answers, s') ∧ answers.1 = answers.2 ∧ Sound s' := by
  obtain ⟨c, r⟩ := s
  obtain ⟨h, hbounded⟩ := h
  cases op with
  | set k v node =>
      obtain ⟨c', hset, hrep, hbounded'⟩ := set_spec h (k := k) (v := v) hlegal hbounded
      exact ⟨_, (c', _), by simp only [jointly, perform, hset]; rfl, rfl, hrep, hbounded'⟩
  | get k =>
      obtain ⟨c', hget, hrep, hbounded'⟩ := get_spec h hbounded k
      exact ⟨_, (c', _), by simp only [jointly, perform, hget]; rfl, rfl, hrep, hbounded'⟩
  | getValue k =>
      obtain ⟨c', hget, hrep, hbounded'⟩ := get_spec h hbounded k
      exact ⟨_, (c', _), by simp only [jointly, perform, getValue_eq, hget]; rfl, rfl, hrep,
        hbounded'⟩
  | del k =>
      obtain ⟨c', hdel, hrep, hbounded'⟩ := del_spec h hbounded k
      exact ⟨_, (c', _), by simp only [jointly, perform, hdel]; rfl, rfl, hrep, hbounded'⟩
  | existsKey k =>
      exact ⟨_, (c, r), rfl, by simp [existsKey, h.isSome_lookup], h, hbounded⟩
  | clear =>
      refine ⟨_, (c.clear.2, .empty), rfl, rfl, ⟨.empty, .empty⟩, fun _ => ?_⟩
      exact Nat.zero_le _

/-- No operation fails, and none loses what it relies on. -/
theorem perform_sound (h : c.Represents r) (hbounded : c.Bounded) {op : Operation K V}
    (hlegal : c.Legal op) :
    ∃ answer c', c.perform op = some (answer, c') ∧ (∃ r', c'.Represents r') ∧ c'.Bounded := by
  obtain ⟨answers, ⟨c', r'⟩, hjoint, -, hrep, hbounded'⟩ :=
    jointly_sound (s := (c, r)) ⟨h, hbounded⟩ hlegal
  obtain ⟨⟨answer, c''⟩, hperform, heq⟩ := Option.map_eq_some_iff.mp hjoint
  obtain ⟨-, rfl, -⟩ : _ ∧ c'' = c' ∧ _ := by simpa using heq
  exact ⟨answer, c'', hperform, ⟨r', hrep⟩, hbounded'⟩

/-- **`LRU_Cache` refines the least-recently-used list.**  In every sequence of operations on a new
cache no operation fails; before and after each one the entries of the map and the nodes of the list
are in bijection, the nodes hold the pairs of the reference in the order of their last use, and a
limited cache does not exceed its bound; and the operations answer what the reference answers, with
one call of the prune callback for each pair that it evicts. -/
theorem lru_refines (max_size elasticity : UInt64) (callback : Bool)
    (ops : List (Operation K V)) :
    runKeeps jointly (fun s op => s.1.Legal op) Sound (fun _ _ answers _ => answers.1 = answers.2)
      ops (new max_size elasticity callback, Recency.empty) :=
  runKeeps_of_step (fun h => h) (fun h hlegal => jointly_sound h hlegal) ops
    ⟨.new max_size elasticity callback, fun _ => Nat.zero_le _⟩

end LRUCache
end Ds
end Routn
