import Routn.Ds.LRUCache

/-!
# The least-recently-used list

What `LRU_Cache` is for: a map from keys to values, and the keys in the order in which they were
used last.  `Agrees` says that a list of pairs holds both.
-/

namespace Routn
namespace Ds

variable {K V : Type*}

/-- `content`: the value that was set last, unless the key has been deleted or evicted since then.
`recency`: the keys that have one, the most recently used first. -/
structure Recency (K V : Type*) where
  content : K → Option V
  recency : List K

namespace Recency

def empty : Recency K V := ⟨fun _ => none, []⟩

/-! ## Lists of pairs -/

/-- The pairs in the order of their last use. -/
structure Agrees (pairs : List (K × V)) (r : Recency K V) : Prop where
  nodup : (pairs.map Prod.fst).Nodup
  recency : r.recency = pairs.map Prod.fst
  content : ∀ k v, r.content k = some v ↔ (k, v) ∈ pairs

namespace Agrees

variable {r : Recency K V} {pairs : List (K × V)} {k : K}

theorem empty : Agrees ([] : List (K × V)) Recency.empty where
  nodup := .nil
  recency := rfl
  content k v := by simp [Recency.empty]

theorem content_of_mem (h : Agrees pairs r) {pair : K × V} (hpair : pair ∈ pairs) :
    r.content pair.1 = some pair.2 :=
  (h.content pair.1 pair.2).mpr hpair

theorem content_eq_none (h : Agrees pairs r) : r.content k = none ↔ k ∉ pairs.map Prod.fst := by
  rw [Option.eq_none_iff_forall_ne_some]
  simp only [ne_eq, h.content, List.mem_map, Prod.exists, exists_and_right, exists_eq_right,
    not_exists]

theorem mem_drop_iff (h : Agrees pairs r) {n : Nat} :
    k ∈ r.recency.drop n ↔ ∃ v, (k, v) ∈ pairs.drop n := by
  rw [h.recency, ← List.map_drop, List.mem_map]
  simp

end Agrees

variable [DecidableEq K]

/-! ## Operations -/

/-- The key is used. -/
def touch (r : Recency K V) (k : K) : Recency K V := { r with recency := k :: r.recency.erase k }

/-- Only the keys that were used last are kept.  The evicted pairs come out with the least recently
used one first. -/
def evict (r : Recency K V) (n : Nat) : List (K × V) × Recency K V :=
  let gone := (r.recency.drop n).reverse
  (gone.filterMap fun k => (r.content k).map (k, ·),
    ⟨fun k => if k ∈ gone then none else r.content k, r.recency.take n⟩)

/-- Eviction waits until there are `allowed` keys, and never comes when `max_size` is zero. -/
def set (r : Recency K V) (max_size allowed : Nat) (k : K) (v : V) :
    List (K × V) × Recency K V :=
  let content := Function.update r.content k (some v)
  if (r.content k).isSome then ([], { r.touch k with content := content })
  else
    let r := ⟨content, k :: r.recency⟩
    if max_size = 0 ∨ r.recency.length < allowed then ([], r) else r.evict max_size

def get (r : Recency K V) (k : K) : Option V × Recency K V :=
  (r.content k, if (r.content k).isSome then r.touch k else r)

def del (r : Recency K V) (k : K) : Bool × Recency K V :=
  ((r.content k).isSome, ⟨Function.update r.content k none, r.recency.erase k⟩)

/-- What the operations answer.  `callback`: evictions are reported. -/
def perform [Inhabited V] (max_size allowed : Nat) (callback : Bool) (r : Recency K V) :
    Operation K V → Answer K V × Recency K V
  | .set k v _ =>
      (.calls (if callback then (r.set max_size allowed k v).1 else []),
        (r.set max_size allowed k v).2)
  | .get k => (.found (r.get k).1, (r.get k).2)
  | .getValue k => (.value ((r.get k).1.getD default), (r.get k).2)
  | .del k => (.flag (r.del k).1, (r.del k).2)
  | .existsKey k => (.flag (r.content k).isSome, r)
  | .clear => (.flag true, empty)

/-! ## Moving pairs -/

namespace Agrees

variable {r : Recency K V} {pairs front back : List (K × V)} {k : K} {v : V}

/-- The keys without the one of a pair. -/
theorem erase_eq (h : Agrees (front ++ (k, v) :: back) r) :
    r.recency.erase k = (front ++ back).map Prod.fst := by
  have hnodup := h.nodup
  rw [List.map_append, List.map_cons, List.nodup_middle] at hnodup
  have hfront : k ∉ front.map Prod.fst :=
    fun hin => (List.nodup_cons.mp hnodup).1 (List.mem_append_left _ hin)
  rw [h.recency, List.map_append, List.map_cons, List.erase_append_right _ hfront,
    List.erase_cons_head, List.map_append]

/-- A pair goes out. -/
theorem remove (h : Agrees (front ++ (k, v) :: back) r) :
    Agrees (front ++ back) ⟨Function.update r.content k none, r.recency.erase k⟩ where
  nodup := by
    have hnodup := h.nodup
    rw [List.map_append, List.map_cons, List.nodup_middle, ← List.map_append] at hnodup
    exact (List.nodup_cons.mp hnodup).2
  recency := h.erase_eq
  content k' v' := by
    have hnodup := h.nodup
    rw [List.map_append, List.map_cons, List.nodup_middle, ← List.map_append] at hnodup
    have hfresh := (List.nodup_cons.mp hnodup).1
    show Function.update r.content k none k' = some v' ↔ _
    by_cases heq : k' = k
    · subst heq
      rw [Function.update_self]
      exact iff_of_false (by simp) fun hin => hfresh (List.mem_map.mpr ⟨_, hin, rfl⟩)
    · rw [Function.update_of_ne heq, h.content]
      simp [heq]

/-- There is nothing to delete. -/
theorem del_eq (h : Agrees pairs r) (hnone : r.content k = none) : r.del k = (false, r) := by
  have hout := h.content_eq_none.mp hnone
  rw [← h.recency] at hout
  rw [del, hnone, ← hnone, Function.update_eq_self, List.erase_of_not_mem hout, hnone]
  rfl

/-- A pair with a new key comes in at the front. -/
theorem push (h : Agrees pairs r) (hnew : r.content k = none) (v : V) :
    Agrees ((k, v) :: pairs) ⟨Function.update r.content k (some v), k :: r.recency⟩ where
  nodup := List.nodup_cons.mpr ⟨h.content_eq_none.mp hnew, h.nodup⟩
  recency := by rw [h.recency, List.map_cons]
  content k' v' := by
    show Function.update r.content k (some v) k' = some v' ↔ _
    by_cases heq : k' = k
    · subst heq
      have hout : (k', v') ∉ pairs := fun hin => by
        rw [h.content_of_mem hin] at hnew
        cases hnew
      rw [Function.update_self]
      simp [hout, eq_comm]
    · rw [Function.update_of_ne heq, h.content]
      simp [heq]

/-- A pair moves to the front with a new value. -/
theorem move (h : Agrees (front ++ (k, v) :: back) r) (w : V) :
    Agrees ((k, w) :: (front ++ back))
      ⟨Function.update r.content k (some w), k :: r.recency.erase k⟩ := by
  have hmove := h.remove.push (k := k) (Function.update_self ..) w
  rwa [Function.update_idem] at hmove

/-- A pair moves to the front. -/
theorem touch (h : Agrees (front ++ (k, v) :: back) r) :
    Agrees ((k, v) :: (front ++ back)) (r.touch k) := by
  have hmove := h.move v
  have hsame : r.content k = some v :=
    h.content_of_mem (List.mem_append_right front List.mem_cons_self)
  rwa [← hsame, Function.update_eq_self] at hmove

/-- What is evicted stands at the back of the list. -/
theorem evict (h : Agrees pairs r) (n : Nat) :
    (r.evict n).1 = (pairs.drop n).reverse ∧ Agrees (pairs.take n) (r.evict n).2 := by
  have hnodup := h.nodup
  rw [← List.take_append_drop n pairs, List.map_append, List.nodup_append] at hnodup
  obtain ⟨htake, -, hdisjoint⟩ := hnodup
  refine ⟨?_, htake, ?_, fun k v => ?_⟩
  · have hpairs : ∀ pair ∈ (pairs.drop n).reverse,
        (r.content pair.1).map (pair.1, ·) = some pair := by
      intro pair hpair
      rw [h.content_of_mem (List.mem_of_mem_drop (List.mem_reverse.mp hpair))]
      rfl
    simp only [Recency.evict, h.recency, ← List.map_drop, ← List.map_reverse, List.filterMap_map]
    exact (List.filterMap_congr hpairs).trans List.filterMap_some
  · rw [Recency.evict, h.recency, List.map_take]
  · show (if k ∈ (r.recency.drop n).reverse then none else r.content k) = some v ↔ _
    by_cases hgone : k ∈ r.recency.drop n
    · obtain ⟨w, hw⟩ := h.mem_drop_iff.mp hgone
      rw [if_pos (List.mem_reverse.mpr hgone)]
      refine iff_of_false (by simp) fun hin => ?_
      exact hdisjoint _ (List.mem_map_of_mem hin) _ (List.mem_map_of_mem hw) rfl
    · rw [if_neg (fun hin => hgone (List.mem_reverse.mp hin)), h.content]
      conv_lhs => rw [← List.take_append_drop n pairs, List.mem_append]
      exact or_iff_left fun hin => hgone (h.mem_drop_iff.mpr ⟨v, hin⟩)

end Agrees
end Recency
end Ds
end Routn
