import Routn.Ds.Expiry

/-!
# What `checkTimeout` removes

The loop of `checkTimeout` goes through a set in the order of the deadlines, so that the items that
are due stand in front.  It looks at every second item only, and it removes an item that is due
whenever it looks at one.  Hence it does what it should while at most one item is due, and that one
is not the only one in the set (`checkTimeout_exact_iff`).
-/

namespace Routn
namespace Ds
namespace TimedCache

open Foundation

variable {K V : Type*} [LinearOrder K] {c : TimedCache K V} {ts : UInt64}
  {timed left : List (Node (Item K V))} {node : Node (Item K V)}

/-! ## The items that are due -/

omit [LinearOrder K] in
/-- The items whose deadline has come. -/
def due (ts : UInt64) (timed : List (Node (Item K V))) : List (Node (Item K V)) :=
  timed.filter fun node => node.item.ts ≤ ts

omit [LinearOrder K] in
@[simp] theorem mem_due : node ∈ due ts timed ↔ node ∈ timed ∧ node.item.ts ≤ ts := by
  simp [due]

/-- Deadlines do not decrease. -/
theorem ts_le_of_sorted {first : Node (Item K V)}
    (hsorted : OrderedSet.Sorted Item.less Item.rank (first :: timed)) (hnode : node ∈ timed) :
    first.item.ts ≤ node.item.ts :=
  Item.le_of_less (List.rel_of_pairwise_cons hsorted hnode)

/-- When the first item is not due, none is. -/
theorem due_eq_nil {first : Node (Item K V)}
    (hsorted : OrderedSet.Sorted Item.less Item.rank (first :: timed))
    (hfirst : ¬ first.item.ts ≤ ts) : due ts (first :: timed) = [] := by
  unfold due
  rw [List.filter_eq_nil_iff]
  intro node hnode
  rcases List.mem_cons.mp hnode with rfl | hnode
  · simpa using hfirst
  · have hle := ts_le_of_sorted hsorted hnode
    rw [decide_eq_true_iff]
    intro hdue
    exact hfirst (UInt64.le_trans hle hdue)

omit [LinearOrder K] in
/-- What the loop removes is due. -/
theorem visited_sublist_due (ts : UInt64) (timed : List (Node (Item K V))) :
    (visited ts timed).Sublist (due ts timed) := by
  have hall : (visited ts timed).filter (fun node => node.item.ts ≤ ts) = visited ts timed := by
    rw [List.filter_eq_self]
    intro node hnode
    exact decide_eq_true (ts_le_of_mem_visited hnode)
  rw [← hall]
  exact (visited_sublist ts timed).filter _

/-- At most one item is due, and it is not the only one. -/
def Spaced (ts : UInt64) (timed : List (Node (Item K V))) : Prop :=
  (due ts timed).length = 0 ∨ (due ts timed).length = 1 ∧ 2 ≤ timed.length

/-- The loop ends and removes all that is due. -/
theorem visited_eq_due_iff (hsorted : OrderedSet.Sorted Item.less Item.rank timed) :
    ¬ Overruns ts timed ∧ visited ts timed = due ts timed ↔ Spaced ts timed := by
  match timed with
  | [] => simp [Overruns, visited, due, Spaced]
  | [node] =>
      by_cases hle : node.item.ts ≤ ts
      · simp [Overruns, visited, due, Spaced, hle]
      · simp [Overruns, visited, due, Spaced, hle]
  | first :: next :: rest =>
      by_cases hle : first.item.ts ≤ ts
      · have hrest : OrderedSet.Sorted Item.less Item.rank (next :: rest) :=
          (List.pairwise_cons.mp hsorted).2
        have hdue : due ts (first :: next :: rest) = first :: due ts (next :: rest) := by
          simp [due, hle]
        have hlength : (visited ts rest).length ≤ (due ts rest).length :=
          (visited_sublist_due ts rest).length_le
        rw [overruns_cons_cons hsorted hle, visited, if_pos hle, Spaced, hdue]
        by_cases hnext : next.item.ts ≤ ts
        · -- The second item is due as well, and the loop does not look at it.
          have hmore : due ts (next :: rest) = next :: due ts rest := by
            simp [due, hnext]
          rw [hmore]
          constructor
          · rintro ⟨-, heq⟩
            have hcount := congrArg List.length heq
            simp only [List.length_cons] at hcount
            omega
          · intro hspaced
            simp at hspaced
        · have hnone := due_eq_nil hrest hnext
          have hnone' : due ts rest = [] := by
            apply List.sublist_nil.mp
            rw [← hnone]
            exact (List.sublist_cons_self next rest).filter _
          rw [hnone]
          constructor
          · intro _
            simp
          · intro _
            constructor
            · rintro ⟨hodd, hall⟩
              cases rest with
              | nil => simp at hodd
              | cons last rest =>
                  have hlast : last ∈ due ts (last :: rest) :=
                    mem_due.mpr ⟨List.mem_cons_self, hall last List.mem_cons_self⟩
                  rw [hnone'] at hlast
                  cases hlast
            · rw [hnone', List.length_nil] at hlength
              rw [List.length_eq_zero_iff.mp (Nat.le_zero.mp hlength)]
      · have hnone := due_eq_nil hsorted hle
        have hfits : ¬ Overruns ts (first :: next :: rest) :=
          fun hover => hle (hover.2 first List.mem_cons_self)
        simp [visited, hle, Spaced, hnone, hfits]

/-! ## The containers afterwards -/

/-- The map loses the keys of the items that are removed. -/
theorem lookup_checkTimeoutLoop {cache cache' : Index K} {removed : List (Item K V)}
    (h : checkTimeoutLoop ts cache timed = some (removed, cache', left)) (k : K) :
    cache'.lookup k = if k ∈ removed.map Item.key then none else cache.lookup k := by
  fun_induction visited ts timed generalizing cache removed left with
  | case1 =>
      cases h
      simp
  | case2 node hle =>
      rw [checkTimeoutLoop, if_pos hle] at h
      cases h
  | case3 node hle =>
      rw [checkTimeoutLoop, if_neg hle] at h
      cases h
      simp
  | case4 node next rest hle ih =>
      rw [checkTimeoutLoop, if_pos hle] at h
      obtain ⟨⟨removed', cache'', left'⟩, hrest, heq⟩ := Option.map_eq_some_iff.mp h
      cases heq
      rw [ih hrest, List.map_cons]
      by_cases hkey : k = node.item.key
      · subst hkey
        simp
      · simp [hkey, AList.lookup_erase_ne hkey]
  | case5 node next rest hle =>
      rw [checkTimeoutLoop, if_neg hle] at h
      cases h
      simp

omit [LinearOrder K] in
/-- When what goes is what satisfies `p`, what is left is the others. -/
theorem left_eq_filter (hnodup : timed.Nodup) {p : Node (Item K V) → Bool}
    (hperm : timed.Perm (timed.filter p ++ left)) (hleft : left.Sublist timed) :
    left = timed.filter fun node => !p node := by
  have hdisjoint := (List.nodup_append.mp (hperm.nodup_iff.mp hnodup)).2.2
  have hself : left.filter (fun node => !p node) = left := by
    rw [List.filter_eq_self]
    intro node hnode
    rw [Bool.not_eq_true', Bool.eq_false_iff]
    intro hp
    exact hdisjoint node (List.mem_filter.mpr ⟨hleft.subset hnode, hp⟩) node hnode rfl
  have hsublist : left.Sublist (timed.filter fun node => !p node) := by
    conv_lhs => rw [← hself]
    exact hleft.filter _
  apply hsublist.eq_of_length_le
  have hlength := hperm.length_eq
  have hcount := List.length_eq_length_filter_add (l := timed) p
  rw [List.length_append] at hlength
  omega

/-- **What is asked of `checkTimeout`**: it returns, it calls the prune callback with each item that
is due, in their order, and removes these from both containers, and no others. -/
def TimesOut (c : TimedCache K V) (ts : UInt64) : Prop :=
  ∃ c', c.checkTimeout ts = some ((due ts c.timed).map Node.item, c') ∧
    c'.timed = c.timed.filter (fun node => ¬ node.item.ts ≤ ts) ∧
    ∀ k, c'.cache.lookup k =
      if ∃ node ∈ c.timed, node.item.key = k ∧ node.item.ts ≤ ts then none else c.cache.lookup k

/-- **`checkTimeout` does what it should** exactly if at most one item is due, and that one is not
alone in the set. -/
theorem checkTimeout_exact_iff (hindexes : Indexes Item.key c.cache c.timed)
    (hsorted : OrderedSet.Sorted Item.less Item.rank c.timed) (ts : UInt64) :
    TimesOut c ts ↔ Spaced ts c.timed := by
  rw [← visited_eq_due_iff hsorted]
  rcases checkTimeoutLoop_cases _ c.cache hsorted with
    ⟨hnone, hover⟩ | ⟨hfits, cache', left, hsome, hperm, hleft, -⟩
  · constructor
    · rintro ⟨c', hcheck, -⟩
      rw [checkTimeout, hnone] at hcheck
      cases hcheck
    · rintro ⟨hfits, -⟩
      exact absurd hover hfits
  · have hcheck : c.checkTimeout ts = some ((visited ts c.timed).map Node.item,
        { c with cache := cache', timed := left }) := by
      rw [checkTimeout, hsome]
      rfl
    constructor
    · rintro ⟨c', hright, -⟩
      refine ⟨hfits, (visited_sublist_due ts c.timed).eq_of_length ?_⟩
      rw [hcheck] at hright
      have hitems := congrArg List.length (congrArg Prod.fst (Option.some.inj hright))
      simpa using hitems
    · rintro ⟨-, hvisited⟩
      rw [hvisited] at hcheck hperm hsome
      refine ⟨_, hcheck, ?_, ?_⟩
      · show left = _
        rw [left_eq_filter (.of_map _ hindexes.nodup) hperm hleft]
        apply List.filter_congr
        intro node _
        exact decide_not.symm
      · intro k
        show cache'.lookup k = _
        rw [lookup_checkTimeoutLoop hsome k]
        congr 1
        simp only [List.map_map, List.mem_map, mem_due, Function.comp_apply, and_assoc]
        apply propext
        apply exists_congr
        intro node
        tauto

/-- Two items with these deadlines. -/
def twoItems (first second : UInt64) : TimedCache Nat Nat where
  cache := ((∅ : Index Nat).emplace 2 1).emplace 1 0
  timed := [⟨0, ⟨1, 10, first⟩⟩, ⟨1, ⟨2, 20, second⟩⟩]
  maxSize := 0
  elasticity := 0
  status := {}

theorem twoItems_indexes (first second : UInt64) :
    Indexes Item.key (twoItems first second).cache (twoItems first second).timed := by
  have hempty : Indexes (fun item : Item Nat Nat => item.key) ∅ [] := .empty
  have hone := hempty.cons (p := 1) ⟨2, 20, second⟩ (by simp) rfl
  exact hone.cons (p := 0) ⟨1, 10, first⟩ (by simp) rfl

theorem twoItems_sorted {first second : UInt64} (h : first ≤ second) :
    OrderedSet.Sorted Item.less Item.rank (twoItems first second).timed := by
  unfold OrderedSet.Sorted twoItems
  simp only [List.pairwise_cons, List.mem_singleton, forall_eq, List.not_mem_nil, false_implies,
    implies_true, List.Pairwise.nil, and_true]
  rw [Item.less_iff]
  rcases UInt64.le_iff_lt_or_eq.mp h with hlt | heq
  · exact .inl hlt
  · exact .inr ⟨heq, (by decide : 1 < 2)⟩

/-- One of the two items is due at 5, and it is removed. -/
theorem timesOut_twoItems : TimesOut (twoItems 3 8) 5 :=
  (checkTimeout_exact_iff (twoItems_indexes 3 8) (twoItems_sorted (by decide)) 5).mpr
    (.inr (by decide))

/-- **Both items are due at 5**, and one of them is removed. -/
theorem not_timesOut_twoItems :
    Indexes Item.key (twoItems 3 4).cache (twoItems 3 4).timed ∧
      OrderedSet.Sorted Item.less Item.rank (twoItems 3 4).timed ∧
      ¬ TimesOut (twoItems 3 4) 5 := by
  refine ⟨twoItems_indexes 3 4, twoItems_sorted (by decide), ?_⟩
  have hremoved : ((twoItems 3 4).checkTimeout 5).map (fun r => r.1) = some [⟨1, 10, 3⟩] := by
    decide
  rintro ⟨c', hcheck, -⟩
  rw [hcheck] at hremoved
  have hitems : (due 5 (twoItems 3 4).timed).map Node.item = [⟨1, 10, 3⟩] :=
    Option.some.inj hremoved
  exact absurd hitems (by decide)

end TimedCache
end Ds
end Routn
