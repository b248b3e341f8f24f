import Routn.Ds.Timeout

/-!
# `expired` and the next `checkTimeout`

`expired` is to give a key a new deadline.  It computes the deadline, but inserts the item again as
it was, so that the old deadline stays.  Whether `checkTimeout` then removes the key at the right
time is up to the old deadline and to the place of the item: the loop looks at every second one.

This is about every cache that calls can lead to, also when a key was set twice and the set holds
two items for it.  What remains of the bijection then is that an entry of the map points to an item
of its key (`Pointed`).
-/

namespace Routn
namespace Ds
namespace TimedCache

open Foundation

variable {K V : Type*} [LinearOrder K] {c c' : TimedCache K V} {k k' : K} {ts now : UInt64}
  {it node : Nat} {timed left : List (Node (Item K V))}

/-! ## Entries that point to an item of their key -/

/-- The value under a key. -/
def holds (c : TimedCache K V) (k : K) : Option V :=
  ((c.cache.lookup k).bind (itemAt c.timed)).map Item.val

structure Pointed (c : TimedCache K V) : Prop where
  nodup : (c.timed.map Node.address).Nodup
  sorted : OrderedSet.Sorted Item.less Item.rank c.timed
  pointed : ∀ k it, c.cache.lookup k = some it →
    ∃ node ∈ c.timed, node.address = it ∧ node.item.key = k

namespace Pointed

theorem new (max_size elasticity : UInt64) :
    (TimedCache.new max_size elasticity : TimedCache K V).Pointed where
  nodup := .nil
  sorted := .nil
  pointed := by simp [TimedCache.new]

/-- Only the two containers count. -/
theorem congr (h : c.Pointed) (hcache : c'.cache = c.cache) (htimed : c'.timed = c.timed) :
    c'.Pointed where
  nodup := htimed ▸ h.nodup
  sorted := htimed ▸ h.sorted
  pointed := by
    rw [hcache, htimed]
    exact h.pointed

/-- The item that an entry points to can be taken out. -/
theorem unlink (h : c.Pointed) (hlookup : c.cache.lookup k = some it) :
    ∃ item rest, Foundation.unlink it c.timed = some (⟨it, item⟩, rest) ∧ item.key = k ∧
      c.timed.Perm (⟨it, item⟩ :: rest) ∧ rest.Sublist c.timed := by
  obtain ⟨⟨address, item⟩, hnode, rfl, hkey⟩ := h.pointed k it hlookup
  obtain ⟨rest, hunlink⟩ := unlink_of_mem h.nodup hnode
  obtain ⟨-, front, back, htimed, hrest⟩ := split_of_unlink hunlink
  refine ⟨item, rest, hunlink, hkey, perm_of_unlink hunlink, ?_⟩
  rw [htimed, hrest]
  exact (List.Sublist.refl front).append (List.sublist_cons_self ..)

/-- A node is what is found at its address. -/
theorem itemAt_eq (h : c.Pointed) {found : Node (Item K V)} (hfound : found ∈ c.timed) :
    itemAt c.timed found.address = some found.item := by
  obtain ⟨rest, hunlink⟩ := unlink_of_mem h.nodup hfound
  simp [itemAt, hunlink]

/-- Some items go, together with the entries of their keys. -/
theorem remove (h : c.Pointed) (gone : List (Node (Item K V))) {cache : Index K}
    (hperm : c.timed.Perm (gone ++ left)) (hleft : left.Sublist c.timed)
    (hlookup : ∀ k, cache.lookup k =
      if k ∈ (gone.map Node.item).map Item.key then none else c.cache.lookup k)
    (status : CacheStatus) :
    Pointed { c with cache := cache, timed := left, status := status } where
  nodup := h.nodup.sublist (hleft.map _)
  sorted := h.sorted.sublist hleft
  pointed k it hit := by
    rw [hlookup] at hit
    split at hit
    · cases hit
    · next hkept =>
        obtain ⟨node, hnode, haddress, rfl⟩ := h.pointed k it hit
        refine ⟨node, ?_, haddress, rfl⟩
        refine (List.mem_append.mp (hperm.mem_iff.mp hnode)).resolve_left fun hgone => ?_
        exact hkept (List.mem_map_of_mem (List.mem_map_of_mem hgone))

end Pointed

/-- The entry of the key and its item are as they were, or the entry is gone. -/
def Stays (k : K) (c c' : TimedCache K V) : Prop :=
  c'.cache.lookup k = none ∨
    c'.cache.lookup k = c.cache.lookup k ∧
      ∀ node ∈ c.timed, c.cache.lookup k = some node.address → node ∈ c'.timed

theorem Stays.refl (k : K) (c : TimedCache K V) : Stays k c c :=
  .inr ⟨rfl, fun _ hnode _ => hnode⟩

theorem Stays.trans {c₁ c₂ : TimedCache K V} (h₁ : Stays k c c₁) (h₂ : Stays k c₁ c₂) :
    Stays k c c₂ := by
  rcases h₂ with hgone | ⟨hsame₂, hnodes₂⟩
  · exact .inl hgone
  · rcases h₁ with hgone | ⟨hsame₁, hnodes₁⟩
    · exact .inl (hsame₂.trans hgone)
    · refine .inr ⟨hsame₂.trans hsame₁, fun node hnode hlookup => ?_⟩
      exact hnodes₂ node (hnodes₁ node hnode hlookup) (hsame₁.trans hlookup)

theorem Stays.holds_eq (h : Stays k c c') (hc : c.Pointed) (hc' : c'.Pointed)
    (hstays : c'.existsKey k = true) : c'.holds k = c.holds k := by
  unfold existsKey at hstays
  rcases h with hgone | ⟨hsame, hnodes⟩
  · simp [hgone] at hstays
  · obtain ⟨it, hit⟩ := Option.isSome_iff_exists.mp hstays
    have hlookup := hsame.symm.trans hit
    obtain ⟨node, hnode, rfl, -⟩ := hc.pointed k it hlookup
    unfold holds
    rw [hit, hlookup, Option.bind_some, Option.bind_some, hc.itemAt_eq hnode,
      hc'.itemAt_eq (hnodes node hnode hlookup)]

theorem Pointed.stays_remove (h : c.Pointed) (gone : List (Node (Item K V)))
    (hperm : c.timed.Perm (gone ++ left))
    (hlookup : ∀ k, c'.cache.lookup k =
      if k ∈ (gone.map Node.item).map Item.key then none else c.cache.lookup k)
    (hleft : c'.timed = left) (k : K) : Stays k c c' := by
  by_cases hgone : k ∈ (gone.map Node.item).map Item.key
  · left
    rw [hlookup, if_pos hgone]
  · right
    refine ⟨by rw [hlookup, if_neg hgone], fun node hnode hit => ?_⟩
    obtain ⟨other, hother, haddress, rfl⟩ := h.pointed k node.address hit
    obtain rfl : other = node := List.inj_on_of_nodup_map h.nodup hother hnode haddress
    rw [hleft]
    refine (List.mem_append.mp (hperm.mem_iff.mp hnode)).resolve_left fun hin => ?_
    exact hgone (List.mem_map_of_mem (List.mem_map_of_mem hin))

/-! ## Operations -/

/-- A new item is not where another one is that stays in the set. -/
def Allocates (c : TimedCache K V) : Operation K V → Prop
  | .set _ _ _ _ node => node ∉ c.timed.map Node.address
  | .expired k _ _ node => ∀ other ∈ c.timed, other.address = node → c.cache.lookup k = some node
  | _ => True

instance (c : TimedCache K V) : ∀ op, Decidable (Allocates c op)
  | .set _ _ _ _ node => inferInstanceAs (Decidable (node ∉ c.timed.map Node.address))
  | .expired k _ _ node => inferInstanceAs (Decidable
      (∀ other ∈ c.timed, other.address = node → c.cache.lookup k = some node))
  | .get _ | .getValue _ | .del .. | .existsKey _ | .clear | .checkTimeout _ => .isTrue trivial

/-- The operation is about other keys. -/
def Spares (k : K) : Operation K V → Prop
  | .set k' _ _ _ _ => k' ≠ k
  | .get k' => k' ≠ k
  | .getValue k' => k' ≠ k
  | .del k' _ => k' ≠ k
  | .expired k' _ _ _ => k' ≠ k
  | .existsKey k' => k' ≠ k
  | .clear => False
  | .checkTimeout _ => True

/-- The set after an item has been put in. -/
theorem insertItem_spec (hnodup : (timed.map Node.address).Nodup)
    (hsorted : OrderedSet.Sorted Item.less Item.rank timed)
    (hfresh : node ∉ timed.map Node.address) (item : Item K V) :
    ((insertItem timed node item).2.map Node.address).Nodup ∧
      OrderedSet.Sorted Item.less Item.rank (insertItem timed node item).2 ∧
      (∃ found ∈ (insertItem timed node item).2,
        found.address = (insertItem timed node item).1 ∧ found.item.key = item.key) ∧
      ∀ other ∈ timed, other ∈ (insertItem timed node item).2 := by
  unfold insertItem
  cases hfind : OrderedSet.find Item.less Item.rank (item.ts, item.key) timed with
  | some found =>
      obtain ⟨hfound, hkey, -⟩ := find_key hfind
      exact ⟨hnodup, hsorted, ⟨found, hfound, rfl, hkey⟩, fun _ h => h⟩
  | none =>
      have hperm : (OrderedSet.insert Item.less Item.rank ⟨node, item⟩ timed).Perm
          (⟨node, item⟩ :: timed) := OrderedSet.perm_insert hfind
      refine ⟨?_, hsorted.insert Item.less_strictOrder _, ⟨⟨node, item⟩, ?_, rfl, rfl⟩, ?_⟩
      · apply (hperm.map Node.address).nodup_iff.mpr
        exact List.nodup_cons.mpr ⟨hfresh, hnodup⟩
      · exact hperm.mem_iff.mpr List.mem_cons_self
      · intro other hother
        exact hperm.mem_iff.mpr (List.mem_cons_of_mem _ hother)

section Operations

variable (h : c.Pointed)
include h

theorem Pointed.setEntry (k : K) (now : UInt64)
    (hfresh : node ∉ c.timed.map Node.address) (v : V) (expired : UInt64) :
    (c.setEntry k v expired now node).Pointed ∧
      ∀ k', k ≠ k' → Stays k' c (c.setEntry k v expired now node) := by
  obtain ⟨hnodup, hsorted, ⟨found, hfound, haddress, hkey⟩, hmem⟩ :=
    insertItem_spec h.nodup h.sorted hfresh ⟨k, v, expired + now⟩
  have htimed : (c.setEntry k v expired now node).timed =
      (insertItem c.timed node ⟨k, v, expired + now⟩).2 := rfl
  refine ⟨⟨htimed ▸ hnodup, htimed ▸ hsorted, fun k' it hit => ?_⟩, fun k' hne => ?_⟩
  · rw [lookup_setEntry] at hit
    rw [htimed]
    split at hit
    · next heq =>
        subst heq
        cases hit
        exact ⟨found, hfound, haddress, hkey⟩
    · obtain ⟨other, hother, haddress', rfl⟩ := h.pointed k' it hit
      exact ⟨other, hmem other hother, haddress', rfl⟩
  · right
    refine ⟨by rw [lookup_setEntry, if_neg (Ne.symm hne)], fun other hother _ => ?_⟩
    exact hmem other hother

theorem Pointed.prune {removed : List (Item K V)} (hprune : c.prune = some (removed, c')) :
    c'.Pointed ∧ ∀ k', Stays k' c c' := by
  unfold TimedCache.prune at hprune
  split at hprune
  · cases hprune
    exact ⟨h, fun k' => .refl k' c⟩
  · obtain ⟨⟨items, cache, left⟩, hshrink, heq⟩ := Option.map_eq_some_iff.mp hprune
    cases heq
    obtain ⟨gone, htimed, rfl, hlookup⟩ := Index.shrink_split hshrink
    have hperm : c.timed.Perm (gone ++ left) := .of_eq htimed
    have hleft : left.Sublist c.timed := htimed ▸ List.sublist_append_right gone left
    exact ⟨h.remove _ hperm hleft hlookup _, fun k' => h.stays_remove _ hperm hlookup rfl k'⟩

theorem Pointed.set {v : V} {expired : UInt64} {removed : List (Item K V)}
    (hfresh : node ∉ c.timed.map Node.address)
    (hset : c.set k v expired now node = some (removed, c')) :
    c'.Pointed ∧ ∀ k', k ≠ k' → Stays k' c c' := by
  obtain ⟨hentry, hstays⟩ := h.setEntry k now hfresh v expired
  rw [set_eq] at hset
  obtain ⟨hpruned, hrest⟩ := hentry.prune hset
  exact ⟨hpruned, fun k' hne => (hstays k' hne).trans (hrest k')⟩

/-- `set` does not run out of items, and counts itself. -/
theorem Pointed.exists_set (k : K) (now : UInt64)
    (hfresh : node ∉ c.timed.map Node.address) (v : V) (expired : UInt64) :
    ∃ removed c', c.set k v expired now node = some (removed, c') ∧
      c'.status.set = c.status.set + 1 := by
  obtain ⟨hentry, -⟩ := h.setEntry k now hfresh v expired
  have hcount : (c.setEntry k v expired now node).status.set = c.status.set + 1 := rfl
  rw [set_eq, ← hcount]
  unfold TimedCache.prune
  split
  · exact ⟨_, _, rfl, rfl⟩
  · obtain ⟨⟨removed, cache, left⟩, hshrink⟩ := Index.exists_shrink Item.key
      (c.setEntry k v expired now node).maxSize.toNat (c.setEntry k v expired now node).cache (by
        intro k' hk'
        obtain ⟨it, hit⟩ := Option.isSome_iff_exists.mp hk'
        obtain ⟨found, hfound, -, hkey⟩ := hentry.pointed k' it hit
        exact ⟨found, hfound, hkey⟩)
    rw [hshrink]
    exact ⟨_, _, rfl, rfl⟩

/-- What is left when the item and the entry of a key are taken away. -/
theorem Pointed.take {item : Item K V} {rest : List (Node (Item K V))}
    (hperm : c.timed.Perm (⟨it, item⟩ :: rest)) (hrest : rest.Sublist c.timed)
    (hkey : item.key = k) (status : CacheStatus) :
    Pointed { c with timed := rest, cache := c.cache.erase k, status := status } ∧
      ∀ k', k ≠ k' →
        Stays k' c { c with timed := rest, cache := c.cache.erase k, status := status } := by
  have hlookup : ∀ k', (c.cache.erase k).lookup k' =
      if k' ∈ ([(⟨it, item⟩ : Node (Item K V))].map Node.item).map Item.key then none
      else c.cache.lookup k' := by
    intro k'
    by_cases heq : k' = k
    · subst heq
      simp [hkey]
    · simp [hkey, heq, AList.lookup_erase_ne heq]
  exact ⟨h.remove [⟨it, item⟩] hperm hrest hlookup status,
    fun k' _ => h.stays_remove [⟨it, item⟩] hperm hlookup rfl k'⟩

theorem Pointed.del {returned : Option Bool} {answer : Bool}
    (hdel : c.del k returned = some (answer, c')) :
    c'.Pointed ∧ ∀ k', k ≠ k' → Stays k' c c' := by
  unfold TimedCache.del at hdel
  cases hlookup : c.cache.lookup k with
  | none =>
      simp only [hlookup] at hdel
      cases hdel
      exact ⟨h.congr rfl rfl, fun k' _ => .inr ⟨rfl, fun _ hin _ => hin⟩⟩
  | some it =>
      obtain ⟨item, rest, hunlink, hkey, hperm, hrest⟩ := h.unlink hlookup
      simp only [hlookup, hunlink] at hdel
      obtain ⟨answer', -, heq⟩ := Option.map_eq_some_iff.mp hdel
      cases heq
      exact h.take hperm hrest hkey _

/-- `expired` of a key that is there answers `true`, and the item is as it was. -/
theorem Pointed.expired_spec (hpresent : c.existsKey k = true)
    (hfresh : ∀ other ∈ c.timed, other.address = node → c.cache.lookup k = some node)
    (ts now : UInt64) :
    ∃ c', c.expired k ts now node = some (true, c') ∧ c'.Pointed ∧ c'.existsKey k = true ∧
      c'.holds k = c.holds k ∧ ∀ k', k ≠ k' → Stays k' c c' := by
  obtain ⟨it, hlookup⟩ := Option.isSome_iff_exists.mp hpresent
  obtain ⟨item, rest, hunlink, hkey, hperm, hrest⟩ := h.unlink hlookup
  by_cases hsame : item.ts = ts + now
  · exact ⟨c, by simp [TimedCache.expired, hlookup, hunlink, hsame], h, hpresent, rfl,
      fun k' _ => .refl k' c⟩
  · -- A set holds no two items of the same rank, and the item is new in what is left.
    have hnodup : (it :: rest.map Node.address).Nodup :=
      (hperm.map Node.address).nodup_iff.mp h.nodup
    have hfind : OrderedSet.find Item.less Item.rank (item.ts, item.key) rest = none := by
      cases hcase : OrderedSet.find Item.less Item.rank (item.ts, item.key) rest with
      | none => rfl
      | some found =>
          obtain ⟨hfound, hkey', hts⟩ := find_key hcase
          have hself := h.sorted.find_of_mem Item.less_strictOrder
            (hperm.mem_iff.mpr (List.mem_cons_self (a := (⟨it, item⟩ : Node (Item K V)))))
          have hother := h.sorted.find_of_mem Item.less_strictOrder (hrest.subset hfound)
          have hrank : Item.rank found = Item.rank (⟨it, item⟩ : Node (Item K V)) :=
            Prod.ext hts hkey'
          rw [hrank, hself] at hother
          cases hother
          exact absurd (List.mem_map_of_mem hfound) (List.nodup_cons.mp hnodup).1
    have hout : node ∉ rest.map Node.address := by
      intro hin
      obtain ⟨other, hother, haddress⟩ := List.mem_map.mp hin
      have hit := hfresh other (hrest.subset hother) haddress
      rw [hlookup] at hit
      cases hit
      exact (List.nodup_cons.mp hnodup).1 hin
    have hinsert : (OrderedSet.insert Item.less Item.rank ⟨node, item⟩ rest).Perm
        (⟨node, item⟩ :: rest) := OrderedSet.perm_insert hfind
    have hmem : ∀ other ∈ c.timed, other.item.key ≠ k →
        other ∈ OrderedSet.insert Item.less Item.rank ⟨node, item⟩ rest := by
      intro other hother hne
      rcases List.mem_cons.mp (hperm.mem_iff.mp hother) with rfl | hother
      · exact absurd hkey hne
      · exact hinsert.mem_iff.mpr (List.mem_cons_of_mem _ hother)
    have hpointed : Pointed { c with
        timed := OrderedSet.insert Item.less Item.rank ⟨node, item⟩ rest
        cache := c.cache.insert k node } := by
      refine ⟨?_, ?_, fun k' it' hit => ?_⟩
      · apply (hinsert.map Node.address).nodup_iff.mpr
        exact List.nodup_cons.mpr ⟨hout, (List.nodup_cons.mp hnodup).2⟩
      · exact OrderedSet.Sorted.insert Item.less_strictOrder (h.sorted.sublist hrest) _
      · by_cases heq : k' = k
        · subst heq
          rw [AList.lookup_insert] at hit
          cases hit
          exact ⟨⟨node, item⟩, hinsert.mem_iff.mpr List.mem_cons_self, rfl, hkey⟩
        · rw [AList.lookup_insert_ne heq] at hit
          obtain ⟨other, hother, haddress, rfl⟩ := h.pointed k' it' hit
          exact ⟨other, hmem other hother heq, haddress, rfl⟩
    refine ⟨_, by simp [TimedCache.expired, hlookup, hunlink, hsame, insertItem, hfind],
      hpointed, ?_, ?_, fun k' hne => .inr ⟨?_, fun other hother hit => ?_⟩⟩
    · unfold existsKey
      rw [AList.lookup_insert]
      rfl
    · have hnew := hpointed.itemAt_eq (hinsert.mem_iff.mpr List.mem_cons_self)
      unfold holds
      rw [AList.lookup_insert, hlookup, Option.bind_some, Option.bind_some]
      refine (congrArg (Option.map Item.val) hnew).trans ?_
      simp [itemAt, hunlink]
    · exact AList.lookup_insert_ne (Ne.symm hne)
    · obtain ⟨found, hfound, haddress, rfl⟩ := h.pointed k' other.address hit
      obtain rfl : found = other := List.inj_on_of_nodup_map h.nodup hfound hother haddress
      exact hmem found hfound (Ne.symm hne)

theorem Pointed.checkTimeout {removed : List (Item K V)}
    (hcheck : c.checkTimeout ts = some (removed, c')) :
    removed = (visited ts c.timed).map Node.item ∧ c'.Pointed ∧ (∀ k', Stays k' c c') ∧
      ∀ k', c'.cache.lookup k' =
        if k' ∈ removed.map Item.key then none else c.cache.lookup k' := by
  obtain ⟨⟨items, cache, left⟩, hloop, heq⟩ := Option.map_eq_some_iff.mp hcheck
  cases heq
  rcases checkTimeoutLoop_cases _ c.cache h.sorted with
    ⟨hnone, -⟩ | ⟨-, cache', left', hsome, hperm, hleft, -⟩
  · rw [hnone] at hloop
    cases hloop
  · have hlookup := lookup_checkTimeoutLoop hloop
    rw [hsome] at hloop
    cases hloop
    exact ⟨rfl, h.remove _ hperm hleft hlookup _, fun k' => h.stays_remove _ hperm hlookup rfl k',
      hlookup⟩

theorem Pointed.idle (hcache : c'.cache = c.cache) (htimed : c'.timed = c.timed) :
    c'.Pointed ∧ ∀ k', Stays k' c c' := by
  refine ⟨h.congr hcache htimed, fun k' => .inr ⟨by rw [hcache], fun other hother _ => ?_⟩⟩
  rw [htimed]
  exact hother

theorem Pointed.get {found : Option V} (hget : c.get k = some (found, c')) :
    c'.Pointed ∧ ∀ k', Stays k' c c' := by
  unfold TimedCache.get at hget
  cases hlookup : c.cache.lookup k with
  | none =>
      simp only [hlookup] at hget
      cases hget
      exact h.idle rfl rfl
  | some it =>
      simp only [hlookup] at hget
      obtain ⟨item, -, heq⟩ := Option.map_eq_some_iff.mp hget
      cases heq
      exact h.idle rfl rfl

/-- `get` answers what the key holds. -/
theorem Pointed.get_eq (k : K) : ∃ c', c.get k = some (c.holds k, c') := by
  unfold TimedCache.get holds
  cases hlookup : c.cache.lookup k with
  | none => simp [hlookup]
  | some it =>
      obtain ⟨found, hfound, rfl, -⟩ := h.pointed k it hlookup
      simp [hlookup, h.itemAt_eq hfound]

theorem Pointed.getValue [Inhabited V] {v : V} (hget : c.getValue k = some (v, c')) :
    c'.Pointed ∧ ∀ k', Stays k' c c' := by
  unfold TimedCache.getValue at hget
  cases hlookup : c.cache.lookup k with
  | none =>
      simp only [hlookup] at hget
      cases hget
      exact h.idle rfl rfl
  | some it =>
      simp only [hlookup] at hget
      obtain ⟨item, -, heq⟩ := Option.map_eq_some_iff.mp hget
      cases heq
      exact h.idle rfl rfl

theorem Pointed.expired {answer : Bool}
    (hfresh : ∀ other ∈ c.timed, other.address = node → c.cache.lookup k = some node)
    (hexpired : c.expired k ts now node = some (answer, c')) :
    c'.Pointed ∧ ∀ k', k ≠ k' → Stays k' c c' := by
  cases hlookup : c.cache.lookup k with
  | none =>
      simp only [TimedCache.expired, hlookup] at hexpired
      cases hexpired
      exact ⟨h, fun k' _ => .refl k' c⟩
  | some it =>
      have hpresent : c.existsKey k = true := by simp [existsKey, hlookup]
      obtain ⟨c₁, hsome, hpointed, -, -, hstays⟩ := h.expired_spec hpresent hfresh ts now
      rw [hexpired] at hsome
      cases hsome
      exact ⟨hpointed, hstays⟩

/-- **One operation** keeps the entries pointing to items of their keys, and those of other keys
where they point. -/
theorem Pointed.perform [Inhabited V] {op : Operation K V} {answer : Answer K V}
    (hallocates : Allocates c op) (hperform : c.perform op = some (answer, c')) :
    c'.Pointed ∧ ∀ k', Spares k' op → Stays k' c c' := by
  cases op with
  | set k v expired now node =>
      obtain ⟨⟨removed, c₁⟩, hset, heq⟩ := Option.map_eq_some_iff.mp hperform
      cases heq
      exact h.set hallocates hset
  | get k =>
      obtain ⟨⟨found, c₁⟩, hget, heq⟩ := Option.map_eq_some_iff.mp hperform
      cases heq
      obtain ⟨hpointed, hstays⟩ := h.get hget
      exact ⟨hpointed, fun k' _ => hstays k'⟩
  | getValue k =>
      obtain ⟨⟨v, c₁⟩, hget, heq⟩ := Option.map_eq_some_iff.mp hperform
      cases heq
      obtain ⟨hpointed, hstays⟩ := h.getValue hget
      exact ⟨hpointed, fun k' _ => hstays k'⟩
  | del k returned =>
      obtain ⟨⟨deleted, c₁⟩, hdel, heq⟩ := Option.map_eq_some_iff.mp hperform
      cases heq
      exact h.del hdel
  | expired k ts now node =>
      obtain ⟨⟨found, c₁⟩, hexpired, heq⟩ := Option.map_eq_some_iff.mp hperform
      cases heq
      exact h.expired hallocates hexpired
  | existsKey k =>
      cases hperform
      exact ⟨h, fun k' _ => .refl k' c⟩
  | clear =>
      cases hperform
      exact ⟨⟨.nil, .nil, by simp [TimedCache.clear]⟩, fun k' hspares => hspares.elim⟩
  | checkTimeout ts =>
      obtain ⟨⟨removed, c₁⟩, hcheck, heq⟩ := Option.map_eq_some_iff.mp hperform
      cases heq
      obtain ⟨-, hpointed, hstays, -⟩ := h.checkTimeout hcheck
      exact ⟨hpointed, fun k' _ => hstays k'⟩

end Operations

/-! ## Runs -/

section Runs

variable [Inhabited V]

/-- One call, without its answer. -/
def call (c : TimedCache K V) (op : Operation K V) : Option (TimedCache K V) :=
  (c.perform op).map Prod.snd

theorem Pointed.call {op : Operation K V} (h : c.Pointed) (hallocates : Allocates c op)
    (hcall : c.call op = some c') : c'.Pointed ∧ ∀ k', Spares k' op → Stays k' c c' := by
  obtain ⟨⟨answer, c₁⟩, hperform, rfl⟩ := Option.map_eq_some_iff.mp hcall
  exact h.perform hallocates hperform

theorem pointed_of_reach {max_size elasticity : UInt64}
    (h : Reach (new max_size elasticity) call Allocates c) : c.Pointed := by
  apply h.invariant (.new max_size elasticity)
  intro s s' op _ hs hallocates hcall
  exact (hs.call hallocates hcall).1

/-- Calls that are about other keys. -/
theorem stays_of_run (ops : List (Operation K V)) (h : c.Pointed)
    (hrun : runActions call ops c = some c')
    (hops : runMeets call (fun c op => Allocates c op ∧ Spares k op) ops c) :
    c'.Pointed ∧ Stays k c c' := by
  induction ops generalizing c with
  | nil =>
      obtain rfl : c = c' := Option.some.inj hrun
      exact ⟨h, .refl k c⟩
  | cons op ops ih =>
      obtain ⟨c₁, hcall, hrest⟩ := Option.bind_eq_some_iff.mp hrun
      obtain ⟨⟨hallocates, hspares⟩, hops⟩ := (runMeets_cons hcall).mp hops
      obtain ⟨hpointed, hstays⟩ := h.call hallocates hcall
      obtain ⟨hend, hstays'⟩ := ih hpointed hrest hops
      exact ⟨hend, (hstays k hspares).trans hstays'⟩

end Runs

/-! ## The next `checkTimeout` -/

/-- Every second element, from the first one on. -/
def everySecond {α : Type*} : List α → List α
  | [] => []
  | [a] => [a]
  | a :: _ :: rest => a :: everySecond rest

theorem everySecond_sublist {α : Type*} (l : List α) : (everySecond l).Sublist l := by
  fun_induction everySecond l with
  | case1 => exact .refl _
  | case2 a => exact .refl _
  | case3 a b rest ih => exact (ih.cons b).cons_cons a

theorem mem_visited_iff (hsorted : OrderedSet.Sorted Item.less Item.rank timed)
    {other : Node (Item K V)} :
    other ∈ visited ts timed ↔ other ∈ everySecond timed ∧ other.item.ts ≤ ts := by
  fun_induction visited ts timed with
  | case1 => simp [everySecond]
  | case2 node hle =>
      simp only [everySecond, List.mem_singleton]
      constructor
      · rintro rfl
        exact ⟨rfl, hle⟩
      · exact And.left
  | case3 node hle =>
      simp only [everySecond, List.mem_singleton, List.not_mem_nil, false_iff, not_and]
      rintro rfl
      exact hle
  | case4 first next rest hle ih =>
      have hrest : OrderedSet.Sorted Item.less Item.rank rest :=
        hsorted.sublist ((List.sublist_cons_self ..).trans (List.sublist_cons_self ..))
      rw [everySecond, List.mem_cons, List.mem_cons, ih hrest]
      constructor
      · rintro (rfl | ⟨hin, hdue⟩)
        · exact ⟨.inl rfl, hle⟩
        · exact ⟨.inr hin, hdue⟩
      · rintro ⟨rfl | hin, hdue⟩
        · exact .inl rfl
        · exact .inr ⟨hin, hdue⟩
  | case5 first next rest hle =>
      -- The first item is not due, and the others are due no earlier.
      simp only [List.not_mem_nil, false_iff, not_and]
      intro hin hdue
      rcases List.mem_cons.mp ((everySecond_sublist _).subset hin) with rfl | hin
      · exact hle hdue
      · exact hle (UInt64.le_trans (ts_le_of_sorted hsorted hin) hdue)

/-- What is asked of `checkTimeout(t)` for a key that is to go at `deadline`. -/
def Rearmed (c : TimedCache K V) (k : K) (v : Option V) (deadline : Nat) (t : UInt64) : Prop :=
  ∃ removed c', c.checkTimeout t = some (removed, c') ∧
    (t.toNat < deadline → c'.existsKey k = true ∧ c'.holds k = v) ∧
    (deadline ≤ t.toNat → c'.existsKey k = false)

/-- `checkTimeout(t)` removes the key exactly from `deadline` on. -/
def OnTime (c : TimedCache K V) (k : K) (deadline : Nat) (t : UInt64) : Prop :=
  ¬ Overruns t c.timed ∧
    ((∃ node ∈ everySecond c.timed, node.item.key = k ∧ node.item.ts ≤ t) ↔ deadline ≤ t.toNat)

theorem rearmed_iff (h : c.Pointed) (hpresent : c.existsKey k = true) (deadline : Nat)
    (t : UInt64) : Rearmed c k (c.holds k) deadline t ↔ OnTime c k deadline t := by
  have hgone : (∃ node ∈ everySecond c.timed, node.item.key = k ∧ node.item.ts ≤ t) ↔
      k ∈ ((visited t c.timed).map Node.item).map Item.key := by
    simp only [List.map_map, List.mem_map, Function.comp_apply, mem_visited_iff h.sorted]
    apply exists_congr
    intro node
    tauto
  unfold OnTime
  rw [hgone]
  rcases checkTimeoutLoop_cases t c.cache h.sorted with
    ⟨hnone, hover⟩ | ⟨hfits, cache, left, hsome, -⟩
  · constructor
    · rintro ⟨removed, c', hcheck, -⟩
      rw [checkTimeout, hnone] at hcheck
      cases hcheck
    · rintro ⟨hfits, -⟩
      exact absurd hover hfits
  · obtain ⟨c₁, hcheck⟩ :
        ∃ c₁, c.checkTimeout t = some ((visited t c.timed).map Node.item, c₁) := by
      rw [checkTimeout, hsome]
      exact ⟨_, rfl⟩
    obtain ⟨-, hpointed, hstays, hlookup⟩ := h.checkTimeout hcheck
    have hexists : c₁.existsKey k = false ↔
        k ∈ ((visited t c.timed).map Node.item).map Item.key := by
      unfold existsKey at hpresent ⊢
      rw [hlookup]
      split
      · next hin => exact iff_of_true rfl hin
      · next hout =>
          rw [hpresent]
          exact iff_of_false (by decide) hout
    rw [← hexists]
    constructor
    · rintro ⟨removed, c', hright, hkept, hremoved⟩
      rw [hcheck] at hright
      cases hright
      refine ⟨hfits, fun hnot => ?_, hremoved⟩
      by_contra hlate
      simp [(hkept (Nat.not_le.mp hlate)).1] at hnot
    · rintro ⟨-, hiff⟩
      refine ⟨_, c₁, hcheck, fun hearly => ?_, hiff.mpr⟩
      have hkept : c₁.existsKey k = true := by
        rw [← Bool.not_eq_false]
        intro hnot
        exact absurd (hiff.mp hnot) (Nat.not_le.mpr hearly)
      exact ⟨hkept, (hstays k).holds_eq h hpointed hkept⟩

/-- **`expired` and the next `checkTimeout`.**  For an absent key nothing changes and the answer is
`false`.  For a key that is there the answer is `true`, and after calls about other keys
`checkTimeout(t)` keeps and removes it as the new deadline asks exactly if it is on time with the
items as they are. -/
theorem expired_rearms_iff [Inhabited V] {max_size elasticity : UInt64}
    (hc : Reach (new max_size elasticity) call Allocates c) (k : K) (ts now : UInt64) {node : Nat}
    (hfresh : Allocates c (.expired k ts now node)) :
    (c.existsKey k = false → c.expired k ts now node = some (false, c)) ∧
    (c.existsKey k = true → ∃ c₁, c.expired k ts now node = some (true, c₁) ∧
      ∀ ops c₂, runActions call ops c₁ = some c₂ →
        runMeets call (fun c op => Allocates c op ∧ Spares k op) ops c₁ →
        c₂.existsKey k = true → ∀ t,
          Rearmed c₂ k (c.holds k) (now.toNat + ts.toNat) t ↔
            OnTime c₂ k (now.toNat + ts.toNat) t) := by
  have hpointed := pointed_of_reach hc
  constructor
  · intro habsent
    unfold existsKey at habsent
    have hlookup : c.cache.lookup k = none := by simpa using habsent
    simp [TimedCache.expired, hlookup]
  · intro hpresent
    obtain ⟨c₁, hexpired, hpointed₁, -, hholds, -⟩ :=
      hpointed.expired_spec hpresent hfresh ts now
    refine ⟨c₁, hexpired, fun ops c₂ hrun hops hstays t => ?_⟩
    obtain ⟨hpointed₂, hkept⟩ := stays_of_run ops hpointed₁ hrun hops
    rw [← hholds, ← hkept.holds_eq hpointed₁ hpointed₂ hstays]
    exact rearmed_iff hpointed₂ hstays _ t

/-- Two keys that are to go at 100 and at 1000. -/
def setBoth : List (Operation Nat Nat) := [.set 1 10 100 0 0, .set 2 20 1000 0 1]

theorem reach_setBoth : ∃ c, runActions call setBoth (new 0 0) = some c ∧
    Reach (new 0 0) call Allocates c := by
  obtain ⟨c, hrun⟩ : ∃ c, runActions call setBoth (new 0 0) = some c :=
    Option.isSome_iff_exists.mp (by decide)
  exact ⟨c, hrun, reach_of_runActions setBoth hrun (by decide)⟩

/-- `expired_rearms_iff` for the first of the two keys and the deadline that it has. -/
theorem expired_rearms_setBoth : ∃ c c₁, runActions call setBoth (new 0 0) = some c ∧
    c.expired 1 100 0 0 = some (true, c₁) ∧
      (Rearmed c₁ 1 (c.holds 1) 100 100 ↔ OnTime c₁ 1 100 100) := by
  obtain ⟨c, hrun, hreach⟩ := reach_setBoth
  have hpresent : (runActions call setBoth (new 0 0)).map (fun c => c.existsKey 1) =
      some true := by decide
  have hallocates : (runActions call setBoth (new 0 0)).map
      (fun c => decide (Allocates c (.expired 1 100 0 0))) = some true := by decide
  rw [hrun] at hpresent hallocates
  obtain ⟨c₁, hexpired, hall⟩ := (expired_rearms_iff hreach 1 100 0
    (of_decide_eq_true (Option.some.inj hallocates))).2 (Option.some.inj hpresent)
  refine ⟨c, c₁, hrun, hexpired, hall [] c₁ rfl trivial ?_ 100⟩
  have hstill : (runActions call setBoth (new 0 0)).map
      (fun c => (c.expired 1 100 0 0).map fun r => r.2.existsKey 1) = some (some true) := by decide
  rw [hrun, Option.map_some, hexpired] at hstill
  exact Option.some.inj (Option.some.inj hstill)

/-- **The first key gets the deadline 500**, and at 100 it goes. -/
theorem not_rearmed_setBoth : ∃ c c₁ : TimedCache Nat Nat,
    Reach (new 0 0) call Allocates c ∧ c.existsKey 1 = true ∧
      c.expired 1 500 0 0 = some (true, c₁) ∧ ¬ Rearmed c₁ 1 (c.holds 1) 500 100 := by
  obtain ⟨c, hrun, hreach⟩ := reach_setBoth
  have hpresent : (runActions call setBoth (new 0 0)).map (fun c => c.existsKey 1) =
      some true := by decide
  have hgone : (runActions call setBoth (new 0 0)).map (fun c => (c.expired 1 500 0 0).map
      fun r => (r.1, (r.2.checkTimeout 100).map fun r => r.2.existsKey 1)) =
        some (some (true, some false)) := by decide
  rw [hrun] at hpresent hgone
  obtain ⟨⟨answer, c₁⟩, hexpired, heq⟩ := Option.map_eq_some_iff.mp (Option.some.inj hgone)
  obtain ⟨rfl, hremoved⟩ := Prod.mk.inj heq
  refine ⟨c, c₁, hreach, Option.some.inj hpresent, hexpired, ?_⟩
  rintro ⟨removed, c', hcheck, hkept, -⟩
  rw [hcheck] at hremoved
  have hgone : c'.existsKey 1 = false := Option.some.inj hremoved
  rw [(hkept (by decide)).1] at hgone
  cases hgone

end TimedCache
end Ds
end Routn
