import Routn.Ds.TimedCache
import Routn.Foundation.Transition

/-!
# What a `Timed_Cache` remembers

The latest `set` of a key leaves a value and an expiry time, until the key is deleted, pruned or
timed out.  The map and the set of items are in bijection as long as no key is set again: then the
old item stays in the set, unless the new one has the same deadline, in which case the old value
stays.
-/

namespace Routn
namespace Ds
namespace TimedCache

open Foundation

variable {K V : Type*} [LinearOrder K]

/-- The value and the expiry time of the latest `set`. -/
abbrev Latest (K V : Type*) := K → Option (V × Nat)

namespace Latest

/-- The keys of these items are forgotten. -/
def forget (latest : Latest K V) (items : List (Item K V)) : Latest K V :=
  fun k => if k ∈ items.map Item.key then none else latest k

@[simp] theorem forget_nil (latest : Latest K V) : latest.forget [] = latest := by
  funext k
  simp [forget]

/-- What is remembered after an operation with this answer. -/
def record (latest : Latest K V) : Operation K V → Answer K V → Latest K V
  | .set k v expired now _, .removed items =>
      forget (Function.update latest k (some (v, expired.toNat + now.toNat))) items
  | .del k _, _ => Function.update latest k none
  | .clear, _ => fun _ => none
  | .checkTimeout _, .removed items => latest.forget items
  | _, _ => latest

end Latest

/-! ## Soundness -/

/-- The map and the set are in bijection, and the items are those of the latest `set`s. -/
structure Sound (c : TimedCache K V) (latest : Latest K V) : Prop where
  indexes : Indexes Item.key c.cache c.timed
  sorted : OrderedSet.Sorted Item.less Item.rank c.timed
  latest_of_mem : ∀ node ∈ c.timed, ∃ expiry,
    latest node.item.key = some (node.item.val, expiry) ∧ UInt64.ofNat expiry = node.item.ts
  mem_of_latest : ∀ k value, latest k = some value → ∃ node ∈ c.timed, node.item.key = k

/-- `prune` has nothing to do. -/
def Settled (c : TimedCache K V) : Prop :=
  c.maxSize = 0 ∨ c.cache.size < c.getMaxAllowedSize.toNat ∨ c.cache.size ≤ c.maxSize.toNat

variable {c c' : TimedCache K V} {latest : Latest K V} {k : K} {v : V} {it node : Nat}

omit [LinearOrder K] in
theorem Settled.mono (h : c.Settled) (hsize : c'.cache.size ≤ c.cache.size)
    (hmax : c'.maxSize = c.maxSize) (helasticity : c'.elasticity = c.elasticity) :
    c'.Settled := by
  rw [Settled, getMaxAllowedSize] at *
  rw [hmax, helasticity]
  exact h.imp_right (Or.imp (Nat.lt_of_le_of_lt hsize) hsize.trans)

theorem prune_settled (h : c.Settled) : c.prune = some ([], c) := by
  rw [prune]
  split
  · rfl
  · next hmany =>
      obtain ⟨hlimited, hmany⟩ := not_or.mp hmany
      have hsize := (h.resolve_left hlimited).resolve_left hmany
      rw [Index.shrink_of_le hsize]
      simp

namespace Sound

theorem new (max_size elasticity : UInt64) :
    (TimedCache.new max_size elasticity : TimedCache K V).Sound fun _ => none where
  indexes := .empty
  sorted := .nil
  latest_of_mem := by simp [TimedCache.new]
  mem_of_latest := by simp

theorem latest_eq_none (h : c.Sound latest) (hlookup : c.cache.lookup k = none) :
    latest k = none := by
  by_contra hsome
  obtain ⟨value, hvalue⟩ := Option.ne_none_iff_exists'.mp hsome
  obtain ⟨node, hnode, hkey⟩ := h.mem_of_latest k value hvalue
  exact h.indexes.not_mem_of_lookup hlookup node hnode hkey

/-- Items go out, and their keys are forgotten. -/
theorem forget (h : c.Sound latest) (gone : List (Node (Item K V)))
    {left : List (Node (Item K V))} {cache : Index K}
    (hperm : c.timed.Perm (gone ++ left)) (hleft : left.Sublist c.timed)
    (hindexes : Indexes Item.key cache left) (status : CacheStatus) :
    Sound { c with cache := cache, timed := left, status := status }
      (latest.forget (gone.map Node.item)) where
  indexes := hindexes
  sorted := h.sorted.sublist hleft
  latest_of_mem node hnode := by
    have hkept : node.item.key ∉ (gone.map Node.item).map Item.key := by
      simp only [List.map_map, List.mem_map, Function.comp_apply, not_exists, not_and]
      intro other hother hkey
      obtain rfl := h.indexes.eq_of_key (hperm.mem_iff.mpr (List.mem_append_left _ hother))
        (hleft.subset hnode) hkey
      have hnodup := (hperm.nodup_iff.mp (List.Nodup.of_map _ h.indexes.nodup))
      exact (List.nodup_append.mp hnodup).2.2 _ hother _ hnode rfl
    rw [Latest.forget, if_neg hkept]
    exact h.latest_of_mem node (hleft.subset hnode)
  mem_of_latest k value hvalue := by
    rw [Latest.forget] at hvalue
    split at hvalue
    · cases hvalue
    · next hkept =>
        obtain ⟨node, hnode, rfl⟩ := h.mem_of_latest k value hvalue
        rcases List.mem_append.mp (hperm.mem_iff.mp hnode) with hgone | hstays
        · exact absurd (List.mem_map.mpr ⟨_, List.mem_map_of_mem hgone, rfl⟩) hkept
        · exact ⟨node, hstays, rfl⟩

/-- `prune` leaves a cache that is settled. -/
theorem prune (h : c.Sound latest) :
    ∃ removed c', c.prune = some (removed, c') ∧ c'.Sound (latest.forget removed) ∧
      c'.Settled := by
  rw [TimedCache.prune]
  split
  · next hfew =>
      refine ⟨[], c, rfl, ?_, hfew.imp_right .inl⟩
      simpa using h.forget [] (.refl _) (.refl _) h.indexes c.status
  · obtain ⟨cache', hshrink, hindexes⟩ := h.indexes.shrink c.maxSize.toNat
    rw [hshrink]
    refine ⟨_, _, rfl, h.forget _ ?_ (List.drop_sublist ..) hindexes _, .inr (.inr ?_)⟩
    · rw [List.take_append_drop]
    · show cache'.size ≤ c.maxSize.toNat
      rw [hindexes.size_eq, List.length_drop]
      omega

/-- The item that an entry points to is taken out. -/
theorem unlink (h : c.Sound latest) (hlookup : c.cache.lookup k = some it) :
    ∃ v ts rest expiry, Foundation.unlink it c.timed = some (⟨it, ⟨k, v, ts⟩⟩, rest) ∧
      c.timed.Perm (⟨it, ⟨k, v, ts⟩⟩ :: rest) ∧ rest.Sublist c.timed ∧
      latest k = some (v, expiry) ∧ UInt64.ofNat expiry = ts := by
  obtain ⟨⟨address, key, v, ts⟩, rest, hunlink, rfl⟩ := h.indexes.unlink hlookup
  have hperm := perm_of_unlink hunlink
  obtain ⟨rfl, front, back, htimed, rfl⟩ := split_of_unlink hunlink
  obtain ⟨expiry, hlatest, hts⟩ := h.latest_of_mem _ (hperm.mem_iff.mpr List.mem_cons_self)
  refine ⟨v, ts, front ++ back, expiry, hunlink, hperm, ?_, hlatest, hts⟩
  rw [htimed]
  exact (List.Sublist.refl front).append (List.sublist_cons_self ..)

end Sound

/-! ## Operations -/

/-- What the set finds is the item of the key. -/
theorem find_key {timed : List (Node (Item K V))} {ts : UInt64} {found : Node (Item K V)}
    (hfind : OrderedSet.find Item.less Item.rank (ts, k) timed = some found) :
    found ∈ timed ∧ found.item.key = k ∧ found.item.ts = ts := by
  have hrank := OrderedSet.key_of_find Item.less_strictOrder hfind
  exact ⟨OrderedSet.mem_of_find hfind, congrArg Prod.snd hrank, congrArg Prod.fst hrank⟩

/-- The set before `prune`. -/
def setEntry (c : TimedCache K V) (k : K) (v : V) (expired now : UInt64) (node : Nat) :
    TimedCache K V :=
  let cache : Index K := if (c.cache.lookup k).isSome then c.cache.erase k else c.cache
  let (it, timed) := insertItem c.timed node ⟨k, v, expired + now⟩
  { c with cache := cache.emplace k it, timed := timed, status := c.status.incSet }

theorem set_eq (c : TimedCache K V) (k : K) (v : V) (expired now : UInt64) (node : Nat) :
    c.set k v expired now node = (c.setEntry k v expired now node).prune := rfl

/-- The map afterwards. -/
theorem lookup_setEntry (c : TimedCache K V) (k : K) (v : V) (expired now : UInt64) (node : Nat)
    (k' : K) : (c.setEntry k v expired now node).cache.lookup k' =
      if k' = k then some (insertItem c.timed node ⟨k, v, expired + now⟩).1
      else c.cache.lookup k' := by
  have hnone : (if (c.cache.lookup k).isSome then c.cache.erase k else c.cache : Index K).lookup k
      = none := by
    split
    · exact AList.lookup_erase ..
    · next habsent => simpa using habsent
  rw [setEntry]
  simp only [Index.lookup_emplace _ hnone]
  split
  · rfl
  · next hne =>
      split
      · exact AList.lookup_erase_ne hne
      · rfl

/-- A new key: its item goes into the set. -/
theorem Sound.setEntry_new (h : c.Sound latest) {expired now : UInt64}
    (hlegal : node ∉ c.timed.map Node.address) (hlookup : c.cache.lookup k = none) :
    (c.setEntry k v expired now node).Sound
      (Function.update latest k (some (v, expired.toNat + now.toNat))) := by
  have hfind : OrderedSet.find Item.less Item.rank (expired + now, k) c.timed = none := by
    cases hcase : OrderedSet.find Item.less Item.rank (expired + now, k) c.timed with
    | none => rfl
    | some found =>
        obtain ⟨hfound, hkey, -⟩ := find_key hcase
        exact absurd hkey (h.indexes.not_mem_of_lookup hlookup found hfound)
  have htimed : (c.setEntry k v expired now node).timed =
      OrderedSet.insert Item.less Item.rank ⟨node, ⟨k, v, expired + now⟩⟩ c.timed := by
    simp [setEntry, insertItem, hfind]
  have hcache : (c.setEntry k v expired now node).cache = c.cache.emplace k node := by
    simp [setEntry, insertItem, hfind, hlookup]
  have hperm : (c.setEntry k v expired now node).timed.Perm
      (⟨node, ⟨k, v, expired + now⟩⟩ :: c.timed) := htimed ▸ OrderedSet.perm_insert hfind
  refine ⟨?_, ?_, fun other hother => ?_, fun k' value hvalue => ?_⟩
  · rw [hcache]
    exact (h.indexes.cons ⟨k, v, expired + now⟩ hlegal hlookup).perm hperm.symm
  · rw [htimed]
    exact h.sorted.insert Item.less_strictOrder _
  · rcases List.mem_cons.mp (hperm.mem_iff.mp hother) with rfl | hother
    · refine ⟨expired.toNat + now.toNat, Function.update_self .., ?_⟩
      simp
    · rw [Function.update_of_ne (h.indexes.not_mem_of_lookup hlookup other hother)]
      exact h.latest_of_mem other hother
  · by_cases heq : k' = k
    · exact ⟨_, hperm.mem_iff.mpr List.mem_cons_self, heq.symm⟩
    · rw [Function.update_of_ne heq] at hvalue
      obtain ⟨other, hother, hkey⟩ := h.mem_of_latest k' value hvalue
      exact ⟨other, hperm.mem_iff.mpr (List.mem_cons_of_mem _ hother), hkey⟩

/-- The same deadline again: the set keeps the item that it has. -/
theorem setEntry_same (h : c.Sound latest) {found : Node (Item K V)} (hfound : found ∈ c.timed)
    {expired now : UInt64} (hts : found.item.ts = expired + now) (v : V) (node : Nat) :
    (c.setEntry found.item.key v expired now node).timed = c.timed ∧
      Indexes Item.key (c.setEntry found.item.key v expired now node).cache c.timed := by
  have hfind : OrderedSet.find Item.less Item.rank (expired + now, found.item.key) c.timed =
      some found := by
    rw [← hts]
    exact h.sorted.find_of_mem Item.less_strictOrder hfound
  refine ⟨by simp [setEntry, insertItem, hfind], h.indexes.congr fun k => ?_⟩
  rw [lookup_setEntry]
  split
  · next heq =>
      rw [heq, h.indexes.lookup_of_mem hfound]
      simp [insertItem, hfind]
  · rfl

/-- A key that is set again keeps its entry, so that there is nothing to prune. -/
theorem set_again (h : c.Sound latest) (hsettled : c.Settled) {found : Node (Item K V)}
    (hfound : found ∈ c.timed) (v : V) (expired now : UInt64) (node : Nat) :
    c.set found.item.key v expired now node =
      some ([], c.setEntry found.item.key v expired now node) := by
  have hsize : (c.setEntry found.item.key v expired now node).cache.size = c.cache.size := by
    refine Index.size_congr fun k => ?_
    rw [lookup_setEntry]
    split
    · next heq => rw [heq, h.indexes.lookup_of_mem hfound]; rfl
    · rfl
  rw [set_eq]
  exact prune_settled (hsettled.mono (Nat.le_of_eq hsize) rfl rfl)

theorem Sound.setEntry_same (h : c.Sound latest) {found : Node (Item K V)}
    (hfound : found ∈ c.timed) {expired now : UInt64} (hts : found.item.ts = expired + now) :
    (c.setEntry found.item.key found.item.val expired now node).Sound
      (Function.update latest found.item.key
        (some (found.item.val, expired.toNat + now.toNat))) := by
  obtain ⟨htimed, hindexes⟩ :=
    TimedCache.setEntry_same h hfound hts found.item.val node
  refine ⟨htimed ▸ hindexes, htimed ▸ h.sorted, fun other hother => ?_, fun k value hvalue => ?_⟩
  · rw [htimed] at hother
    by_cases heq : other.item.key = found.item.key
    · obtain rfl := h.indexes.eq_of_key hother hfound heq
      exact ⟨_, Function.update_self .., by simp [hts]⟩
    · rw [Function.update_of_ne heq]
      exact h.latest_of_mem other hother
  · rw [htimed]
    by_cases heq : k = found.item.key
    · exact ⟨found, hfound, heq.symm⟩
    · rw [Function.update_of_ne heq] at hvalue
      exact h.mem_of_latest k value hvalue

/-! ### `checkTimeout` -/

/-- What the loop removes: every second item, as long as it is due. -/
def visited (ts : UInt64) : List (Node (Item K V)) → List (Node (Item K V))
  | [] => []
  | [node] => if node.item.ts ≤ ts then [node] else []
  | node :: _ :: rest => if node.item.ts ≤ ts then node :: visited ts rest else []

/-- All of an odd number of items are due. -/
def Overruns (ts : UInt64) (timed : List (Node (Item K V))) : Prop :=
  timed.length % 2 = 1 ∧ ∀ node ∈ timed, node.item.ts ≤ ts

omit [LinearOrder K] in
theorem ts_le_of_mem_visited {ts : UInt64} {timed : List (Node (Item K V))} {node : Node (Item K V)}
    (h : node ∈ visited ts timed) : node.item.ts ≤ ts := by
  fun_induction visited ts timed with
  | case1 => cases h
  | case2 other hle => exact List.mem_singleton.mp h ▸ hle
  | case3 other hle => cases h
  | case4 first next rest hle ih =>
      rcases List.mem_cons.mp h with rfl | h
      · exact hle
      · exact ih h
  | case5 first next rest hle => cases h

omit [LinearOrder K] in
theorem visited_sublist (ts : UInt64) (timed : List (Node (Item K V))) :
    (visited ts timed).Sublist timed := by
  fun_induction visited ts timed with
  | case1 => exact .refl _
  | case2 node hle => exact .refl _
  | case3 node hle => exact List.nil_sublist _
  | case4 node next rest hle ih => exact (ih.cons next).cons_cons node
  | case5 node next rest hle => exact List.nil_sublist _

/-- The last one of the others is due, and so is what stands in front of it. -/
theorem overruns_cons_cons {ts : UInt64} {first next : Node (Item K V)}
    {rest : List (Node (Item K V))}
    (hsorted : OrderedSet.Sorted Item.less Item.rank (first :: next :: rest))
    (hle : first.item.ts ≤ ts) : Overruns ts (first :: next :: rest) ↔ Overruns ts rest := by
  have hodd : (first :: next :: rest).length % 2 = rest.length % 2 := by
    simp only [List.length_cons]
    omega
  rw [Overruns, Overruns, hodd]
  refine and_congr_right fun hrest => ⟨fun hall node hnode => ?_, fun hall node hnode => ?_⟩
  · exact hall node (List.mem_cons_of_mem _ (List.mem_cons_of_mem _ hnode))
  · rcases List.mem_cons.mp hnode with rfl | hnode
    · exact hle
    · rcases List.mem_cons.mp hnode with rfl | hnode
      · cases rest with
        | nil => cases hrest
        | cons last rest =>
            have hless := List.rel_of_pairwise_cons (List.pairwise_cons.mp hsorted).2
              (List.mem_cons_self (a := last) (l := rest))
            exact UInt64.le_trans (Item.le_of_less hless) (hall last List.mem_cons_self)
      · exact hall node hnode

/-- The loop runs past the end, or removes what it visits. -/
theorem checkTimeoutLoop_cases (ts : UInt64) (cache : Index K) {timed : List (Node (Item K V))}
    (hsorted : OrderedSet.Sorted Item.less Item.rank timed) :
    (checkTimeoutLoop ts cache timed = none ∧ Overruns ts timed) ∨
      ¬ Overruns ts timed ∧ ∃ cache' left, checkTimeoutLoop ts cache timed =
          some ((visited ts timed).map Node.item, cache', left) ∧
        timed.Perm (visited ts timed ++ left) ∧ left.Sublist timed ∧
        ∀ kept, Indexes Item.key cache (kept ++ timed) →
          Indexes Item.key cache' (kept ++ left) := by
  fun_induction visited ts timed generalizing cache with
  | case1 => exact .inr ⟨by simp [Overruns], cache, [], rfl, .refl _, .refl _, fun _ h => h⟩
  | case2 node hle =>
      rw [checkTimeoutLoop, if_pos hle]
      exact .inl ⟨rfl, rfl, by simpa using hle⟩
  | case3 node hle =>
      rw [checkTimeoutLoop, if_neg hle]
      exact .inr ⟨by simp [Overruns, hle], cache, [node], rfl, .refl _, .refl _, fun _ h => h⟩
  | case4 node next rest hle ih =>
      have hrest : OrderedSet.Sorted Item.less Item.rank rest :=
        hsorted.sublist ((List.sublist_cons_self ..).trans (List.sublist_cons_self ..))
      rw [checkTimeoutLoop, if_pos hle, overruns_cons_cons hsorted hle]
      rcases ih (cache.erase node.item.key) hrest with
        ⟨hnone, hover⟩ | ⟨hfits, cache', left, hsome, hperm, hleft, hindexes⟩
      · rw [hnone]
        exact .inl ⟨rfl, hover⟩
      · rw [hsome]
        refine .inr ⟨hfits, cache', next :: left, rfl, ?_, (hleft.cons_cons next).cons node,
          fun kept h => ?_⟩
        · exact ((hperm.cons next).trans List.perm_middle.symm).cons node
        · -- The item that is skipped stays in front of what the loop goes on with.
          have htail := (h.perm List.perm_middle).tail
          have hkept := hindexes (kept ++ [next]) (by simpa using htail)
          simpa using hkept
  | case5 node next rest hle =>
      rw [checkTimeoutLoop, if_neg hle]
      exact .inr ⟨fun hover => hle (hover.2 node List.mem_cons_self), cache, _, rfl, .refl _,
        .refl _, fun _ h => h⟩

/-! ## The operations -/

theorem Sound.isSome_lookup (h : c.Sound latest) (k : K) :
    (c.cache.lookup k).isSome = (latest k).isSome := by
  cases hlookup : c.cache.lookup k with
  | none =>
      rw [h.latest_eq_none hlookup]
      rfl
  | some it =>
      obtain ⟨v, ts, rest, expiry, -, -, -, hlatest, -⟩ := h.unlink hlookup
      rw [hlatest]
      rfl

theorem get_spec (h : c.Sound latest) (hsettled : c.Settled) (k : K) :
    ∃ c', c.get k = some ((latest k).map Prod.fst, c') ∧ c'.Sound latest ∧ c'.Settled := by
  cases hlookup : c.cache.lookup k with
  | none =>
      rw [h.latest_eq_none hlookup]
      exact ⟨{ c with status := c.status.incGet }, by simp [get, hlookup],
        ⟨h.indexes, h.sorted, h.latest_of_mem, h.mem_of_latest⟩, hsettled⟩
  | some it =>
      obtain ⟨v, ts, rest, expiry, hunlink, -, -, hlatest, -⟩ := h.unlink hlookup
      rw [hlatest]
      exact ⟨{ c with status := c.status.incGet.incHit },
        by simp [get, hlookup, itemAt, hunlink],
        ⟨h.indexes, h.sorted, h.latest_of_mem, h.mem_of_latest⟩, hsettled⟩

theorem del_spec (h : c.Sound latest) (hsettled : c.Settled) {returned : Option Bool}
    (hreturned : returned = none → c.existsKey k = false) :
    ∃ answer c', c.del k returned = some (answer, c') ∧
      c'.Sound (Function.update latest k none) ∧ c'.Settled := by
  cases hlookup : c.cache.lookup k with
  | none =>
      rw [← h.latest_eq_none hlookup, Function.update_eq_self]
      exact ⟨false, { c with status := c.status.incDel }, by simp [del, hlookup],
        ⟨h.indexes, h.sorted, h.latest_of_mem, h.mem_of_latest⟩, hsettled⟩
  | some it =>
      obtain ⟨v, ts, rest, expiry, hunlink, hperm, hrest, -, -⟩ := h.unlink hlookup
      cases returned with
      | none => simp [existsKey, hlookup] at hreturned
      | some answer =>
          have htail := (h.indexes.perm hperm).tail
          have hforget := h.forget [⟨it, ⟨k, v, ts⟩⟩] hperm hrest htail
            c.status.incDel.incHit
          refine ⟨answer, _, by simp only [del, hlookup, hunlink]; rfl, ?_, ?_⟩
          · convert hforget using 1
            funext k'
            simp [Latest.forget, Function.update_apply]
          · refine hsettled.mono ?_ rfl rfl
            show Index.size (c.cache.erase k) ≤ _
            rw [h.indexes.size_eq]
            exact htail.size_eq ▸ hrest.length_le

theorem expired_spec (h : c.Sound latest) (hsettled : c.Settled) (ts now : UInt64)
    (hlegal : ∀ other ∈ c.timed, other.address = node → other.item.key = k) :
    ∃ answer c', c.expired k ts now node = some (answer, c') ∧ c'.Sound latest ∧ c'.Settled := by
  cases hlookup : c.cache.lookup k with
  | none => exact ⟨false, c, by simp [expired, hlookup], h, hsettled⟩
  | some it =>
      obtain ⟨v, deadline, rest, expiry, hunlink, hperm, hrest, hlatest, hts⟩ := h.unlink hlookup
      by_cases hsame : deadline = ts + now
      · exact ⟨true, c, by simp [expired, hlookup, hunlink, hsame], h, hsettled⟩
      · -- The other items have other keys, so the item is inserted again.
        have htail := (h.indexes.perm hperm).tail
        have hfind : OrderedSet.find Item.less Item.rank (deadline, k) rest = none := by
          cases hcase : OrderedSet.find Item.less Item.rank (deadline, k) rest with
          | none => rfl
          | some found =>
              obtain ⟨hfound, hkey, -⟩ := find_key hcase
              exact absurd hkey (htail.not_mem_of_lookup (AList.lookup_erase ..) found hfound)
        have hfresh : node ∉ rest.map Node.address := by
          intro hin
          obtain ⟨other, hother, haddress⟩ := List.mem_map.mp hin
          exact htail.not_mem_of_lookup (AList.lookup_erase ..) other hother
            (hlegal other (hrest.subset hother) haddress)
        have hindexes := htail.cons ⟨k, v, deadline⟩ hfresh (AList.lookup_erase ..)
        have hinsert : (OrderedSet.insert Item.less Item.rank ⟨node, ⟨k, v, deadline⟩⟩ rest).Perm
            (⟨node, ⟨k, v, deadline⟩⟩ :: rest) := OrderedSet.perm_insert hfind
        have hcache : Indexes Item.key (c.cache.insert k node)
            (OrderedSet.insert Item.less Item.rank ⟨node, ⟨k, v, deadline⟩⟩ rest) := by
          refine (hindexes.congr fun k' => ?_).perm hinsert.symm
          rw [Index.lookup_emplace _ (AList.lookup_erase ..)]
          split
          · next heq => rw [heq, AList.lookup_insert]
          · next hne => rw [AList.lookup_insert_ne hne, AList.lookup_erase_ne hne]
        have hmem : ∀ other ∈ OrderedSet.insert Item.less Item.rank ⟨node, ⟨k, v, deadline⟩⟩ rest,
            ∃ old ∈ c.timed, old.item = other.item := by
          intro other hother
          rcases List.mem_cons.mp (hinsert.mem_iff.mp hother) with rfl | hother
          · exact ⟨_, hperm.mem_iff.mpr List.mem_cons_self, rfl⟩
          · exact ⟨other, hrest.subset hother, rfl⟩
        refine ⟨true, { c with
            timed := OrderedSet.insert Item.less Item.rank ⟨node, ⟨k, v, deadline⟩⟩ rest
            cache := c.cache.insert k node },
          by simp [expired, hlookup, hunlink, hsame, insertItem, hfind],
          ⟨hcache, OrderedSet.Sorted.insert Item.less_strictOrder (h.sorted.sublist hrest) _,
            fun other hother => ?_, fun k' value hvalue => ?_⟩, hsettled.mono ?_ rfl rfl⟩
        · obtain ⟨old, hold, hitem⟩ := hmem other hother
          exact hitem ▸ h.latest_of_mem old hold
        · obtain ⟨old, hold, rfl⟩ := h.mem_of_latest k' value hvalue
          rcases List.mem_cons.mp (hperm.mem_iff.mp hold) with rfl | hold
          · exact ⟨_, hinsert.mem_iff.mpr List.mem_cons_self, rfl⟩
          · exact ⟨old, hinsert.mem_iff.mpr (List.mem_cons_of_mem _ hold), rfl⟩
        · show Index.size (c.cache.insert k node) ≤ _
          rw [hcache.size_eq, h.indexes.size_eq, hinsert.length_eq, hperm.length_eq]
          exact Nat.le_refl _

theorem set_spec (h : c.Sound latest) {expired now : UInt64}
    (hlegal : node ∉ c.timed.map Node.address)
    (hfound : ∀ found ∈ c.timed, found.item.key = k →
      found.item.ts = expired + now ∧ found.item.val = v) :
    ∃ removed c', c.set k v expired now node = some (removed, c') ∧
      c'.Sound (Latest.forget (Function.update latest k
        (some (v, expired.toNat + now.toNat))) removed) ∧ c'.Settled := by
  rw [set_eq]
  cases hlookup : c.cache.lookup k with
  | none => exact (h.setEntry_new hlegal hlookup).prune
  | some it =>
      obtain ⟨found, hmem, -, rfl⟩ := (h.indexes.lookup k it).mp hlookup
      obtain ⟨hts, rfl⟩ := hfound found hmem rfl
      exact (h.setEntry_same hmem hts).prune

theorem checkTimeout_spec (h : c.Sound latest) (hsettled : c.Settled) (ts : UInt64) :
    (c.checkTimeout ts = none ∧ Overruns ts c.timed) ∨
      ¬ Overruns ts c.timed ∧ ∃ c',
        c.checkTimeout ts = some ((visited ts c.timed).map Node.item, c') ∧
        c'.Sound (latest.forget ((visited ts c.timed).map Node.item)) ∧ c'.Settled := by
  rcases checkTimeoutLoop_cases _ c.cache h.sorted with
    ⟨hnone, hover⟩ | ⟨hfits, cache', left, hsome, hperm, hleft, hindexes⟩
  · exact .inl ⟨by rw [checkTimeout, hnone]; rfl, hover⟩
  · have hcache := hindexes [] h.indexes
    refine .inr ⟨hfits, _, by rw [checkTimeout, hsome]; rfl,
      h.forget _ hperm hleft hcache c.status, hsettled.mono ?_ rfl rfl⟩
    show cache'.size ≤ _
    rw [hcache.size_eq, h.indexes.size_eq]
    exact hleft.length_le

/-- An item that is due times out early exactly if its expiry time does not fit into its
deadline. -/
theorem expiry_le_iff (h : c.Sound latest) {ts : UInt64} {node : Node (Item K V)}
    (hnode : node ∈ c.timed) (hdue : node.item.ts ≤ ts) {expiry : Nat}
    (hlatest : latest node.item.key = some (v, expiry)) :
    expiry ≤ ts.toNat ↔ expiry < 2 ^ 64 := by
  obtain ⟨expiry', hlatest', hts⟩ := h.latest_of_mem node hnode
  obtain ⟨-, rfl⟩ := Prod.mk.inj (Option.some.inj (hlatest'.symm.trans hlatest))
  have htoNat := ts.toNat_lt
  refine ⟨fun hle => Nat.lt_of_le_of_lt hle htoNat, fun hlt => ?_⟩
  rw [← hts, UInt64.le_iff_toNat_le, UInt64.toNat_ofNat_of_lt' hlt] at hdue
  exact hdue

/-! ## Runs -/

/-- The map and the set are in bijection, and the items in the set are the remembered values. -/
def Consistent (s : TimedCache K V × Latest K V) : Prop :=
  Indexes Item.key s.1.cache s.1.timed ∧
    ∀ k v, (∃ expiry, s.2 k = some (v, expiry)) ↔
      ∃ node ∈ s.1.timed, node.item.key = k ∧ node.item.val = v

theorem Sound.consistent (h : c.Sound latest) : Consistent (c, latest) := by
  refine ⟨h.indexes, fun k v => ⟨?_, ?_⟩⟩
  · rintro ⟨expiry, hlatest⟩
    obtain ⟨node, hnode, rfl⟩ := h.mem_of_latest k _ hlatest
    obtain ⟨expiry', hnode', -⟩ := h.latest_of_mem node hnode
    exact ⟨node, hnode, rfl, (Prod.mk.inj (Option.some.inj (hnode'.symm.trans hlatest))).1⟩
  · rintro ⟨node, hnode, rfl, rfl⟩
    obtain ⟨expiry, hlatest, -⟩ := h.latest_of_mem node hnode
    exact ⟨expiry, hlatest⟩

/-- A key that is set again with another deadline or another value: afterwards the set holds two
items with the key, or the old value. -/
theorem not_consistent_set_again (h : c.Sound latest) {found : Node (Item K V)}
    (hfound : found ∈ c.timed) {expired now : UInt64} (hlegal : node ∉ c.timed.map Node.address)
    (hother : ¬ (found.item.ts = expired + now ∧ found.item.val = v)) :
    ¬ Consistent (c.setEntry found.item.key v expired now node,
      Function.update latest found.item.key (some (v, expired.toNat + now.toNat))) := by
  rintro ⟨hindexes, hcontent⟩
  by_cases hts : found.item.ts = expired + now
  · obtain ⟨htimed, -⟩ := TimedCache.setEntry_same h hfound hts v node
    obtain ⟨other, hother', hkey, hval⟩ :=
      (hcontent found.item.key v).mp ⟨_, Function.update_self ..⟩
    rw [htimed] at hother'
    obtain rfl := h.indexes.eq_of_key hother' hfound hkey
    exact hother ⟨hts, hval⟩
  · have hfind : OrderedSet.find Item.less Item.rank (expired + now, found.item.key) c.timed =
        none := by
      cases hcase : OrderedSet.find Item.less Item.rank (expired + now, found.item.key) c.timed with
      | none => rfl
      | some other =>
          obtain ⟨hmem, hkey, hsame⟩ := find_key hcase
          obtain rfl := h.indexes.eq_of_key hmem hfound hkey
          exact absurd hsame hts
    have htimed : (c.setEntry found.item.key v expired now node).timed.Perm
        (⟨node, ⟨found.item.key, v, expired + now⟩⟩ :: c.timed) := by
      simp only [setEntry, insertItem, hfind]
      exact OrderedSet.perm_insert hfind
    have hnew := hindexes.eq_of_key (htimed.mem_iff.mpr List.mem_cons_self)
      (htimed.mem_iff.mpr (List.mem_cons_of_mem _ hfound)) rfl
    exact hlegal (List.mem_map.mpr ⟨found, hfound, by rw [← hnew]⟩)

variable [Inhabited V]

/-- The cache serves an operation, and what is remembered is kept. -/
def observe (s : TimedCache K V × Latest K V) (op : Operation K V) :
    Option (Answer K V × TimedCache K V × Latest K V) :=
  (s.1.perform op).map fun (answer, c) => (answer, c, s.2.record op answer)

/-- A new item is not where one is that stays in the set. -/
def Legal (s : TimedCache K V × Latest K V) : Operation K V → Prop
  | .set _ _ _ _ node => node ∉ s.1.timed.map Node.address
  | .expired k _ _ node => ∀ other ∈ s.1.timed, other.address = node → other.item.key = k
  | _ => True

/-- The answers are about the latest `set`s, and nothing times out before its expiry. -/
def RightAnswer (latest : Latest K V) : Operation K V → Answer K V → Prop
  | .get k, answer => answer = .found ((latest k).map Prod.fst)
  | .getValue k, answer => answer = .value (((latest k).map Prod.fst).getD default)
  | .existsKey k, answer => answer = .flag (latest k).isSome
  | .checkTimeout ts, answer => ∀ items, answer = .removed items →
      ∀ item ∈ items, ∀ v expiry, latest item.key = some (v, expiry) → expiry ≤ ts.toNat
  | _, _ => True

/-- `set` is for a new key, or for the deadline and the value that the key has; the missing `return`
of `del` is survived; `checkTimeout` does not find an odd number of items that are all due, and
visits no item whose deadline had wrapped around when it was due. -/
def Harmless (s : TimedCache K V × Latest K V) : Operation K V → Prop
  | .set k v expired now _ => ∀ found ∈ s.1.timed, found.item.key = k →
      found.item.ts = expired + now ∧ found.item.val = v
  | .del k returned => returned = none → s.1.existsKey k = false
  | .checkTimeout ts => ¬ Overruns ts s.1.timed ∧ ∀ node ∈ visited ts s.1.timed, ∀ v expiry,
      s.2 node.item.key = some (v, expiry) → expiry < 2 ^ 64
  | _ => True

/-- What carries the induction. -/
def Kept (s : TimedCache K V × Latest K V) : Prop := s.1.Sound s.2 ∧ s.1.Settled

/-- The two overloads differ in what they answer for a key that is not there. -/
theorem getValue_eq (c : TimedCache K V) (k : K) :
    c.getValue k = (c.get k).map fun (v, c) => (v.getD default, c) := by
  cases hlookup : c.cache.lookup k with
  | none => simp [getValue, get, hlookup]
  | some it =>
      simp only [getValue, get, hlookup, Option.map_map]
      rfl

theorem observe_good {s : TimedCache K V × Latest K V} {op : Operation K V} (h : Kept s)
    (hlegal : Legal s op) (hok : Harmless s op) :
    ∃ answer s', observe s op = some (answer, s') ∧
      (RightAnswer s.2 op answer ∧ Consistent s') ∧ Kept s' := by
  obtain ⟨c, latest⟩ := s
  obtain ⟨h, hsettled⟩ := h
  cases op with
  | set k v expired now node =>
      obtain ⟨removed, c', hset, hsound, hsettled'⟩ := set_spec h hlegal hok
      exact ⟨_, _, by simp only [observe, perform, hset]; rfl, ⟨trivial, hsound.consistent⟩,
        hsound, hsettled'⟩
  | get k =>
      obtain ⟨c', hget, hsound, hsettled'⟩ := get_spec h hsettled k
      exact ⟨_, _, by simp only [observe, perform, hget]; rfl, ⟨rfl, hsound.consistent⟩,
        hsound, hsettled'⟩
  | getValue k =>
      obtain ⟨c', hget, hsound, hsettled'⟩ := get_spec h hsettled k
      exact ⟨_, _, by simp only [observe, perform, getValue_eq, hget]; rfl,
        ⟨rfl, hsound.consistent⟩, hsound, hsettled'⟩
  | del k returned =>
      obtain ⟨answer, c', hdel, hsound, hsettled'⟩ := del_spec h hsettled hok
      exact ⟨_, _, by simp only [observe, perform, hdel]; rfl, ⟨trivial, hsound.consistent⟩,
        hsound, hsettled'⟩
  | expired k ts now node =>
      obtain ⟨answer, c', hexpired, hsound, hsettled'⟩ := expired_spec h hsettled ts now hlegal
      exact ⟨_, _, by simp only [observe, perform, hexpired]; rfl, ⟨trivial, hsound.consistent⟩,
        hsound, hsettled'⟩
  | existsKey k =>
      exact ⟨_, _, rfl, ⟨by rw [RightAnswer, existsKey, h.isSome_lookup], h.consistent⟩, h,
        hsettled⟩
  | clear =>
      have hsound : (TimedCache.clear c).2.Sound (V := V) fun _ => none :=
        ⟨.empty, .nil, by simp [TimedCache.clear], by simp⟩
      exact ⟨_, _, rfl, ⟨trivial, hsound.consistent⟩, hsound,
        hsettled.mono (Nat.zero_le _) rfl rfl⟩
  | checkTimeout ts =>
      obtain ⟨hfits, hvisited⟩ := hok
      obtain ⟨-, c', hcheck, hsound, hsettled'⟩ :=
        (checkTimeout_spec h hsettled ts).resolve_left fun hover => hfits hover.2
      refine ⟨_, _, by simp only [observe, perform, hcheck]; rfl, ⟨?_, hsound.consistent⟩, hsound,
        hsettled'⟩
      intro items hitems item hitem v expiry hlatest
      obtain rfl := Answer.removed.inj hitems
      obtain ⟨node, hnode, rfl⟩ := List.mem_map.mp hitem
      exact (expiry_le_iff h ((visited_sublist ts _).subset hnode) (ts_le_of_mem_visited hnode)
        hlatest).mpr (hvisited node hnode v expiry hlatest)

theorem observe_bad {s s' : TimedCache K V × Latest K V} {op : Operation K V}
    {answer : Answer K V} (h : Kept s) (hlegal : Legal s op) (hbad : ¬ Harmless s op)
    (hobserve : observe s op = some (answer, s')) :
    ¬ (RightAnswer s.2 op answer ∧ Consistent s') := by
  obtain ⟨c, latest⟩ := s
  obtain ⟨h, hsettled⟩ := h
  rintro ⟨hanswer, hconsistent⟩
  cases op with
  | set k v expired now node =>
      refine hbad fun found hfound hkey => ?_
      subst hkey
      have hset := set_again h hsettled hfound v expired now node
      simp only [observe, perform, hset, Option.map_some, Latest.record, Latest.forget_nil]
        at hobserve
      obtain ⟨-, rfl⟩ := Prod.mk.inj (Option.some.inj hobserve)
      exact by_contra fun hother => not_consistent_set_again h hfound hlegal hother hconsistent
  | del k returned =>
      refine hbad fun hreturned => ?_
      by_contra hpresent
      obtain ⟨it, hit⟩ := Option.isSome_iff_exists.mp (Bool.not_eq_false _ ▸ hpresent)
      obtain ⟨v, ts, rest, expiry, hunlink, -⟩ := h.unlink hit
      simp [observe, perform, del, hit, hunlink, hreturned] at hobserve
  | checkTimeout ts =>
      rcases checkTimeout_spec h hsettled ts with ⟨hnone, -⟩ | ⟨hfits, c', hcheck, -⟩
      · simp [observe, perform, hnone] at hobserve
      · refine hbad ⟨hfits, fun node hnode v expiry hlatest => ?_⟩
        simp only [observe, perform, hcheck, Option.map_some] at hobserve
        obtain ⟨rfl, -⟩ := Prod.mk.inj (Option.some.inj hobserve)
        refine (expiry_le_iff h ((visited_sublist ts _).subset hnode) (ts_le_of_mem_visited hnode)
          hlatest).mp ?_
        exact hanswer _ rfl _ (List.mem_map_of_mem hnode) v expiry hlatest
  | get k => exact hbad trivial
  | getValue k => exact hbad trivial
  | expired k ts now node => exact hbad trivial
  | existsKey k => exact hbad trivial
  | clear => exact hbad trivial

/-- **`Timed_Cache` and the latest `set`s.**  In a sequence of operations on a new cache, at any
values of the clock, no operation runs into undefined behaviour, map and set stay in bijection and
hold the latest values, the answers are about these, and `checkTimeout` removes nothing before its
expiry, exactly if every operation is harmless. -/
theorem timedCache_iff (max_size elasticity : UInt64) (ops : List (Operation K V)) :
    runKeeps observe Legal Consistent
        (fun s op answer s' => RightAnswer s.2 op answer ∧ Consistent s') ops
        (new max_size elasticity, fun _ => none) ↔
      runObserves observe Legal Harmless ops (new max_size elasticity, fun _ => none) :=
  runKeeps_iff (fun h => h.1.consistent)
    (fun h hlegal hok =>
      let ⟨answer, s', hobserve, hright, hs'⟩ := observe_good h hlegal hok
      ⟨answer, s', hobserve, hright, hs'⟩)
    (fun h hlegal hbad hobserve => observe_bad h hlegal hbad hobserve) ops
    ⟨.new max_size elasticity, .inr (.inr (Nat.zero_le _))⟩

/-- A key is set for 100 milliseconds, and one millisecond later for 200.  At 150 its entry goes
with the old item. -/
def setTwice : List (Operation Nat Nat) :=
  [.set 1 10 100 0 0, .set 1 20 200 1 1, .checkTimeout 150]

theorem not_consistent_setTwice : ¬ ∀ ops : List (Operation Nat Nat),
    runKeeps observe Legal Consistent
      (fun s op answer s' => RightAnswer s.2 op answer ∧ Consistent s') ops
      (new 0 0, fun _ => none) := by
  intro hall
  have hrun := hall setTwice
  obtain ⟨r, hset, htimed⟩ : ∃ r, (new 0 0).perform (.set 1 10 100 0 0) = some r ∧
      r.2.timed = [⟨0, ⟨1, 10, 100⟩⟩] := ⟨_, rfl, by decide⟩
  obtain ⟨r', hagain, hkeys⟩ : ∃ r', r.2.perform (.set 1 20 200 1 1) = some r' ∧
      r'.2.timed.map (fun node => node.item.key) = [1, 1] := by
    obtain rfl : _ = r := Option.some.inj hset
    exact ⟨_, rfl, by decide⟩
  obtain ⟨-, hrest⟩ := runKeeps_tail hrun List.not_mem_nil
    (show observe _ _ = some (r.1, r.2, _) by rw [observe, hset]; rfl)
  have hlegal : Legal (r.2, Latest.record (fun _ => none) (.set 1 10 100 0 0) r.1)
      (.set 1 20 200 1 1) := by
    show 1 ∉ r.2.timed.map Node.address
    rw [htimed]
    decide
  obtain ⟨⟨-, hindexes, -⟩, -⟩ := runKeeps_tail hrest hlegal
    (show observe _ _ = some (r'.1, r'.2, _) by rw [observe, hagain]; rfl)
  have hnodup := hindexes.keys_nodup
  rw [hkeys] at hnodup
  exact absurd hnodup (by decide)

end TimedCache
end Ds
end Routn
