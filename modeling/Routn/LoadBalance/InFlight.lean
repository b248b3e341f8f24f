import Routn.LoadBalance.HolderStats

/-!
# `_doing` counts the requests in flight

A request keeps a reference to a slot of the ring until it has its answer.  `_doing` of the slot is
the number of the requests that are charged to it as long as they are done before a later request
finds that the slot's second has passed, and clears it.  After a slot has been cleared under a
request in flight, `decDoing` of that request takes the counter below zero.
-/

namespace Routn
namespace LoadBalance

open Foundation Code

abbrev Requests := Code.State HolderStatsSet Phase

/-- No request has been made of the item. -/
def start : Requests := ⟨.new 5, []⟩

namespace Phase

/-- The slot a request is charged to, from `incDoing` to `decDoing`. -/
def chargedTo (slot : Nat) : Phase → Nat
  | called _ | located .. | returned => 0
  | charged _ slot' | requesting _ slot' | timing _ slot' | answered slot' =>
      if slot' = slot then 1 else 0

/-- The slot that a request has a reference to is one of the ring. -/
def Within (size : Nat) : Phase → Prop
  | called _ | returned => True
  | located _ slot | charged _ slot | requesting _ slot | timing _ slot | answered slot =>
      slot < size

end Phase

/-- The number of requests that are charged to the slot and have not finished. -/
def inFlight (s : Requests) (slot : Nat) : Nat := total (Phase.chargedTo slot) s.threads

/-- **The counters are right.** -/
def Accounted (s : Requests) : Prop :=
  ∀ slot hs, s.shared.stats[slot]? = some hs → hs.doing.toNat = inFlight s slot

/-- A request that starts clears no slot with a request in flight, and none has `2 ^ 32` of them. -/
def Timely (s : Requests) (a : Act Answer UInt64) : Prop :=
  ∀ i answer, a = .run i answer →
    (∀ ts, s.threads[i]? = some (.called ts) →
      ∀ slot ∈ s.shared.cleared (ts / 1000).toUInt32, slot < s.shared.stats.length →
        inFlight s slot = 0) ∧
    (∀ ts slot, s.threads[i]? = some (.located ts slot) → inFlight s slot + 1 < 2 ^ 32)

/-- **What a section does to a slot.** -/
inductive Effect (set : HolderStatsSet) : Phase → HolderStatsSet → Phase → Prop
  | locate (ts : UInt64) :
      Effect set (.called ts) (set.init (ts / 1000).toUInt32)
        (.located ts ((ts / 1000).toUInt32.toNat % set.stats.length))
  | charge (ts : UInt64) (slot : Nat) :
      Effect set (.located ts slot) (set.update slot (.incDoing 1)) (.charged ts slot)
  /-- A section that leaves `_doing` alone. -/
  | count {th th' : Phase} (slot : Nat) (f : HolderStats → HolderStats)
      (hf : ∀ hs, (f hs).doing = hs.doing) (hcharged : ∀ j, th'.chargedTo j = th.chargedTo j)
      (hwithin : ∀ size, th.Within size → th'.Within size)
      (hcalled : ∀ ts, th ≠ .called ts) (hlocated : ∀ ts slot, th ≠ .located ts slot) :
      Effect set th (set.update slot f) th'
  | finish (slot : Nat) :
      Effect set (.answered slot) (set.update slot (.decDoing 1)) .returned

theorem effect_of_next {set set' : HolderStatsSet} {answer : Answer} {th th' : Phase}
    (h : request.next set answer th = some (set', th')) : Effect set th set' th' := by
  cases th with
  | called ts =>
      obtain ⟨rfl, rfl⟩ := Prod.mk.inj (Option.some.inj h)
      have : Effect set _ _ _ := .locate ts
      simpa [HolderStatsSet.get] using this
  | located ts slot =>
      obtain ⟨rfl, rfl⟩ := Prod.mk.inj (Option.some.inj h)
      exact .charge ts slot
  | charged ts slot =>
      obtain ⟨rfl, rfl⟩ := Prod.mk.inj (Option.some.inj h)
      exact .count slot _ (fun _ => rfl) (fun _ => rfl) (fun _ => id) (by simp) (by simp)
  | requesting ts slot =>
      have hcount : ∀ f : HolderStats → HolderStats, (∀ hs, (f hs).doing = hs.doing) →
          Effect set (.requesting ts slot) (set.update slot f) (.answered slot) := fun f hf =>
        .count slot f hf (fun _ => rfl) (fun _ => id) (by simp) (by simp)
      simp only [request] at h
      split at h
      · obtain ⟨rfl, rfl⟩ := Prod.mk.inj (Option.some.inj h)
        exact .count slot _ (fun _ => rfl) (fun _ => rfl) (fun _ => id) (by simp) (by simp)
      split at h
      · obtain ⟨rfl, rfl⟩ := Prod.mk.inj (Option.some.inj h)
        exact hcount _ fun _ => rfl
      split at h
      · obtain ⟨rfl, rfl⟩ := Prod.mk.inj (Option.some.inj h)
        exact hcount _ fun _ => rfl
      · obtain ⟨rfl, rfl⟩ := Prod.mk.inj (Option.some.inj h)
        have hsame : set.update slot id = set := by simp [HolderStatsSet.update]
        have := hcount id fun _ => rfl
        rwa [hsame] at this
  | timing used slot =>
      obtain ⟨rfl, rfl⟩ := Prod.mk.inj (Option.some.inj h)
      exact .count slot _ (fun _ => rfl) (fun _ => rfl) (fun _ => id) (by simp) (by simp)
  | answered slot =>
      obtain ⟨rfl, rfl⟩ := Prod.mk.inj (Option.some.inj h)
      exact .finish slot
  | returned => cases h

/-- The ring keeps its size, and every reference is into it. -/
theorem outline : Outline request (fun set => set.stats.length = 5) (fun _ th => th.Within 5) where
  enter _ := trivial
  own hsize hwithin hnext := by
    cases effect_of_next hnext with
    | locate ts =>
        refine ⟨by simpa using hsize, ?_⟩
        rw [Phase.Within, hsize]
        exact Nat.mod_lt _ (by decide)
    | charge ts slot => exact ⟨by simpa using hsize, hwithin⟩
    | count slot f hf hcharged hkeeps => exact ⟨by simpa using hsize, hkeeps 5 hwithin⟩
    | finish slot => exact ⟨by simpa using hsize, trivial⟩
  others _ _ hother _ := hother

section Steps

variable {s s' : Requests} {i slot : Nat} {th th' : Phase} {set : HolderStatsSet} {ts : UInt64}

/-- A thread that is replaced. -/
theorem inFlight_set (hi : s.threads[i]? = some th) (set : HolderStatsSet) (th' : Phase)
    (slot : Nat) : inFlight ⟨set, s.threads.set i th'⟩ slot + th.chargedTo slot =
    inFlight s slot + th'.chargedTo slot :=
  total_set hi

/-- One slot is changed, and one thread that may be charged to it. -/
theorem Accounted.update (hs : Accounted s) (hi : s.threads[i]? = some th) {h₀ : HolderStats}
    (hslot : s.shared.stats[slot]? = some h₀) (f : HolderStats → HolderStats)
    (hothers : ∀ j, j ≠ slot → th'.chargedTo j = th.chargedTo j) :
    Accounted ⟨s.shared.update slot f, s.threads.set i th'⟩ ↔
      (f h₀).doing.toNat = inFlight ⟨s.shared.update slot f, s.threads.set i th'⟩ slot := by
  have hget : ∀ j, (s.shared.update slot f).stats[j]? =
      if slot = j then s.shared.stats[j]?.map f else s.shared.stats[j]? :=
    fun j => HolderStatsSet.getElem?_update ..
  constructor
  · intro h
    refine h slot (f h₀) ?_
    rw [hget, if_pos rfl, hslot]
    rfl
  · intro h j h₁ hj
    rw [hget] at hj
    by_cases heq : slot = j
    · subst heq
      rw [if_pos rfl, hslot] at hj
      obtain rfl := Option.some.inj hj
      exact h
    · rw [if_neg heq] at hj
      have hset := inFlight_set hi (s.shared.update slot f) th' j
      rw [hothers j (Ne.symm heq)] at hset
      rw [hs j h₁ hj]
      omega

/-- A section that leaves `_doing` alone. -/
theorem Accounted.count (hs : Accounted s) (hi : s.threads[i]? = some th)
    {f : HolderStats → HolderStats} (hf : ∀ hs, (f hs).doing = hs.doing)
    (hcharged : ∀ j, th'.chargedTo j = th.chargedTo j) :
    Accounted ⟨s.shared.update slot f, s.threads.set i th'⟩ := by
  have hset := inFlight_set hi (s.shared.update slot f) th'
  cases hslot : s.shared.stats[slot]? with
  | some h₀ =>
      refine (hs.update hi hslot f fun j _ => hcharged j).mpr ?_
      rw [hf, hs slot h₀ hslot]
      have := hset slot
      rw [hcharged slot] at this
      omega
  | none =>
      -- There is no such slot.
      intro j h₁ hj
      dsimp only at hj
      rw [HolderStatsSet.getElem?_update] at hj
      have hne : slot ≠ j := by
        rintro rfl
        simp [hslot] at hj
      rw [if_neg hne] at hj
      have := hset j
      rw [hcharged j] at this
      rw [hs j h₁ hj]
      omega

/-- `incDoing` counts the request, unless the counter wraps. -/
theorem Accounted.charge (hs : Accounted s) (hi : s.threads[i]? = some (.located ts slot))
    (hslot : slot < s.shared.stats.length) :
    Accounted ⟨s.shared.update slot (.incDoing 1), s.threads.set i (.charged ts slot)⟩ ↔
      inFlight s slot + 1 < 2 ^ 32 := by
  have hget := List.getElem?_eq_getElem hslot
  rw [hs.update hi hget _ fun j hne => by simp [Phase.chargedTo, Ne.symm hne]]
  have hset := inFlight_set hi (s.shared.update slot (.incDoing 1)) (.charged ts slot) slot
  simp only [Phase.chargedTo, if_pos] at hset
  have hdoing := hs slot _ hget
  have hlt := (s.shared.stats[slot]).doing.toNat_lt
  rw [HolderStats.incDoing, UInt32.toNat_add]
  have hone : (1 : UInt32).toNat = 1 := rfl
  rw [hone, hdoing]
  omega

/-- `decDoing` of a request that is counted. -/
theorem Accounted.finish (hs : Accounted s) (hi : s.threads[i]? = some (.answered slot))
    (hslot : slot < s.shared.stats.length) :
    Accounted ⟨s.shared.update slot (.decDoing 1), s.threads.set i .returned⟩ := by
  have hget := List.getElem?_eq_getElem hslot
  refine (hs.update hi hget _ fun j hne => by simp [Phase.chargedTo, Ne.symm hne]).mpr ?_
  have hset := inFlight_set hi (s.shared.update slot (.decDoing 1)) .returned slot
  simp only [Phase.chargedTo, if_pos] at hset
  have hdoing := hs slot _ hget
  have hone : (1 : UInt32).toNat = 1 := rfl
  have hle : (1 : UInt32) ≤ (s.shared.stats[slot]).doing := by
    rw [UInt32.le_iff_toNat_le, hone, hdoing]
    omega
  rw [HolderStats.decDoing, UInt32.toNat_sub_of_le _ _ hle, hone, hdoing]
  omega

/-- `get` clears the slots of the seconds that have passed. -/
theorem Accounted.locate (hs : Accounted s) (hi : s.threads[i]? = some (.called ts)) :
    Accounted ⟨s.shared.init (ts / 1000).toUInt32, s.threads.set i (.located ts slot)⟩ ↔
      ∀ j ∈ s.shared.cleared (ts / 1000).toUInt32, j < s.shared.stats.length →
        inFlight s j = 0 := by
  have hsame : ∀ j, inFlight ⟨s.shared.init (ts / 1000).toUInt32,
      s.threads.set i (.located ts slot)⟩ j = inFlight s j := by
    intro j
    have := inFlight_set hi (s.shared.init (ts / 1000).toUInt32) (.located ts slot) j
    simpa [Phase.chargedTo] using this
  constructor
  · intro h j hj hlt
    have hget := h j {} (by
      dsimp only
      rw [HolderStatsSet.getElem?_init, if_pos hj, List.getElem?_eq_getElem hlt]
      rfl)
    rw [hsame] at hget
    exact hget.symm
  · intro h j h₁ hj
    rw [hsame]
    dsimp only at hj
    rw [HolderStatsSet.getElem?_init] at hj
    split at hj
    · next hmem =>
        obtain ⟨h₀, hget, rfl⟩ := Option.map_eq_some_iff.mp hj
        exact (h j hmem (List.getElem?_eq_some_iff.mp hget).1).symm
    · exact hs j h₁ hj

/-- **One step keeps the counters right** exactly if it is timely. -/
theorem Accounted.step_iff {a : Act Answer UInt64}
    (hplaced : Holds (fun set => set.stats.length = 5) (fun _ th => Phase.Within 5 th) s)
    (hs : Accounted s) (h : request.step s a = some s') : Accounted s' ↔ Timely s a := by
  cases moves_of_step h with
  | call ts =>
      refine iff_of_true (fun j h₁ hj => ?_) (fun i answer h => by cases h)
      simp [inFlight, request, Phase.chargedTo, hs j h₁ hj]
  | @run i answer th th' shared hi hnext =>
      have hwithin := hplaced.2.at hi
      have htimely : Timely s (.run i answer) ↔
          (∀ ts, th = .called ts → ∀ slot ∈ s.shared.cleared (ts / 1000).toUInt32,
            slot < s.shared.stats.length → inFlight s slot = 0) ∧
          (∀ ts slot, th = .located ts slot → inFlight s slot + 1 < 2 ^ 32) := by
        unfold Timely
        constructor
        · intro h
          obtain ⟨hcalled, hlocated⟩ := h i answer rfl
          rw [hi] at hcalled hlocated
          exact ⟨fun ts heq => hcalled ts (by rw [heq]), fun ts slot heq =>
            hlocated ts slot (by rw [heq])⟩
        · rintro ⟨hcalled, hlocated⟩ j ans ⟨⟩
          rw [hi]
          exact ⟨fun ts heq => hcalled ts (Option.some.inj heq), fun ts slot heq =>
            hlocated ts slot (Option.some.inj heq)⟩
      rw [htimely]
      cases effect_of_next hnext with
      | locate ts =>
          rw [hs.locate hi]
          simp
      | charge ts slot =>
          rw [hs.charge hi (by rw [hplaced.1]; exact hwithin)]
          simp
      | count slot f hf hcharged hkeeps hcalled hlocated =>
          exact iff_of_true (hs.count hi hf hcharged)
            ⟨fun ts heq => absurd heq (hcalled ts),
              fun ts slot heq => absurd heq (hlocated ts slot)⟩
      | finish slot =>
          exact iff_of_true (hs.finish hi (by rw [hplaced.1]; exact hwithin)) (by simp)

end Steps

end LoadBalance
end Routn
