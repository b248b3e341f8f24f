import Routn.LoadBalance.SDLoadBalance

/-!
# One balancer for each service

`get` looks for a balancer in one locked section and stores a new one in another.  Between the two
a second creator may have stored its own, and then the balancer of that one is replaced: it has been
returned, and what is put in it from then on is not found.

The balancers are the same, and complete, exactly as long as nobody stores over a balancer.
-/

namespace Routn
namespace SDLoadBalance

open Foundation Code

abbrev Run := Code.State SDLoadBalance Phase

/-- Nothing has been called. -/
def start : Run := ⟨{}, []⟩

/-- What `get` has returned to the call, and for which service. -/
def Phase.result : Phase → Option (Service × Option Nat)
  | updating sv lb _ _ | returned sv lb => some (sv, lb)
  | changing .. | looking .. | storing .. | nothing => none

/-- What the updates for a service make of an empty balancer. -/
def replay (updates : List (Service × List LoadBalanceItem × List UInt64)) (sv : Service) :
    UInt64 → Option LoadBalanceItem :=
  (updates.filter (·.1 = sv)).foldl (fun datas u => LoadBalance.updated datas u.2.1 u.2.2)
    fun _ => none

/-- **One balancer.**  Whatever `get` has returned for a service is what is stored for it, and the
balancer that is stored has what all updates for the service have put in it. -/
structure OneBalancer (s : Run) : Prop where
  same : ∀ th ∈ s.threads, ∀ sv lb, th.result = some (sv, lb) → s.shared.datas sv = some lb
  complete : ∀ sv lb, s.shared.datas sv = some (some lb) →
    ∃ b, s.shared.objects[lb]? = some b ∧ b.datas = replay s.shared.updates sv

/-- A new balancer is stored where there is none.  For a service without a type it is the null
pointer, and makes no difference. -/
def FirstOnly (types : Types) (s : Run)
    (a : Act (UInt64 → Option Nat) Call) : Prop :=
  ∀ i streams sv purpose, a = .run i streams → s.threads[i]? = some (.storing sv purpose) →
    s.shared.datas sv = none ∨ getType types sv = .UNKNOWN

/-! ## What a section does -/

/-- The kinds of sections. -/
inductive Goes (types : Types) (sd : SDLoadBalance) : Phase → SDLoadBalance → Phase → Prop
  /-- Nothing is returned yet. -/
  | on {th th' : Phase} (hth : th.result = none) (hth' : th'.result = none)
      (hstoring : ∀ sv purpose, th ≠ .storing sv purpose) : Goes types sd th sd th'
  | found {sv : Service} {lb : Option Nat} (auto_create : Bool) (purpose : Purpose)
      (hget : sd.datas sv = some lb) :
      Goes types sd (.looking sv auto_create purpose) sd (purpose.resume sv lb)
  | store (sv : Service) (purpose : Purpose) :
      Goes types sd (.storing sv purpose) (sd.store (getType types sv) sv).2
        (purpose.resume sv (sd.store (getType types sv) sv).1)
  | update (sv : Service) (lb : Nat) (adds : List LoadBalanceItem) (dels : List UInt64) :
      Goes types sd (.updating sv (some lb) adds dels) (sd.update lb sv adds dels)
        (.returned sv (some lb))

@[simp] theorem Purpose.result_resume (sv : Service) (lb : Option Nat) (purpose : Purpose) :
    (purpose.resume sv lb).result = some (sv, lb) := by
  cases purpose <;> rfl

variable {types : Types} {sd sd' : SDLoadBalance} {th th' : Phase}
  {streams : UInt64 → Option Nat}

theorem goes_of_next (h : (code types).next sd streams th = some (sd', th')) :
    Goes types sd th sd' th' := by
  cases th with
  | changing sv old_value new_value =>
      simp only [code] at h
      split at h
      · obtain ⟨rfl, rfl⟩ := Prod.mk.inj (Option.some.inj h)
        exact .on rfl rfl (by simp)
      split at h
      · obtain ⟨rfl, rfl⟩ := Prod.mk.inj (Option.some.inj h)
        exact .on rfl rfl (by simp)
      · obtain ⟨rfl, rfl⟩ := Prod.mk.inj (Option.some.inj h)
        exact .on rfl rfl (by simp)
  | looking sv auto_create purpose =>
      cases hget : sd.datas sv with
      | some lb =>
          simp only [code, hget] at h
          obtain ⟨rfl, rfl⟩ := Prod.mk.inj (Option.some.inj h)
          exact .found auto_create purpose hget
      | none =>
          simp only [code, hget] at h
          split at h
          · obtain ⟨rfl, rfl⟩ := Prod.mk.inj (Option.some.inj h)
            exact .on rfl rfl (by simp)
          · obtain ⟨rfl, rfl⟩ := Prod.mk.inj (Option.some.inj h)
            exact .on rfl rfl (by simp)
  | storing sv purpose =>
      obtain ⟨rfl, rfl⟩ := Prod.mk.inj (Option.some.inj h)
      exact .store sv purpose
  | updating sv lb adds dels =>
      cases lb with
      | none => cases h
      | some lb =>
          obtain ⟨rfl, rfl⟩ := Prod.mk.inj (Option.some.inj h)
          exact .update sv lb adds dels
  | returned sv lb => cases h
  | nothing => cases h

/-- What has been returned stays returned. -/
theorem Goes.result_eq (h : Goes types sd th sd' th') {r : Service × Option Nat}
    (hth : th.result = some r) : th'.result = some r := by
  cases h with
  | on hnone => simp [hnone] at hth
  | found => cases hth
  | store => cases hth
  | update => exact hth

/-- What is stored is in the table, and only that has changed. -/
theorem datas_store (type : LoadBalanceType) (sv sv' : Service) (sd : SDLoadBalance) :
    (sd.store type sv).2.datas sv' =
      if sv' = sv then some (sd.store type sv).1 else sd.datas sv' := by
  unfold store
  split
  · simp only [Function.update_apply]
  · simp only [Function.update_apply]

/-- A new object is behind the others, and empty. -/
theorem store_of_known {type : LoadBalanceType} (htype : type ≠ .UNKNOWN) (sv : Service)
    (sd : SDLoadBalance) :
    (sd.store type sv).1 = some sd.objects.length ∧
      (sd.store type sv).2.objects = sd.objects ++ [⟨type, fun _ => none⟩] := by
  rw [store, if_neg htype]
  exact ⟨rfl, rfl⟩

theorem store_of_unknown (sv : Service) (sd : SDLoadBalance) :
    (sd.store .UNKNOWN sv).1 = none ∧ (sd.store .UNKNOWN sv).2.objects = sd.objects :=
  ⟨rfl, rfl⟩

theorem updates_store (type : LoadBalanceType) (sv : Service) (sd : SDLoadBalance) :
    (sd.store type sv).2.updates = sd.updates := by
  unfold store
  split <;> rfl

theorem getElem?_objects_store (type : LoadBalanceType) (sv : Service) {lb : Nat}
    (hlt : lb < sd.objects.length) : (sd.store type sv).2.objects[lb]? = sd.objects[lb]? := by
  by_cases htype : type = .UNKNOWN
  · subst htype
    rfl
  · rw [(store_of_known htype sv sd).2, List.getElem?_append_left hlt]

/-! ## The invariant of every run -/

/-- A balancer that is stored was made for the service and for no other, unless the service has no
type; and updates are for services with a balancer. -/
structure Stored (types : Types) (sd : SDLoadBalance) : Prop where
  bound : ∀ {sv lb}, sd.datas sv = some (some lb) → lb < sd.objects.length
  inj : ∀ {sv sv' lb}, sd.datas sv = some (some lb) → sd.datas sv' = some (some lb) → sv = sv'
  null : ∀ {sv lb}, getType types sv = .UNKNOWN → sd.datas sv = some lb → lb = none
  some_of_update : ∀ u ∈ sd.updates, sd.datas u.1 ≠ none

theorem Stored.store (hsd : Stored types sd) (sv : Service) :
    Stored types (sd.store (getType types sv) sv).2 := by
  by_cases htype : getType types sv = .UNKNOWN
  · rw [htype]
    constructor
    · intro sv' lb h
      rw [datas_store] at h
      split at h
      · cases h
      · exact hsd.bound h
    · intro sv₁ sv₂ lb h₁ h₂
      rw [datas_store] at h₁ h₂
      split at h₁
      · cases h₁
      split at h₂
      · cases h₂
      exact hsd.inj h₁ h₂
    · intro sv' lb hunknown h
      rw [datas_store] at h
      split at h
      · exact (Option.some.inj h).symm
      · exact hsd.null hunknown h
    · intro u hu
      rw [updates_store] at hu
      rw [datas_store]
      split
      · simp
      · exact hsd.some_of_update u hu
  · obtain ⟨hnew, hobjects⟩ := store_of_known htype sv sd
    constructor
    · intro sv' lb h
      rw [hobjects, List.length_append]
      rw [datas_store, hnew] at h
      split at h
      · cases h
        exact Nat.lt_succ_self _
      · exact Nat.lt_succ_of_lt (hsd.bound h)
    · intro sv₁ sv₂ lb h₁ h₂
      rw [datas_store, hnew] at h₁ h₂
      -- The new balancer has an address that no other one has.
      split at h₁
      · next heq₁ =>
          split at h₂
          · next heq₂ => rw [heq₁, heq₂]
          · cases h₁
            exact absurd (hsd.bound h₂) (Nat.lt_irrefl _)
      · split at h₂
        · cases h₂
          exact absurd (hsd.bound h₁) (Nat.lt_irrefl _)
        · exact hsd.inj h₁ h₂
    · intro sv' lb hunknown h
      rw [datas_store] at h
      split at h
      · next heq => exact absurd (heq ▸ hunknown) htype
      · exact hsd.null hunknown h
    · intro u hu
      rw [updates_store] at hu
      rw [datas_store]
      split
      · simp
      · exact hsd.some_of_update u hu

theorem Stored.update (hsd : Stored types sd) {sv : Service} (hsv : sd.datas sv ≠ none) (lb : Nat)
    (adds : List LoadBalanceItem) (dels : List UInt64) :
    Stored types (sd.update lb sv adds dels) where
  bound h := by
    simp only [SDLoadBalance.update, List.length_modify]
    exact hsd.bound h
  inj := hsd.inj
  null := hsd.null
  some_of_update u hu := by
    rcases List.mem_append.mp hu with hold | hnew
    · exact hsd.some_of_update u hold
    · rw [List.mem_singleton.mp hnew]
      exact hsv

/-- What is stored has been returned to somebody, and what has been returned was stored. -/
structure Known (types : Types) (s : Run) : Prop where
  stored : Stored types s.shared
  returned : ∀ {sv lb}, s.shared.datas sv = some lb → ∃ th ∈ s.threads, th.result = some (sv, lb)
  result : ∀ {th}, th ∈ s.threads → ∀ {r}, th.result = some r → s.shared.datas r.1 ≠ none

section Steps

variable {s s' : Run} {a : Act (UInt64 → Option Nat) Call} {i : Nat}

theorem Goes.stored (hsd : Stored types sd) (hth : ∀ r, th.result = some r → sd.datas r.1 ≠ none)
    (h : Goes types sd th sd' th') : Stored types sd' := by
  cases h with
  | on => exact hsd
  | found => exact hsd
  | store sv purpose => exact hsd.store sv
  | update sv lb adds dels => exact hsd.update (hth _ rfl) lb adds dels

/-- An entry of the table does not go away. -/
theorem Goes.datas_ne_none (h : Goes types sd th sd' th') {sv : Service}
    (hsv : sd.datas sv ≠ none) : sd'.datas sv ≠ none := by
  cases h with
  | on => exact hsv
  | found => exact hsv
  | store sv' purpose =>
      rw [datas_store]
      split
      · simp
      · exact hsv
  | update => exact hsv

theorem known_start : Known types start where
  stored := by
    constructor
    · rintro sv lb ⟨⟩
    · rintro sv sv' lb ⟨⟩
    · rintro sv lb - ⟨⟩
    · intro u hu
      cases hu
  returned h := by cases h
  result h := by cases h

theorem Known.step (hs : Known types s) (h : (code types).step s a = some s') : Known types s' := by
  cases moves_of_step h with
  | call k =>
      have hnone : ((code types).enter k).result = none := by cases k <;> rfl
      refine ⟨hs.stored, fun hget => ?_, fun hth r hr => ?_⟩
      · obtain ⟨th, hth, hr⟩ := hs.returned hget
        exact ⟨th, List.mem_append_left _ hth, hr⟩
      · rcases List.mem_append.mp hth with hold | hnew
        · exact hs.result hold hr
        · rw [List.mem_singleton.mp hnew, hnone] at hr
          cases hr
  | @run i streams th th' sd' hi hnext =>
      have hgoes := goes_of_next hnext
      have hlt := (List.getElem?_eq_some_iff.mp hi).1
      have hmem := List.mem_of_getElem? hi
      refine ⟨hgoes.stored hs.stored fun r hr => hs.result hmem hr, fun {sv lb} hget => ?_,
        fun {t} ht r hr => ?_⟩
      · -- Whoever has had it returned still has; what is new has been returned just now.
        have hkeep : ∀ {t r}, t ∈ s.threads → t.result = some r →
            ∃ t' ∈ s.threads.set i th', t'.result = some r := by
          intro t r ht hr
          rcases mem_set_of_mem (b := th') hi ht with rfl | hset
          · exact ⟨th', List.mem_set hlt _, hgoes.result_eq hr⟩
          · exact ⟨t, hset, hr⟩
        cases hgoes with
        | on => obtain ⟨t, ht, hr⟩ := hs.returned hget; exact hkeep ht hr
        | found => obtain ⟨t, ht, hr⟩ := hs.returned hget; exact hkeep ht hr
        | store sv' purpose =>
            dsimp only at hget
            rw [datas_store] at hget
            split at hget
            · next heq =>
                subst heq
                cases hget
                exact ⟨_, List.mem_set hlt _, Purpose.result_resume ..⟩
            · obtain ⟨t, ht, hr⟩ := hs.returned hget
              exact hkeep ht hr
        | update => obtain ⟨t, ht, hr⟩ := hs.returned hget; exact hkeep ht hr
      · rcases List.mem_or_eq_of_mem_set ht with hold | rfl
        · exact hgoes.datas_ne_none (hs.result hold hr)
        · cases hgoes with
          | on hth hth' => simp [hth'] at hr
          | found auto_create purpose hget =>
              rw [Purpose.result_resume] at hr
              obtain rfl := Option.some.inj hr
              simp [hget]
          | store sv purpose =>
              rw [Purpose.result_resume] at hr
              obtain rfl := Option.some.inj hr
              simp [datas_store]
          | update sv lb adds dels =>
              obtain rfl := Option.some.inj hr
              exact hs.result hmem rfl

/-! ## When there is one balancer -/

/-- A service without a balancer has had no updates. -/
theorem Stored.replay_of_none (hsd : Stored types sd) {sv : Service} (hsv : sd.datas sv = none) :
    replay sd.updates sv = fun _ => none := by
  have hnone : sd.updates.filter (fun u => decide (u.1 = sv)) = [] := by
    rw [List.filter_eq_nil_iff]
    intro u hu heq
    exact hsd.some_of_update u hu (by rw [of_decide_eq_true heq, hsv])
  rw [replay, hnone]
  rfl

/-- **Storing over a balancer.**  The call that was returned the old one still has it. -/
theorem Known.first_of_same (hs : Known types s) {sv : Service} {purpose : Purpose}
    (hi : s.threads[i]? = some (.storing sv purpose))
    (hsame : ∀ th ∈ s.threads.set i (purpose.resume sv (s.shared.store (getType types sv) sv).1),
      ∀ sv' lb, th.result = some (sv', lb) →
        (s.shared.store (getType types sv) sv).2.datas sv' = some lb) :
    s.shared.datas sv = none ∨ getType types sv = .UNKNOWN := by
  by_contra hnot
  obtain ⟨hsome, htype⟩ := not_or.mp hnot
  obtain ⟨lb, hget⟩ := Option.ne_none_iff_exists'.mp hsome
  obtain ⟨th, hth, hr⟩ := hs.returned hget
  -- It is another call, for this one has been returned nothing.
  have hkept : th ∈ s.threads.set i
      (purpose.resume sv (s.shared.store (getType types sv) sv).1) := by
    refine (mem_set_of_mem hi hth).resolve_left ?_
    rintro rfl
    cases hr
  have hnow := hsame th hkept sv lb hr
  rw [datas_store, if_pos rfl, (store_of_known htype sv s.shared).1] at hnow
  obtain rfl := Option.some.inj hnow
  exact absurd (hs.stored.bound hget) (Nat.lt_irrefl _)

/-- **Storing where there is none.** -/
theorem OneBalancer.store (hs : OneBalancer s) (hknown : Known types s) {sv : Service}
    {purpose : Purpose} (hok : s.shared.datas sv = none ∨ getType types sv = .UNKNOWN) :
    OneBalancer ⟨(s.shared.store (getType types sv) sv).2,
      s.threads.set i (purpose.resume sv (s.shared.store (getType types sv) sv).1)⟩ where
  same th hth sv' lb hr := by
    rw [datas_store]
    rcases List.mem_or_eq_of_mem_set hth with hold | rfl
    · split
      · next heq =>
          -- Somebody has a balancer of the service: then it has no type, and the balancer is null.
          subst heq
          have hget := hs.same th hold sv' lb hr
          rcases hok with hnone | hunknown
          · rw [hnone] at hget
            cases hget
          · rw [hunknown, (store_of_unknown sv' s.shared).1, hknown.stored.null hunknown hget]
      · exact hs.same th hold sv' lb hr
    · rw [Purpose.result_resume] at hr
      obtain ⟨rfl, rfl⟩ := Prod.mk.inj (Option.some.inj hr)
      rw [if_pos rfl]
  complete sv' lb hget := by
    dsimp only at hget ⊢
    rw [updates_store]
    rw [datas_store] at hget
    split at hget
    · next heq =>
        subst heq
        by_cases htype : getType types sv' = .UNKNOWN
        · rw [htype, (store_of_unknown sv' s.shared).1] at hget
          cases hget
        · obtain ⟨hnew, hobjects⟩ := store_of_known htype sv' s.shared
          rw [hnew] at hget
          cases hget
          refine ⟨⟨getType types sv', fun _ => none⟩, ?_, ?_⟩
          · rw [hobjects, List.getElem?_concat_length]
          · exact (hknown.stored.replay_of_none (hok.resolve_right htype)).symm
    · rw [getElem?_objects_store _ _ (hknown.stored.bound hget)]
      exact hs.complete sv' lb hget

/-- **An update** goes to the balancer that is stored. -/
theorem OneBalancer.update (hs : OneBalancer s) (hknown : Known types s) {sv : Service} {lb : Nat}
    {adds : List LoadBalanceItem} {dels : List UInt64}
    (hi : s.threads[i]? = some (.updating sv (some lb) adds dels)) :
    OneBalancer ⟨s.shared.update lb sv adds dels, s.threads.set i (.returned sv (some lb))⟩ where
  same th hth sv' lb' hr := by
    have hget := hs.same _ (List.mem_of_getElem? hi) sv (some lb) rfl
    rcases List.mem_or_eq_of_mem_set hth with hold | rfl
    · exact hs.same th hold sv' lb' hr
    · obtain ⟨rfl, rfl⟩ := Prod.mk.inj (Option.some.inj hr)
      exact hget
  complete sv' lb' hget := by
    have hstored := hs.same _ (List.mem_of_getElem? hi) sv (some lb) rfl
    obtain ⟨b, hb, hdatas⟩ := hs.complete sv' lb' hget
    dsimp only [SDLoadBalance.update]
    rw [List.getElem?_modify, hb]
    by_cases heq : sv = sv'
    · subst heq
      cases hget.symm.trans hstored
      refine ⟨b.update adds dels, by simp, ?_⟩
      rw [LoadBalance.update, hdatas]
      simp [replay, List.filter_append, List.foldl_append]
    · have hne : lb ≠ lb' := by
        rintro rfl
        exact heq (hknown.stored.inj hstored hget)
      refine ⟨b, by simp [hne], ?_⟩
      rw [hdatas]
      simp [replay, List.filter_append, heq]

/-- **One step keeps one balancer** exactly if it stores none over another. -/
theorem OneBalancer.step_iff (hknown : Known types s) (hs : OneBalancer s)
    (h : (code types).step s a = some s') : OneBalancer s' ↔ FirstOnly types s a := by
  cases moves_of_step h with
  | call k =>
      refine iff_of_true ⟨fun th hth sv lb hr => ?_, hs.complete⟩
        fun i streams sv purpose h => by cases h
      rcases List.mem_append.mp hth with hold | hnew
      · exact hs.same th hold sv lb hr
      · rw [List.mem_singleton.mp hnew] at hr
        cases k <;> cases hr
  | @run i streams th th' sd' hi hnext =>
      have hfirst : FirstOnly types s (.run i streams) ↔ ∀ sv purpose, th = .storing sv purpose →
          s.shared.datas sv = none ∨ getType types sv = .UNKNOWN := by
        unfold FirstOnly
        constructor
        · intro h sv purpose heq
          exact h i streams sv purpose rfl (heq ▸ hi)
        · rintro h j str sv purpose ⟨⟩ hj
          exact h sv purpose (Option.some.inj (hi.symm.trans hj))
      rw [hfirst]
      cases goes_of_next hnext with
      | on hth hth' hstoring =>
          refine iff_of_true ⟨fun t ht sv lb hr => ?_, hs.complete⟩ fun sv purpose heq =>
            absurd heq (hstoring sv purpose)
          rcases List.mem_or_eq_of_mem_set ht with hold | rfl
          · exact hs.same t hold sv lb hr
          · rw [hth'] at hr
            cases hr
      | @found sv lb auto_create purpose hget =>
          refine iff_of_true ⟨fun t ht sv' lb' hr => ?_, hs.complete⟩ fun sv' purpose' heq => by
            cases heq
          rcases List.mem_or_eq_of_mem_set ht with hold | rfl
          · exact hs.same t hold sv' lb' hr
          · rw [Purpose.result_resume] at hr
            obtain ⟨rfl, rfl⟩ := Prod.mk.inj (Option.some.inj hr)
            exact hget
      | store sv purpose =>
          constructor
          · rintro hs' sv' purpose' ⟨⟩
            exact hknown.first_of_same hi hs'.same
          · intro hok
            exact hs.store hknown (hok sv purpose rfl)
      | update sv lb adds dels =>
          exact iff_of_true (hs.update hknown hi) fun sv' purpose heq => by cases heq

end Steps

/-- **When there is one balancer for each service.**  In every run of `get` and `onServiceChange`,
in every state of it: exactly if no balancer is stored over another one. -/
theorem oneBalancer_iff (types : Types) (as : List (Act (UInt64 → Option Nat) Call)) :
    runAlways (code types).step OneBalancer as start ↔
      runMeets (code types).step (FirstOnly types) as start := by
  refine runAlways_iff (I := Known types) (fun hs hstep => hs.step hstep)
    (fun hknown hs hstep => hs.step_iff hknown hstep) ?_ as known_start ⟨?_, ?_⟩
  · -- A call that is about to store is never refused.
    rintro s a hrefused i streams sv purpose rfl hi
    simp [Code.step, hi, code] at hrefused
  · intro th hth
    cases hth
  · rintro sv lb ⟨⟩

/-- Every service is balanced in turn. -/
def roundRobin : Types := fun _ => some fun _ => some .ROUNDROBIN

/-- Two callers that look before either of them has stored. -/
theorem not_oneBalancer_twoCreators :
    ¬ runAlways (code roundRobin).step OneBalancer
      [.call (.get ("d", "s") true), .call (.get ("d", "s") true),
        .run 0 (fun _ => none), .run 1 (fun _ => none),
        .run 0 (fun _ => none), .run 1 (fun _ => none)] start := by
  intro h
  obtain ⟨-, -, -, -, -, -, hlast⟩ := h
  -- The first one was returned a balancer that is no longer stored.
  have hfirst := hlast.same (.returned ("d", "s") (some 0)) (by decide) ("d", "s") (some 0) rfl
  revert hfirst
  decide

end SDLoadBalance
end Routn
