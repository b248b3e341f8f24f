import Mathlib.Data.Set.Basic
import Mathlib.Tactic
import Mathlib.Order.CompletePartialOrder
import Routn.Foundation.NestedMap

/-!
# `diff` of two registrations

A registration is a map from domains to sets of commands, and stands for a set of pairs.  `diff`
walks over the old one and over the new one, and sorts each pair into what is gone, what is new and
what is in both.  A domain that the other one does not have is inserted as a whole.
-/

namespace Routn
namespace Ns

open Foundation

/-- A set of commands is a map to `Unit`. -/
abbrev Cmds := Map UInt32 Unit

/-- `std::map<std::string, std::set<uint32_t> >`. -/
abbrev Domain2Cmds := NestedMap String UInt32 Unit

namespace Domain2Cmds

/-- `insert(i)`: a domain that is there keeps what it has. -/
def insertAll (m : Domain2Cmds) (domain : String) (cmds : Cmds) : Domain2Cmds :=
  if (m.lookup domain).isSome then m else AList.insert domain cmds m

/-- The pairs of domains and commands. -/
def pairs (m : Domain2Cmds) : Set (String × UInt32) :=
  {p | (NestedMap.get m p.1 p.2).isSome}

end Domain2Cmds

/-- A command of a domain that both have, in the first loop. -/
def oldCmd (domain : String) (new_cmds : Cmds) (acc : Domain2Cmds × Domain2Cmds) (n : UInt32) :
    Domain2Cmds × Domain2Cmds :=
  match new_cmds.lookup n with
  | none => (NestedMap.insert acc.1 domain n (), acc.2)
  | some _ => (acc.1, NestedMap.insert acc.2 domain n ())

/-- A domain of `old_value`: what becomes of `dels` and `comms`. -/
def oldDomain (new_value : Domain2Cmds) (acc : Domain2Cmds × Domain2Cmds)
    (i : Sigma fun _ : String => Cmds) : Domain2Cmds × Domain2Cmds :=
  match new_value.lookup i.1 with
  | none => (acc.1.insertAll i.1 i.2, acc.2)
  | some new_cmds => i.2.keys.foldl (oldCmd i.1 new_cmds) acc

/-- A command of a domain that both have, in the second loop. -/
def newCmd (domain : String) (old_cmds : Cmds) (news : Domain2Cmds) (n : UInt32) : Domain2Cmds :=
  match old_cmds.lookup n with
  | none => NestedMap.insert news domain n ()
  | some _ => news

/-- A domain of `new_value`: what becomes of `news`. -/
def newDomain (old_value : Domain2Cmds) (news : Domain2Cmds)
    (i : Sigma fun _ : String => Cmds) : Domain2Cmds :=
  match old_value.lookup i.1 with
  | none => news.insertAll i.1 i.2
  | some old_cmds => i.2.keys.foldl (newCmd i.1 old_cmds) news

/-- `diff`, with `dels`, `news` and `comms` as they are afterwards. -/
def diff (old_value new_value dels news comms : Domain2Cmds) :
    Domain2Cmds × Domain2Cmds × Domain2Cmds :=
  let (dels, comms) := old_value.entries.foldl (oldDomain new_value) (dels, comms)
  (dels, new_value.entries.foldl (newDomain old_value) news, comms)

/-! ## What a step adds -/

/-- The pairs of this domain and these commands, as far as they meet `P`, are added to what `view`
shows, and the other domains are left alone. -/
def Adds {α : Type} (view : α → Domain2Cmds) (domain : String) (cmds : UInt32 → Prop)
    (P : String → UInt32 → Prop) (acc acc' : α) : Prop :=
  (∀ d n, (NestedMap.get (view acc') d n).isSome ↔
    (d = domain ∧ cmds n ∧ P d n) ∨ (NestedMap.get (view acc) d n).isSome) ∧
  ∀ d, d ≠ domain → AList.lookup d (view acc') = AList.lookup d (view acc)

variable {α : Type} {view : α → Domain2Cmds} {P : String → UInt32 → Prop} {acc : α}
  {m : Domain2Cmds} {domain : String}

theorem adds_insert (hview : view acc = m) {c : UInt32} {acc' : α}
    (hview' : view acc' = NestedMap.insert m domain c ()) (hc : P domain c) :
    Adds view domain (· = c) P acc acc' := by
  refine ⟨fun d n => ?_, fun d hd => ?_⟩
  · rw [hview, hview', NestedMap.get_insert]
    by_cases hsame : d = domain ∧ n = c
    · obtain ⟨rfl, rfl⟩ := hsame
      simp [hc]
    · rw [if_neg hsame]
      tauto
  · rw [hview, hview']
    exact AList.lookup_insert_ne hd

theorem adds_none {c : UInt32} {acc' : α} (hview : view acc' = view acc) (hc : ¬ P domain c) :
    Adds view domain (· = c) P acc acc' := by
  refine ⟨fun d n => ?_, fun d _ => by rw [hview]⟩
  rw [hview]
  constructor
  · exact .inr
  · rintro (⟨rfl, rfl, hP⟩ | h)
    · exact absurd hP hc
    · exact h

/-- The loop over the commands of a domain. -/
theorem adds_foldl (view : α → Domain2Cmds) {P : String → UInt32 → Prop} {domain : String}
    {step : α → UInt32 → α} (hstep : ∀ acc c, Adds view domain (· = c) P acc (step acc c))
    (ns : List UInt32) (acc : α) :
    Adds view domain (· ∈ ns) P acc (ns.foldl step acc) := by
  induction ns generalizing acc with
  | nil =>
      refine ⟨fun d n => ?_, fun d _ => rfl⟩
      simp
  | cons c ns ih =>
      obtain ⟨hfirst, hothers⟩ := hstep acc c
      obtain ⟨hrest, hothers'⟩ := ih (step acc c)
      refine ⟨fun d n => ?_, fun d hd => (hothers' d hd).trans (hothers d hd)⟩
      rw [List.foldl_cons, hrest, hfirst]
      simp only [List.mem_cons]
      tauto

/-- A domain that is inserted as a whole. -/
theorem adds_insertAll {cmds : Cmds} {acc' : α} (hnew : AList.lookup domain (view acc) = none)
    (hview : view acc' = (view acc).insertAll domain cmds) (hP : ∀ n, P domain n) :
    Adds view domain (fun n => (cmds.lookup n).isSome) P acc acc' := by
  have hinsert : view acc' = AList.insert domain cmds (view acc) := by
    rw [hview, Domain2Cmds.insertAll, hnew]
    rfl
  refine ⟨fun d n => ?_, fun d hd => ?_⟩
  · rw [hinsert]
    unfold NestedMap.get
    by_cases hd : d = domain
    · subst hd
      simp [hnew, hP n]
    · rw [AList.lookup_insert_ne hd]
      tauto
  · rw [hinsert]
    exact AList.lookup_insert_ne hd

/-- **The loop over the domains.**  No domain comes twice, so that each is new when it comes. -/
theorem foldl_adds (view : α → Domain2Cmds) {P : String → UInt32 → Prop}
    {step : α → (Sigma fun _ : String => Cmds) → α}
    (hstep : ∀ acc i, AList.lookup i.1 (view acc) = none →
      Adds view i.1 (fun n => (i.2.lookup n).isSome) P acc (step acc i))
    {entries : List (Sigma fun _ : String => Cmds)} (hkeys : entries.NodupKeys) (acc : α)
    (hnew : ∀ i ∈ entries, AList.lookup i.1 (view acc) = none) (d : String) (n : UInt32) :
    (NestedMap.get (view (entries.foldl step acc)) d n).isSome ↔
      (∃ i ∈ entries, d = i.1 ∧ (i.2.lookup n).isSome ∧ P d n) ∨
        (NestedMap.get (view acc) d n).isSome := by
  induction entries generalizing acc with
  | nil => simp
  | cons i entries ih =>
      obtain ⟨hfirst, hothers⟩ := hstep acc i (hnew i List.mem_cons_self)
      obtain ⟨hnot, hkeys⟩ := List.nodupKeys_cons.mp hkeys
      rw [List.foldl_cons, ih hkeys, hfirst, List.exists_mem_cons_iff]
      · exact or_left_comm.trans or_assoc.symm
      · intro j hj
        have hne : j.1 ≠ i.1 := by
          intro heq
          exact hnot (heq ▸ List.mem_keys_of_mem hj)
        rw [hothers j.1 hne]
        exact hnew j (List.mem_cons_of_mem i hj)

/-- The pairs of a registration, by its entries. -/
theorem exists_mem_entries (m : Domain2Cmds) (d : String) (n : UInt32) (P : Prop) :
    (∃ i ∈ m.entries, d = i.1 ∧ (i.2.lookup n).isSome ∧ P) ↔
      (NestedMap.get m d n).isSome ∧ P := by
  unfold NestedMap.get
  constructor
  · rintro ⟨⟨domain, cmds⟩, hi, rfl, hn, hP⟩
    have hlookup : AList.lookup d m = some cmds := AList.mem_lookup_iff.mpr hi
    rw [hlookup]
    exact ⟨hn, hP⟩
  · rintro ⟨hget, hP⟩
    cases hlookup : AList.lookup d m with
    | none => simp [hlookup] at hget
    | some cmds =>
        rw [hlookup] at hget
        exact ⟨⟨d, cmds⟩, AList.mem_lookup_iff.mp hlookup, rfl, hget, hP⟩

/-! ## The three maps -/

theorem oldDomain_dels (new_value : Domain2Cmds) (acc : Domain2Cmds × Domain2Cmds)
    (i : Sigma fun _ : String => Cmds) (hnew : AList.lookup i.1 acc.1 = none) :
    Adds Prod.fst i.1 (fun n => (i.2.lookup n).isSome)
      (fun d n => ¬ (NestedMap.get new_value d n).isSome) acc (oldDomain new_value acc i) := by
  unfold oldDomain
  cases hlookup : AList.lookup i.1 new_value with
  | none => exact adds_insertAll hnew rfl fun n => by simp [NestedMap.get, hlookup]
  | some new_cmds =>
      have hstep : ∀ acc c, Adds Prod.fst i.1 (· = c)
          (fun d n => ¬ (NestedMap.get new_value d n).isSome) acc (oldCmd i.1 new_cmds acc c) := by
        intro acc c
        unfold oldCmd
        cases hc : new_cmds.lookup c with
        | none => exact adds_insert rfl rfl (by simp [NestedMap.get, hlookup, hc])
        | some u => exact adds_none rfl (by simp [NestedMap.get, hlookup, hc])
      have hcmds := adds_foldl Prod.fst hstep i.2.keys acc
      simpa only [← AList.mem_keys, ← AList.lookup_isSome] using hcmds

theorem oldDomain_comms (new_value : Domain2Cmds) (acc : Domain2Cmds × Domain2Cmds)
    (i : Sigma fun _ : String => Cmds) :
    Adds Prod.snd i.1 (fun n => (i.2.lookup n).isSome)
      (fun d n => (NestedMap.get new_value d n).isSome) acc (oldDomain new_value acc i) := by
  unfold oldDomain
  cases hlookup : AList.lookup i.1 new_value with
  | none =>
      refine ⟨fun d n => ⟨.inr, ?_⟩, fun d _ => rfl⟩
      rintro (⟨rfl, -, hn⟩ | h)
      · simp [NestedMap.get, hlookup] at hn
      · exact h
  | some new_cmds =>
      have hstep : ∀ acc c, Adds Prod.snd i.1 (· = c)
          (fun d n => (NestedMap.get new_value d n).isSome) acc (oldCmd i.1 new_cmds acc c) := by
        intro acc c
        unfold oldCmd
        cases hc : new_cmds.lookup c with
        | none => exact adds_none rfl (by simp [NestedMap.get, hlookup, hc])
        | some u => exact adds_insert rfl rfl (by simp [NestedMap.get, hlookup, hc])
      have hcmds := adds_foldl Prod.snd hstep i.2.keys acc
      simpa only [← AList.mem_keys, ← AList.lookup_isSome] using hcmds

theorem newDomain_news (old_value news : Domain2Cmds) (i : Sigma fun _ : String => Cmds)
    (hnew : AList.lookup i.1 news = none) :
    Adds id i.1 (fun n => (i.2.lookup n).isSome)
      (fun d n => ¬ (NestedMap.get old_value d n).isSome) news (newDomain old_value news i) := by
  unfold newDomain
  cases hlookup : AList.lookup i.1 old_value with
  | none => exact adds_insertAll hnew rfl fun n => by simp [NestedMap.get, hlookup]
  | some old_cmds =>
      have hstep : ∀ acc c, Adds id i.1 (· = c)
          (fun d n => ¬ (NestedMap.get old_value d n).isSome) acc (newCmd i.1 old_cmds acc c) := by
        intro acc c
        unfold newCmd
        cases hc : old_cmds.lookup c with
        | none => exact adds_insert rfl rfl (by simp [NestedMap.get, hlookup, hc])
        | some u => exact adds_none rfl (by simp [NestedMap.get, hlookup, hc])
      have hcmds := adds_foldl id hstep i.2.keys news
      simpa only [← AList.mem_keys, ← AList.lookup_isSome] using hcmds

theorem diff_eq (old_value new_value dels news comms : Domain2Cmds) :
    diff old_value new_value dels news comms =
      ((old_value.entries.foldl (oldDomain new_value) (dels, comms)).1,
        new_value.entries.foldl (newDomain old_value) news,
        (old_value.entries.foldl (oldDomain new_value) (dels, comms)).2) := rfl

/-- The pairs of the three maps. -/
theorem get_diff (old_value new_value : Domain2Cmds) (d : String) (n : UInt32) :
    ((NestedMap.get (diff old_value new_value ∅ ∅ ∅).1 d n).isSome ↔
      (NestedMap.get old_value d n).isSome ∧ ¬ (NestedMap.get new_value d n).isSome) ∧
    ((NestedMap.get (diff old_value new_value ∅ ∅ ∅).2.1 d n).isSome ↔
      (NestedMap.get new_value d n).isSome ∧ ¬ (NestedMap.get old_value d n).isSome) ∧
    ((NestedMap.get (diff old_value new_value ∅ ∅ ∅).2.2 d n).isSome ↔
      (NestedMap.get old_value d n).isSome ∧ (NestedMap.get new_value d n).isSome) := by
  have hempty : (NestedMap.get (∅ : Domain2Cmds) d n).isSome = false := by
    rw [NestedMap.get_empty]
    rfl
  rw [diff_eq]
  refine ⟨?_, ?_, ?_⟩
  · have hdels := foldl_adds Prod.fst (oldDomain_dels new_value) old_value.nodupKeys
      (∅, (∅ : Domain2Cmds)) (fun i _ => AList.lookup_empty i.1) d n
    rw [exists_mem_entries, hempty] at hdels
    simpa using hdels
  · have hnews := foldl_adds id (newDomain_news old_value) new_value.nodupKeys ∅
      (fun i _ => AList.lookup_empty i.1) d n
    rw [exists_mem_entries] at hnews
    simpa [hempty] using hnews
  · have hcomms := foldl_adds Prod.snd (fun acc i _ => oldDomain_comms new_value acc i)
      old_value.nodupKeys ((∅ : Domain2Cmds), ∅) (fun i _ => AList.lookup_empty i.1) d n
    rw [exists_mem_entries, hempty] at hcomms
    simpa using hcomms

/-- **`diff` sorts the pairs** of two registrations into what is gone, what is new and what is in
both. -/
theorem diff_partition (old_value new_value : Domain2Cmds) :
    let (dels, news, comms) := diff old_value new_value ∅ ∅ ∅
    dels.pairs = old_value.pairs \ new_value.pairs ∧
      news.pairs = new_value.pairs \ old_value.pairs ∧
      comms.pairs = old_value.pairs ∩ new_value.pairs ∧
      Disjoint dels.pairs news.pairs ∧ Disjoint dels.pairs comms.pairs ∧
      Disjoint news.pairs comms.pairs := by
  have hdels : (diff old_value new_value ∅ ∅ ∅).1.pairs = old_value.pairs \ new_value.pairs := by
    ext p
    exact (get_diff old_value new_value p.1 p.2).1
  have hnews : (diff old_value new_value ∅ ∅ ∅).2.1.pairs = new_value.pairs \ old_value.pairs := by
    ext p
    exact (get_diff old_value new_value p.1 p.2).2.1
  have hcomms : (diff old_value new_value ∅ ∅ ∅).2.2.pairs = old_value.pairs ∩ new_value.pairs := by
    ext p
    exact (get_diff old_value new_value p.1 p.2).2.2
  refine ⟨hdels, hnews, hcomms, ?_, ?_, ?_⟩
  · change Disjoint (diff old_value new_value ∅ ∅ ∅).1.pairs
      (diff old_value new_value ∅ ∅ ∅).2.1.pairs
    rw [hdels, hnews]
    exact Set.disjoint_left.mpr fun p hp hp' => hp.2 hp'.1
  · change Disjoint (diff old_value new_value ∅ ∅ ∅).1.pairs
      (diff old_value new_value ∅ ∅ ∅).2.2.pairs
    rw [hdels, hcomms]
    exact Set.disjoint_left.mpr fun p hp hp' => hp.2 hp'.2
  · change Disjoint (diff old_value new_value ∅ ∅ ∅).2.1.pairs
      (diff old_value new_value ∅ ∅ ∅).2.2.pairs
    rw [hnews, hcomms]
    exact Set.disjoint_left.mpr fun p hp hp' => hp.2 hp'.1

end Ns
end Routn
