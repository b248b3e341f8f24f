import Routn.LoadBalance.OneBalancer
import Routn.LoadBalance.ServiceDiscovery

/-!
# The balancer follows the latest view

Each run of `getChildren` applies the difference of two views to the balancer after it has released
the lock.  When all runs have finished, the balancer has the ids of the view that was swapped in
last, but for streams that could not be made, if the differences that touch an id were applied in
the order of their swaps and no balancer was stored over another one.

A difference that comes late undoes a later one: the id that it takes out, or puts in, stays so.
-/

namespace Routn
namespace ServiceDiscovery

open Foundation Code

abbrev Runs := Code.State Store Phase

/-- Nothing has been called. -/
def start : Runs := ⟨{}, []⟩

/-- The id is in the balancer of the service. -/
def Balanced (st : Store) (sv : Service) (id : UInt64) : Prop :=
  ∃ lb b, st.balancer.shared.datas sv = some (some lb) ∧ st.balancer.shared.objects[lb]? = some b ∧
    b.datas id ≠ none

/-- Swap `call` has brought the id in, and none has taken it out since. -/
structure BroughtBy (st : Store) (sv : Service) (id : UInt64) (call : Nat) : Prop where
  added : ∃ swap, st.swaps[call]? = some swap ∧ swap.sv = sv ∧ swap.new.Has id ∧ ¬ swap.old.Has id
  last : ∀ later swap, call < later → st.swaps[later]? = some swap → swap.sv = sv →
    swap.old.Has id → swap.new.Has id

/-- The balancer of the service has the ids of the view, but for those that were brought in by a run
that was given no stream for them. -/
structure LatestView (st : Store) (sv : Service) : Prop where
  of_balanced : ∀ id, Balanced st sv id → (st.datas sv).Has id
  balanced : ∀ id, (st.datas sv).Has id →
    Balanced st sv id ∨ ∃ call, BroughtBy st sv id call ∧ (call, id) ∈ st.nulls

/-- The call of the callback has come to its end. -/
def Finished (st : Store) : Phase → Prop
  | .failed => True
  | .notifying call =>
      (∃ sv lb, st.balancer.threads[call]? = some (.returned sv lb)) ∨
        st.balancer.threads[call]? = some .nothing
  | .called _ | .fetching _ | .swapping .. => False

/-- **When all runs have finished,** every service that has a type has its latest view. -/
def Settles (types : SDLoadBalance.Types) (s : Runs) : Prop :=
  (∀ th ∈ s.threads, Finished s.shared th) →
    ∀ sv, SDLoadBalance.getType types sv ≠ .UNKNOWN → LatestView s.shared sv

/-- The update puts the id in or takes it out. -/
def Applied.Touches (e : Applied) (sv : Service) (id : UInt64) : Prop :=
  e.sv = sv ∧ ((∃ item ∈ e.adds, item.id = id) ∨ id ∈ e.dels)

/-- No balancer is stored over another one, and an update does not touch an id after the update of a
later swap has. -/
def InOrder (types : SDLoadBalance.Types) (s : Runs) (a : Act Outside Service) : Prop :=
  ∀ i out call, a = .run i out → s.threads[i]? = some (.notifying call) →
    SDLoadBalance.FirstOnly types s.shared.balancer (.run call out.streams) ∧
    ∀ e ∈ appliedBy call s.shared.balancer.threads[call]?, ∀ e' ∈ s.shared.applied,
      ∀ sv id, e.Touches sv id → e'.Touches sv id → e'.call ≤ e.call

/-! ## The balancer after some updates -/

section Replay

open SDLoadBalance

/-- What an update makes of an id that it does not touch. -/
theorem updated_of_not_touched {datas : UInt64 → Option LoadBalanceItem}
    {adds : List LoadBalanceItem} {dels : List UInt64} {id : UInt64}
    (hadds : ¬ ∃ item ∈ adds, item.id = id) (hdels : id ∉ dels) :
    LoadBalance.updated datas adds dels id = datas id := by
  have hnone : adds.reverse.find? (fun item => decide (item.id = id)) = none := by
    rw [List.find?_eq_none]
    intro item hitem heq
    exact hadds ⟨item, List.mem_reverse.mp hitem, of_decide_eq_true heq⟩
  rw [LoadBalance.updated, hnone]
  exact if_neg hdels

/-- An id that an update touches is there afterwards exactly if the update adds it. -/
theorem updated_ne_none {datas : UInt64 → Option LoadBalanceItem}
    {adds : List LoadBalanceItem} {dels : List UInt64} {id : UInt64}
    (htouched : (∃ item ∈ adds, item.id = id) ∨ id ∈ dels) :
    LoadBalance.updated datas adds dels id ≠ none ↔ ∃ item ∈ adds, item.id = id := by
  rw [LoadBalance.updated]
  cases hfind : adds.reverse.find? (fun item => decide (item.id = id)) with
  | some item =>
      have hmem := List.mem_reverse.mp (List.mem_of_find?_eq_some hfind)
      have hid := List.find?_some hfind
      exact iff_of_true (by simp) ⟨item, hmem, of_decide_eq_true hid⟩
  | none =>
      have hadds : ¬ ∃ item ∈ adds, item.id = id := by
        rintro ⟨item, hitem, hid⟩
        rw [List.find?_eq_none] at hfind
        exact hfind item (List.mem_reverse.mpr hitem) (decide_eq_true hid)
      have hdels := htouched.resolve_left hadds
      exact iff_of_false (by simp [hdels]) hadds

/-- The updates that have been applied, as the balancer's own record has them. -/
def record (applied : List Applied) :
    List (Service × List LoadBalanceItem × List UInt64) :=
  applied.map fun e => (e.sv, e.adds, e.dels)

theorem record_append (l l' : List Applied) : record (l ++ l') = record l ++ record l' :=
  List.map_append ..

theorem replay_append (applied : List Applied) (e : Applied) (sv : Service) :
    replay (record (applied ++ [e])) sv =
      if e.sv = sv then LoadBalance.updated (replay (record applied) sv) e.adds e.dels
      else replay (record applied) sv := by
  unfold replay record
  rw [List.map_append, List.filter_append, List.foldl_append]
  by_cases heq : e.sv = sv <;> simp [heq]

/-- An update that does not touch the id. -/
theorem replay_append_of_not_touches {applied : List Applied} {e : Applied} {sv : Service}
    {id : UInt64} (h : ¬ e.Touches sv id) :
    replay (record (applied ++ [e])) sv id = replay (record applied) sv id := by
  rw [replay_append]
  split
  · next heq =>
      have hnot := fun htouched => h ⟨heq, htouched⟩
      exact updated_of_not_touched (fun hadds => hnot (.inl hadds)) fun hdels => hnot (.inr hdels)
  · rfl

/-- The last update that touches the id. -/
def LastTouch (applied : List Applied) (sv : Service) (id : UInt64) (e : Applied) : Prop :=
  ∃ before after, applied = before ++ e :: after ∧ e.Touches sv id ∧
    ∀ e' ∈ after, ¬ e'.Touches sv id

/-- **The last update that touches an id decides** whether the balancer has it. -/
theorem replay_ne_none (applied : List Applied) (sv : Service) (id : UInt64) :
    replay (record applied) sv id ≠ none ↔
      ∃ e, LastTouch applied sv id e ∧ ∃ item ∈ e.adds, item.id = id := by
  induction applied using List.reverseRecOn with
  | nil => simp [replay, record, LastTouch]
  | append_singleton applied e ih =>
      by_cases htouches : e.Touches sv id
      · rw [replay_append, if_pos htouches.1, updated_ne_none htouches.2]
        constructor
        · intro hadds
          exact ⟨e, ⟨applied, [], rfl, htouches, by simp⟩, hadds⟩
        · rintro ⟨e', ⟨before, after, heq, -, hlast⟩, hadds⟩
          -- Nothing that touches the id is behind `e'`, so `e'` is `e`.
          rcases List.eq_nil_or_concat' after with rfl | ⟨after', e'', rfl⟩
          · obtain ⟨-, hsame⟩ := List.append_inj' heq rfl
            cases hsame
            exact hadds
          · rw [← List.cons_append, ← List.append_assoc] at heq
            obtain ⟨-, hsame⟩ := List.append_inj' heq rfl
            cases hsame
            exact absurd htouches (hlast e (by simp))
      · rw [replay_append_of_not_touches htouches, ih]
        constructor
        · rintro ⟨e', ⟨before, after, rfl, htouches', hlast⟩, hadds⟩
          refine ⟨e', ⟨before, after ++ [e], by simp, htouches', fun e'' he'' => ?_⟩, hadds⟩
          rcases List.mem_append.mp he'' with hold | hnew
          · exact hlast e'' hold
          · rwa [List.mem_singleton.mp hnew]
        · rintro ⟨e', ⟨before, after, heq, htouches', hlast⟩, hadds⟩
          rcases List.eq_nil_or_concat' after with rfl | ⟨after', e'', rfl⟩
          · obtain ⟨-, hsame⟩ := List.append_inj' heq rfl
            cases hsame
            exact absurd htouches' htouches
          · rw [← List.cons_append, ← List.append_assoc] at heq
            obtain ⟨rfl, -⟩ := List.append_inj' heq rfl
            exact ⟨e', ⟨before, after', rfl, htouches', fun x hx => hlast x (by simp [hx])⟩, hadds⟩

end Replay

/-! ## The order of the swaps -/

/-- The views that have been swapped in, one after the other for each service. -/
structure Swapped (st : Store) : Prop where
  /-- What is in the view was brought in by a swap. -/
  brought : ∀ {sv id}, (st.datas sv).Has id → ∃ call, BroughtBy st sv id call
  /-- What is not, and was once brought in, was taken out by a later swap. -/
  taken : ∀ {sv id}, ¬ (st.datas sv).Has id → ∀ {call : Nat} {swap : Swap},
    st.swaps[call]? = some swap → swap.sv = sv → swap.new.Has id →
      ∃ (later : Nat) (swap' : Swap), call < later ∧ st.swaps[later]? = some swap' ∧
        swap'.sv = sv ∧ swap'.old.Has id ∧ ¬ swap'.new.Has id

/-- The update of a call is the difference of its swap, but for the streams it was not given. -/
def Made (st : Store) (call : Nat) (sv : Service) (adds : List LoadBalanceItem)
    (dels : List UInt64) : Prop :=
  ∃ swap : Swap, st.swaps[call]? = some swap ∧ swap.sv = sv ∧
    (∀ id, id ∈ dels ↔ swap.old.Has id ∧ ¬ swap.new.Has id) ∧
    ∀ id, (∃ item ∈ adds, item.id = id) ↔
      swap.new.Has id ∧ ¬ swap.old.Has id ∧ (call, id) ∉ st.nulls

/-- How far a call of the callback is. -/
def Progress (types : SDLoadBalance.Types) (st : Store) (call : Nat) :
    SDLoadBalance.Phase → Prop
  | .changing sv old new => st.swaps[call]? = some ⟨sv, old, new⟩ ∧ ∀ id, (call, id) ∉ st.nulls
  | .looking sv auto_create purpose => auto_create = true ∧
      ∃ adds dels, purpose = .update adds dels ∧ Made st call sv adds dels
  | .storing sv purpose => ∃ adds dels, purpose = .update adds dels ∧ Made st call sv adds dels
  | .updating sv _ adds dels => Made st call sv adds dels
  | .returned sv lb => lb ≠ none ∧
      ∃ adds dels, Made st call sv adds dels ∧ ⟨call, sv, adds, dels⟩ ∈ st.applied
  | .nothing => ∃ swap : Swap, st.swaps[call]? = some swap ∧
      (SDLoadBalance.getType types swap.sv = .UNKNOWN ∨ Made st call swap.sv [] [])

theorem mem_nullsOf {types : SDLoadBalance.Types} {call call' : Nat} {sv : Service}
    {old new : View} {streams : UInt64 → Option Nat} {id : UInt64}
    (htype : SDLoadBalance.getType types sv ≠ .UNKNOWN) :
    (call', id) ∈ nullsOf types call streams (some (.changing sv old new)) ↔
      call' = call ∧ new.Has id ∧ ¬ old.Has id ∧ streams id = none := by
  rw [nullsOf, if_neg htype, List.mem_map]
  constructor
  · rintro ⟨info, hinfo, heq⟩
    obtain ⟨rfl, rfl⟩ := Prod.mk.inj heq
    obtain ⟨hnews, hnone⟩ := List.mem_filter.mp hinfo
    obtain ⟨hnew, hold⟩ := View.mem_news.mp hnews
    exact ⟨rfl, ⟨info, hnew, rfl⟩, hold, of_decide_eq_true hnone⟩
  · rintro ⟨rfl, ⟨info, hnew, rfl⟩, hold, hnone⟩
    exact ⟨info, List.mem_filter.mpr ⟨View.mem_news.mpr ⟨hnew, hold⟩, decide_eq_true hnone⟩, rfl⟩

section Frame

variable {types : SDLoadBalance.Types} {st st' : Store} {call : Nat}

/-- What a call has made is about its own swap and its own nulls. -/
theorem Made.congr {sv : Service} {adds : List LoadBalanceItem} {dels : List UInt64}
    (h : Made st call sv adds dels) (hswap : st'.swaps[call]? = st.swaps[call]?)
    (hnulls : ∀ id, (call, id) ∈ st'.nulls ↔ (call, id) ∈ st.nulls) :
    Made st' call sv adds dels := by
  obtain ⟨swap, hget, hsv, hdels, hadds⟩ := h
  refine ⟨swap, hswap.trans hget, hsv, hdels, fun id => ?_⟩
  rw [hadds, hnulls]

theorem Progress.congr {p : SDLoadBalance.Phase} (h : Progress types st call p)
    (hswap : st'.swaps[call]? = st.swaps[call]?)
    (hnulls : ∀ id, (call, id) ∈ st'.nulls ↔ (call, id) ∈ st.nulls)
    (happlied : ∀ e ∈ st.applied, e ∈ st'.applied) : Progress types st' call p := by
  cases p with
  | changing sv old new => exact ⟨hswap.trans h.1, fun id hid => h.2 id ((hnulls id).mp hid)⟩
  | looking sv auto_create purpose =>
      obtain ⟨hauto, adds, dels, hpurpose, hmade⟩ := h
      exact ⟨hauto, adds, dels, hpurpose, hmade.congr hswap hnulls⟩
  | storing sv purpose =>
      obtain ⟨adds, dels, hpurpose, hmade⟩ := h
      exact ⟨adds, dels, hpurpose, hmade.congr hswap hnulls⟩
  | updating sv lb adds dels => exact Made.congr h hswap hnulls
  | returned sv lb =>
      obtain ⟨hlb, adds, dels, hmade, hmem⟩ := h
      exact ⟨hlb, adds, dels, hmade.congr hswap hnulls, happlied _ hmem⟩
  | nothing =>
      obtain ⟨swap, hget, hcase⟩ := h
      exact ⟨swap, hswap.trans hget, hcase.imp_right fun hmade => hmade.congr hswap hnulls⟩

end Frame

theorem BroughtBy.congr {st st' : Store} {sv : Service} {id : UInt64} {call : Nat}
    (h : BroughtBy st sv id call) (hswaps : st'.swaps = st.swaps) : BroughtBy st' sv id call := by
  constructor
  · rw [hswaps]
    exact h.added
  · rw [hswaps]
    exact h.last

/-- **The invariant of every run,** whatever the order. -/
structure Consistent (types : SDLoadBalance.Types) (st : Store) : Prop where
  known : SDLoadBalance.Known types st.balancer
  swapped : Swapped st
  length : st.swaps.length = st.balancer.threads.length
  progress : ∀ {call p}, st.balancer.threads[call]? = some p → Progress types st call p
  made : ∀ e ∈ st.applied, Made st e.call e.sv e.adds e.dels ∧
    ∃ lb, st.balancer.threads[e.call]? = some (.returned e.sv (some lb))
  record : record st.applied = st.balancer.shared.updates
  nulls : ∀ n ∈ st.nulls, n.1 < st.swaps.length

section Steps

variable {types : SDLoadBalance.Types} {st st' : Store} {call : Nat} {sv : Service} {infos : View}

theorem consistent_init : Consistent types {} where
  known := SDLoadBalance.known_start
  swapped := by
    constructor
    · rintro sv id ⟨info, hinfo, -⟩
      cases hinfo
    · intro sv id _ call swap hget
      cases hget
  length := rfl
  progress h := by cases h
  made e he := by cases he
  record := rfl
  nulls n hn := by cases hn

/-! What a swap adds to the swaps. -/

theorem getElem?_swap_of_lt (h : call < st.swaps.length) :
    (swap types sv infos st).swaps[call]? = st.swaps[call]? :=
  List.getElem?_append_left h

theorem getElem?_swap_last :
    (swap types sv infos st).swaps[st.swaps.length]? = some ⟨sv, st.datas sv, infos⟩ :=
  List.getElem?_concat_length ..

theorem getElem?_swap {swap' : Swap} (h : (swap types sv infos st).swaps[call]? = some swap') :
    st.swaps[call]? = some swap' ∨
      (call = st.swaps.length ∧ swap' = ⟨sv, st.datas sv, infos⟩) := by
  rcases Nat.lt_trichotomy call st.swaps.length with hlt | rfl | hgt
  · rw [getElem?_swap_of_lt hlt] at h
    exact .inl h
  · rw [getElem?_swap_last] at h
    exact .inr ⟨rfl, (Option.some.inj h).symm⟩
  · rw [List.getElem?_eq_none (by simp [swap]; omega)] at h
    cases h

theorem datas_swap_of_ne {sv' : Service} (h : sv' ≠ sv) :
    (swap types sv infos st).datas sv' = st.datas sv' :=
  Function.update_of_ne h ..

/-- An entry that the swap leaves was brought by the same call. -/
theorem BroughtBy.swap {sv' : Service} {id : UInt64} (h : BroughtBy st sv' id call)
    (hkept : sv' = sv → infos.Has id ∨ ¬ (st.datas sv).Has id) :
    BroughtBy (swap types sv infos st) sv' id call := by
  obtain ⟨⟨swap, hget, hsv, hnew, hnot⟩, hlater⟩ := h
  have hlt := (List.getElem?_eq_some_iff.mp hget).1
  refine ⟨⟨swap, (getElem?_swap_of_lt hlt).trans hget, hsv, hnew, hnot⟩,
    fun later swap' hgt hget' hsv' hhas => ?_⟩
  rcases getElem?_swap hget' with hold | ⟨-, rfl⟩
  · exact hlater later swap' hgt hold hsv' hhas
  · exact (hkept hsv'.symm).resolve_right fun hnone => hnone hhas

/-- The views after a swap. -/
theorem Swapped.swap (hst : Swapped st) :
    Swapped (swap types sv infos st) := by
  constructor
  · intro sv' id hhas
    by_cases heq : sv' = sv
    · subst heq
      have hnow : infos.Has id := by simpa [ServiceDiscovery.swap] using hhas
      by_cases hbefore : (st.datas sv').Has id
      · obtain ⟨call, hbrought⟩ := hst.brought hbefore
        exact ⟨call, hbrought.swap fun _ => .inl hnow⟩
      · -- It is this swap that has brought it in.
        refine ⟨st.swaps.length, ⟨_, getElem?_swap_last, rfl, hnow, hbefore⟩,
          fun later swap' hgt hget _ _ => ?_⟩
        have hlt := (List.getElem?_eq_some_iff.mp hget).1
        simp only [ServiceDiscovery.swap, List.length_append, List.length_singleton] at hlt
        omega
    · rw [datas_swap_of_ne heq] at hhas
      obtain ⟨call, hbrought⟩ := hst.brought hhas
      exact ⟨call, hbrought.swap fun h => absurd h heq⟩
  · intro sv' id hnot call swap hget hsv hnew
    -- What took it out before the swap is still there.
    have hbefore : ∀ {call : Nat} {swap : Swap}, ¬ (st.datas sv').Has id →
        st.swaps[call]? = some swap → swap.sv = sv' → swap.new.Has id →
        ∃ (later : Nat) (swap' : Swap), call < later ∧
          (ServiceDiscovery.swap types sv infos st).swaps[later]? = some swap' ∧ swap'.sv = sv' ∧
          swap'.old.Has id ∧ ¬ swap'.new.Has id := by
      intro call swap hnone hget hsv hnew
      obtain ⟨later, swap', hgt, hlater, hrest⟩ := hst.taken hnone hget hsv hnew
      exact ⟨later, swap', hgt,
        (getElem?_swap_of_lt (List.getElem?_eq_some_iff.mp hlater).1).trans hlater, hrest⟩
    by_cases heq : sv' = sv
    · subst heq
      have hnow : ¬ infos.Has id := by simpa [ServiceDiscovery.swap] using hnot
      rcases getElem?_swap hget with hold | ⟨-, rfl⟩
      · by_cases hhas : (st.datas sv').Has id
        · exact ⟨st.swaps.length, _, (List.getElem?_eq_some_iff.mp hold).1, getElem?_swap_last,
            rfl, hhas, hnow⟩
        · exact hbefore hhas hold hsv hnew
      · exact absurd hnew hnow
    · rw [datas_swap_of_ne heq] at hnot
      rcases getElem?_swap hget with hold | ⟨-, rfl⟩
      · exact hbefore hnot hold hsv hnew
      · exact absurd hsv.symm heq

/-- A swap, with the call of the callback that follows it. -/
theorem Consistent.swap (hst : Consistent types st) :
    Consistent types (swap types sv infos st) := by
  have hcall : (SDLoadBalance.code types).step st.balancer
      (.call (.onServiceChange sv (st.datas sv) infos)) =
        some (ServiceDiscovery.swap types sv infos st).balancer := rfl
  have hthread : ∀ {call p}, st.balancer.threads[call]? = some p →
      (ServiceDiscovery.swap types sv infos st).balancer.threads[call]? = some p := fun h =>
    (List.getElem?_append_left (List.getElem?_eq_some_iff.mp h).1).trans h
  constructor
  · exact hst.known.step hcall
  · exact hst.swapped.swap
  · simp [ServiceDiscovery.swap, hst.length]
  · intro call p hp
    rcases Nat.lt_or_ge call st.balancer.threads.length with hlt | hge
    · have hp' : st.balancer.threads[call]? = some p :=
        (List.getElem?_append_left hlt).symm.trans hp
      exact (hst.progress hp').congr (getElem?_swap_of_lt (by rw [hst.length]; exact hlt))
        (fun _ => Iff.rfl) fun _ he => he
    · -- The new call has the difference before it, and no nulls.
      have heq : call = st.balancer.threads.length := by
        have hlt := (List.getElem?_eq_some_iff.mp hp).1
        simp only [ServiceDiscovery.swap, List.length_append, List.length_singleton] at hlt
        omega
      subst heq
      obtain rfl : SDLoadBalance.Phase.changing sv (st.datas sv) infos = p := by
        have hlast := List.getElem?_concat_length (l := st.balancer.threads)
          (a := SDLoadBalance.Phase.changing sv (st.datas sv) infos)
        exact Option.some.inj (hlast.symm.trans hp)
      refine ⟨?_, fun id hid => ?_⟩
      · rw [← hst.length]
        exact List.getElem?_concat_length ..
      · have := hst.nulls _ hid
        rw [hst.length] at this
        exact absurd this (Nat.lt_irrefl _)
  · intro e he
    obtain ⟨hmade, lb, hthread'⟩ := hst.made e he
    have hlt : e.call < st.swaps.length := by
      rw [hst.length]
      exact (List.getElem?_eq_some_iff.mp hthread').1
    exact ⟨hmade.congr (getElem?_swap_of_lt hlt) fun _ => Iff.rfl, lb, hthread hthread'⟩
  · exact hst.record
  · intro n hn
    have := hst.nulls n hn
    simp only [ServiceDiscovery.swap, List.length_append, List.length_singleton]
    omega

/-- The difference that a call makes of its swap. -/
theorem made_of_changing {old new : View} {streams : UInt64 → Option Nat}
    (hprogress : Progress types st call (.changing sv old new))
    (htype : SDLoadBalance.getType types sv ≠ .UNKNOWN) (hswap : st'.swaps = st.swaps)
    (hnulls : st'.nulls = st.nulls ++ nullsOf types call streams (some (.changing sv old new))) :
    Made st' call sv (View.adds old new streams) (View.dels old new) := by
  obtain ⟨hget, hnone⟩ := hprogress
  refine ⟨⟨sv, old, new⟩, by rw [hswap, hget], rfl, fun id => View.mem_dels, fun id => ?_⟩
  have hmem : (call, id) ∈ st'.nulls ↔ new.Has id ∧ ¬ old.Has id ∧ streams id = none := by
    rw [hnulls, List.mem_append, or_iff_right (hnone id), mem_nullsOf htype]
    exact and_iff_right rfl
  rw [View.mem_adds, hmem]
  tauto

/-- **What a section of the callback does** to the data that say what happened. -/
theorem progress_next {streams : UInt64 → Option Nat} {p p' : SDLoadBalance.Phase}
    {sd sd' : SDLoadBalance} (hprogress : Progress types st call p)
    (hnext : (SDLoadBalance.code types).next sd streams p = some (sd', p'))
    (hswap : st'.swaps = st.swaps)
    (hnulls : st'.nulls = st.nulls ++ nullsOf types call streams (some p))
    (happlied : st'.applied = st.applied ++ appliedBy call (some p)) :
    Progress types st' call p' := by
  -- Made before, made still: only a call that is changing gets nulls.
  have hcongr : ∀ {sv adds dels}, nullsOf types call streams (some p) = [] →
      Made st call sv adds dels → Made st' call sv adds dels := by
    intro sv adds dels hnil hmade
    refine hmade.congr (by rw [hswap]) fun id => ?_
    rw [hnulls, hnil, List.append_nil]
  cases p with
  | changing sv old new =>
      have hmade := fun htype => made_of_changing hprogress htype hswap hnulls
      have hget : st'.swaps[call]? = some ⟨sv, old, new⟩ := by rw [hswap, hprogress.1]
      simp only [SDLoadBalance.code] at hnext
      split at hnext
      · next htype =>
          obtain ⟨rfl, rfl⟩ := Prod.mk.inj (Option.some.inj hnext)
          exact ⟨_, hget, .inl htype⟩
      · next htype =>
          split at hnext
          · next hempty =>
              obtain ⟨rfl, rfl⟩ := Prod.mk.inj (Option.some.inj hnext)
              have hnothing := hmade htype
              rw [hempty.1, hempty.2] at hnothing
              exact ⟨_, hget, .inr hnothing⟩
          · obtain ⟨rfl, rfl⟩ := Prod.mk.inj (Option.some.inj hnext)
            exact ⟨rfl, _, _, rfl, hmade htype⟩
  | looking sv auto_create purpose =>
      obtain ⟨rfl, adds, dels, rfl, hmade⟩ := hprogress
      have hmade' := hcongr rfl hmade
      cases hget : sd.datas sv with
      | some lb =>
          simp only [SDLoadBalance.code, hget] at hnext
          obtain ⟨rfl, rfl⟩ := Prod.mk.inj (Option.some.inj hnext)
          exact hmade'
      | none =>
          simp only [SDLoadBalance.code, hget] at hnext
          obtain ⟨rfl, rfl⟩ := Prod.mk.inj (Option.some.inj hnext)
          exact ⟨adds, dels, rfl, hmade'⟩
  | storing sv purpose =>
      obtain ⟨adds, dels, rfl, hmade⟩ := hprogress
      obtain ⟨rfl, rfl⟩ := Prod.mk.inj (Option.some.inj hnext)
      exact hcongr rfl hmade
  | updating sv lb adds dels =>
      cases lb with
      | none => cases hnext
      | some lb =>
          obtain ⟨rfl, rfl⟩ := Prod.mk.inj (Option.some.inj hnext)
          refine ⟨by simp, adds, dels, hcongr rfl hprogress, ?_⟩
          rw [happlied]
          exact List.mem_append_right _ (List.mem_singleton.mpr rfl)
  | returned sv lb => cases hnext
  | nothing => cases hnext

theorem appliedBy_of_result {p : SDLoadBalance.Phase} (h : p.result = none) :
    appliedBy call (some p) = [] := by
  cases p with
  | updating sv lb adds dels => cases h
  | _ => rfl

/-- The update of a section is the one that the balancer records. -/
theorem record_appliedBy (call : Nat) {streams : UInt64 → Option Nat} {p p' : SDLoadBalance.Phase}
    {sd sd' : SDLoadBalance}
    (hnext : (SDLoadBalance.code types).next sd streams p = some (sd', p')) :
    sd'.updates = sd.updates ++ record (appliedBy call (some p)) := by
  cases SDLoadBalance.goes_of_next hnext with
  | on hth => rw [appliedBy_of_result hth, record, List.map_nil, List.append_nil]
  | found auto_create purpose hget => simp [appliedBy, record]
  | store sv purpose => simp [appliedBy, record, SDLoadBalance.updates_store]
  | update sv lb adds dels => rfl

/-- An update is done by the section that returns. -/
theorem mem_appliedBy {streams : UInt64 → Option Nat} {p p' : SDLoadBalance.Phase}
    {sd sd' : SDLoadBalance} {e : Applied}
    (hnext : (SDLoadBalance.code types).next sd streams p = some (sd', p'))
    (he : e ∈ appliedBy call (some p)) :
    ∃ lb, p = .updating e.sv (some lb) e.adds e.dels ∧ p' = .returned e.sv (some lb) ∧
      e.call = call := by
  cases p with
  | updating sv lb adds dels =>
      cases lb with
      | none => cases he
      | some lb =>
          obtain ⟨-, rfl⟩ := Prod.mk.inj (Option.some.inj hnext)
          obtain rfl := List.mem_singleton.mp he
          exact ⟨lb, rfl, rfl, rfl⟩
  | _ => cases he

/-- A call that has returned has no sections left. -/
theorem next_returned {streams : UInt64 → Option Nat} {sd : SDLoadBalance} {sv : Service}
    {lb : Option Nat} : (SDLoadBalance.code types).next sd streams (.returned sv lb) = none := rfl

/-- The first components of the nulls of a section. -/
theorem call_of_mem_nullsOf {streams : UInt64 → Option Nat} {p : Option SDLoadBalance.Phase}
    {n : Nat × UInt64} (h : n ∈ nullsOf types call streams p) : n.1 = call := by
  unfold nullsOf at h
  split at h
  · split at h
    · cases h
    · obtain ⟨info, -, rfl⟩ := List.mem_map.mp h
      rfl
  · cases h

/-- **A section of the callback.** -/
theorem Consistent.notify {streams : UInt64 → Option Nat} (hst : Consistent types st)
    (h : notify types call streams st = some st') : Consistent types st' := by
  obtain ⟨balancer, hstep, rfl⟩ := Option.map_eq_some_iff.mp h
  cases moves_of_step hstep with
  | @run i str p p' sd' hi hnext =>
      have hlt := (List.getElem?_eq_some_iff.mp hi).1
      constructor
      · exact hst.known.step hstep
      · refine ⟨fun hhas => ?_, hst.swapped.taken⟩
        obtain ⟨j, hbrought⟩ := hst.swapped.brought hhas
        exact ⟨j, hbrought.congr rfl⟩
      · simpa using hst.length
      · intro j q hq
        rcases getElem?_of_set hq with ⟨rfl, rfl⟩ | ⟨hne, hold⟩
        · exact progress_next (hst.progress hi) hnext rfl (by rw [hi]) (by rw [hi])
        · refine (hst.progress hold).congr rfl (fun id => ?_) fun e he => List.mem_append_left _ he
          rw [List.mem_append]
          exact or_iff_left fun hmem => hne (call_of_mem_nullsOf hmem)
      · intro e he
        have hnulls : ∀ {j}, j ≠ call → ∀ id, (j, id) ∈ st.nulls ++
            nullsOf types call streams st.balancer.threads[call]? ↔ (j, id) ∈ st.nulls := by
          intro j hne id
          rw [List.mem_append]
          exact or_iff_left fun hmem => hne (call_of_mem_nullsOf hmem)
        rcases List.mem_append.mp he with hold | hnew
        · obtain ⟨hmade, lb, hthread⟩ := hst.made e hold
          have hne : e.call ≠ call := by
            intro heq
            rw [heq, hi] at hthread
            rw [Option.some.inj hthread, next_returned] at hnext
            cases hnext
          refine ⟨hmade.congr rfl (hnulls hne), lb, ?_⟩
          rw [List.getElem?_set_ne (Ne.symm hne)]
          exact hthread
        · rw [hi] at hnew
          obtain ⟨lb, rfl, rfl, heq⟩ := mem_appliedBy hnext hnew
          have hmade : Made st call e.sv e.adds e.dels := hst.progress hi
          subst heq
          refine ⟨hmade.congr rfl fun id => ?_, lb, List.getElem?_set_self hlt⟩
          rw [hi]
          simp [nullsOf]
      · have hupdates := record_appliedBy call hnext
        rw [← hst.record, ← record_append] at hupdates
        simpa [hi] using hupdates.symm
      · intro n hn
        rcases List.mem_append.mp hn with hold | hnew
        · exact hst.nulls n hold
        · rw [call_of_mem_nullsOf hnew, hst.length]
          exact hlt

/-! ## Runs in order -/

/-- One balancer for each service, and the updates that touch an id in the order of their swaps. -/
structure Ordered (st : Store) : Prop where
  one : SDLoadBalance.OneBalancer st.balancer
  sorted : ∀ sv id, st.applied.Pairwise fun e e' =>
    e.Touches sv id → e'.Touches sv id → e.call ≤ e'.call

theorem Ordered.notify {streams : UInt64 → Option Nat} (hst : Ordered st)
    (hknown : SDLoadBalance.Known types st.balancer)
    (hfirst : SDLoadBalance.FirstOnly types st.balancer (.run call streams))
    (horder : ∀ e ∈ appliedBy call st.balancer.threads[call]?, ∀ e' ∈ st.applied,
      ∀ sv id, e.Touches sv id → e'.Touches sv id → e'.call ≤ e.call)
    (h : notify types call streams st = some st') : Ordered st' := by
  obtain ⟨balancer, hstep, rfl⟩ := Option.map_eq_some_iff.mp h
  refine ⟨(hst.one.step_iff hknown hstep).mpr hfirst, fun sv id => ?_⟩
  dsimp only
  rw [List.pairwise_append]
  refine ⟨hst.sorted sv id, ?_, fun e' he' e he htouch' htouch =>
    horder e he e' he' sv id htouch htouch'⟩
  -- A section does one update at most.
  unfold appliedBy
  split
  · exact List.pairwise_singleton ..
  · exact List.Pairwise.nil

/-- The last update that touches an id has the highest call. -/
theorem Ordered.call_le (hst : Ordered st) {id : UInt64} {e e' : Applied}
    (hlast : LastTouch st.applied sv id e) (he' : e' ∈ st.applied) (htouch : e'.Touches sv id) :
    e'.call ≤ e.call := by
  obtain ⟨before, after, heq, htouch', hafter⟩ := hlast
  rw [heq] at he'
  rcases List.mem_append.mp he' with hbefore | hrest
  · have hsorted := hst.sorted sv id
    rw [heq, List.pairwise_append] at hsorted
    exact hsorted.2.2 e' hbefore e List.mem_cons_self htouch htouch'
  · rcases List.mem_cons.mp hrest with rfl | hmem
    · exact Nat.le_refl _
    · exact absurd htouch (hafter e' hmem)

/-- An id that is touched is touched last by somebody. -/
theorem exists_lastTouch {applied : List Applied} {id : UInt64} {e : Applied} (he : e ∈ applied)
    (htouch : e.Touches sv id) : ∃ e', LastTouch applied sv id e' := by
  induction applied using List.reverseRecOn with
  | nil => cases he
  | append_singleton applied last ih =>
      by_cases htouches : last.Touches sv id
      · exact ⟨last, applied, [], rfl, htouches, by simp⟩
      · have hmem : e ∈ applied := by
          refine (List.mem_append.mp he).resolve_right fun hnew => ?_
          rw [← List.mem_singleton.mp hnew] at htouches
          exact htouches htouch
        obtain ⟨e', before, after, rfl, htouch', hafter⟩ := ih hmem
        refine ⟨e', before, after ++ [last], by simp, htouch', fun x hx => ?_⟩
        rcases List.mem_append.mp hx with hold | hnew
        · exact hafter x hold
        · rwa [List.mem_singleton.mp hnew]

theorem LastTouch.mem {applied : List Applied} {id : UInt64} {e : Applied}
    (h : LastTouch applied sv id e) : e ∈ applied ∧ e.Touches sv id := by
  obtain ⟨before, after, rfl, htouch, -⟩ := h
  exact ⟨by simp, htouch⟩

/-- The balancer has an id exactly if the last update that touches the id adds it. -/
theorem balanced_iff (hst : Consistent types st) (hone : SDLoadBalance.OneBalancer st.balancer)
    (id : UInt64) :
    Balanced st sv id ↔ ∃ e, LastTouch st.applied sv id e ∧ ∃ item ∈ e.adds, item.id = id := by
  rw [← replay_ne_none, hst.record]
  constructor
  · rintro ⟨lb, b, hget, hb, hid⟩
    obtain ⟨b', hb', hdatas⟩ := hone.complete sv lb hget
    obtain rfl := Option.some.inj (hb.symm.trans hb')
    rwa [← hdatas]
  · intro hreplay
    -- Somebody has updated a balancer of the service, and it is the one that is stored.
    obtain ⟨e, hlast, -⟩ := (replay_ne_none _ _ _).mp (hst.record ▸ hreplay)
    obtain ⟨hmem, htouch⟩ := hlast.mem
    obtain ⟨-, lb, hthread⟩ := hst.made e hmem
    have hget := hone.same _ (List.mem_of_getElem? hthread) e.sv (some lb) rfl
    rw [htouch.1] at hget
    obtain ⟨b, hb, hdatas⟩ := hone.complete sv lb hget
    exact ⟨lb, b, hget, hb, by rwa [hdatas]⟩

/-- A call that has finished has done its update, unless there was nothing to do. -/
theorem Consistent.applied_of_finished (hst : Consistent types st)
    (htype : SDLoadBalance.getType types sv ≠ .UNKNOWN)
    (hdone : ∀ call < st.balancer.threads.length, Finished st (.notifying call)) {swap : Swap}
    (hget : st.swaps[call]? = some swap) (hsv : swap.sv = sv) :
    ∃ adds dels, Made st call sv adds dels ∧
      ((adds = [] ∧ dels = []) ∨ ⟨call, sv, adds, dels⟩ ∈ st.applied) := by
  have hlt : call < st.balancer.threads.length := by
    rw [← hst.length]
    exact (List.getElem?_eq_some_iff.mp hget).1
  rcases hdone call hlt with ⟨sv', lb, hthread⟩ | hthread
  · obtain ⟨-, adds, dels, hmade, hmem⟩ := hst.progress hthread
    obtain ⟨swap', hget', hsv', -⟩ := id hmade
    obtain rfl := Option.some.inj (hget'.symm.trans hget)
    obtain rfl : sv' = sv := hsv'.symm.trans hsv
    exact ⟨adds, dels, hmade, .inr hmem⟩
  · obtain ⟨swap', hget', hcase⟩ := hst.progress hthread
    obtain rfl := Option.some.inj (hget'.symm.trans hget)
    subst hsv
    exact ⟨[], [], hcase.resolve_left htype, .inl ⟨rfl, rfl⟩⟩

/-- **When every call has finished,** the balancer has the latest view. -/
theorem latestView (hst : Consistent types st) (hord : Ordered st)
    (htype : SDLoadBalance.getType types sv ≠ .UNKNOWN)
    (hdone : ∀ call < st.balancer.threads.length, Finished st (.notifying call)) :
    LatestView st sv where
  of_balanced id hid := by
    obtain ⟨e, hlast, hadds⟩ := (balanced_iff hst hord.one id).mp hid
    obtain ⟨hmem, htouch⟩ := hlast.mem
    obtain ⟨⟨swap, hget, hsv, -, hmade⟩, -⟩ := hst.made e hmem
    obtain ⟨hnew, -, -⟩ := (hmade id).mp hadds
    by_contra hnot
    -- A later swap has taken it out, and its update has been done.
    obtain ⟨later, swap', hgt, hget', hsv', hold, hnot'⟩ :=
      hst.swapped.taken hnot hget (hsv.trans htouch.1) hnew
    obtain ⟨adds, dels, hmade', hcase⟩ := hst.applied_of_finished htype hdone hget' hsv'
    obtain ⟨swap'', hget'', -, hdels, -⟩ := hmade'
    obtain rfl := Option.some.inj (hget''.symm.trans hget')
    have hmem' : id ∈ dels := (hdels id).mpr ⟨hold, hnot'⟩
    rcases hcase with ⟨-, rfl⟩ | happlied
    · cases hmem'
    · exact absurd (hord.call_le hlast happlied ⟨rfl, .inr hmem'⟩) (Nat.not_le_of_lt hgt)
  balanced id hhas := by
    obtain ⟨call, hbrought⟩ := hst.swapped.brought hhas
    obtain ⟨swap, hget, hsv, hnew, hold⟩ := hbrought.added
    by_cases hnull : (call, id) ∈ st.nulls
    · exact .inr ⟨call, hbrought, hnull⟩
    · obtain ⟨adds, dels, hmade, hcase⟩ := hst.applied_of_finished htype hdone hget hsv
      obtain ⟨swap', hget', -, -, hadds⟩ := hmade
      obtain rfl := Option.some.inj (hget'.symm.trans hget)
      have hitem : ∃ item ∈ adds, item.id = id := (hadds id).mpr ⟨hnew, hold, hnull⟩
      rcases hcase with ⟨rfl, -⟩ | happlied
      · obtain ⟨item, hmem, -⟩ := hitem
        cases hmem
      · refine .inl ((balanced_iff hst hord.one id).mpr ?_)
        have htouch : Applied.Touches ⟨call, sv, adds, dels⟩ sv id := ⟨rfl, .inl hitem⟩
        obtain ⟨e, hlast⟩ := exists_lastTouch happlied htouch
        refine ⟨e, hlast, ?_⟩
        -- Whoever touched it last did so after this swap, and has not taken it out.
        have hle := hord.call_le hlast happlied htouch
        obtain ⟨hmem, hsv', htouch'⟩ := hlast.mem
        obtain ⟨⟨swap', hget', hsv'', hdels', -⟩, -⟩ := hst.made e hmem
        refine htouch'.resolve_right fun hdel => ?_
        obtain ⟨hold', hnot'⟩ := (hdels' id).mp hdel
        rcases Nat.lt_or_eq_of_le hle with hlt | heq
        · exact hnot' (hbrought.last e.call swap' hlt hget' (hsv''.trans hsv') hold')
        · rw [← heq] at hget'
          obtain rfl := Option.some.inj (hget'.symm.trans hget)
          exact hold hold'

end Steps

/-! ## Whole runs -/

/-- Every call of the callback is made by a run. -/
structure Tracked (types : SDLoadBalance.Types) (s : Runs) : Prop where
  consistent : Consistent types s.shared
  ordered : Ordered s.shared
  caller : ∀ call < s.shared.balancer.threads.length, Phase.notifying call ∈ s.threads

section Runs

variable {c : Config} {s s' : Runs} {a : Act Outside Service}

theorem tracked_start : Tracked c.types start where
  consistent := consistent_init
  ordered := by
    refine ⟨⟨?_, ?_⟩, fun sv id => List.Pairwise.nil⟩
    · intro th hth
      cases hth
    · rintro sv lb ⟨⟩
  caller call hlt := by cases hlt

theorem Tracked.settles (hs : Tracked c.types s) : Settles c.types s := fun hdone _ htype =>
  latestView hs.consistent hs.ordered htype fun call hlt => hdone _ (hs.caller call hlt)

/-- **A step in order.** -/
theorem Tracked.step (hs : Tracked c.types s) (hok : InOrder c.types s a)
    (h : (getChildren c).step s a = some s') : Tracked c.types s' := by
  cases moves_of_step h with
  | call sv =>
      exact ⟨hs.consistent, hs.ordered, fun call hlt => List.mem_append_left _ (hs.caller call hlt)⟩
  | @run i out th th' st' hi hnext =>
      have hlt := (List.getElem?_eq_some_iff.mp hi).1
      -- A thread that is not in the callback becomes another one.
      have hothers : (∀ call, th ≠ .notifying call) → ∀ call < s.shared.balancer.threads.length,
          Phase.notifying call ∈ s.threads.set i th' := by
        intro hnot call hcall
        refine (mem_set_of_mem hi (hs.caller call hcall)).resolve_left fun heq => ?_
        exact hnot call heq.symm
      cases th with
      | called sv =>
          obtain ⟨rfl, rfl⟩ := Prod.mk.inj (Option.some.inj hnext)
          exact ⟨hs.consistent, hs.ordered, hothers (by simp)⟩
      | fetching sv =>
          obtain rfl : s.shared = st' := by
            simp only [getChildren] at hnext
            split at hnext <;> exact (Prod.mk.inj (Option.some.inj hnext)).1
          exact ⟨hs.consistent, hs.ordered, hothers (by simp)⟩
      | swapping sv infos =>
          obtain ⟨rfl, rfl⟩ := Prod.mk.inj (Option.some.inj hnext)
          refine ⟨hs.consistent.swap, ⟨?_, hs.ordered.sorted⟩, fun call hcall => ?_⟩
          · -- A call that has not begun has been returned nothing.
            refine ⟨fun t ht sv' lb hr => ?_, hs.ordered.one.complete⟩
            rcases List.mem_append.mp ht with hold | hnew
            · exact hs.ordered.one.same t hold sv' lb hr
            · rw [List.mem_singleton.mp hnew] at hr
              cases hr
          · simp only [swap, List.length_append, List.length_singleton] at hcall
            rcases Nat.lt_succ_iff_lt_or_eq.mp hcall with hold | rfl
            · exact hothers (by simp) call hold
            · exact List.mem_set hlt _
      | notifying call =>
          obtain ⟨st'', hnotify, heq⟩ := Option.map_eq_some_iff.mp hnext
          obtain ⟨rfl, rfl⟩ := Prod.mk.inj heq
          obtain ⟨hfirst, horder⟩ := hok i out call rfl hi
          refine ⟨hs.consistent.notify hnotify,
            hs.ordered.notify hs.consistent.known hfirst horder hnotify, fun call' hcall' => ?_⟩
          have hlength : st''.balancer.threads.length = s.shared.balancer.threads.length := by
            rw [← (hs.consistent.notify hnotify).length, ← hs.consistent.length]
            obtain ⟨balancer, -, rfl⟩ := Option.map_eq_some_iff.mp hnotify
            rfl
          rw [hlength] at hcall'
          rcases mem_set_of_mem (b := .notifying call) hi (hs.caller call' hcall') with heq | hmem
          · rw [heq]
            exact List.mem_set hlt _
          · exact hmem
      | failed => cases hnext

end Runs

/-- **The balancer follows the latest view.**  In every run whose steps are in order: whenever all
calls of `getChildren` have finished, the balancer of every service that has a type has the ids of
the view that was swapped in last, but for streams that could not be made. -/
theorem settles_of_inOrder (c : Config) (as : List (Act Outside Service))
    (h : runMeets (getChildren c).step (InOrder c.types) as start) :
    runAlways (getChildren c).step (Settles c.types) as start :=
  runAlways_of_runMeets (fun hs hok hstep => hs.step hok hstep) (fun hs => hs.settles) as
    tracked_start h

/-- One domain with one service, and addresses that stand for their ids. -/
def oneService : Config where
  queryInfos _ := some ["all"]
  types := SDLoadBalance.roundRobin
  create addr := some ⟨addr.length.toUInt64, addr, 80⟩

/-- The children are these, and every stream can be made. -/
def sees (children : List String) : Outside := ⟨some children, fun id => some id.toNat⟩

/-- A run from its call to its end: the three sections of its own, the five of the callback. -/
def wholeRun (i : Nat) (children : List String) : List (Act Outside Service) :=
  .call ("d", "s") :: List.replicate 7 (.run i (sees children))

/-- A step is in order while nothing has been updated, and either nothing has been stored or nobody
is about to store. -/
theorem inOrder_of_fresh {types : SDLoadBalance.Types} {s : Runs} {a : Act Outside Service}
    (hupdates : s.shared.applied = [])
    (hstored : (∀ sv, s.shared.balancer.shared.datas sv = none) ∨
      ∀ p ∈ s.shared.balancer.threads, p.result ≠ none) : InOrder types s a := by
  rintro i out call rfl hi
  refine ⟨?_, ?_⟩
  · rintro j streams sv purpose ⟨⟩ hj
    have hnone := hstored.resolve_right fun h => h _ (List.mem_of_getElem? hj) rfl
    exact .inl (hnone sv)
  · intro e he e' he'
    rw [hupdates] at he'
    cases he'

theorem settles_wholeRun :
    runAlways (getChildren oneService).step (Settles oneService.types) (wholeRun 0 ["a"])
      start := by
  refine settles_of_inOrder oneService _ ?_
  have hfirst : ∀ {s : Runs} {a}, s.shared.applied = [] →
      (∀ sv, s.shared.balancer.shared.datas sv = none) → InOrder oneService.types s a :=
    fun hupdates hstored => inOrder_of_fresh hupdates (.inl hstored)
  refine ⟨hfirst rfl fun _ => rfl, hfirst rfl fun _ => rfl, hfirst rfl fun _ => rfl,
    hfirst rfl fun _ => rfl, hfirst rfl fun _ => rfl, hfirst rfl fun _ => rfl,
    hfirst rfl fun _ => rfl, ?_, trivial⟩
  exact inOrder_of_fresh rfl (.inr (by decide))

/-- Two runs; the one that has swapped first calls back last. -/
def overtaken : List (Act Outside Service) :=
  [.call ("d", "s"), .call ("d", "s")] ++ List.replicate 3 (.run 0 (sees ["a"])) ++
    List.replicate 7 (.run 1 (sees ["bb"])) ++ List.replicate 3 (.run 0 (sees ["a"]))

/-- The balancer is left with the id of the first view, which the second one does not have. -/
theorem not_settles_overtaken :
    ¬ runAlways (getChildren oneService).step (Settles oneService.types) overtaken start := by
  intro h
  have hrun : (runActions (getChildren oneService).step overtaken start).map (fun s =>
      (s.threads, s.shared.balancer.threads)) = some ([.notifying 0, .notifying 1],
        [.returned ("d", "s") (some 0), .returned ("d", "s") (some 0)]) := by decide
  have hview : (runActions (getChildren oneService).step overtaken start).map (fun s =>
      (s.shared.balancer.shared.datas ("d", "s"),
        s.shared.balancer.shared.objects[0]?.map (fun b => (b.datas 1).isSome),
        decide ((s.shared.datas ("d", "s")).Has 1))) =
      some (some (some 0), some true, false) := by decide
  obtain ⟨s, hs, hend⟩ := Option.map_eq_some_iff.mp hrun
  obtain ⟨hthreads, hcalls⟩ := Prod.mk.inj hend
  simp only [hs, Option.map_some, Option.some.injEq, Prod.mk.injEq] at hview
  obtain ⟨hget, hobject, hview⟩ := hview
  obtain ⟨b, hb, hsome⟩ := Option.map_eq_some_iff.mp hobject
  have hlatest := h.end hs (fun th hth => ?_) ("d", "s") (by decide)
  · exact of_decide_eq_false hview
      (hlatest.of_balanced 1 ⟨0, b, hget, hb, Option.isSome_iff_ne_none.mp hsome⟩)
  · rw [hthreads] at hth
    rcases List.mem_pair.mp hth with rfl | rfl
    · exact .inl ⟨_, _, by rw [hcalls]; rfl⟩
    · exact .inl ⟨_, _, by rw [hcalls]; rfl⟩

end ServiceDiscovery
end Routn
