import Routn.Foundation.PrefixSums
import Routn.Foundation.Transition
import Routn.LoadBalance.Weights

/-!
# Choosing by weight

What is asked of `getIdx` is that every number chooses an item, and each item is chosen as often as
its weight says (`Proportional`).  That is so when no weight that was added up is negative, one is
positive, and those that an `int` cannot point to are zero.  A new item has the weight zero, and
most of what `HolderStats::getWeight` computes is truncated to zero.
-/

namespace Routn
namespace LoadBalance
namespace WeightLoadBalance

open Foundation

/-- The total is positive, every number chooses an item between its sum and the one before, and each
item is chosen by as many residues as its weight says. -/
def Proportional (lb : WeightLoadBalance) : Prop :=
  lb.items ≠ [] → ∃ total, lb.weights.getLast? = some total ∧ 0 < total ∧
    (∀ v rand, ∃ (i : Nat) (lower upper : Int), lb.getIdx v rand = some (i : Int) ∧
      i < lb.items.length ∧ (0 :: lb.weights)[i]? = some lower ∧ lb.weights[i]? = some upper ∧
        lower ≤ (draw v rand % total.toNat : Nat) ∧
        ((draw v rand % total.toNat : Nat) : Int) < upper) ∧
    ∀ (i : Nat) w rand, lb.taken[i]? = some w →
      (((Finset.range total.toNat).filter fun r =>
        lb.getIdx (.ofNat r) rand = some (i : Int)).card : Int) = w

/-- No weight is negative, one is positive, and those that an `int` cannot point to are zero. -/
structure Sampled (ws : List Int) : Prop where
  nonneg : ∀ w ∈ ws, 0 ≤ w
  positive : ∃ w ∈ ws, 0 < w
  indexed : ∀ w ∈ ws.drop (2 ^ 31), w = 0

/-- `Sampled`, for natural numbers. -/
structure Weighed (ns : List Nat) : Prop where
  positive : 0 < ns.sum
  bounded : ns.sum < 2 ^ 63
  indexed : ∀ n ∈ ns.drop (2 ^ 31), n = 0

/-- What was added up last, and its sums. -/
def Added (lb : WeightLoadBalance) (ns : List Nat) : Prop :=
  lb.taken = ns.map Nat.cast ∧ lb.weights = (sums 0 ns).map Nat.cast ∧
    lb.items.length = ns.length

variable {lb lb' : WeightLoadBalance} {ns : List Nat} {ws : List Int} {rand : Nat} {v : UInt64}

/-! ## Searching the sums -/

theorem toSize_natCast {n : Nat} (h : n < 2 ^ 63) : toSize (n : Int) = n := by
  unfold toSize
  omega

/-- `upper_bound` finds the first sum above. -/
theorem upperBound_sums (h : ns.sum < 2 ^ 63) (d : Nat) :
    upperBound ((sums 0 ns).map Nat.cast) d = some (firstOver d ns) := by
  have hsize : ((sums 0 ns).map (Nat.cast : Nat → Int)).map toSize = sums 0 ns := by
    rw [List.map_map]
    conv_rhs => rw [← List.map_id (sums 0 ns)]
    apply List.map_congr_left
    intro n hn
    apply toSize_natCast
    have := (le_of_mem_sums hn).2
    omega
  have hsorted : (((sums 0 ns).map (Nat.cast : Nat → Int)).map toSize).Pairwise
      fun w w' => d < w → d < w' := by
    rw [hsize]
    exact (pairwise_sums 0 ns).imp fun hle hlt => lt_of_lt_of_le hlt hle
  have hfind := List.findIdx_map ((sums 0 ns).map (Nat.cast : Nat → Int)) toSize
    (fun w => decide (d < w))
  rw [hsize] at hfind
  rw [upperBound, if_pos (List.pairwise_map.mp hsorted), firstOver, hfind]
  rfl

/-- **What `getIdx` answers.** -/
theorem getIdx_eq (hadded : lb.Added ns) (hweighed : Weighed ns) (v : UInt64) (rand : Nat) :
    lb.getIdx v rand = some ((firstOver (draw v rand % ns.sum) ns : Nat) : Int) ∧
      firstOver (draw v rand % ns.sum) ns < ns.length := by
  obtain ⟨-, hweights, -⟩ := hadded
  obtain ⟨hpos, hbound, hindexed⟩ := hweighed
  have hne : ns ≠ [] := by
    rintro rfl
    exact absurd hpos (Nat.lt_irrefl 0)
  have hlast : lb.weights.getLast? = some (ns.sum : Int) := by
    rw [hweights, List.getLast?_map, getLast?_sums _ hne, Nat.zero_add, Option.map_some]
  have hlt : firstOver (draw v rand % ns.sum) ns < ns.length := firstOver_lt (Nat.mod_lt _ hpos)
  -- What is chosen has a weight, so that an `int` can point to it.
  have hint : firstOver (draw v rand % ns.sum) ns < 2 ^ 31 := by
    by_contra hbig
    obtain ⟨hlower, hupper⟩ := (firstOver_eq_iff hlt).mp rfl
    have hget := List.getElem?_eq_getElem hlt
    rw [sum_take_succ hget] at hupper
    have hplace : 2 ^ 31 + (firstOver (draw v rand % ns.sum) ns - 2 ^ 31) =
        firstOver (draw v rand % ns.sum) ns := by omega
    have hzero := hindexed _ (List.mem_of_getElem? (by rw [List.getElem?_drop, hplace, hget]))
    omega
  refine ⟨?_, hlt⟩
  have hlength : lb.weights.length = ns.length := by
    rw [hweights, List.length_map, length_sums]
  simp only [getIdx, hlast, toSize_natCast hbound, hpos.ne', if_false]
  rw [hweights, upperBound_sums hbound, Option.bind_some, ← hweights, hlength, if_neg hlt.ne,
    toInt_natCast hint]

/-! ## Choosing by the sums -/

theorem draw_ofNat {r : Nat} (h : r < 2 ^ 63) (rand : Nat) : draw (.ofNat r) rand = r := by
  have hr : (UInt64.ofNat r).toNat = r := UInt64.toNat_ofNat_of_lt' (by unfold UInt64.size; omega)
  have hne : UInt64.ofNat r ≠ -1 := by
    intro heq
    rw [heq] at hr
    have : (-1 : UInt64).toNat = 2 ^ 64 - 1 := by decide
    omega
  rw [draw, if_neg hne, hr]

theorem proportional_of_weighed (hadded : lb.Added ns) (hweighed : Weighed ns) :
    lb.Proportional := by
  intro hitems
  obtain ⟨htaken, hweights, hlength⟩ := hadded
  have hne : ns ≠ [] := by
    rintro rfl
    exact hitems (List.eq_nil_of_length_eq_zero hlength)
  refine ⟨(ns.sum : Nat), ?_, by exact_mod_cast hweighed.positive, fun v rand => ?_,
    fun i w rand hw => ?_⟩
  · rw [hweights, List.getLast?_map, getLast?_sums _ hne, Nat.zero_add, Option.map_some]
  · obtain ⟨hidx, hlt⟩ := getIdx_eq ⟨htaken, hweights, hlength⟩ hweighed v rand
    obtain ⟨hlower, hupper⟩ := (firstOver_eq_iff hlt).mp rfl
    have hcons : (0 : Int) :: lb.weights = (0 :: sums 0 ns).map Nat.cast := by simp [hweights]
    refine ⟨_, ((ns.take (firstOver (draw v rand % ns.sum) ns)).sum : Nat),
      ((ns.take (firstOver (draw v rand % ns.sum) ns + 1)).sum : Nat), hidx, hlength ▸ hlt,
      ?_, ?_, ?_, ?_⟩
    · rw [hcons, List.getElem?_map, getElem?_cons_sums hlt, Nat.zero_add, Option.map_some]
    · rw [hweights, List.getElem?_map, getElem?_sums hlt, Nat.zero_add, Option.map_some]
    · rw [Int.toNat_natCast]
      exact Int.ofNat_le.mpr hlower
    · rw [Int.toNat_natCast]
      exact Int.ofNat_lt.mpr hupper
  · rw [htaken, List.getElem?_map] at hw
    obtain ⟨n, hn, rfl⟩ := Option.map_eq_some_iff.mp hw
    have hsame : (Finset.range ns.sum).filter (fun r =>
        lb.getIdx (.ofNat r) rand = some (i : Int)) =
          (Finset.range ns.sum).filter fun r => firstOver r ns = i := by
      apply Finset.filter_congr
      intro r hr
      have hr : r < ns.sum := Finset.mem_range.mp hr
      rw [(getIdx_eq ⟨htaken, hweights, hlength⟩ hweighed _ rand).1,
        draw_ofNat (hr.trans hweighed.bounded), Nat.mod_eq_of_lt hr]
      simp
    rw [Int.toNat_natCast, hsame, card_firstOver hn]

/-! ## The sums that choose -/

theorem getIdx_lt {i : Nat} (h : lb.getIdx v rand = some (i : Int)) : i < 2 ^ 31 := by
  unfold getIdx at h
  split at h
  · cases h
  · split at h
    · cases h
    · obtain ⟨it, -, hit⟩ := Option.bind_eq_some_iff.mp h
      split at hit
      · cases hit
      · have := Option.some.inj hit
        unfold toInt at this
        omega

/-- **The weights of a balancer that chooses by them.** -/
theorem sampled_of_proportional (h : lb.Proportional) (hitems : lb.items ≠ [])
    (hlength : lb.taken.length = lb.items.length) : Sampled lb.taken := by
  obtain ⟨total, -, hpos, hchoice, hcount⟩ := h hitems
  have hnonneg : ∀ w ∈ lb.taken, 0 ≤ w := by
    intro w hw
    obtain ⟨i, hi⟩ := List.mem_iff_getElem?.mp hw
    have := hcount i w 0 hi
    omega
  obtain ⟨ns, hns⟩ : ∃ ns : List Nat, ns.map Nat.cast = lb.taken := by
    lift lb.taken to List Nat using hnonneg with ns hns
    exact ⟨ns, rfl⟩
  have hcard : ∀ i n : Nat, ns[i]? = some n → ((Finset.range total.toNat).filter fun r =>
      lb.getIdx (.ofNat r) 0 = some (i : Int)).card = n := by
    intro i n hn
    have hw : lb.taken[i]? = some (n : Int) := by
      rw [← hns, List.getElem?_map, hn, Option.map_some]
    exact_mod_cast hcount i n 0 hw
  refine ⟨hnonneg, ?_, fun w hw => ?_⟩
  · -- Some residue chooses an item, whose weight is then positive.
    obtain ⟨i, lower, upper, hidx, hi, -⟩ := hchoice (.ofNat 0) 0
    have hlt : i < ns.length := by
      rw [← hlength, ← hns, List.length_map] at hi
      exact hi
    have hget := List.getElem?_eq_getElem hlt
    have hone : 0 < ns[i] := by
      rw [← hcard i _ hget, Finset.card_pos]
      exact ⟨0, Finset.mem_filter.mpr ⟨Finset.mem_range.mpr (by omega), hidx⟩⟩
    refine ⟨(ns[i] : Int), ?_, by exact_mod_cast hone⟩
    rw [← hns]
    exact List.mem_map_of_mem (List.getElem_mem hlt)
  · obtain ⟨j, hj⟩ := List.mem_iff_getElem?.mp hw
    rw [List.getElem?_drop, ← hns, List.getElem?_map] at hj
    obtain ⟨n, hn, rfl⟩ := Option.map_eq_some_iff.mp hj
    -- `getIdx` does not answer with a place that an `int` cannot point to.
    have hzero := hcard _ n hn
    rw [Finset.filter_false_of_mem] at hzero
    · rw [← hzero, Finset.card_empty, Nat.cast_zero]
    · intro r _ hidx
      have := getIdx_lt hidx
      omega

/-! ## Adding up -/

theorem accumulate_eq (total : Nat) (h : total + ns.sum < 2 ^ 63) :
    accumulate total (ns.map Nat.cast) = some ((sums total ns).map Nat.cast) := by
  induction ns generalizing total with
  | nil => rfl
  | cons n ns ih =>
      rw [List.sum_cons] at h
      have hrest := ih (total + n) (by omega)
      rw [Nat.cast_add] at hrest
      rw [List.map_cons, accumulate, if_pos (by omega), hrest]
      simp [sums]

theorem fair_accumulate_eq (total : Nat) (h : total + ns.sum < 2 ^ 63) :
    FairLoadBalance.accumulate total (ns.map Nat.cast) = (sums total ns).map Nat.cast := by
  induction ns generalizing total with
  | nil => rfl
  | cons n ns ih =>
      rw [List.sum_cons] at h
      have hrest := ih (total + n) (by omega)
      have hsum : ((total : Int) + n).bmod (2 ^ 64) = ((total + n : Nat) : Int) := by
        rw [Nat.cast_add]
        exact Int.bmod_eq_of_le (by omega) (by omega)
      rw [List.map_cons, FairLoadBalance.accumulate, hsum, hrest]
      simp [sums]

/-- Weights that an `int` holds do not overflow the sum, for an `int` points to all that count. -/
theorem Sampled.weighed (h : Sampled ws) (hint : ∀ w ∈ ws, w < 2 ^ 31) :
    ∃ ns : List Nat, ws = ns.map Nat.cast ∧ Weighed ns := by
  obtain ⟨hnonneg, ⟨w, hw, hpos⟩, hindexed⟩ := h
  lift ws to List Nat using hnonneg
  refine ⟨ws, rfl, ?_, ?_, fun n hn => ?_⟩
  · obtain ⟨n, hn, rfl⟩ := List.mem_map.mp hw
    have := List.le_sum_of_mem hn
    omega
  · have hfirst : (ws.take (2 ^ 31)).sum ≤ (ws.take (2 ^ 31)).length • 2 ^ 31 := by
      apply List.sum_le_card_nsmul
      intro n hn
      have := hint n (List.mem_map_of_mem (List.mem_of_mem_take hn))
      omega
    have hrest : (ws.drop (2 ^ 31)).sum = 0 := by
      rw [List.sum_eq_zero_iff]
      intro n hn
      have := hindexed n (by rw [← List.map_drop]; exact List.mem_map_of_mem hn)
      exact_mod_cast this
    have hlength := List.length_take_le (2 ^ 31) ws
    rw [← List.sum_take_add_sum_drop ws (2 ^ 31), hrest]
    rw [smul_eq_mul] at hfirst
    have := Nat.mul_le_mul_right (2 ^ 31) hlength
    omega
  · have := hindexed n (by rw [← List.map_drop]; exact List.mem_map_of_mem hn)
    exact_mod_cast this

theorem sampled_map {α : Type*} {l : List α} {g : α → Int} : Sampled (l.map g) ↔
    (∀ a ∈ l, 0 ≤ g a) ∧ (∃ a ∈ l, 0 < g a) ∧ ∀ a ∈ l.drop (2 ^ 31), g a = 0 := by
  constructor
  · rintro ⟨hnonneg, ⟨w, hw, hpos⟩, hindexed⟩
    rw [← List.map_drop] at hindexed
    obtain ⟨a, ha, rfl⟩ := List.mem_map.mp hw
    exact ⟨List.forall_mem_map.mp hnonneg, ⟨a, ha, hpos⟩, List.forall_mem_map.mp hindexed⟩
  · rintro ⟨hnonneg, ⟨a, ha, hpos⟩, hindexed⟩
    refine ⟨List.forall_mem_map.mpr hnonneg, ⟨g a, List.mem_map_of_mem ha, hpos⟩, ?_⟩
    rw [← List.map_drop]
    exact List.forall_mem_map.mpr hindexed

/-! ## `initNolock` -/

/-- What is asked of the weights that `WeightLoadBalance` reads. -/
def Weights (lb : WeightLoadBalance) (order : List Nat) : Prop :=
  lb.validItems order = [] ∨
    (∃ p ∈ lb.validItems order, 0 < (lb.heap p).weight) ∧
      ∀ p ∈ (lb.validItems order).drop (2 ^ 31), (lb.heap p).weight = 0

/-- The score of an item, of those that are valid. -/
def scoreOf (lb : WeightLoadBalance) (items : List Nat) (now : UInt64) (p : Nat) : ℚ :=
  (lb.heap p).stats.getTotal.score (FairLoadBalance.totalStats lb items)
    (lb.heap p).discoveryTime now

/-- What is asked of the statistics that `FairLoadBalance` reads: nothing has been counted, or no
score is -1 or less, and one is 1 or more. -/
def Scores (lb : WeightLoadBalance) (order : List Nat) (now : UInt64) : Prop :=
  let items := lb.validItems order
  items = [] ∨
    (FairLoadBalance.totalStats lb items).total = 0 ∧ items.drop (2 ^ 31) = [] ∨
    (FairLoadBalance.totalStats lb items).total ≠ 0 ∧
      (∀ p ∈ items, -1 < lb.scoreOf items now p ∧ lb.scoreOf items now p < 2 ^ 31) ∧
      (∃ p ∈ items, 1 ≤ lb.scoreOf items now p) ∧
      ∀ p ∈ items.drop (2 ^ 31), lb.scoreOf items now p < 1

/-- What carries the induction. -/
def Kept (lb : WeightLoadBalance) : Prop := ∃ ns, lb.Added ns ∧ (ns = [] ∨ Weighed ns)

theorem Kept.proportional (h : lb.Kept) : lb.Proportional := by
  obtain ⟨ns, hadded, rfl | hweighed⟩ := h
  · intro hitems
    exact absurd (List.eq_nil_of_length_eq_zero hadded.2.2) hitems
  · exact proportional_of_weighed hadded hweighed

/-- `get` answers. -/
theorem Kept.exists_get (h : lb.Kept) (v : UInt64) (rand : Nat) : ∃ p, lb.get v rand = some p := by
  unfold get
  obtain ⟨ns, hadded, rfl | hweighed⟩ := h
  · have hnil : lb.weights = [] := hadded.2.1
    simp [getIdx, hnil]
  · rw [(getIdx_eq hadded hweighed v rand).1]
    exact ⟨_, rfl⟩

/-- Weights that are `Sampled` are added up as natural numbers. -/
theorem exists_added (hok : ws = [] ∨ Sampled ws) (hint : ∀ w ∈ ws, w < 2 ^ 31) :
    ∃ ns : List Nat, ws = ns.map Nat.cast ∧ (ns = [] ∨ Weighed ns) ∧
      accumulate 0 ws = some ((sums 0 ns).map Nat.cast) ∧
      FairLoadBalance.accumulate 0 ws = (sums 0 ns).map Nat.cast := by
  rcases hok with rfl | hsampled
  · exact ⟨[], rfl, .inl rfl, rfl, rfl⟩
  · obtain ⟨ns, rfl, hweighed⟩ := hsampled.weighed hint
    have hsum : 0 + ns.sum < 2 ^ 63 := by
      rw [Nat.zero_add]
      exact hweighed.bounded
    exact ⟨ns, rfl, .inr hweighed, accumulate_eq 0 hsum, fair_accumulate_eq 0 hsum⟩

variable {order : List Nat} {now : UInt64}

section Weight

variable (hint : ∀ p, 0 ≤ (lb.heap p).weight ∧ (lb.heap p).weight < 2 ^ 31)
include hint

theorem weights_iff : lb.Weights order ↔
    (lb.validItems order).map (fun p => (lb.heap p).weight) = [] ∨
      Sampled ((lb.validItems order).map fun p => (lb.heap p).weight) := by
  have hnonneg : ∀ p ∈ lb.validItems order, 0 ≤ (lb.heap p).weight := fun p _ => (hint p).1
  rw [sampled_map, List.map_eq_nil_iff, Weights]
  tauto

theorem initNolock_good (hok : lb.Weights order) :
    ∃ lb', lb.initNolock order = some lb' ∧ lb'.Kept ∧ lb'.heap = lb.heap := by
  obtain ⟨ns, htaken, hns, hsums, -⟩ := exists_added ((weights_iff hint).mp hok) (by
    rw [List.forall_mem_map]
    exact fun p _ => (hint p).2)
  have hlength : (lb.validItems order).length = ns.length := by
    have := congrArg List.length htaken
    rwa [List.length_map, List.length_map] at this
  exact ⟨{ lb with
      items := lb.validItems order
      weights := (sums 0 ns).map Nat.cast
      taken := (lb.validItems order).map fun p => (lb.heap p).weight },
    by rw [initNolock, hsums, Option.map_some], ⟨ns, ⟨htaken, rfl, hlength⟩, hns⟩, rfl⟩

theorem initNolock_bad (hbad : ¬ lb.Weights order) (hinit : lb.initNolock order = some lb') :
    ¬ lb'.Proportional := by
  obtain ⟨weights, -, rfl⟩ := Option.map_eq_some_iff.mp hinit
  intro hprop
  apply hbad
  rw [weights_iff hint]
  by_cases hnil : lb.validItems order = []
  · exact .inl (List.map_eq_nil_iff.mpr hnil)
  · exact .inr (sampled_of_proportional hprop hnil (List.length_map _))

end Weight

/-! ## `initNolock` of `FairLoadBalance` -/

theorem mapM_ite {α β : Type*} {P : α → Prop} [DecidablePred P] (g : α → β) (l : List α) :
    (l.mapM fun a => if P a then some (g a) else none) =
      if ∀ a ∈ l, P a then some (l.map g) else none := by
  induction l with
  | nil => rfl
  | cons a l ih =>
      rw [List.mapM_cons, ih]
      by_cases ha : P a
      · by_cases hl : ∀ a ∈ l, P a
        · rw [if_pos hl]
          simpa [ha] using hl
        · rw [if_neg hl]
          simp [ha, hl]
      · simp [ha]

/-- `getWeight` of an item is undefined for a score that is not in the range of `int`. -/
def Scored (lb : WeightLoadBalance) (items : List Nat) (now : UInt64) (p : Nat) : Prop :=
  (FairLoadBalance.totalStats lb items).total ≠ 0 →
    -2 ^ 31 ≤ towardZero (lb.scoreOf items now p) ∧ towardZero (lb.scoreOf items now p) < 2 ^ 31

instance (lb : WeightLoadBalance) (items : List Nat) (now : UInt64) :
    DecidablePred (lb.Scored items now) := fun p =>
  inferInstanceAs (Decidable ((FairLoadBalance.totalStats lb items).total ≠ 0 →
    -2 ^ 31 ≤ towardZero (lb.scoreOf items now p) ∧ towardZero (lb.scoreOf items now p) < 2 ^ 31))

/-- The weight of an item that has one. -/
def fairWeight (lb : WeightLoadBalance) (items : List Nat) (now : UInt64) (p : Nat) : Int :=
  if (FairLoadBalance.totalStats lb items).total = 0 then 100
  else min 1 (towardZero (lb.scoreOf items now p))

theorem weigh_eq (items : List Nat) : FairLoadBalance.weigh lb items now = fun p =>
    if lb.Scored items now p then some (lb.fairWeight items now p) else none := by
  funext p
  unfold FairLoadBalance.weigh HolderStats.getWeight Scored fairWeight truncate
  by_cases hzero : (FairLoadBalance.totalStats lb items).total = 0
  · simp [hzero]
  · rw [if_neg hzero, if_neg hzero, apply_ite (Option.map (min 1))]
    simp only [ne_eq, hzero, not_false_eq_true, forall_const]
    rfl

theorem towardZero_nonneg_iff {q : ℚ} : 0 ≤ towardZero q ↔ -1 < q := by
  unfold towardZero
  split
  · next hneg =>
      have hceil := Int.lt_ceil (z := -1) (a := q)
      rw [Int.cast_neg, Int.cast_one] at hceil
      rw [← hceil]
      omega
  · next hpos =>
      have hpos := not_lt.mp hpos
      exact iff_of_true (Int.floor_nonneg.mpr hpos) (by linarith)

theorem towardZero_pos_iff {q : ℚ} : 0 < towardZero q ↔ 1 ≤ q := by
  unfold towardZero
  split
  · next hneg =>
      have hceil : ⌈q⌉ ≤ 0 := Int.ceil_le.mpr (by simpa using hneg.le)
      exact iff_of_false (by omega) (by linarith)
  · next hpos => exact Int.floor_pos

theorem towardZero_lt_iff {q : ℚ} : towardZero q < 2 ^ 31 ↔ q < 2 ^ 31 := by
  unfold towardZero
  split
  · next hneg =>
      have hceil : ⌈q⌉ ≤ 0 := Int.ceil_le.mpr (by simpa using hneg.le)
      exact iff_of_true (by omega) (by linarith)
  · next hpos =>
      rw [Int.floor_lt]
      norm_num

/-- What `Scores` asks, of the weights. -/
theorem scores_iff : lb.Scores order now ↔
    (∀ p ∈ lb.validItems order, lb.Scored (lb.validItems order) now p) ∧
      ((lb.validItems order).map (lb.fairWeight (lb.validItems order) now) = [] ∨
        Sampled ((lb.validItems order).map (lb.fairWeight (lb.validItems order) now))) := by
  unfold Scores
  generalize lb.validItems order = items
  dsimp only
  rw [sampled_map, List.map_eq_nil_iff]
  by_cases hnil : items = []
  · subst hnil
    simp
  simp only [hnil, false_or]
  obtain ⟨first, hfirst⟩ := List.exists_mem_of_ne_nil items hnil
  by_cases hzero : (FairLoadBalance.totalStats lb items).total = 0
  · have hweight : ∀ p, lb.fairWeight items now p = 100 := fun p => if_pos hzero
    simp only [Scored, hweight, hzero, ne_eq, not_true_eq_false, false_implies, implies_true,
      true_and, false_and, or_false]
    constructor
    · intro hdrop
      refine ⟨fun _ _ => by omega, ⟨first, hfirst, by omega⟩, ?_⟩
      rw [hdrop]
      exact fun p hp => absurd hp List.not_mem_nil
    · rintro ⟨-, -, hall⟩
      apply List.eq_nil_iff_forall_not_mem.mpr
      intro p hp
      have := hall p hp
      omega
  · have hweight : ∀ p, lb.fairWeight items now p = min 1 (towardZero (lb.scoreOf items now p)) :=
      fun p => if_neg hzero
    simp only [Scored, hweight, hzero, ne_eq, not_false_eq_true, forall_const, false_and, true_and,
      false_or]
    have hnonneg : ∀ p, 0 ≤ min 1 (towardZero (lb.scoreOf items now p)) ↔
        -1 < lb.scoreOf items now p := by
      intro p
      rw [← towardZero_nonneg_iff]
      omega
    have hpositive : ∀ p, 0 < min 1 (towardZero (lb.scoreOf items now p)) ↔
        1 ≤ lb.scoreOf items now p := by
      intro p
      rw [← towardZero_pos_iff]
      omega
    simp only [hnonneg, hpositive, towardZero_lt_iff]
    constructor
    · rintro ⟨hrange, hsome, hrest⟩
      refine ⟨fun p hp => ?_, fun p hp => (hrange p hp).1, hsome, fun p hp => ?_⟩
      · have := towardZero_nonneg_iff.mpr (hrange p hp).1
        exact ⟨by omega, (hrange p hp).2⟩
      · have hp' := List.mem_of_mem_drop hp
        have hlow := (hnonneg p).mpr (hrange p hp').1
        have hhigh := mt (hpositive p).mp (not_le.mpr (hrest p hp))
        omega
    · rintro ⟨hrange, hlow, hsome, hrest⟩
      refine ⟨fun p hp => ⟨hlow p hp, (hrange p hp).2⟩, hsome, fun p hp => ?_⟩
      rw [← not_le, ← hpositive, hrest p hp]
      exact lt_irrefl 0

theorem fairWeight_lt (items : List Nat) (p : Nat) : lb.fairWeight items now p < 2 ^ 31 := by
  unfold fairWeight
  split
  · omega
  · omega

/-- `initNolock`, with the weights. -/
theorem fair_initNolock_eq : FairLoadBalance.initNolock now lb order =
    if ∀ p ∈ lb.validItems order, lb.Scored (lb.validItems order) now p then
      let taken := (lb.validItems order).map (lb.fairWeight (lb.validItems order) now)
      some { lb with
        heap := FairLoadBalance.setWeights lb.heap ((lb.validItems order).zip taken)
        items := lb.validItems order
        weights := FairLoadBalance.accumulate 0 taken
        taken := taken }
    else none := by
  unfold FairLoadBalance.initNolock
  simp only [weigh_eq, mapM_ite]
  split
  · rfl
  · rfl

theorem fair_initNolock_good (hok : lb.Scores order now) :
    ∃ lb', FairLoadBalance.initNolock now lb order = some lb' ∧ lb'.Kept := by
  obtain ⟨hscored, hweights⟩ := scores_iff.mp hok
  obtain ⟨ns, htaken, hns, -, hsums⟩ := exists_added hweights (by
    rw [List.forall_mem_map]
    exact fun p _ => fairWeight_lt _ p)
  have hlength : (lb.validItems order).length = ns.length := by
    have := congrArg List.length htaken
    rwa [List.length_map, List.length_map] at this
  rw [fair_initNolock_eq, if_pos hscored]
  exact ⟨_, rfl, ns, ⟨htaken, hsums, hlength⟩, hns⟩

theorem fair_initNolock_bad (hbad : ¬ lb.Scores order now)
    (hinit : FairLoadBalance.initNolock now lb order = some lb') : ¬ lb'.Proportional := by
  rw [fair_initNolock_eq] at hinit
  split at hinit
  · next hscored =>
      obtain rfl := Option.some.inj hinit
      intro hprop
      apply hbad
      rw [scores_iff]
      refine ⟨hscored, ?_⟩
      by_cases hnil : lb.validItems order = []
      · exact .inl (List.map_eq_nil_iff.mpr hnil)
      · exact .inr (sampled_of_proportional hprop hnil (List.length_map _))
  · cases hinit

/-! ## Runs -/

/-- What is asked of the weights that the last `initNolock` took. -/
def Chooses (fair : Bool) (lb : WeightLoadBalance) (order : List Nat) (now : UInt64) : Prop :=
  if fair then lb.Scores order now else lb.Weights order

/-- The iteration is over `_datas`, the keys of a map differ, and a weight that is set is
positive. -/
def Legal (lb : WeightLoadBalance) : Call → Prop
  | .change change order _ =>
      order.Perm ((lb.changed change).entries.map Sigma.snd) ∧
        match change with
        | .update adds dels => (adds.map Prod.fst).Nodup ∧ dels.Nodup
        | _ => True
  | .checkInit _ order _ => order.Perm (lb.datas.entries.map Sigma.snd)
  | .setWeight _ w => 0 < w ∧ w < 2 ^ 31
  | _ => True

/-- The weights that the call adds up can be chosen by. -/
def Ok (fair : Bool) (lb : WeightLoadBalance) : Call → Prop
  | .change _ order now => lb.Chooses fair order now
  | .checkInit ts order now => ts - lb.lastInitTime > 500 → lb.Chooses fair order now
  | _ => True

/-- What carries the induction.  Only `FairLoadBalance` sets weights that are not positive. -/
def Invariant (fair : Bool) (lb : WeightLoadBalance) : Prop :=
  lb.Kept ∧ (fair = false → ∀ p, 0 ≤ (lb.heap p).weight ∧ (lb.heap p).weight < 2 ^ 31)

variable {fair : Bool}

theorem initNolockOf_good (h : lb.Invariant fair) (hok : lb.Chooses fair order now) :
    ∃ lb', initNolockOf fair now lb order = some lb' ∧ lb'.Invariant fair := by
  obtain ⟨-, hint⟩ := h
  cases fair with
  | false =>
      obtain ⟨lb', hinit, hkept, hheap⟩ := initNolock_good (hint rfl) hok
      exact ⟨lb', hinit, hkept, fun _ => hheap ▸ hint rfl⟩
  | true =>
      obtain ⟨lb', hinit, hkept⟩ := fair_initNolock_good hok
      exact ⟨lb', hinit, hkept, fun hfair => nomatch hfair⟩

theorem initNolockOf_bad (h : lb.Invariant fair) (hbad : ¬ lb.Chooses fair order now)
    (hinit : initNolockOf fair now lb order = some lb') : ¬ lb'.Proportional := by
  obtain ⟨-, hint⟩ := h
  cases fair with
  | false => exact initNolock_bad (hint rfl) hbad hinit
  | true => exact fair_initNolock_bad hbad hinit

theorem Invariant.modify (h : lb.Invariant fair) (p : Nat) {f : WeighedItem → WeighedItem}
    (hf : ∀ item, 0 ≤ item.weight ∧ item.weight < 2 ^ 31 →
      0 ≤ (f item).weight ∧ (f item).weight < 2 ^ 31) : (lb.modify p f).Invariant fair := by
  obtain ⟨hkept, hint⟩ := h
  refine ⟨hkept, fun hfair q => ?_⟩
  unfold WeightLoadBalance.modify
  dsimp only
  by_cases hq : q = p
  · subst hq
    rw [Function.update_self]
    exact hf _ (hint hfair q)
  · rw [Function.update_of_ne hq]
    exact hint hfair q

theorem perform_good {call : Call} (h : lb.Invariant fair) (hlegal : lb.Legal call)
    (hok : lb.Ok fair call) :
    ∃ answer lb', lb.perform fair call = some (answer, lb') ∧ lb'.Invariant fair := by
  cases call with
  | change change order now =>
      have hchanged :
          ({ lb with datas := lb.changed change } : WeightLoadBalance).Invariant fair := h
      obtain ⟨lb', hinit, h'⟩ := initNolockOf_good hchanged hok
      exact ⟨_, lb', by rw [perform, hinit, Option.map_some], h'⟩
  | checkInit ts order now =>
      by_cases hdue : ts - lb.lastInitTime > 500
      · obtain ⟨lb', hinit, h'⟩ := initNolockOf_good h (hok hdue)
        exact ⟨.done, { lb' with lastInitTime := ts },
          by rw [perform, if_pos hdue, hinit, Option.map_some], h'⟩
      · exact ⟨.done, lb, by rw [perform, if_neg hdue], h⟩
  | get v rand =>
      obtain ⟨p, hget⟩ := h.1.exists_get v rand
      exact ⟨_, lb, by rw [perform, hget, Option.map_some], h⟩
  | setWeight p w => exact ⟨_, _, rfl, h.modify p fun _ _ => ⟨hlegal.1.le, hlegal.2⟩⟩
  | setId p id => exact ⟨_, _, rfl, h.modify p fun _ hw => hw⟩
  | stream p valid => exact ⟨_, _, rfl, h.modify p fun _ hw => hw⟩
  | touch p now => exact ⟨_, _, rfl, h.modify p fun _ hw => hw⟩
  | count p slot f => exact ⟨_, _, rfl, h.modify p fun _ hw => hw⟩

theorem perform_bad {call : Call} {answer : Answer} (h : lb.Invariant fair)
    (hbad : ¬ lb.Ok fair call) (hperform : lb.perform fair call = some (answer, lb')) :
    ¬ lb'.Proportional := by
  cases call with
  | change change order now =>
      obtain ⟨lb₁, hinit, heq⟩ := Option.map_eq_some_iff.mp hperform
      cases heq
      have hchanged :
          ({ lb with datas := lb.changed change } : WeightLoadBalance).Invariant fair := h
      exact initNolockOf_bad hchanged hbad hinit
  | checkInit ts order now =>
      obtain ⟨hdue, hbad⟩ := Classical.not_imp.mp hbad
      rw [perform, if_pos hdue] at hperform
      obtain ⟨lb₁, hinit, heq⟩ := Option.map_eq_some_iff.mp hperform
      cases heq
      -- `_lastInitTime` does not count.
      exact fun hprop => initNolockOf_bad h hbad hinit hprop
  | get v rand => exact absurd trivial hbad
  | setWeight p w => exact absurd trivial hbad
  | setId p id => exact absurd trivial hbad
  | stream p valid => exact absurd trivial hbad
  | touch p now => exact absurd trivial hbad
  | count p slot f => exact absurd trivial hbad

theorem Invariant.start (discoveryTime : Nat → UInt64) : (start discoveryTime).Invariant fair :=
  ⟨⟨[], ⟨rfl, rfl, rfl⟩, .inl rfl⟩, fun _ _ => ⟨le_refl 0, show (0 : Int) < 2 ^ 31 by decide⟩⟩

/-- **Choosing by weight.**  In a sequence of calls on a new balancer no call runs into undefined
behaviour or a failed assertion, and it always chooses in proportion to the weights, exactly if the
weights that are added up can always be chosen by. -/
theorem weighted_iff (fair : Bool) (discoveryTime : Nat → UInt64) (calls : List Call) :
    runKeeps (perform fair) Legal Proportional (fun _ _ _ lb' => lb'.Proportional) calls
        (start discoveryTime) ↔
      runObserves (perform fair) Legal (Ok fair) calls (start discoveryTime) :=
  runKeeps_iff (fun h => h.1.proportional)
    (fun h hlegal hok =>
      let ⟨answer, lb', hperform, h'⟩ := perform_good h hlegal hok
      ⟨answer, lb', hperform, h'.1.proportional, h'⟩)
    (fun h _ hbad hperform => perform_bad h hbad hperform) calls (.start discoveryTime)

/-- An item is connected and added. -/
def addOne : List Call := [.stream 0 true, .change (.add 0) [0] 0]

/-- **The weight of a new item is zero**, so that the total is. -/
theorem not_proportional_addOne : ¬ ∀ calls : List Call,
    runKeeps (perform false) Legal Proportional (fun _ _ _ lb' => lb'.Proportional) calls
      (start fun _ => 0) := by
  intro hall
  have hrun := hall addOne
  obtain ⟨-, hrest⟩ := runKeeps_tail hrun trivial rfl
  have hlegal : Legal ((start fun _ => 0).modify 0 fun item => { item with valid := true })
      (.change (.add 0) [0] 0) := ⟨.refl _, trivial⟩
  obtain ⟨hprop, -⟩ := runKeeps_tail hrest hlegal rfl
  obtain ⟨total, hlast, hpos, -⟩ := hprop (List.cons_ne_nil 0 [])
  obtain rfl : 0 = total := Option.some.inj hlast
  exact absurd hpos (lt_irrefl 0)

end WeightLoadBalance
end LoadBalance
end Routn
