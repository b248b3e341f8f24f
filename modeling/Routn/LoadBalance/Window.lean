import Routn.Foundation.Transition
import Routn.LoadBalance.Weights

/-!
# The window of the statistics

`HolderStatsSet::get` clears the slots of the seconds that have passed, and the slot that it returns
is incremented.  The slots then hold what was counted in each of the last seconds, and `getTotal` is
what was counted in all of them.

The last value of a `uint32_t` is the exception.  `init` ends its loop behind `now`, and there is
nothing behind it: the loop starts again at zero, and clears as many slots as the window has.
-/

namespace Routn
namespace LoadBalance

open Foundation

namespace HolderStats

instance : Zero HolderStats := ⟨{}⟩

instance : Add HolderStats := ⟨add⟩

theorem add_def (hs hs' : HolderStats) : hs + hs' = hs.add hs' := rfl

theorem zero_def : (0 : HolderStats) = {} := rfl

instance : AddCommMonoid HolderStats where
  add_assoc a b c := by simp only [add_def, add, UInt32.add_assoc]
  zero_add a := by simp [add_def, zero_def, add]
  add_zero a := by simp [add_def, zero_def, add]
  add_comm a b := by simp only [add_def, add, UInt32.add_comm]
  nsmul := nsmulRec

end HolderStats

/-- What is done to a slot. -/
inductive Increment
  | usedTime (v : UInt32)
  | total (v : UInt32)
  | doing (v : UInt32)
  | timeouts (v : UInt32)
  | oks (v : UInt32)
  | errs (v : UInt32)
deriving DecidableEq, Repr

namespace Increment

def apply : Increment → HolderStats → HolderStats
  | usedTime v => .incUsedTime v
  | total v => .incTotal v
  | doing v => .incDoing v
  | timeouts v => .incTimeouts v
  | oks v => .incOks v
  | errs v => .incErrs v

/-- What it adds. -/
def amount : Increment → HolderStats
  | usedTime v => { usedTime := v }
  | total v => { total := v }
  | doing v => { doing := v }
  | timeouts v => { timeouts := v }
  | oks v => { oks := v }
  | errs v => { errs := v }

theorem apply_eq (i : Increment) (hs : HolderStats) : i.apply hs = hs + i.amount := by
  cases i <;> simp [apply, amount, HolderStats.add_def, HolderStats.add, HolderStats.incUsedTime,
    HolderStats.incTotal, HolderStats.incDoing, HolderStats.incTimeouts, HolderStats.incOks,
    HolderStats.incErrs]

end Increment

/-- The statistics, and the increments that have been made, each with its second. -/
structure Counting where
  set : HolderStatsSet
  made : List (UInt32 × Increment)
deriving DecidableEq, Repr

namespace Counting

/-- `get(now)`, and the increments of the slot that it returns. -/
def count (s : Counting) : UInt32 × List Increment → Option (Unit × Counting)
  | (now, increments) =>
      let (slot, set) := s.set.get now
      some ((), ⟨increments.foldl (fun set i => set.update slot i.apply) set,
        s.made ++ increments.map fun i => (now, i)⟩)

/-- What increments come to. -/
def tally (made : List (UInt32 × Increment)) : HolderStats := (made.map fun m => m.2.amount).sum

/-- The slot of each of the last seconds holds what was counted in it, and `getTotal` is what was
counted in all of them. -/
def Windowed (s : Counting) : Prop :=
  (∀ sec : Nat, sec ≤ s.set.lastUpdateTime.toNat →
    s.set.lastUpdateTime.toNat < sec + s.set.stats.length →
    s.set.stats[sec % s.set.stats.length]? = some (tally (s.made.filter (·.1.toNat = sec)))) ∧
  s.set.getTotal =
    tally (s.made.filter (s.set.lastUpdateTime.toNat < ·.1.toNat + s.set.stats.length))

/-- The clock does not go back. -/
def Legal (s : Counting) (call : UInt32 × List Increment) : Prop :=
  s.set.lastUpdateTime ≤ call.1

instance (s : Counting) (call : UInt32 × List Increment) : Decidable (s.Legal call) :=
  inferInstanceAs (Decidable (s.set.lastUpdateTime ≤ call.1))

/-- When the clock comes to its last value, the slots that the loop of `init` reaches from zero on
are not those of seconds in the window that have counted something. -/
def Survives (s : Counting) (call : UInt32 × List Increment) : Prop :=
  s.set.lastUpdateTime < call.1 → call.1.toNat = 2 ^ 32 - 1 →
    ∀ sec : Nat, sec ≤ s.set.lastUpdateTime.toNat →
      call.1.toNat < sec + s.set.stats.length →
      sec % s.set.stats.length <
        s.set.stats.length - (call.1.toNat - s.set.lastUpdateTime.toNat) →
      s.set.stats[sec % s.set.stats.length]? = some 0

end Counting

/-! ## Which slots are cleared -/

namespace HolderStatsSet

variable {now t : UInt32} {size n j : Nat}

theorem mem_passed (hnow : now.toNat < 2 ^ 32 - 1) : j ∈ passed now size n t ↔
    ∃ sec, t.toNat ≤ sec ∧ sec ≤ now.toNat ∧ sec < t.toNat + n ∧ sec % size = j := by
  induction n generalizing t with
  | zero =>
      simp only [passed, List.not_mem_nil, false_iff]
      rintro ⟨sec, hlow, -, hhigh, -⟩
      omega
  | succ n ih =>
      unfold passed
      split
      · next hle =>
          have hle : t.toNat ≤ now.toNat := UInt32.le_iff_toNat_le.mp hle
          have hnext : (t + 1).toNat = t.toNat + 1 := by
            rw [UInt32.toNat_add, UInt32.toNat_one]
            omega
          rw [List.mem_cons, ih, hnext]
          constructor
          · rintro (rfl | ⟨sec, hlow, hhigh, hlast, rfl⟩)
            · exact ⟨t.toNat, le_refl _, hle, by omega, rfl⟩
            · exact ⟨sec, by omega, hhigh, by omega, rfl⟩
          · rintro ⟨sec, hlow, hhigh, hlast, rfl⟩
            rcases Nat.eq_or_lt_of_le hlow with rfl | hlow
            · exact .inl rfl
            · exact .inr ⟨sec, hlow, hhigh, by omega, rfl⟩
      · next hgt =>
          rw [UInt32.le_iff_toNat_le] at hgt
          simp only [List.not_mem_nil, false_iff]
          rintro ⟨sec, hlow, hhigh, -, -⟩
          omega

/-- The loop that does not end at `now`. -/
theorem mem_passed_last (hnow : now.toNat = 2 ^ 32 - 1) : j ∈ passed now size n t ↔
    ∃ i < n, (t.toNat + i) % 2 ^ 32 % size = j := by
  induction n generalizing t with
  | zero => simp [passed]
  | succ n ih =>
      have hle : t ≤ now := by
        rw [UInt32.le_iff_toNat_le, hnow]
        have := t.toNat_lt
        omega
      have hnext : (t + 1).toNat = (t.toNat + 1) % 2 ^ 32 := by
        rw [UInt32.toNat_add, UInt32.toNat_one]
      rw [passed, if_pos hle, List.mem_cons, ih, hnext]
      constructor
      · rintro (rfl | ⟨i, hi, rfl⟩)
        · refine ⟨0, Nat.succ_pos n, ?_⟩
          rw [Nat.add_zero, Nat.mod_eq_of_lt t.toNat_lt]
        · refine ⟨i + 1, Nat.succ_lt_succ hi, ?_⟩
          rw [Nat.mod_add_mod, Nat.add_assoc, Nat.add_comm 1 i]
      · rintro ⟨i, hi, rfl⟩
        cases i with
        | zero =>
            left
            rw [Nat.add_zero, Nat.mod_eq_of_lt t.toNat_lt]
        | succ i =>
            right
            refine ⟨i, Nat.lt_of_succ_lt_succ hi, ?_⟩
            rw [Nat.mod_add_mod, Nat.add_assoc, Nat.add_comm 1 i]

/-- **The slots that `init` clears** are those of the seconds that have passed, and at the last
value of the clock the first ones of the ring as well. -/
theorem mem_cleared {set : HolderStatsSet} (hlt : set.lastUpdateTime < now)
    (hsize : set.stats.length < 2 ^ 32) : j ∈ set.cleared now ↔
      (∃ sec, set.lastUpdateTime.toNat < sec ∧ sec ≤ now.toNat ∧
        sec ≤ set.lastUpdateTime.toNat + set.stats.length ∧ sec % set.stats.length = j) ∨
      now.toNat = 2 ^ 32 - 1 ∧
        j < set.stats.length - (now.toNat - set.lastUpdateTime.toNat) := by
  have hlt' : set.lastUpdateTime.toNat < now.toNat := UInt32.lt_iff_toNat_lt.mp hlt
  have hbound := now.toNat_lt
  have hnext : (set.lastUpdateTime + 1).toNat = set.lastUpdateTime.toNat + 1 := by
    rw [UInt32.toNat_add, UInt32.toNat_one]
    omega
  rw [cleared, if_pos hlt]
  by_cases hnow : now.toNat = 2 ^ 32 - 1
  · rw [mem_passed_last hnow, hnext]
    constructor
    · rintro ⟨i, hi, rfl⟩
      by_cases hwrap : set.lastUpdateTime.toNat + 1 + i < 2 ^ 32
      · left
        rw [Nat.mod_eq_of_lt hwrap]
        exact ⟨_, by omega, by omega, by omega, rfl⟩
      · right
        have hsum : (set.lastUpdateTime.toNat + 1 + i) % 2 ^ 32 =
            set.lastUpdateTime.toNat + 1 + i - 2 ^ 32 := by omega
        rw [hsum, Nat.mod_eq_of_lt (by omega)]
        exact ⟨hnow, by omega⟩
    · rintro (⟨sec, hlow, hhigh, hlast, rfl⟩ | ⟨-, hj⟩)
      · refine ⟨sec - (set.lastUpdateTime.toNat + 1), by omega, ?_⟩
        have hsec : sec % 2 ^ 32 = sec := Nat.mod_eq_of_lt (by omega)
        rw [Nat.add_sub_cancel' hlow, hsec]
      · refine ⟨j + (now.toNat - set.lastUpdateTime.toNat), by omega, ?_⟩
        have hsum : (set.lastUpdateTime.toNat + 1 +
            (j + (now.toNat - set.lastUpdateTime.toNat))) % 2 ^ 32 = j := by omega
        rw [hsum, Nat.mod_eq_of_lt (by omega)]
  · rw [mem_passed (by omega), hnext]
    constructor
    · rintro ⟨sec, hlow, hhigh, hlast, rfl⟩
      exact .inl ⟨sec, hlow, hhigh, by omega, rfl⟩
    · rintro (⟨sec, hlow, hhigh, hlast, rfl⟩ | ⟨hmax, -⟩)
      · exact ⟨sec, hlow, hhigh, by omega, rfl⟩
      · exact absurd hmax hnow

end HolderStatsSet

/-! ## One call -/

namespace Counting

variable {s s' : Counting} {now : UInt32} {increments : List Increment}

theorem tally_append (made made' : List (UInt32 × Increment)) :
    tally (made ++ made') = tally made + tally made' := by
  rw [tally, tally, tally, List.map_append, List.sum_append]

/-- A slot after increments. -/
theorem getElem?_increments (increments : List Increment) (set : HolderStatsSet) (slot j : Nat) :
    (increments.foldl (fun set i => set.update slot i.apply) set).stats[j]? =
      if slot = j then set.stats[j]?.map (· + (increments.map Increment.amount).sum)
      else set.stats[j]? := by
  induction increments generalizing set with
  | nil => simp
  | cons i increments ih =>
      rw [List.foldl_cons, ih, HolderStatsSet.getElem?_update]
      split
      · rw [Option.map_map]
        congr 1
        funext hs
        simp [Increment.apply_eq, add_assoc]
      · rfl

theorem length_increments (set : HolderStatsSet) (slot : Nat) :
    (increments.foldl (fun set i => set.update slot i.apply) set).stats.length =
      set.stats.length := by
  induction increments generalizing set with
  | nil => rfl
  | cons i increments ih => rw [List.foldl_cons, ih, HolderStatsSet.length_update]

theorem lastUpdateTime_increments (set : HolderStatsSet) (slot : Nat) :
    (increments.foldl (fun set i => set.update slot i.apply) set).lastUpdateTime =
      set.lastUpdateTime := by
  induction increments generalizing set with
  | nil => rfl
  | cons i increments ih =>
      rw [List.foldl_cons, ih]
      rfl

/-- What a slot should hold: what was counted in the second of the window that it is for. -/
def window (s : Counting) (j : Nat) : List (UInt32 × Increment) :=
  s.made.filter fun m => m.1.toNat % s.set.stats.length = j ∧
    s.set.lastUpdateTime.toNat < m.1.toNat + s.set.stats.length

/-- What carries the induction. -/
structure Kept (n : Nat) (s : Counting) : Prop where
  pos : 0 < n
  bound : n < 2 ^ 32
  length : s.set.stats.length = n
  made : ∀ m ∈ s.made, m.1 ≤ s.set.lastUpdateTime
  slots : ∀ j < n, s.set.stats[j]? = some (tally (s.window j))

variable {n : Nat}

/-- Two seconds of one slot are not both in a window. -/
theorem eq_of_mod {a b : Nat} (hmod : a % n = b % n) (hle : a ≤ b) (hlt : b < a + n) : a = b := by
  have hsub : (b - a) % n = 0 := Nat.sub_mod_eq_zero_of_mod_eq hmod.symm
  have hzero := Nat.eq_zero_of_dvd_of_lt (Nat.dvd_of_mod_eq_zero hsub) (by omega)
  omega

section Slot

variable {made : List (UInt32 × Increment)} {last now sec : Nat}
  (hmade : ∀ m ∈ made, m.1.toNat ≤ last)
include hmade

/-- The second of a slot is the only one in the window. -/
theorem filter_second (hle : sec ≤ last) (hnow : last ≤ now) (hlt : now < sec + n) :
    (made.filter fun m => m.1.toNat % n = sec % n ∧ now < m.1.toNat + n) =
      made.filter (·.1.toNat = sec) := by
  apply List.filter_congr
  intro m hm
  have hm' := hmade m hm
  apply decide_eq_decide.mpr
  constructor
  · rintro ⟨hmod, hin⟩
    rcases Nat.le_total sec m.1.toNat with hle' | hle'
    · exact (eq_of_mod hmod.symm hle' (by omega)).symm
    · exact eq_of_mod hmod hle' (by omega)
  · rintro rfl
    exact ⟨rfl, hlt⟩

/-- In the slot of a second after the last count nothing has been counted. -/
theorem filter_passed (hlow : last < sec) (hhigh : sec ≤ now) :
    (made.filter fun m => m.1.toNat % n = sec % n ∧ now < m.1.toNat + n) = [] := by
  rw [List.filter_eq_nil_iff]
  intro m hm
  have hm' := hmade m hm
  rw [decide_eq_true_eq]
  rintro ⟨hmod, hin⟩
  have hsame := eq_of_mod hmod (by omega) (by omega)
  omega

end Slot

theorem Kept.made_le (h : s.Kept n) : ∀ m ∈ s.made, m.1.toNat ≤ s.set.lastUpdateTime.toNat :=
  fun m hm => UInt32.le_iff_toNat_le.mp (h.made m hm)

theorem Kept.window_eq (h : s.Kept n) {sec : Nat} (hle : sec ≤ s.set.lastUpdateTime.toNat)
    (hlt : s.set.lastUpdateTime.toNat < sec + n) :
    s.window (sec % n) = s.made.filter (·.1.toNat = sec) := by
  unfold window
  rw [h.length]
  exact filter_second h.made_le hle le_rfl hlt

/-- Increments that are sorted into slots are all there. -/
theorem sum_tally {made : List (UInt32 × Increment)} (hpos : 0 < n) :
    ∑ j ∈ Finset.range n, tally (made.filter fun m => m.1.toNat % n = j) = tally made := by
  induction made with
  | nil => simp [tally]
  | cons m made ih =>
      have hcons : ∀ j, tally ((m :: made).filter fun m => m.1.toNat % n = j) =
          (if m.1.toNat % n = j then m.2.amount else 0) +
            tally (made.filter fun m => m.1.toNat % n = j) := by
        intro j
        by_cases hj : m.1.toNat % n = j
        · simp [tally, hj]
        · simp [tally, hj]
      simp only [hcons, Finset.sum_add_distrib, ih, Finset.sum_ite_eq, Finset.mem_range,
        Nat.mod_lt _ hpos, if_true]
      simp [tally]

theorem foldl_add (hs : HolderStats) (stats : List HolderStats) :
    stats.foldl HolderStats.add hs = hs + stats.sum := by
  induction stats generalizing hs with
  | nil => simp
  | cons hs' stats ih =>
      rw [List.foldl_cons, ih, List.sum_cons, ← add_assoc]
      rfl

theorem Kept.windowed (h : s.Kept n) : s.Windowed := by
  constructor
  · intro sec hle hlt
    rw [h.length] at hlt ⊢
    rw [h.slots _ (Nat.mod_lt _ h.pos), h.window_eq hle hlt]
  · have hstats : s.set.stats = (List.range n).map fun j => tally (s.window j) := by
      apply List.ext_getElem?
      intro j
      rcases Nat.lt_or_ge j n with hj | hj
      · rw [h.slots j hj, List.getElem?_map, List.getElem?_range hj, Option.map_some]
      · rw [List.getElem?_eq_none (h.length ▸ hj), List.getElem?_eq_none (by simpa using hj)]
    have hsum : s.set.stats.sum = ∑ j ∈ Finset.range n, tally (s.window j) := by
      rw [hstats]
      rfl
    rw [HolderStatsSet.getTotal, foldl_add, ← HolderStats.zero_def, zero_add, hsum]
    rw [← sum_tally h.pos, h.length]
    apply Finset.sum_congr rfl
    intro j _
    rw [List.filter_filter, window, h.length]
    congr 2
    funext m
    simp [Bool.decide_and]

theorem lastUpdateTime_init {set : HolderStatsSet} (hle : set.lastUpdateTime ≤ now) :
    (set.init now).lastUpdateTime = now := by
  unfold HolderStatsSet.init
  split
  · rfl
  · next hnot => exact UInt32.le_antisymm hle (UInt32.not_lt.mp hnot)

/-- **The slots after `init`**, when the loop has not gone on over seconds that have counted. -/
theorem Kept.init (h : s.Kept n) (hle : s.set.lastUpdateTime ≤ now)
    (hok : s.Survives (now, increments)) {j : Nat} (hj : j < n) :
    (s.set.init now).stats[j]? =
      some (tally (s.made.filter fun m => m.1.toNat % n = j ∧ now.toNat < m.1.toNat + n)) := by
  have hold := h.slots j hj
  unfold window at hold
  rw [h.length] at hold
  have hmade := h.made_le
  rw [HolderStatsSet.getElem?_init, hold]
  rcases UInt32.lt_or_eq_of_le hle with hlt | rfl
  · have hlt' := UInt32.lt_iff_toNat_lt.mp hlt
    have hcleared := HolderStatsSet.mem_cleared (j := j) hlt (h.length ▸ h.bound)
    rw [h.length] at hcleared
    split
    · next hin =>
        rw [Option.map_some, Option.some.injEq]
        show (0 : HolderStats) = _
        rcases hcleared.mp hin with ⟨sec, hlow, hhigh, -, rfl⟩ | ⟨hnow, hfirst⟩
        · -- The slot is now for a second in which nothing can have been counted.
          rw [filter_passed hmade (by omega) (by omega)]
          rfl
        · by_cases hsome : ∃ sec, sec ≤ s.set.lastUpdateTime.toNat ∧ now.toNat < sec + n ∧
            sec % n = j
          · obtain ⟨sec, hsec, hlate, rfl⟩ := hsome
            have hzero := hok hlt hnow sec hsec (h.length ▸ hlate) (h.length ▸ hfirst)
            have hboth := (h.slots _ hj).symm.trans (h.length ▸ hzero)
            rw [h.window_eq hsec (by omega)] at hboth
            rw [filter_second hmade hsec hlt'.le hlate]
            exact (Option.some.inj hboth).symm
          · rw [List.filter_eq_nil_iff.mpr]
            · rfl
            · intro m hm
              rw [decide_eq_true_eq]
              rintro ⟨hmod, hin⟩
              exact hsome ⟨m.1.toNat, hmade m hm, hin, hmod⟩
    · next hout =>
        congr 2
        apply List.filter_congr
        intro m hm
        have hm' := hmade m hm
        apply decide_eq_decide.mpr
        refine and_congr_right fun hmod => ⟨fun hin => ?_, fun hin => by omega⟩
        by_contra hpassed
        refine hout (hcleared.mpr (.inl ⟨m.1.toNat + n, hin, by omega, by omega, ?_⟩))
        rw [Nat.add_mod_right, hmod]
  · have hnone : j ∉ s.set.cleared s.set.lastUpdateTime := by
      simp [HolderStatsSet.cleared]
    rw [if_neg hnone]

/-- **What a call leaves.** -/
theorem count_spec (h : s.Kept n) (hlegal : s.Legal (now, increments))
    (hcount : s.count (now, increments) = some ((), s')) :
    s'.made = s.made ++ increments.map (fun i => (now, i)) ∧ s'.set.lastUpdateTime = now ∧
      s'.set.stats.length = n ∧ ∀ j, s'.set.stats[j]? =
        if now.toNat % n = j then
          (s.set.init now).stats[j]?.map (· + (increments.map Increment.amount).sum)
        else (s.set.init now).stats[j]? := by
  have hlength : (s.set.init now).stats.length = n := by
    rw [HolderStatsSet.length_init, h.length]
  obtain rfl := (Prod.mk.inj (Option.some.inj hcount)).2
  refine ⟨rfl, ?_, ?_, fun j => ?_⟩
  · exact (lastUpdateTime_increments ..).trans (lastUpdateTime_init hlegal)
  · exact (length_increments ..).trans hlength
  · have hslot := getElem?_increments increments (s.set.init now) (now.toNat % n) j
    rw [← hlength] at hslot ⊢
    exact hslot

theorem Kept.count (h : s.Kept n) (hlegal : s.Legal (now, increments))
    (hok : s.Survives (now, increments)) (hcount : s.count (now, increments) = some ((), s')) :
    s'.Kept n := by
  obtain ⟨hmade, hlast, hlength, hslots⟩ := count_spec h hlegal hcount
  refine ⟨h.pos, h.bound, hlength, ?_, fun j hj => ?_⟩
  · intro m hm
    rw [hlast]
    rw [hmade] at hm
    rcases List.mem_append.mp hm with hm | hm
    · exact UInt32.le_trans (h.made m hm) hlegal
    · obtain ⟨i, -, rfl⟩ := List.mem_map.mp hm
      exact UInt32.le_refl now
  · unfold window
    rw [hslots, h.init hlegal hok hj, hlast, hlength, hmade, List.filter_append, tally_append]
    by_cases hslot : now.toNat % n = j
    · have hall : (increments.map fun i => (now, i)).filter (fun m => decide
          (m.1.toNat % n = j ∧ now.toNat < m.1.toNat + n)) = increments.map fun i => (now, i) := by
        rw [List.filter_eq_self]
        intro m hm
        obtain ⟨i, -, rfl⟩ := List.mem_map.mp hm
        exact decide_eq_true ⟨hslot, Nat.lt_add_of_pos_right h.pos⟩
      rw [if_pos hslot, hall, Option.map_some, tally, tally, List.map_map]
      rfl
    · have hnil : (increments.map fun i => (now, i)).filter (fun m => decide
          (m.1.toNat % n = j ∧ now.toNat < m.1.toNat + n)) = [] := by
        rw [List.filter_eq_nil_iff]
        intro m hm
        obtain ⟨i, -, rfl⟩ := List.mem_map.mp hm
        rw [decide_eq_true_eq]
        exact fun hin => hslot hin.1
      rw [if_neg hslot, hnil]
      simp [tally]

/-- A second that has counted and is lost. -/
theorem not_windowed (h : s.Kept n) (hlegal : s.Legal (now, increments))
    (hbad : ¬ s.Survives (now, increments)) (hcount : s.count (now, increments) = some ((), s')) :
    ¬ s'.Windowed := by
  obtain ⟨hmade, hlast, hlength, hslots⟩ := count_spec h hlegal hcount
  rintro ⟨hwindow, -⟩
  apply hbad
  intro hlt hnow sec hsec hin hfirst
  have hlt' := UInt32.lt_iff_toNat_lt.mp hlt
  dsimp only at hlt' hnow hin hfirst
  rw [h.length] at hin hfirst ⊢
  have hother : now.toNat % n ≠ sec % n := by
    intro hmod
    have := eq_of_mod hmod.symm (by omega) hin
    omega
  have hcleared := (HolderStatsSet.mem_cleared (j := sec % n) hlt (h.length ▸ h.bound)).mpr
    (.inr ⟨hnow, h.length ▸ hfirst⟩)
  have hzero : (s.set.init now).stats[sec % n]? = some 0 := by
    rw [HolderStatsSet.getElem?_init, if_pos hcleared, h.slots _ (Nat.mod_lt _ h.pos)]
    rfl
  have hnone : (increments.map fun i => (now, i)).filter (fun m => decide (m.1.toNat = sec)) =
      [] := by
    rw [List.filter_eq_nil_iff]
    intro m hm
    obtain ⟨i, -, rfl⟩ := List.mem_map.mp hm
    rw [decide_eq_true_eq]
    show now.toNat ≠ sec
    omega
  have htally := hwindow sec (by rw [hlast]; omega) (by rw [hlast, hlength]; exact hin)
  rw [hlength, hslots, if_neg hother, hzero, hmade, List.filter_append, hnone,
    List.append_nil] at htally
  rw [h.slots _ (Nat.mod_lt _ h.pos), h.window_eq hsec (by omega), htally]

/-! ## Runs -/

/-- **The window of the statistics.**  For a sequence of times that do not go back, each with
increments of the slot that `get` returns, slots and total are always those of the last seconds
exactly if the last value of the clock comes when nothing in the window can get lost. -/
theorem windowed_iff {size : UInt32} (hsize : 1 ≤ size) (calls : List (UInt32 × List Increment)) :
    runKeeps count Legal Windowed (fun _ _ _ s' => s'.Windowed) calls ⟨.new size.toNat, []⟩ ↔
      runObserves count Legal Survives calls ⟨.new size.toNat, []⟩ := by
  have hpos : 0 < size.toNat := UInt32.le_iff_toNat_le.mp hsize
  have hnew : Kept size.toNat ⟨.new size.toNat, []⟩ := by
    refine ⟨hpos, size.toNat_lt, List.length_replicate .., by simp, fun j hj => ?_⟩
    simp [HolderStatsSet.new, window, tally, hj, HolderStats.zero_def]
  apply runKeeps_iff (J := Kept size.toNat) (fun h => h.windowed) ?_ ?_ calls hnew
  · rintro s ⟨now, increments⟩ h hlegal hok
    exact ⟨(), _, rfl, (h.count hlegal hok rfl).windowed, h.count hlegal hok rfl⟩
  · rintro s ⟨now, increments⟩ ⟨⟩ s' h hlegal hbad hcount
    exact not_windowed h hlegal hbad hcount

/-- The last seconds of the clock. -/
def lastSeconds : List (UInt32 × List Increment) :=
  [(4294967293, [.total 1]), (4294967294, []), (4294967295, [])]

theorem windowed_iff_lastSeconds :
    runKeeps count Legal Windowed (fun _ _ _ s' => s'.Windowed) lastSeconds
        ⟨.new (5 : UInt32).toNat, []⟩ ↔
      runObserves count Legal Survives lastSeconds ⟨.new (5 : UInt32).toNat, []⟩ :=
  windowed_iff (by decide) lastSeconds

/-- **In the last second of the clock** what was counted two seconds earlier is lost. -/
theorem not_windowed_lastSeconds : ¬ ∀ calls : List (UInt32 × List Increment),
    runKeeps count Legal Windowed (fun _ _ _ s' => s'.Windowed) calls ⟨.new 5, []⟩ := by
  intro hall
  have hrun : runActions (fun s i => if Legal s i then (s.count i).map Prod.snd else none)
      lastSeconds ⟨.new 5, []⟩ = some ⟨⟨4294967295, List.replicate 5 {}⟩,
        [(4294967293, .total 1)]⟩ := by decide
  obtain ⟨hwindow, -⟩ := runKeeps_after [] (hall (lastSeconds ++ [])) hrun
  have htally := hwindow 4294967293 (by decide) (by decide)
  exact absurd htally (by decide)

end Counting
end LoadBalance
end Routn
