import Routn.Timer.Basic

/-!
# What the operations do to deadlines

`addTimer(val, lock)` either brings a timer to the front, or finds the flag set or an earlier timer.
The other sections that insert a timer (`refresh` and the loop of `listExpiredCb`) look neither at
the front nor at the flag; `Later` says that they do not need to as long as no sum wraps around:
every timer that is in the set afterwards was in it before, with a deadline that was not later.
-/

namespace Routn

open Foundation

namespace TimerManager

variable {m m' : TimerManager} {t val address : Nat} {now_ms clock : UInt64} {at_front : Bool}

/-! ## The set -/

@[simp] theorem setTimer_timers (timer : Timer) : (m.setTimer t timer).timers = m.timers := rfl

@[simp] theorem setTimer_tickled (timer : Timer) : (m.setTimer t timer).tickled = m.tickled := rfl

@[simp] theorem erase_timer : (m.erase t).timer = m.timer := rfl

@[simp] theorem erase_tickled : (m.erase t).tickled = m.tickled := rfl

@[simp] theorem insert_timer : (m.insert t).timer = m.timer := rfl

@[simp] theorem insert_tickled : (m.insert t).tickled = m.tickled := rfl

@[simp] theorem setTimer_timer_self (timer : Timer) : (m.setTimer t timer).timer t = timer :=
  Function.update_self ..

theorem setTimer_timer_of_ne (timer : Timer) {u : Nat} (h : u ≠ t) :
    (m.setTimer t timer).timer u = m.timer u :=
  Function.update_of_ne h ..

theorem mem_of_mem_erase {u : Nat} (h : u ∈ (m.erase t).timers) : u ∈ m.timers :=
  OrderedSet.mem_of_mem_erase h

theorem mem_of_mem_insert {u : Nat} (h : u ∈ (m.insert t).timers) : u = t ∨ u ∈ m.timers :=
  OrderedSet.mem_of_mem_insert h

theorem key_injective (m : TimerManager) : Function.Injective m.key :=
  fun _ _ h => congrArg Prod.snd h

/-- What is found is the timer itself. -/
theorem eq_of_find {found : Nat} (h : m.find t = some found) : found = t :=
  m.key_injective (OrderedSet.key_of_find Timer.comparator_strictOrder h)

theorem mem_of_find {found : Nat} (h : m.find t = some found) : t ∈ m.timers := by
  rw [← eq_of_find h]
  exact OrderedSet.mem_of_find h

/-- Nothing behind the cut of `listExpiredCb` is handed out. -/
theorem next_le_of_mem_expired (h : t ∈ m.expired now_ms address) : (m.timer t).next ≤ now_ms := by
  rcases List.mem_append.mp h with hbefore | hequal
  · exact Timer.next_le_of_comparator (OrderedSet.less_of_mem_before hbefore)
  · have hnext : ((m.timer t).next == now_ms) = true :=
      List.mem_takeWhile_imp (p := fun t => (m.timer t).next == now_ms) hequal
    rw [eq_of_beq hnext]
    exact UInt64.le_refl now_ms

theorem expired_append_remaining (m : TimerManager) (now_ms : UInt64) (address : Nat) :
    m.expired now_ms address ++ m.remaining now_ms address = m.timers := by
  rw [expired, remaining, List.append_assoc, List.takeWhile_append_dropWhile,
    OrderedSet.before_append_lowerBound]

/-! ## `addTimer` -/

@[simp] theorem addTimer_timer : (m.addTimer val).2.timer = m.timer := by
  simp only [addTimer]
  split <;> rfl

theorem mem_of_mem_addTimer (h : t ∈ (m.addTimer val).2.timers) : t = val ∨ t ∈ m.timers := by
  have hsame : (m.addTimer val).2.timers = (m.insert val).timers := by
    simp only [addTimer]
    split <;> rfl
  rw [hsame] at h
  exact mem_of_mem_insert h

theorem addTimer_tickled : (m.addTimer val).2.tickled = ((m.addTimer val).1 || m.tickled) := by
  simp only [addTimer]
  cases (m.insert val).timers.head? == some val <;> cases htickled : m.tickled <;> simp [htickled]

/-- When `onTimerInsertedAtFront` is not called, the flag is set, or another timer is due first. -/
theorem addTimer_front (m : TimerManager) (val : Nat) :
    (m.addTimer val).2.tickled = true ∨
      ∃ first ∈ m.timers, first ≠ val ∧ (m.timer first).next ≤ (m.timer val).next := by
  rw [addTimer_tickled]
  rcases OrderedSet.head?_insert Timer.comparator_strictOrder m.key_injective val m.timers with
    hhead | ⟨first, hfirst, hless⟩
  · left
    have hfront : ((m.insert val).timers.head? == some val) = true := by
      rw [insert, hhead]
      exact beq_self_eq_true _
    simp [addTimer, hfront]
  · refine .inr ⟨first, hfirst, ?_, Timer.next_le_of_comparator hless⟩
    rintro rfl
    rw [Timer.comparator_strictOrder.irrefl] at hless
    cases hless

/-! ## Deadlines and periods -/

/-- The deadline of every timer in the set is its period after a value that the clock has shown. -/
def Started (clock : UInt64) (m : TimerManager) : Prop :=
  ∀ t ∈ m.timers, (m.timer t).next - (m.timer t).ms ≤ clock

/-- A sum that does not wrap around is not before a deadline with the same period. -/
theorem next_le_add {next ms : UInt64} (hstart : next - ms ≤ clock)
    (hsum : clock.toNat + ms.toNat < 2 ^ 64) : next ≤ clock + ms := by
  rw [UInt64.le_iff_toNat_le, UInt64.toNat_sub] at hstart
  rw [UInt64.le_iff_toNat_le, UInt64.toNat_add]
  have hnext := next.toNat_lt
  have hms := ms.toNat_lt
  omega

theorem le_add_of_sum_lt {ms : UInt64} (hsum : clock.toNat + ms.toNat < 2 ^ 64) :
    clock ≤ clock + ms := by
  rw [UInt64.le_iff_toNat_le, UInt64.toNat_add]
  omega

/-- No timer has come in or is due earlier than before. -/
structure Later (m m' : TimerManager) : Prop where
  tickled : m'.tickled = m.tickled
  mem : ∀ t ∈ m'.timers, t ∈ m.timers
  next_le : ∀ t ∈ m'.timers, (m.timer t).next ≤ (m'.timer t).next

theorem Later.refl (m : TimerManager) : m.Later m where
  tickled := rfl
  mem _ ht := ht
  next_le _ _ := UInt64.le_refl _

/-- One timer has come in through `addTimer(val, lock)`, with a deadline that is its period after
some value that the clock has shown. -/
structure Adds (clock : UInt64) (val : Nat) (at_front : Bool) (m m' : TimerManager) : Prop where
  tickled : m'.tickled = (at_front || m.tickled)
  mem : ∀ t ∈ m'.timers, t = val ∨ t ∈ m.timers
  same : ∀ t, t ≠ val → m'.timer t = m.timer t
  front : m'.tickled = true ∨
    ∃ first ∈ m.timers, first ≠ val ∧ (m.timer first).next ≤ (m'.timer val).next
  start : (m'.timer val).next - (m'.timer val).ms ≤ clock

/-- `addTimer` in a manager that differs from `m` in the timer that is added only. -/
theorem addTimer_adds {m₀ : TimerManager} (htickled : m₀.tickled = m.tickled)
    (hmem : ∀ t ∈ m₀.timers, t ∈ m.timers) (hsame : ∀ t, t ≠ val → m₀.timer t = m.timer t)
    (hstart : (m₀.timer val).next - (m₀.timer val).ms ≤ clock) :
    Adds clock val (m₀.addTimer val).1 m (m₀.addTimer val).2 where
  tickled := by rw [addTimer_tickled, htickled]
  mem t ht := by
    rcases mem_of_mem_addTimer ht with rfl | ht
    · exact .inl rfl
    · exact .inr (hmem t ht)
  same t ht := by rw [addTimer_timer, hsame t ht]
  front := by
    rcases m₀.addTimer_front val with hflag | ⟨first, hfirst, hne, hle⟩
    · exact .inl hflag
    · refine .inr ⟨first, hmem first hfirst, hne, ?_⟩
      rw [addTimer_timer, ← hsame first hne]
      exact hle
  start := by rwa [addTimer_timer]

theorem Adds.started (hadds : Adds clock val at_front m m') (h : m.Started clock) :
    m'.Started clock := by
  intro t ht
  by_cases heq : t = val
  · rw [heq]
    exact hadds.start
  · rw [hadds.same t heq]
    exact h t ((hadds.mem t ht).resolve_left heq)

/-- A timer that is not in the set, and whose address is not in use, is added. -/
theorem publish_adds (m : TimerManager) (address : Nat) {timer : Timer}
    (hstart : timer.next - timer.ms ≤ clock) :
    Adds clock address ((m.setTimer address timer).addTimer address).1 m
      ((m.setTimer address timer).addTimer address).2 :=
  addTimer_adds rfl (fun _ ht => ht) (fun _ ht => setTimer_timer_of_ne _ ht)
    (by rwa [setTimer_timer_self])

/-! ### `reset` -/

/-- `reset` returns before it has changed anything, or takes the timer out and adds it again. -/
theorem reset_cases (h : m.Started clock) (t : Nat) (ms : UInt64) (from_now : Bool) :
    m.reset t ms from_now clock = (false, false, m) ∨
      ∃ at_front m', m.reset t ms from_now clock = (true, at_front, m') ∧
        t ∈ m.timers ∧ Adds clock t at_front m m' := by
  by_cases hnull : (m.timer t).callback.isNone = true
  · exact .inl (by simp [reset, hnull])
  · cases hfind : m.find t with
    | none => exact .inl (by simp [reset, hnull, hfind])
    | some found =>
        have ht := mem_of_find hfind
        refine .inr ⟨_, _, by simp only [reset, hnull, hfind]; rfl, ht, ?_⟩
        refine addTimer_adds rfl (fun u hu => mem_of_mem_erase hu)
          (fun u hu => setTimer_timer_of_ne _ hu) ?_
        rw [setTimer_timer_self]
        show (if from_now then clock else (m.timer t).next - (m.timer t).ms) + ms - ms ≤ clock
        rw [UInt64.add_sub_cancel]
        split
        · exact UInt64.le_refl clock
        · exact h t ht

/-! ### `getNextTimer` -/

theorem getNextTimer_manager (m : TimerManager) (now : UInt64) :
    (m.getNextTimer now).2 = { m with tickled := false } := by
  simp only [getNextTimer]
  split
  · rfl
  · split <;> rfl

/-! ### `refresh` -/

theorem mem_of_mem_refresh {u : Nat} (h : u ∈ (m.refresh t clock).2.timers) : u ∈ m.timers := by
  rw [refresh] at h
  split at h
  · exact h
  · split at h
    · exact h
    · next found hfind =>
        rcases mem_of_mem_insert h with rfl | h
        · exact mem_of_find hfind
        · exact mem_of_mem_erase h

theorem refresh_started (h : m.Started clock) : (m.refresh t clock).2.Started clock := by
  rw [refresh]
  split
  · exact h
  · split
    · exact h
    · intro u hu
      rcases mem_of_mem_insert hu with rfl | hu
      · simp only [insert_timer, setTimer_timer_self, UInt64.add_sub_cancel]
        exact UInt64.le_refl clock
      · by_cases heq : u = t
        · subst heq
          simp only [insert_timer, setTimer_timer_self, UInt64.add_sub_cancel]
          exact UInt64.le_refl clock
        · rw [insert_timer, setTimer_timer_of_ne _ heq]
          exact h u (mem_of_mem_erase hu)

theorem refresh_later (h : m.Started clock)
    (hsum : clock.toNat + (m.timer t).ms.toNat < 2 ^ 64) : m.Later (m.refresh t clock).2 := by
  rw [refresh]
  split
  · exact .refl m
  · split
    · exact .refl m
    · next found hfind =>
        have ht := mem_of_find hfind
        refine ⟨rfl, fun u hu => ?_, fun u hu => ?_⟩
        · rcases mem_of_mem_insert hu with rfl | hu
          · exact ht
          · exact mem_of_mem_erase hu
        · by_cases heq : u = t
          · subst heq
            simp only [insert_timer, setTimer_timer_self, erase_timer]
            exact next_le_add (h u ht) hsum
          · rw [insert_timer, setTimer_timer_of_ne _ heq]
            exact UInt64.le_refl _

/-! ### `cancel` -/

theorem cancel_spec {answer : Bool × TimerManager} (h : m.cancel t = some answer) :
    m.Later answer.2 ∧ ∀ u, (answer.2.timer u).next = (m.timer u).next ∧
      (answer.2.timer u).ms = (m.timer u).ms := by
  simp only [cancel] at h
  split at h
  · obtain rfl := Option.some.inj h
    exact ⟨.refl m, fun u => ⟨rfl, rfl⟩⟩
  · split at h
    · cases h
    · obtain rfl := Option.some.inj h
      -- The key of the timer stays what it was, only the callback goes.
      have hkeep : ∀ u, ((m.setTimer t { m.timer t with callback := none }).timer u).next =
          (m.timer u).next ∧
          ((m.setTimer t { m.timer t with callback := none }).timer u).ms = (m.timer u).ms := by
        intro u
        by_cases heq : u = t
        · subst heq
          simp
        · simp [setTimer_timer_of_ne _ heq]
      refine ⟨⟨rfl, fun u hu => ?_, fun u _ => ?_⟩, hkeep⟩
      · exact mem_of_mem_erase (m := m.setTimer t { m.timer t with callback := none }) hu
      · show (m.timer u).next ≤ _
        rw [erase_timer, (hkeep u).1]
        exact UInt64.le_refl _

/-! ### `listExpiredCb` -/

/-- The loop moves a deadline only to `now_ms` plus the period, and only that of a timer which
repeats. -/
structure Rearmed (now_ms : UInt64) (ts : List Nat) (m m' : TimerManager) : Prop where
  tickled : m'.tickled = m.tickled
  mem : ∀ t ∈ m'.timers, t ∈ m.timers ∨ t ∈ ts
  ms : ∀ t, (m'.timer t).ms = (m.timer t).ms
  recurring : ∀ t, (m'.timer t).recurring = (m.timer t).recurring
  deadline : ∀ t, (m'.timer t).next = (m.timer t).next ∨
    t ∈ ts ∧ (m.timer t).recurring = true ∧ (m'.timer t).next = now_ms + (m.timer t).ms

theorem rearm_rearmed (m : TimerManager) (now_ms : UInt64) (t : Nat) :
    Rearmed now_ms [t] m (m.rearm now_ms t) := by
  rw [rearm]
  split
  · next hrecurring =>
      refine ⟨rfl, fun u hu => ?_, fun u => ?_, fun u => ?_, fun u => ?_⟩
      · rcases mem_of_mem_insert hu with rfl | hu
        · exact .inr List.mem_cons_self
        · exact .inl hu
      all_goals
        by_cases heq : u = t
        · subst heq
          simp [hrecurring]
        · simp [setTimer_timer_of_ne _ heq]
  · refine ⟨rfl, fun u hu => .inl hu, fun u => ?_, fun u => ?_, fun u => ?_⟩
    all_goals
      by_cases heq : u = t
      · subst heq
        simp
      · simp [setTimer_timer_of_ne _ heq]

theorem collect_rearmed (now_ms : UInt64) (ts : List Nat) (m : TimerManager) :
    Rearmed now_ms ts m (collect now_ms ts m).2 := by
  -- On the expired timers; each is rearmed before the ones behind it.
  induction ts generalizing m with
  | nil => exact ⟨rfl, fun _ ht => .inl ht, fun _ => rfl, fun _ => rfl, fun _ => .inl rfl⟩
  | cons t ts ih =>
      have hfirst := rearm_rearmed m now_ms t
      have hrest := ih (m.rearm now_ms t)
      refine ⟨hrest.tickled.trans hfirst.tickled, fun u hu => ?_,
        fun u => (hrest.ms u).trans (hfirst.ms u),
        fun u => (hrest.recurring u).trans (hfirst.recurring u), fun u => ?_⟩
      · rcases hrest.mem u hu with hu | hu
        · rcases hfirst.mem u hu with hu | hu
          · exact .inl hu
          · exact .inr (List.mem_cons.mpr (.inl (List.mem_singleton.mp hu)))
        · exact .inr (List.mem_cons_of_mem t hu)
      · rcases hrest.deadline u with hsame | ⟨hu, hrec, hnext⟩
        · rcases hfirst.deadline u with hsame' | ⟨hu, hrec, hnext⟩
          · exact .inl (hsame.trans hsame')
          · exact .inr ⟨List.mem_cons.mpr (.inl (List.mem_singleton.mp hu)), hrec,
              hsame.trans hnext⟩
        · rw [hfirst.ms] at hnext
          rw [hfirst.recurring] at hrec
          exact .inr ⟨List.mem_cons_of_mem t hu, hrec, hnext⟩

/-- The sums of the loop, for the timers that repeat and are due. -/
def SumsFit (now_ms : UInt64) (m : TimerManager) : Prop :=
  ∀ t ∈ m.timers, (m.timer t).recurring = true → (m.timer t).next ≤ now_ms →
    now_ms.toNat + (m.timer t).ms.toNat < 2 ^ 64

instance (now_ms : UInt64) (m : TimerManager) : Decidable (m.SumsFit now_ms) :=
  inferInstanceAs (Decidable (∀ t ∈ m.timers, _))

/-- Every way through `listExpiredCb`: nothing is taken out, or the set is cut in two and the first
part is collected. -/
theorem listExpiredCb_cases (m : TimerManager) (now_ms : UInt64) (address : Nat) :
    ((m.timers = [] ∨ m.rollover now_ms = false) ∧
      ∃ previous, m.listExpiredCb now_ms address = ([], [], { m with previousTime := previous })) ∨
      ∃ expired rest,
        m.listExpiredCb now_ms address = (expired,
          collect now_ms expired { m with timers := rest, previousTime := now_ms }) ∧
        expired ++ rest = m.timers ∧
        (m.rollover now_ms = true ∧ rest = [] ∨
          m.rollover now_ms = false ∧ ∀ t ∈ expired, (m.timer t).next ≤ now_ms) := by
  obtain ⟨timer, timers, tickled, previousTime⟩ := m
  cases timers with
  | nil => exact .inl ⟨.inl rfl, previousTime, rfl⟩
  | cons first others =>
      cases hroll : rollover ⟨timer, first :: others, tickled, previousTime⟩ now_ms with
      | true =>
          refine .inr ⟨first :: others, [], ?_, List.append_nil _, .inl ⟨rfl, rfl⟩⟩
          simp [listExpiredCb, detectClockRollover, hroll]
      | false =>
          by_cases hfirst : now_ms < (timer first).next
          · refine .inl ⟨.inr rfl, now_ms, ?_⟩
            simp [listExpiredCb, detectClockRollover, hroll, hfirst]
          · refine .inr ⟨expired ⟨timer, first :: others, tickled, previousTime⟩ now_ms address,
              remaining ⟨timer, first :: others, tickled, previousTime⟩ now_ms address, ?_,
              expired_append_remaining .., .inr ⟨rfl, fun t ht => next_le_of_mem_expired ht⟩⟩
            simp only [listExpiredCb, detectClockRollover, hroll, hfirst]
            rfl

theorem mem_of_mem_listExpiredCb (h : t ∈ (m.listExpiredCb now_ms address).2.2.timers) :
    t ∈ m.timers := by
  rcases m.listExpiredCb_cases now_ms address with
    ⟨-, previous, heq⟩ | ⟨expired, rest, heq, hsplit, -⟩
  · rw [heq] at h
    exact h
  · rw [heq] at h
    have hspec := collect_rearmed now_ms expired { m with timers := rest, previousTime := now_ms }
    exact hsplit ▸ List.mem_append.mpr (hspec.mem t h).symm

theorem listExpiredCb_started (h : m.Started clock) (hnow : now_ms ≤ clock) (address : Nat) :
    (m.listExpiredCb now_ms address).2.2.Started clock := by
  rcases m.listExpiredCb_cases now_ms address with
    ⟨-, previous, heq⟩ | ⟨expired, rest, heq, hsplit, -⟩
  · rw [heq]
    exact h
  · rw [heq]
    have hspec := collect_rearmed now_ms expired { m with timers := rest, previousTime := now_ms }
    intro t ht
    rcases hspec.deadline t with hsame | ⟨-, -, hnext⟩
    · rw [hsame, hspec.ms t]
      refine h t (hsplit ▸ List.mem_append.mpr ?_)
      exact (hspec.mem t ht).symm
    · rw [hnext, hspec.ms t, UInt64.add_sub_cancel]
      exact hnow

theorem listExpiredCb_later (hroll : m.rollover now_ms = false) (hsums : m.SumsFit now_ms)
    (address : Nat) : m.Later (m.listExpiredCb now_ms address).2.2 := by
  rcases m.listExpiredCb_cases now_ms address with
    ⟨-, previous, heq⟩ | ⟨expired, rest, heq, hsplit, hcut⟩
  · rw [heq]
    exact ⟨rfl, fun _ ht => ht, fun _ _ => UInt64.le_refl _⟩
  · rw [heq]
    have hspec := collect_rearmed now_ms expired { m with timers := rest, previousTime := now_ms }
    have hdue : ∀ t ∈ expired, (m.timer t).next ≤ now_ms := by
      rcases hcut with ⟨htrue, -⟩ | ⟨-, hcut⟩
      · rw [hroll] at htrue
        cases htrue
      · exact hcut
    refine ⟨hspec.tickled, fun t ht => hsplit ▸ List.mem_append.mpr (hspec.mem t ht).symm,
      fun t _ => ?_⟩
    · rcases hspec.deadline t with hsame | ⟨ht, hrecurring, hnext⟩
      · rw [hsame]
        exact UInt64.le_refl _
      · have hle := hdue t ht
        have hmem : t ∈ m.timers := hsplit ▸ List.mem_append_left rest ht
        rw [hnext]
        exact UInt64.le_trans hle (le_add_of_sum_lt (hsums t hmem hrecurring hle))

/-! ## Order -/

/-- `_timers` is in the order of `Timer::Comparator`. -/
def Ordered (m : TimerManager) : Prop := OrderedSet.Sorted Timer.comparator m.key m.timers

/-- The timer may change while it is not in the set, and its key may not while it is. -/
theorem Ordered.setTimer (h : m.Ordered) {timer : Timer}
    (hkey : t ∈ m.timers → timer.next = (m.timer t).next) : (m.setTimer t timer).Ordered := by
  refine OrderedSet.Sorted.congr h fun u hu => ?_
  by_cases heq : u = t
  · subst heq
    rw [key, setTimer_timer_self, hkey hu, key]
  · rw [key, setTimer_timer_of_ne _ heq, key]

theorem Ordered.erase (h : m.Ordered) (t : Nat) : (m.erase t).Ordered :=
  OrderedSet.Sorted.erase h (m.key t)

theorem Ordered.insert (h : m.Ordered) (t : Nat) : (m.insert t).Ordered :=
  OrderedSet.Sorted.insert Timer.comparator_strictOrder h t

theorem Ordered.not_mem_erase (h : m.Ordered) {found : Nat} (hfind : m.find t = some found) :
    t ∉ (m.erase t).timers := by
  have hfound := eq_of_find hfind
  subst hfound
  exact OrderedSet.Sorted.not_mem_erase Timer.comparator_strictOrder h hfind

theorem Ordered.refresh (h : m.Ordered) (t : Nat) (now : UInt64) :
    (m.refresh t now).2.Ordered := by
  rw [TimerManager.refresh]
  split
  · exact h
  · split
    · exact h
    · next found hfind =>
        have hout := h.not_mem_erase hfind
        exact ((h.erase t).setTimer fun hin => absurd hin hout).insert t

theorem Ordered.cancel (h : m.Ordered) {answer : Bool × TimerManager}
    (hcancel : m.cancel t = some answer) : answer.2.Ordered := by
  simp only [TimerManager.cancel] at hcancel
  split at hcancel
  · obtain rfl := Option.some.inj hcancel
    exact h
  · split at hcancel
    · cases hcancel
    · obtain rfl := Option.some.inj hcancel
      have hset : (m.setTimer t { m.timer t with callback := none }).Ordered :=
        h.setTimer fun _ => rfl
      exact hset.erase t

theorem Ordered.addTimer (h : m.Ordered) (val : Nat) : (m.addTimer val).2.Ordered := by
  simp only [TimerManager.addTimer]
  split
  · exact h.insert val
  · exact h.insert val

theorem Ordered.reset (h : m.Ordered) (t : Nat) (ms : UInt64) (from_now : Bool) (now : UInt64) :
    (m.reset t ms from_now now).2.2.Ordered := by
  rw [TimerManager.reset]
  split
  · exact h
  · split
    · exact h
    · next found hfind =>
        have hout := h.not_mem_erase hfind
        exact ((h.erase t).setTimer fun hin => absurd hin hout).addTimer t

/-- The expired timers come in one by one. -/
theorem Ordered.collect (h : m.Ordered) (now_ms : UInt64) {ts : List Nat} (hnodup : ts.Nodup)
    (hout : ∀ t ∈ ts, t ∉ m.timers) : (collect now_ms ts m).2.Ordered := by
  induction ts generalizing m with
  | nil => exact h
  | cons t ts ih =>
      obtain ⟨hfresh, hnodup⟩ := List.nodup_cons.mp hnodup
      have hset : ∀ timer, (m.setTimer t timer).Ordered :=
        fun timer => h.setTimer fun hin => absurd hin (hout t List.mem_cons_self)
      refine ih ?_ hnodup fun u hu hin => ?_
      · rw [rearm]
        split
        · exact (hset _).insert t
        · exact hset _
      · rcases (rearm_rearmed m now_ms t).mem u hin with hin | hin
        · exact hout u (List.mem_cons_of_mem t hu) hin
        · rw [List.mem_singleton.mp hin] at hu
          exact hfresh hu

theorem Ordered.listExpiredCb (h : m.Ordered) (now_ms : UInt64) (address : Nat) :
    (m.listExpiredCb now_ms address).2.2.Ordered := by
  rcases m.listExpiredCb_cases now_ms address with
    ⟨-, previous, heq⟩ | ⟨expired, rest, heq, hsplit, -⟩
  · rw [heq]
    exact h
  · rw [heq]
    have hall : OrderedSet.Sorted Timer.comparator m.key (expired ++ rest) := hsplit ▸ h
    obtain ⟨hnodup, -, hdisjoint⟩ :=
      List.nodup_append.mp (hall.nodup Timer.comparator_strictOrder)
    have hrest : Ordered { m with timers := rest, previousTime := now_ms } :=
      (List.pairwise_append.mp hall).2.1
    exact hrest.collect now_ms hnodup fun t ht hin => hdisjoint t ht t hin rfl

/-- No timer in the set is due before the first one. -/
theorem Ordered.head_le (h : m.Ordered) {first : Nat} {rest : List Nat}
    (htimers : m.timers = first :: rest) (ht : t ∈ m.timers) :
    (m.timer first).next ≤ (m.timer t).next := by
  rw [Ordered, htimers] at h
  rw [htimers] at ht
  rcases List.mem_cons.mp ht with rfl | ht
  · exact UInt64.le_refl _
  · exact Timer.next_le_of_comparator (List.rel_of_pairwise_cons h ht)

end TimerManager
end Routn
