import Routn.Db.EvThreadPool

/-!
# Who has a thread of the pool

A thread that `start` has started is among the free ones, is being released, or is owned by one
lease: a round of `check`, or a function in the list of the thread itself.  A callback that was
dispatched waits in the list of the pool, or is carried by one lease that has not put it back.  From
the two counts: no callback is called twice, no thread has two callbacks of the pool at once, and
while threads are free and callbacks wait, somebody is on the way to `check`.

When the pool was started, nobody has stopped a thread, and nothing is left to do, every callback
was called (`callbacks_served`).
-/

namespace Routn
namespace EvThreadPool

open Foundation

/-! ## Weights -/

namespace Stage

/-- Whether there is a reference to the thread. -/
def owns : Stage → Nat
  | .handed false false _ => 0
  | .returned false => 0
  | _ => 1

def carries : Stage → Nat
  | .returned _ => 0
  | _ => 1

def listed : Stage → Nat
  | .handed _ true _ => 1
  | _ => 0

def called : Stage → Nat
  | .handed _ _ true => 1
  | _ => 0

/-- Whether `check` is in its round with it. -/
def inRound : Stage → Nat
  | .handed false _ _ => 0
  | .returned false => 0
  | _ => 1

theorem called_le_carries (stage : Stage) : stage.called ≤ stage.carries := by
  cases stage with
  | handed own listed called => cases called <;> simp [called, carries]
  | _ => exact Nat.zero_le _

theorem listed_pos (stage : Stage) (h : 0 < stage.listed) :
    ∃ own called, stage = .handed own true called := by
  cases stage with
  | handed own listed called =>
      cases listed with
      | true => exact ⟨own, called, rfl⟩
      | false => cases h
  | _ => cases h

end Stage

namespace Lease

def owns (t : Nat) (x : Lease) : Nat := if x.thread = t then x.stage.owns else 0

def carries (n : Nat) (x : Lease) : Nat := if x.cb = n then x.stage.carries else 0

def called (n : Nat) (x : Lease) : Nat := if x.cb = n then x.stage.called else 0

def inRound (x : Lease) : Nat := x.stage.inRound

end Lease

def listedAt (leases : List Lease) (l : Nat) : Nat :=
  (leases[l]?.map fun x => x.stage.listed).getD 0

/-- How often the thread holds the function of a lease, and has it before it. -/
def heldOf (l : Nat) (th : EvThread.State Job) : Nat := th.held.count (some (.pooled l))

def waitOf (l : Nat) (th : EvThread.State Job) : Nat := th.waiting.count (some (.pooled l))

theorem waitOf_le (l : Nat) (th : EvThread.State Job) : waitOf l th ≤ heldOf l th :=
  th.waiting_sublist.count_le _

/-! ## The invariant -/

/-- The thread was given an empty callback. -/
def State.Stopped (s : State) (t : Nat) : Prop :=
  ∃ th, s._threads[t]? = some th ∧ none ∈ th.dispatched

structure Inv (s : State) : Prop where
  owner : ∀ t, s._freeEvThreads.count t + s.releasing.count t + total (Lease.owns t) s.leases =
    if t < s.started then 1 else 0
  place : ∀ n, s._callbacks.count n + total (Lease.carries n) s.leases =
    if n < s.pushed then 1 else 0
  log : ∀ n, s.executed.count n = total (Lease.called n) s.leases
  /-- A function is in the list of its thread until it dies. -/
  listed : ∀ l, total (heldOf l) s._threads + s.dying.count (some (.pooled l)) =
    listedAt s.leases l
  home : ∀ (t l : Nat) (th : EvThread.State Job) (x : Lease), s._threads[t]? = some th →
    some (.pooled l) ∈ th.held → s.leases[l]? = some x → x.thread = t
  calls : ∀ (l : Nat) (x : Lease) (own listed called : Bool), s.leases[l]? = some x →
    x.stage = .handed own listed called →
      if called then total (waitOf l) s._threads = 0
      else 0 < total (waitOf l) s._threads ∨ s.Stopped x.thread
  known : ∀ x ∈ s.leases, x.thread < s._threads.length
  size : s.started ≤ s._threads.length
  whole : s._start → s.started = s._threads.length
  /-- Where threads are free and callbacks wait, somebody is on the way to `check`. -/
  busy : s._start → s._freeEvThreads ≠ [] → s._callbacks ≠ [] →
    0 < s.checking + s.entered + total Lease.inRound s.leases + s.releasing.length
  threads : ∀ (t : Nat) (th : EvThread.State Job), s._threads[t]? = some th →
    EvThread.Inv th ∧ (th.starting → th.Running) ∧
      (t < s.started → th.Running ∧ (th._start ∨ none ∈ th.dispatched))

theorem inv_init (n : Nat) (_advance : Bool) : Inv (init n _advance) := by
  have hthread : ∀ (t : Nat) (th : EvThread.State Job),
      (init n _advance)._threads[t]? = some th → th = EvThread.init := by
    intro t th ht
    exact List.eq_of_mem_replicate (List.mem_of_getElem? ht)
  exact
    { owner := by simp [init]
      place := by simp [init]
      log := by simp [init]
      listed := by
        intro l
        simp [init, listedAt, total, heldOf, EvThread.State.held, EvThread.init,
          EvThread.Loop.batch]
      home := by simp [init]
      calls := by simp [init]
      known := by simp [init]
      size := Nat.zero_le _
      whole := by simp [init]
      busy := by simp [init]
      threads := by
        intro t th ht
        obtain rfl := hthread t th ht
        refine ⟨EvThread.inv_init, ?_, fun hlt => absurd hlt (Nat.not_lt_zero t)⟩
        rintro ⟨⟩ }

/-! ## Steps of a thread -/

section Steps

variable {s s' : State} {t l : Nat} {th th' : EvThread.State Job} {x : Lease}

/-- What the pool asks of one of its threads. -/
def Sound (s : State) (t : Nat) (th : EvThread.State Job) : Prop :=
  EvThread.Inv th ∧ (th.starting → th.Running) ∧
    (t < s.started → th.Running ∧ (th._start ∨ none ∈ th.dispatched))

theorem Sound.step (h : Sound s t th) {a : EvThread.Action Job}
    (hstep : EvThread.step th a = some th') : Sound s t th' := by
  obtain ⟨hinv, hstarting, hstarted⟩ := h
  refine ⟨EvThread.inv_step hinv hstep, fun hs => ?_, fun ht => ?_⟩
  · by_cases hrunning : th.Running
    · exact (hinv.running_step hrunning hstep).1
    · exact EvThread.running_of_starting hstep hs fun h => absurd (hstarting h) hrunning
  · obtain ⟨hrunning, hup⟩ := hstarted ht
    obtain ⟨hrunning', hkeep⟩ := hinv.running_step hrunning hstep
    refine ⟨hrunning', hup.elim hkeep fun hstop => .inr ?_⟩
    exact (EvThread.dispatched_step hstep).subset hstop

theorem stopped_set (ht : s._threads[t]? = some th)
    (hmore : none ∈ th.dispatched → none ∈ th'.dispatched) {u : Nat} (h : s.Stopped u) :
    State.Stopped { s with _threads := s._threads.set t th' } u := by
  obtain ⟨thu, hu, hstop⟩ := h
  by_cases heq : u = t
  · subst heq
    obtain rfl : th = thu := Option.some.inj (ht.symm.trans hu)
    have hlt := (List.getElem?_eq_some_iff.mp ht).1
    exact ⟨th', by simp [hlt], hmore hstop⟩
  · exact ⟨thu, (List.getElem?_set_ne (Ne.symm heq)).trans hu, hstop⟩

/-- A step of a thread that moves no function of the pool. -/
theorem Inv.setThread (h : Inv s) (ht : s._threads[t]? = some th)
    (hheld : ∀ l, heldOf l th' = heldOf l th) (hwait : ∀ l, waitOf l th' = waitOf l th)
    (hmore : none ∈ th.dispatched → none ∈ th'.dispatched) (hsound : Sound s t th') :
    Inv { s with _threads := s._threads.set t th' } := by
  have htotal : ∀ f : EvThread.State Job → Nat, f th' = f th →
      total f (s._threads.set t th') = total f s._threads := by
    intro f hf
    have := total_set (f := f) ht (b := th')
    omega
  exact { h with
    listed := fun l => by
      rw [htotal _ (hheld l)]
      exact h.listed l
    home := fun u l thu x hu hmem hx => by
      rcases getElem?_of_set hu with ⟨rfl, rfl⟩ | ⟨-, hu⟩
      · refine h.home u l th x ht (List.count_pos_iff.mp ?_) hx
        have hpos := List.count_pos_iff.mpr hmem
        have hsame := hheld l
        simp only [heldOf] at hsame
        omega
      · exact h.home u l thu x hu hmem hx
    calls := fun l x own listed called hx hstage => by
      have hcalls := h.calls l x own listed called hx hstage
      simp only [htotal _ (hwait l)]
      cases called with
      | true => exact hcalls
      | false => exact hcalls.imp_right (stopped_set ht hmore)
    known := by simpa using h.known
    size := by simpa using h.size
    whole := by simpa using h.whole
    threads := fun u thu hu => by
      rcases getElem?_of_set hu with ⟨rfl, rfl⟩ | ⟨-, hu⟩
      · exact hsound
      · exact h.threads u thu hu }

/-! ## Steps of the pool that take or give nothing -/

theorem heldOf_dispatch_direct (empty : Bool) (l : Nat) :
    heldOf l (th.dispatch (State.directJob empty)) = heldOf l th ∧
      waitOf l (th.dispatch (State.directJob empty)) = waitOf l th := by
  have hne : State.directJob empty ≠ some (.pooled l) := by
    cases empty <;> nofun
  simp [heldOf, waitOf, EvThread.State.dispatch, EvThread.State.push, EvThread.State.held,
    EvThread.State.waiting, hne]

theorem Inv.give_direct (h : Inv s) {empty : Bool}
    (hstep : s.give t (State.directJob empty) = some s') : Inv s' := by
  simp only [State.give, Option.bind_eq_bind, Option.bind_eq_some_iff, Option.pure_def,
    Option.some.injEq] at hstep
  obtain ⟨th, ht, rfl⟩ := hstep
  exact h.setThread ht (fun l => (heldOf_dispatch_direct empty l).1)
    (fun l => (heldOf_dispatch_direct empty l).2) (fun hstop => List.mem_append_left _ hstop)
    (Sound.step (h.threads t th ht) (a := .dispatch _) rfl)

/-- Counters that no count is about. -/
theorem Inv.counters (h : Inv s) (_cur : UInt32) (_total : Nat) :
    Inv { s with _cur := _cur, _total := _total } :=
  { h with }

theorem Inv.giveNext (h : Inv s) {empty : Bool} (hstep : s.giveNext empty = some s') : Inv s' :=
  (h.counters (s._cur + 1) s._total).give_direct hstep

theorem Inv.giveAll (h : Inv s) {empties : List Bool} (hstep : s.giveAll empties = some s') :
    Inv s' := by
  induction empties generalizing s with
  | nil => exact Option.some.inj hstep ▸ h
  | cons empty empties ih =>
      simp only [State.giveAll, Option.bind_eq_bind, Option.bind_eq_some_iff] at hstep
      obtain ⟨mid, hmid, hrest⟩ := hstep
      exact ih (h.giveNext hmid) hrest

theorem Inv.push (h : Inv s) (n : Nat) : Inv (s.push n) :=
  { h with
    place := fun m => by
      have hplace := h.place m
      have hnew : (List.range' s.pushed n).count m =
          if s.pushed ≤ m ∧ m < s.pushed + n then 1 else 0 := by
        rw [List.Nodup.count (List.nodup_range' 1 Nat.one_pos)]
        simp only [List.mem_range'_1]
      have hsum : (if m < s.pushed then 1 else 0) +
          (if s.pushed ≤ m ∧ m < s.pushed + n then 1 else 0) =
            if m < s.pushed + n then 1 else 0 := by
        split_ifs <;> omega
      show (s._callbacks ++ List.range' s.pushed n).count m + total (Lease.carries m) s.leases =
        if m < s.pushed + n then 1 else 0
      rw [List.count_append, hnew, ← hsum]
      omega
    busy := fun _ _ _ => by
      simp only [State.push]
      omega }

theorem Inv.dispatch (h : Inv s) {empty : Bool} (hstep : s.dispatch empty = some s') : Inv s' := by
  simp only [State.dispatch] at hstep
  split at hstep
  · exact Option.some.inj hstep ▸ (h.counters s._cur (s._total + 1)).push 1
  · exact (h.counters s._cur (s._total + 1)).giveNext hstep

theorem Inv.batchDispatch (h : Inv s) {empties : List Bool}
    (hstep : s.batchDispatch empties = some s') : Inv s' := by
  simp only [State.batchDispatch] at hstep
  split at hstep
  · exact Option.some.inj hstep ▸ (h.counters s._cur (s._total + empties.length)).push _
  · exact (h.counters s._cur (s._total + empties.length)).giveAll hstep

theorem Inv.startThread (h : Inv s) (hstep : s.startThread = some s') : Inv s' := by
  simp only [State.startThread, Option.bind_eq_bind, Option.bind_eq_some_iff, Option.pure_def,
    Option.some.injEq] at hstep
  obtain ⟨th, ht, th', hth, rfl⟩ := hstep
  have hsound := Sound.step (h.threads _ th ht) (a := .start) hth
  have hinv := (h.threads _ th ht).1
  obtain ⟨hthread, rfl⟩ := EvThread.start_eq_some hth
  have hoff : th.loop = .off := by
    by_contra hon
    have := hinv.resting hon
    rw [hthread] at this
    cases this
  refine h.setThread ht (fun l => ?_) (fun l => ?_) id hsound
  · simp [heldOf, EvThread.State.held, hoff, EvThread.Loop.batch]
  · simp [waitOf, EvThread.State.waiting, hoff, EvThread.Loop.rest]

theorem Inv.startedThread (h : Inv s) (hstep : s.startedThread = some s') : Inv s' := by
  simp only [State.startedThread, Option.bind_eq_bind, Option.bind_eq_some_iff, Option.pure_def,
    Option.some.injEq] at hstep
  obtain ⟨th, ht, th', hth, rfl⟩ := hstep
  have hlt := (List.getElem?_eq_some_iff.mp ht).1
  have hsound := h.threads _ th ht
  have hsound' := Sound.step hsound (a := .started) hth
  obtain ⟨hstarting, rfl⟩ := EvThread.started_eq_some hth
  have hset : Inv { s with
      _threads := s._threads.set s.started { th with starting := false, _start := true } } :=
    h.setThread ht (fun _ => rfl) (fun _ => rfl) id hsound'
  exact { hset with
    owner := fun t => by
      have howner := h.owner t
      simp only [List.count_append, List.count_singleton, beq_iff_eq]
      split at howner <;> split <;> split <;> omega
    size := by simpa using hlt
    whole := fun hstart => by
      have := h.whole hstart
      omega
    busy := fun hstart => by
      have := h.whole hstart
      omega
    threads := fun u thu hu => by
      obtain ⟨hinv, hs, hup⟩ := hset.threads u thu hu
      refine ⟨hinv, hs, fun hlt => ?_⟩
      rcases Nat.lt_succ_iff_lt_or_eq.mp hlt with hlt | rfl
      · exact hup hlt
      · obtain rfl : { th with starting := false, _start := true } = thu := by
          simpa [(List.getElem?_eq_some_iff.mp ht).1] using hu
        exact ⟨hsound.2.1 hstarting, .inl rfl⟩ }

theorem Inv.startEnd (h : Inv s) (hstep : s.startEnd = some s') : Inv s' := by
  obtain ⟨hall, heq⟩ := Option.ite_none_right_eq_some.mp hstep
  obtain rfl := Option.some.inj heq
  exact { h with
    whole := fun _ => hall
    busy := fun _ _ _ => by
      simp only []
      omega }

theorem Inv.stopThread (h : Inv s) (hstep : s.stopThread t = some s') : Inv s' := by
  simp only [State.stopThread, Option.bind_eq_bind, Option.bind_eq_some_iff, Option.pure_def,
    Option.some.injEq] at hstep
  obtain ⟨th, ht, rfl⟩ := hstep
  refine h.setThread ht (fun l => ?_) (fun l => ?_) (fun hstop => ?_)
    (Sound.step (h.threads t th ht) (a := .stop) rfl)
  · unfold EvThread.State.stop
    split <;> simp [heldOf, EvThread.State.push, EvThread.State.held]
  · unfold EvThread.State.stop
    split <;> simp [waitOf, EvThread.State.push, EvThread.State.waiting]
  · exact (EvThread.dispatched_step (s := th) (a := .stop) rfl).subset hstop

theorem Inv.stopEnd (h : Inv s) : Inv { s with _start := false } :=
  { h with whole := nofun, busy := nofun }

theorem Inv.joinThread (h : Inv s) (hstep : s.joinThread t = some s') : Inv s' := by
  simp only [State.joinThread, Option.bind_eq_bind, Option.bind_eq_some_iff, Option.pure_def,
    Option.some.injEq] at hstep
  obtain ⟨th, ht, th', hth, rfl⟩ := hstep
  have hsound := Sound.step (h.threads t th ht) (a := .join) hth
  obtain rfl | ⟨-, rfl⟩ := EvThread.join_eq_some hth
  · exact h.setThread ht (fun _ => rfl) (fun _ => rfl) id hsound
  · exact h.setThread ht (fun _ => rfl) (fun _ => rfl) id hsound

/-! ## Steps of a round of `check` -/

theorem listedAt_set (hx : s.leases[l]? = some x) (y : Lease) (k : Nat) :
    listedAt (s.leases.set l y) k = if k = l then y.stage.listed else listedAt s.leases k := by
  have hlt := (List.getElem?_eq_some_iff.mp hx).1
  unfold listedAt
  split
  · next heq =>
      subst heq
      simp [hlt]
  · next hne => rw [List.getElem?_set_ne (Ne.symm hne)]

theorem listedAt_of_getElem? (hx : s.leases[l]? = some x) :
    listedAt s.leases l = x.stage.listed := by
  rw [listedAt, hx]
  rfl

/-- **A lease moves on.**  What the step does to the lists is compared with the weights of the lease
before it and after it. -/
theorem Inv.restage (h : Inv s) (hx : s.leases[l]? = some x) (stage : Stage)
    (hleases : s'.leases = s.leases.set l { x with stage := stage })
    (hstarted : s'.started = s.started) (hpushed : s'.pushed = s.pushed)
    (hstart : s'._start = s._start) (hlength : s'._threads.length = s._threads.length)
    (howner : ∀ t, s'._freeEvThreads.count t + s'.releasing.count t +
      (if x.thread = t then stage.owns else 0) = s._freeEvThreads.count t + s.releasing.count t +
        (if x.thread = t then x.stage.owns else 0))
    (hplace : ∀ n, s'._callbacks.count n + (if x.cb = n then stage.carries else 0) =
      s._callbacks.count n + (if x.cb = n then x.stage.carries else 0))
    (hlog : ∀ n, s'.executed.count n + (if x.cb = n then x.stage.called else 0) =
      s.executed.count n + (if x.cb = n then stage.called else 0))
    (hlisted : ∀ k, total (heldOf k) s'._threads + s'.dying.count (some (.pooled k)) +
      (if k = l then x.stage.listed else 0) = total (heldOf k) s._threads +
        s.dying.count (some (.pooled k)) + (if k = l then stage.listed else 0))
    (hhome : ∀ (t k : Nat) (th : EvThread.State Job) (y : Lease), s'._threads[t]? = some th →
      some (.pooled k) ∈ th.held → s.leases[k]? = some y → y.thread = t)
    (hcalls : ∀ (k : Nat) (y : Lease) (own listed called : Bool), s'.leases[k]? = some y →
      y.stage = .handed own listed called →
        if called then total (waitOf k) s'._threads = 0
        else 0 < total (waitOf k) s'._threads ∨ s'.Stopped y.thread)
    (hbusy : s'._start → s'._freeEvThreads ≠ [] → s'._callbacks ≠ [] →
      0 < s'.checking + s'.entered + total Lease.inRound s'.leases + s'.releasing.length)
    (hthreads : ∀ (t : Nat) (th : EvThread.State Job), s'._threads[t]? = some th → Sound s' t th) :
    Inv s' where
  owner t := by
    have hold := h.owner t
    have htotal := total_set (f := Lease.owns t) hx (b := { x with stage := stage })
    have hnew := howner t
    rw [hleases, hstarted]
    simp only [Lease.owns] at htotal hold ⊢
    omega
  place n := by
    have hold := h.place n
    have htotal := total_set (f := Lease.carries n) hx (b := { x with stage := stage })
    have hnew := hplace n
    rw [hleases, hpushed]
    simp only [Lease.carries] at htotal hold ⊢
    omega
  log n := by
    have hold := h.log n
    have htotal := total_set (f := Lease.called n) hx (b := { x with stage := stage })
    have hnew := hlog n
    rw [hleases]
    simp only [Lease.called] at htotal hold ⊢
    omega
  listed k := by
    have hold := h.listed k
    have hnew := hlisted k
    rw [hleases, listedAt_set hx]
    split at hnew
    · next heq =>
        subst heq
        rw [listedAt_of_getElem? hx] at hold
        simp only [if_true] at hnew ⊢
        omega
    · next hne =>
        rw [if_neg hne]
        omega
  home t k th y ht hmem hy := by
    rw [hleases] at hy
    rcases getElem?_of_set hy with ⟨rfl, rfl⟩ | ⟨-, hy⟩
    · exact hhome t k th x ht hmem hx
    · exact hhome t k th y ht hmem hy
  calls := hcalls
  known y hy := by
    rw [hleases] at hy
    rw [hlength]
    rcases List.mem_or_eq_of_mem_set hy with hy | rfl
    · exact h.known y hy
    · exact h.known x (List.mem_of_getElem? hx)
  size := by
    rw [hstarted, hlength]
    exact h.size
  whole hs := by
    rw [hstarted, hlength]
    exact h.whole (hstart ▸ hs)
  busy := hbusy
  threads := hthreads

/-- The calls of a lease that is not the one that moves, and those of that one. -/
theorem Inv.calls_set (h : Inv s) {stage : Stage}
    (hnew : ∀ own listed called, stage = .handed own listed called →
      if called then total (waitOf l) s._threads = 0
      else 0 < total (waitOf l) s._threads ∨ s.Stopped x.thread)
    (k : Nat) (y : Lease) (own listed called : Bool)
    (hy : (s.leases.set l { x with stage := stage })[k]? = some y)
    (hstage : y.stage = .handed own listed called) :
    if called then total (waitOf k) s._threads = 0
    else 0 < total (waitOf k) s._threads ∨ s.Stopped y.thread := by
  rcases getElem?_of_set hy with ⟨rfl, rfl⟩ | ⟨-, hy⟩
  · exact hnew own listed called hstage
  · exact h.calls k y own listed called hy hstage

/-- While the round goes on, somebody is on the way. -/
theorem inRound_pos (hx : s.leases[l]? = some x) (stage : Stage) (hround : stage.inRound = 1) :
    0 < total Lease.inRound (s.leases.set l { x with stage := stage }) := by
  have hlt := (List.getElem?_eq_some_iff.mp hx).1
  have hnew : (s.leases.set l { x with stage := stage })[l]? = some { x with stage := stage } := by
    simp [hlt]
  have hle := le_total (f := Lease.inRound) hnew
  rw [Lease.inRound, hround] at hle
  omega

theorem Inv.test (h : Inv s) (hstep : s.test = some s') : Inv s' := by
  unfold State.test at hstep
  split at hstep
  · cases hstep
  · split at hstep
    · obtain rfl := Option.some.inj hstep
      exact { h with busy := fun _ _ _ => by simp only []; omega }
    · next hstart =>
        obtain rfl := Option.some.inj hstep
        exact { h with busy := fun hs => absurd hs hstart }

theorem Inv.isStart (h : Inv s) (hstep : s.isStart l = some s') : Inv s' := by
  obtain ⟨x, th, hx, ht, hstage, rfl⟩ := isStart_eq_some hstep
  have hcases : ∀ stage : Stage, stage = .ready ∨ stage = .refused →
      Inv (s.setStage l x stage) := by
    intro stage hnew
    have hweights : stage.owns = 1 ∧ stage.carries = 1 ∧ stage.called = 0 ∧ stage.listed = 0 ∧
        stage.inRound = 1 ∧ ∀ own listed called, stage ≠ .handed own listed called := by
      rcases hnew with rfl | rfl <;> exact ⟨rfl, rfl, rfl, rfl, rfl, nofun⟩
    obtain ⟨howns, hcarries, hcalled, hlisted, hround, hne⟩ := hweights
    refine h.restage hx stage rfl rfl rfl rfl rfl (fun t => ?_) (fun n => ?_) (fun n => ?_)
      (fun k => ?_) h.home (h.calls_set fun _ _ _ h => absurd h (hne _ _ _)) (fun _ _ _ => ?_)
      h.threads
    · rw [howns, hstage]
      rfl
    · rw [hcarries, hstage]
      rfl
    · rw [hcalled, hstage]
      rfl
    · rw [hlisted, hstage]
      rfl
    · have := inRound_pos hx stage hround
      simp only [State.setStage]
      omega
  refine hcases _ ?_
  split
  · exact .inl rfl
  · exact .inr rfl

theorem getElem?_concat {leases : List Lease} {y z : Lease} {k : Nat}
    (h : (leases ++ [z])[k]? = some y) : leases[k]? = some y ∨ k = leases.length ∧ y = z := by
  rcases Nat.lt_or_ge k leases.length with hlt | hge
  · rw [List.getElem?_append_left hlt] at h
    exact .inl h
  · rw [List.getElem?_append_right hge, List.getElem?_singleton] at h
    split at h
    · exact .inr ⟨by omega, (Option.some.inj h).symm⟩
    · cases h

/-- A new lease is in no list. -/
theorem listedAt_concat {leases : List Lease} {z : Lease} (hz : z.stage.listed = 0) (k : Nat) :
    listedAt (leases ++ [z]) k = listedAt leases k := by
  unfold listedAt
  rcases Nat.lt_or_ge k leases.length with hlt | hge
  · rw [List.getElem?_append_left hlt]
  · rw [List.getElem?_append_right hge, List.getElem?_eq_none hge, List.getElem?_singleton]
    split
    · exact hz
    · rfl

theorem Inv.not_held (h : Inv s) {k : Nat} (hnone : s.leases[k]? = none)
    (ht : s._threads[t]? = some th) : some (.pooled k) ∉ th.held := by
  intro hmem
  have hlisted := h.listed k
  have hle : heldOf k th ≤ total (heldOf k) s._threads := le_total ht
  have hpos := List.count_pos_iff.mpr hmem
  rw [listedAt, hnone] at hlisted
  simp only [heldOf, Option.map_none, Option.getD_none] at hlisted hle
  omega

theorem Inv.take (h : Inv s) (hstep : s.take = some s') : Inv s' := by
  unfold State.take at hstep
  split at hstep
  · cases hstep
  · split at hstep
    · next t free cb cbs hfree hcbs =>
        obtain rfl := Option.some.inj hstep
        have howner := h.owner
        have hplace := h.place
        rw [hfree] at howner
        rw [hcbs] at hplace
        have hthread : t < s.started := by
          by_contra hnot
          have := howner t
          rw [if_neg hnot, List.count_cons_self] at this
          omega
        exact { h with
          owner := fun u => by
            have hu := howner u
            simp only [total_append, total_cons, total_nil, Lease.owns, Stage.owns]
            simp only [List.count_cons, beq_iff_eq] at hu
            omega
          place := fun n => by
            have hn := hplace n
            simp only [total_append, total_cons, total_nil, Lease.carries, Stage.carries]
            simp only [List.count_cons, beq_iff_eq] at hn
            omega
          log := fun n => by
            simpa [Lease.called, Stage.called] using h.log n
          listed := fun k => by
            rw [h.listed k, listedAt_concat rfl]
          home := fun u k th y hu hmem hy => by
            rcases getElem?_concat hy with hy | ⟨rfl, -⟩
            · exact h.home u k th y hu hmem hy
            · exact absurd hmem (h.not_held (List.getElem?_eq_none le_rfl) hu)
          calls := fun k y own listed called hy hstage => by
            rcases getElem?_concat hy with hy | ⟨-, rfl⟩
            · exact h.calls k y own listed called hy hstage
            · cases hstage
          known := fun y hy => by
            rcases List.mem_append.mp hy with hy | hy
            · exact h.known y hy
            · rw [List.mem_singleton.mp hy]
              exact hthread.trans_le h.size
          busy := fun _ _ _ => by
            simp only [total_append, total_cons, Lease.inRound, Stage.inRound]
            omega }
    · next hnot =>
        obtain rfl := Option.some.inj hstep
        exact { h with
          busy := fun _ hfree hcbs => by
            obtain ⟨t, free, hfree⟩ := List.exists_cons_of_ne_nil hfree
            obtain ⟨cb, cbs, hcbs⟩ := List.exists_cons_of_ne_nil hcbs
            exact absurd hcbs (hnot t free cb cbs hfree) }

theorem Inv.giveBack (h : Inv s) (hstep : s.giveBack l = some s') : Inv s' := by
  obtain ⟨x, hx, hstage, rfl⟩ := giveBack_eq_some hstep
  refine h.restage hx (.returned true) rfl rfl rfl rfl rfl (fun t => ?_) (fun n => ?_)
    (fun n => ?_) (fun k => ?_) h.home (h.calls_set nofun) (fun _ _ _ => ?_) h.threads
  · rw [hstage]
    rfl
  · rw [hstage]
    simp only [Stage.carries, List.count_cons, beq_iff_eq, ite_self]
    omega
  · rw [hstage]
    rfl
  · rw [hstage]
    rfl
  · have := inRound_pos hx (.returned true) rfl
    simp only [State.setStage]
    omega

theorem Inv.hand (h : Inv s) (hstep : s.hand l = some s') : Inv s' := by
  obtain ⟨x, th, hx, ht, hstage, rfl⟩ := hand_eq_some hstep
  set th' := th.dispatch (some (.pooled l)) with hth'
  have hheld : ∀ k, heldOf k th' = heldOf k th + if k = l then 1 else 0 := by
    intro k
    simp only [heldOf, hth', EvThread.State.dispatch, EvThread.State.push, EvThread.State.held,
      ← List.append_assoc, List.count_append, List.count_singleton, beq_iff_eq, Option.some.injEq,
      Job.pooled.injEq, eq_comm (a := k)]
  have hwait : ∀ k, waitOf k th' = waitOf k th + if k = l then 1 else 0 := by
    intro k
    simp only [waitOf, hth', EvThread.State.dispatch, EvThread.State.push, EvThread.State.waiting,
      ← List.append_assoc, List.count_append, List.count_singleton, beq_iff_eq, Option.some.injEq,
      Job.pooled.injEq, eq_comm (a := k)]
  have hfirst :
      total (waitOf l) (s._threads.set x.thread th') = total (waitOf l) s._threads + 1 := by
    have := total_set (f := waitOf l) ht (b := th')
    have := hwait l
    simp only [if_true] at this
    omega
  refine h.restage hx (.handed true true false) rfl rfl rfl rfl (List.length_set ..) (fun t => ?_)
    (fun n => ?_) (fun n => ?_) (fun k => ?_) (fun u k thu y hu hmem hy => ?_)
    (fun k y own listed called hy hs => ?_) (fun _ _ _ => ?_) fun u thu hu => ?_
  · rw [hstage]
    rfl
  · rw [hstage]
    rfl
  · rw [hstage]
    rfl
  · have := total_set (f := heldOf k) ht (b := th')
    have := hheld k
    rw [hstage]
    simp only [State.setStage, Stage.listed, ite_self]
    omega
  · rcases getElem?_of_set hu with ⟨rfl, rfl⟩ | ⟨-, hu⟩
    · by_cases heq : k = l
      · subst heq
        rw [Option.some.inj (hx.symm.trans hy)]
      · refine h.home _ k th y ht (List.count_pos_iff.mp ?_) hy
        have hsame := hheld k
        have hpos := List.count_pos_iff.mpr hmem
        rw [if_neg heq] at hsame
        simp only [heldOf] at hsame
        omega
    · exact h.home u k thu y hu hmem hy
  · rcases getElem?_of_set hy with ⟨rfl, rfl⟩ | ⟨hne, hy⟩
    · obtain ⟨-, -, rfl⟩ := Stage.handed.inj hs
      rw [if_neg Bool.false_ne_true]
      left
      show 0 < total (waitOf k) (s._threads.set x.thread th')
      omega
    · have hcalls := h.calls k y own listed called hy hs
      have hsame :
          total (waitOf k) (s._threads.set x.thread th') = total (waitOf k) s._threads := by
        have := total_set (f := waitOf k) ht (b := th')
        have := hwait k
        rw [if_neg hne] at this
        omega
      simp only [State.setStage, hsame]
      cases called with
      | true => exact hcalls
      | false => exact hcalls.imp_right (stopped_set ht fun hstop => List.mem_append_left _ hstop)
  · have := inRound_pos hx (.handed true true false) rfl
    simp only [State.setStage]
    omega
  · rcases getElem?_of_set hu with ⟨rfl, rfl⟩ | ⟨-, hu⟩
    · exact Sound.step (h.threads _ th ht) (a := .dispatch _) rfl
    · exact h.threads u thu hu

/-- Who gives up a reference calls nothing. -/
theorem Inv.calls_handed (h : Inv s) (hx : s.leases[l]? = some x) {own listed called : Bool}
    (hstage : x.stage = .handed own listed called) (own' listed' : Bool) (k : Nat) (y : Lease)
    (own'' listed'' called'' : Bool)
    (hy : (s.leases.set l { x with stage := .handed own' listed' called })[k]? = some y)
    (hs : y.stage = .handed own'' listed'' called'') :
    if called'' then total (waitOf k) s._threads = 0
    else 0 < total (waitOf k) s._threads ∨ s.Stopped y.thread := by
  refine h.calls_set (fun _ _ _ heq => ?_) k y own'' listed'' called'' hy hs
  obtain ⟨-, -, rfl⟩ := Stage.handed.inj heq
  exact h.calls l x own listed called hx hstage

theorem Inv.close (h : Inv s) (hstep : s.close l = some s') : Inv s' := by
  obtain ⟨x, hx, ⟨called, hstage, rfl⟩ | ⟨called, hstage, rfl⟩ | ⟨hstage, rfl⟩⟩ :=
    close_eq_some hstep
  · refine h.restage hx (.handed false true called) rfl rfl rfl rfl rfl (fun t => ?_)
      (fun n => ?_) (fun n => ?_) (fun k => ?_) h.home (h.calls_handed hx hstage _ _)
      (fun _ _ _ => ?_) h.threads
    · rw [hstage]
      rfl
    · rw [hstage]
      rfl
    · rw [hstage]
      cases called <;> rfl
    · rw [hstage]
      rfl
    · simp only []
      omega
  · -- The function was destroyed before, so the reference is the last one.
    refine h.restage hx (.handed false false called) rfl rfl rfl rfl rfl (fun t => ?_)
      (fun n => ?_) (fun n => ?_) (fun k => ?_) h.home (h.calls_handed hx hstage _ _)
      (fun _ _ _ => ?_) h.threads
    · rw [hstage]
      simp only [State.setStage, Stage.owns, List.count_append, List.count_singleton, beq_iff_eq,
        ite_self]
      omega
    · rw [hstage]
      rfl
    · rw [hstage]
      cases called <;> rfl
    · rw [hstage]
      rfl
    · simp only []
      omega
  · refine h.restage hx (.returned false) rfl rfl rfl rfl rfl (fun t => ?_) (fun n => ?_)
      (fun n => ?_) (fun k => ?_) h.home (h.calls_set nofun) (fun _ _ _ => ?_) h.threads
    · rw [hstage]
      simp only [State.setStage, Stage.owns, List.count_append, List.count_singleton, beq_iff_eq,
        ite_self]
      omega
    · rw [hstage]
      rfl
    · rw [hstage]
      rfl
    · rw [hstage]
      rfl
    · simp only []
      omega

theorem Inv.release (h : Inv s) (hstep : s.release t = some s') : Inv s' := by
  obtain ⟨hmem, heq⟩ := Option.ite_none_right_eq_some.mp hstep
  obtain rfl := Option.some.inj heq
  exact { h with
    owner := fun u => by
      have howner := h.owner u
      have hperm := (List.perm_cons_erase hmem).count_eq u
      simp only [List.count_cons, beq_iff_eq] at hperm
      simp only [List.count_append, List.count_singleton, beq_iff_eq]
      omega
    busy := fun _ _ _ => by
      simp only []
      omega }

/-! ## Steps of the threads -/

/-- One function less that dies. -/
theorem count_eraseIdx {i : Nat} {job : Option Job} (hjob : s.dying[i]? = some job)
    (k : Option Job) :
    (s.dying.eraseIdx i).count k + (if job = k then 1 else 0) = s.dying.count k := by
  obtain ⟨hlt, rfl⟩ := List.getElem?_eq_some_iff.mp hjob
  have hperm := (List.getElem_cons_eraseIdx_perm hlt).count_eq k
  simpa only [List.count_cons, beq_iff_eq] using hperm

theorem Inv.destroy (h : Inv s) {i : Nat} (hstep : s.destroy i = some s') : Inv s' := by
  obtain ⟨job, hjob, ⟨hother, rfl⟩ | ⟨l, x, called, rfl, hx, hcases⟩⟩ := destroy_eq_some hstep
  · exact { h with
      listed := fun k => by
        have hlisted := h.listed k
        have hk := count_eraseIdx hjob (some (.pooled k))
        rw [if_neg (hother k)] at hk
        simp only []
        omega }
  have hdying : ∀ k, total (heldOf k) s._threads +
      (s.dying.eraseIdx i).count (some (.pooled k)) + (if k = l then 1 else 0) =
        total (heldOf k) s._threads + s.dying.count (some (.pooled k)) +
          (if k = l then 0 else 0) := by
    intro k
    have hk := count_eraseIdx hjob (some (.pooled k))
    simp only [Option.some.injEq, Job.pooled.injEq, eq_comm (a := l)] at hk
    rw [ite_self]
    omega
  rcases hcases with ⟨hstage, rfl⟩ | ⟨hstage, rfl⟩
  · refine h.restage hx (.handed true false called) rfl rfl rfl rfl rfl (fun t => ?_)
      (fun n => ?_) (fun n => ?_) (fun k => ?_) h.home (h.calls_handed hx hstage _ _)
      (fun _ _ _ => ?_) h.threads
    · rw [hstage]
      rfl
    · rw [hstage]
      rfl
    · rw [hstage]
      cases called <;> rfl
    · rw [hstage]
      exact hdying k
    · have := inRound_pos hx (.handed true false called) rfl
      simp only [State.setStage]
      omega
  · -- `check` has gone on before, so the reference is the last one.
    refine h.restage hx (.handed false false called) rfl rfl rfl rfl rfl (fun t => ?_)
      (fun n => ?_) (fun n => ?_) (fun k => ?_) h.home (h.calls_handed hx hstage _ _)
      (fun _ _ _ => ?_) h.threads
    · rw [hstage]
      simp only [State.setStage, Stage.owns, List.count_append, List.count_singleton, beq_iff_eq,
        ite_self]
      omega
    · rw [hstage]
      rfl
    · rw [hstage]
      cases called <;> rfl
    · rw [hstage]
      exact hdying k
    · simp only [List.length_append, List.length_singleton]
      omega

/-- A function of the pool that a thread holds belongs to a lease of that thread. -/
theorem Inv.lease_of_held (h : Inv s) (ht : s._threads[t]? = some th)
    (hmem : some (.pooled l) ∈ th.held) :
    ∃ x own called, s.leases[l]? = some x ∧ x.thread = t ∧ x.stage = .handed own true called ∧
      total (heldOf l) s._threads = 1 := by
  have hlisted := h.listed l
  have hle : heldOf l th ≤ total (heldOf l) s._threads := le_total ht
  have hpos : 0 < heldOf l th := List.count_pos_iff.mpr hmem
  cases hx : s.leases[l]? with
  | none => exact absurd hmem (h.not_held hx ht)
  | some x =>
      rw [listedAt_of_getElem? hx] at hlisted
      obtain ⟨own, called, hstage⟩ := Stage.listed_pos x.stage (by omega)
      rw [hstage, Stage.listed] at hlisted
      exact ⟨x, own, called, rfl, h.home t l th x ht hmem hx, hstage, by omega⟩

/-- A thread calls a function of the pool. -/
theorem Inv.wrapCb (h : Inv s) (ht : s._threads[t]? = some th)
    (hheld : th'.held = th.held) (hwait : th.waiting = some (.pooled l) :: th'.waiting)
    (hmore : none ∈ th.dispatched → none ∈ th'.dispatched) (hsound : Sound s t th') :
    Inv ({ s with _threads := s._threads.set t th' }.wrapCb l) := by
  have hmem : some (.pooled l) ∈ th.waiting := hwait ▸ List.mem_cons_self
  obtain ⟨x, own, called, hx, hthread, hstage, hone⟩ :=
    h.lease_of_held ht (th.waiting_sublist.subset hmem)
  have hwaits : ∀ k, total (waitOf k) (s._threads.set t th') + (if k = l then 1 else 0) =
      total (waitOf k) s._threads := by
    intro k
    have htotal := total_set (f := waitOf k) ht (b := th')
    have hk : waitOf k th = waitOf k th' + if k = l then 1 else 0 := by
      rw [waitOf, waitOf, hwait, List.count_cons]
      simp only [beq_iff_eq, Option.some.injEq, Job.pooled.injEq, eq_comm (a := k)]
    omega
  -- It waits, so it was not called before.
  have hlast : total (waitOf l) s._threads ≤ 1 :=
    hone ▸ total_le_total (waitOf_le l) s._threads
  have hfresh : called = false := by
    have hcalls := h.calls l x own true called hx hstage
    have hl := hwaits l
    rw [if_pos rfl] at hl
    cases called with
    | false => rfl
    | true =>
        rw [if_pos rfl] at hcalls
        omega
  subst hfresh
  have heq : { s with _threads := s._threads.set t th' }.wrapCb l =
      { s.setStage l x (.handed own true true) with
        _threads := s._threads.set t th', executed := s.executed ++ [x.cb] } := by
    simp only [State.wrapCb, hx, hstage]
    rfl
  have hsame : ∀ k, total (heldOf k) (s._threads.set t th') = total (heldOf k) s._threads := by
    intro k
    have := total_set (f := heldOf k) ht (b := th')
    have : heldOf k th' = heldOf k th := by rw [heldOf, heldOf, hheld]
    omega
  rw [heq]
  refine h.restage hx (.handed own true true) rfl rfl rfl rfl (List.length_set ..) (fun u => ?_)
    (fun n => ?_) (fun n => ?_) (fun k => ?_) (fun u k thu y hu hmem hy => ?_)
    (fun k y own' listed called hy hs => ?_) (fun hs hfree hcbs => ?_) fun u thu hu => ?_
  · rw [hstage]
    cases own <;> rfl
  · rw [hstage]
    rfl
  · rw [hstage]
    simp only [Stage.called, List.count_append, List.count_singleton, beq_iff_eq, ite_self]
    omega
  · rw [hstage]
    simp only [hsame]
    rfl
  · rcases getElem?_of_set hu with ⟨rfl, rfl⟩ | ⟨-, hu⟩
    · exact h.home u k th y ht (hheld ▸ hmem) hy
    · exact h.home u k thu y hu hmem hy
  · have hk := hwaits k
    rcases getElem?_of_set hy with ⟨rfl, rfl⟩ | ⟨hne, hy⟩
    · obtain ⟨-, -, rfl⟩ := Stage.handed.inj hs
      rw [if_pos rfl] at hk ⊢
      show total (waitOf k) (s._threads.set t th') = 0
      omega
    · have hcalls := h.calls k y own' listed called hy hs
      rw [if_neg hne, Nat.add_zero] at hk
      simp only [State.setStage, hk]
      cases called with
      | true => exact hcalls
      | false => exact hcalls.imp_right (stopped_set ht hmore)
  · have hbusy := h.busy hs hfree hcbs
    have htotal :=
      total_set (f := Lease.inRound) hx (b := { x with stage := .handed own true true })
    have hround : Lease.inRound { x with stage := .handed own true true } = x.inRound := by
      rw [Lease.inRound, Lease.inRound, hstage]
      cases own <;> rfl
    simp only [State.setStage]
    omega
  · rcases getElem?_of_set hu with ⟨rfl, rfl⟩ | ⟨-, hu⟩
    · exact hsound
    · exact h.threads u thu hu

/-- A thread leaves its list. -/
theorem Inv.leave (h : Inv s) (ht : s._threads[t]? = some th) {gone skipped : List (Option Job)}
    (hheld : th.held = gone ++ th'.held) (hwait : th.waiting = skipped ++ th'.waiting)
    (hstop : skipped ≠ [] → none ∈ th'.dispatched)
    (hmore : none ∈ th.dispatched → none ∈ th'.dispatched) (hsound : Sound s t th') :
    Inv { s with _threads := s._threads.set t th', dying := s.dying ++ gone } :=
  { h with
    listed := fun k => by
      have hlisted := h.listed k
      have htotal := total_set (f := heldOf k) ht (b := th')
      have hk : heldOf k th = gone.count (some (.pooled k)) + heldOf k th' := by
        rw [heldOf, heldOf, hheld, List.count_append]
      simp only [List.count_append]
      omega
    home := fun u k thu y hu hmem hy => by
      rcases getElem?_of_set hu with ⟨rfl, rfl⟩ | ⟨-, hu⟩
      · exact h.home u k th y ht (hheld ▸ List.mem_append_right _ hmem) hy
      · exact h.home u k thu y hu hmem hy
    calls := fun k y own listed called hy hs => by
      have hcalls := h.calls k y own listed called hy hs
      have htotal := total_set (f := waitOf k) ht (b := th')
      have hk : waitOf k th = skipped.count (some (.pooled k)) + waitOf k th' := by
        rw [waitOf, waitOf, hwait, List.count_append]
      cases called with
      | true =>
          rw [if_pos rfl] at hcalls ⊢
          simp only []
          omega
      | false =>
          rw [if_neg Bool.false_ne_true] at hcalls ⊢
          rcases hcalls with hpos | hstopped
          · by_cases hmem : some (.pooled k) ∈ skipped
            · -- What is skipped is behind the empty callback that the thread was given.
              right
              have hin : some (.pooled k) ∈ th.held :=
                th.waiting_sublist.subset (hwait ▸ List.mem_append_left _ hmem)
              have hlt := (List.getElem?_eq_some_iff.mp ht).1
              rw [h.home t k th y ht hin hy]
              exact ⟨th', by simp [hlt], hstop (List.ne_nil_of_mem hmem)⟩
            · rw [List.count_eq_zero.mpr hmem] at hk
              left
              simp only []
              omega
          · exact .inr (stopped_set ht hmore hstopped)
    known := by simpa using h.known
    size := by simpa using h.size
    whole := by simpa using h.whole
    threads := fun u thu hu => by
      rcases getElem?_of_set hu with ⟨rfl, rfl⟩ | ⟨-, hu⟩
      · exact hsound
      · exact h.threads u thu hu }

theorem Inv.own (h : Inv s) {a : EvThread.Action Job} (hstep : s.own t a = some s') : Inv s' := by
  obtain ⟨th, th', ht, hown, hth, hcases⟩ := own_eq_some hstep
  have hsound := Sound.step (h.threads t th ht) hth
  have hmore := (EvThread.dispatched_step hth).subset (a := none)
  rcases hcases with ⟨hheld, hwait, rfl⟩ | ⟨l, hheld, hwait, rfl⟩ |
    ⟨gone, skipped, hheld, hwait, hskipped, rfl⟩
  · exact h.setThread ht (fun l => by rw [heldOf, heldOf, hheld]) hwait hmore hsound
  · exact h.wrapCb ht hheld hwait hmore hsound
  · refine h.leave ht hheld hwait (fun hne => ?_) hmore hsound
    obtain ⟨done, rest, hloop⟩ := hskipped hne
    exact hmore ((h.threads t th ht).1.stopped_of_call hloop)

theorem inv_step {a : Action} (h : Inv s) (hstep : step s a = some s') : Inv s' := by
  cases a with
  | dispatch empty => exact h.dispatch hstep
  | batchDispatch empties => exact h.batchDispatch hstep
  | dispatchTo id empty => exact (h.counters s._cur (s._total + 1)).give_direct hstep
  | broadcast t empty => exact h.give_direct hstep
  | startThread => exact h.startThread hstep
  | startedThread => exact h.startedThread hstep
  | startEnd => exact h.startEnd hstep
  | stopThread t => exact h.stopThread hstep
  | stopEnd => exact Option.some.inj hstep ▸ h.stopEnd
  | joinThread t => exact h.joinThread hstep
  | test => exact h.test hstep
  | take => exact h.take hstep
  | isStart l => exact h.isStart hstep
  | hand l => exact h.hand hstep
  | giveBack l => exact h.giveBack hstep
  | close l => exact h.close hstep
  | destroy i => exact h.destroy hstep
  | release t => exact h.release hstep
  | own t a => exact h.own hstep

end Steps

/-! ## What goes on by itself -/

/-- The steps of calls that have begun, and those of the threads. -/
def Action.goesOn : Action → Bool
  | .test | .take | .isStart _ | .hand _ | .giveBack _ | .close _ | .destroy _ | .release _
  | .own _ _ => true
  | _ => false

/-- Nobody has given a thread an empty callback. -/
def NoStop (s : State) : Prop := ∀ th ∈ s._threads, none ∉ th.dispatched

/-- A bound for the steps that a lease still takes. -/
def Stage.work : Stage → Nat
  | .taken => 15
  | .ready => 14
  | .refused => 22
  | .handed true true _ => 7
  | .handed true false _ => 6
  | .handed false true _ => 4
  | .handed false false _ => 0
  | .returned true => 6
  | .returned false => 0

def Lease.work (x : Lease) : Nat := x.stage.work

def threadWork (th : EvThread.State Job) : Nat := th.work + th.held.length

def State.work (s : State) : Nat :=
  2 * s.checking + s.entered + 15 * s._callbacks.length + total Lease.work s.leases +
    s.dying.length + 3 * s.releasing.length + total threadWork s._threads

section Work

variable {s s' : State} {t l : Nat} {th : EvThread.State Job} {x : Lease}

theorem total_work_set (hx : s.leases[l]? = some x) (stage : Stage) :
    total Lease.work (s.leases.set l { x with stage := stage }) + x.stage.work =
      total Lease.work s.leases + stage.work :=
  total_set (f := Lease.work) hx

/-- The thread of a round was started, and without an empty callback it still is. -/
theorem Inv.started_of_owns (h : Inv s) (hstop : NoStop s) (hx : s.leases[l]? = some x)
    (howns : 0 < x.stage.owns) (ht : s._threads[x.thread]? = some th) : th._start := by
  have howner := h.owner x.thread
  have hle : Lease.owns x.thread x ≤ total (Lease.owns x.thread) s.leases := le_total hx
  rw [Lease.owns, if_pos rfl] at hle
  have hlt : x.thread < s.started := by
    by_contra hnot
    rw [if_neg hnot] at howner
    omega
  exact ((h.threads _ th ht).2.2 hlt).2.resolve_right (hstop th (List.mem_of_getElem? ht))

theorem work_wrapCb (s : State) (l : Nat) : (s.wrapCb l).work = s.work := by
  unfold State.wrapCb
  split
  · next x hx =>
      split
      · next own listed called hstage =>
          have hwork := total_work_set hx (.handed own listed true)
          rw [hstage] at hwork
          have hsame : Stage.work (.handed own listed true) =
              Stage.work (.handed own listed called) := by
            cases own <;> cases listed <;> rfl
          simp only [State.work, State.setStage]
          omega
      · rfl
  · rfl

theorem work_step {a : Action} (h : Inv s) (hstop : NoStop s) (hown : a.goesOn)
    (hstep : step s a = some s') : s'.work < s.work := by
  cases a with
  | test =>
      simp only [step, State.test] at hstep
      split at hstep
      · cases hstep
      · split at hstep <;> obtain rfl := Option.some.inj hstep <;> simp only [State.work] <;> omega
  | take =>
      simp only [step, State.take] at hstep
      split at hstep
      · cases hstep
      · split at hstep
        · next hfree hcbs =>
            obtain rfl := Option.some.inj hstep
            simp only [State.work, hcbs, total_append, total_cons, total_nil, Lease.work,
              Stage.work, List.length_cons]
            omega
        · obtain rfl := Option.some.inj hstep
          simp only [State.work]
          omega
  | isStart l =>
      obtain ⟨x, th, hx, ht, hstage, rfl⟩ := isStart_eq_some hstep
      rw [if_pos (h.started_of_owns hstop hx (by rw [hstage]; decide) ht)]
      have hwork := total_work_set hx .ready
      rw [hstage] at hwork
      simp only [State.work, State.setStage, Stage.work] at hwork ⊢
      omega
  | hand l =>
      obtain ⟨x, th, hx, ht, hstage, rfl⟩ := hand_eq_some hstep
      have hwork := total_work_set hx (.handed true true false)
      have hthread := total_set (f := threadWork) ht (b := th.dispatch (some (.pooled l)))
      rw [hstage] at hwork
      simp only [threadWork, EvThread.State.dispatch, EvThread.State.push, EvThread.State.work,
        EvThread.State.held, List.length_append, List.length_singleton] at hthread
      simp only [State.work, State.setStage, Stage.work, EvThread.State.dispatch,
        EvThread.State.push] at hwork ⊢
      omega
  | giveBack l =>
      obtain ⟨x, hx, hstage, rfl⟩ := giveBack_eq_some hstep
      have hwork := total_work_set hx (.returned true)
      rw [hstage] at hwork
      simp only [State.work, State.setStage, Stage.work, List.length_cons] at hwork ⊢
      omega
  | close l =>
      obtain ⟨x, hx, ⟨called, hstage, rfl⟩ | ⟨called, hstage, rfl⟩ | ⟨hstage, rfl⟩⟩ :=
        close_eq_some hstep
      · have hwork := total_work_set hx (.handed false true called)
        rw [hstage] at hwork
        simp only [State.work, State.setStage, Stage.work] at hwork ⊢
        omega
      · have hwork := total_work_set hx (.handed false false called)
        rw [hstage] at hwork
        simp only [State.work, State.setStage, Stage.work, List.length_append,
          List.length_singleton] at hwork ⊢
        omega
      · have hwork := total_work_set hx (.returned false)
        rw [hstage] at hwork
        simp only [State.work, State.setStage, Stage.work, List.length_append,
          List.length_singleton] at hwork ⊢
        omega
  | destroy i =>
      obtain ⟨job, hjob, hcases⟩ := destroy_eq_some hstep
      have hlt := (List.getElem?_eq_some_iff.mp hjob).1
      have hlength := List.length_eraseIdx_of_lt hlt
      rcases hcases with ⟨-, rfl⟩ | ⟨l, x, called, -, hx, ⟨hstage, rfl⟩ | ⟨hstage, rfl⟩⟩
      · simp only [State.work]
        omega
      · have hwork := total_work_set hx (.handed true false called)
        rw [hstage] at hwork
        simp only [State.work, State.setStage, Stage.work] at hwork ⊢
        omega
      · have hwork := total_work_set hx (.handed false false called)
        rw [hstage] at hwork
        simp only [State.work, State.setStage, Stage.work, List.length_append,
          List.length_singleton] at hwork ⊢
        omega
  | release t =>
      obtain ⟨hmem, heq⟩ := Option.ite_none_right_eq_some.mp hstep
      obtain rfl := Option.some.inj heq
      have hlength := List.length_erase_of_mem hmem
      have hpos := List.length_pos_of_mem hmem
      simp only [State.work]
      omega
  | own t a =>
      obtain ⟨th, th', ht, hown, hth, hcases⟩ := own_eq_some hstep
      have hless := EvThread.work_step hown hth
      have hthread := total_set (f := threadWork) ht (b := th')
      simp only [threadWork] at hthread
      rcases hcases with ⟨hheld, -, rfl⟩ | ⟨l, hheld, -, rfl⟩ | ⟨gone, _, hheld, -, -, rfl⟩
      · rw [hheld] at hthread
        simp only [State.work]
        omega
      · rw [work_wrapCb]
        rw [hheld] at hthread
        simp only [State.work]
        omega
      · rw [hheld, List.length_append] at hthread
        simp only [State.work, List.length_append]
        omega
  | _ => cases hown

theorem noStop_set (hstop : NoStop s) {th' : EvThread.State Job} (hnew : none ∉ th'.dispatched) :
    NoStop { s with _threads := s._threads.set t th' } := by
  intro y hy
  rcases List.mem_or_eq_of_mem_set hy with hy | rfl
  · exact hstop y hy
  · exact hnew

/-- None of these steps gives a thread an empty callback. -/
theorem noStop_step {a : Action} (hstop : NoStop s) (hown : a.goesOn)
    (hstep : step s a = some s') : NoStop s' := by
  cases a with
  | test =>
      simp only [step, State.test] at hstep
      split at hstep
      · cases hstep
      · split at hstep <;> exact Option.some.inj hstep ▸ hstop
  | take =>
      simp only [step, State.take] at hstep
      split at hstep
      · cases hstep
      · split at hstep <;> exact Option.some.inj hstep ▸ hstop
  | isStart l =>
      obtain ⟨x, th, -, -, -, rfl⟩ := isStart_eq_some hstep
      exact hstop
  | hand l =>
      obtain ⟨x, th, -, ht, -, rfl⟩ := hand_eq_some hstep
      refine noStop_set (s := s) hstop ?_
      have hth := hstop th (List.mem_of_getElem? ht)
      simp [EvThread.State.dispatch, EvThread.State.push, hth]
  | giveBack l =>
      obtain ⟨x, -, -, rfl⟩ := giveBack_eq_some hstep
      exact hstop
  | close l =>
      obtain ⟨x, -, ⟨_, -, rfl⟩ | ⟨_, -, rfl⟩ | ⟨-, rfl⟩⟩ := close_eq_some hstep <;> exact hstop
  | destroy i =>
      obtain ⟨job, -, ⟨-, rfl⟩ | ⟨l, x, _, -, -, ⟨-, rfl⟩ | ⟨-, rfl⟩⟩⟩ := destroy_eq_some hstep <;>
        exact hstop
  | release t =>
      obtain ⟨-, heq⟩ := Option.ite_none_right_eq_some.mp hstep
      exact Option.some.inj heq ▸ hstop
  | own t a =>
      obtain ⟨th, th', ht, hown, hth, hcases⟩ := own_eq_some hstep
      have hnew : none ∉ th'.dispatched := by
        rw [(EvThread.own_cases hown hth).1]
        exact hstop th (List.mem_of_getElem? ht)
      rcases hcases with ⟨-, -, rfl⟩ | ⟨l, -, -, rfl⟩ | ⟨_, _, -, -, -, rfl⟩
      · exact noStop_set hstop hnew
      · have hset := noStop_set (t := t) hstop hnew
        unfold State.wrapCb
        split
        · split <;> exact hset
        · exact hset
      · exact noStop_set (s := s) hstop hnew
  | _ => cases hown

theorem length_le_work (as : List Action) (h : Inv s) (hstop : NoStop s)
    (hown : ∀ a ∈ as, a.goesOn) (hrun : runActions step as s = some s') : as.length ≤ s.work := by
  induction as generalizing s with
  | nil => exact Nat.zero_le _
  | cons a as ih =>
      obtain ⟨mid, hmid, hrun'⟩ := Option.bind_eq_some_iff.mp hrun
      have ha := hown a List.mem_cons_self
      have hless := work_step h hstop ha hmid
      have hrest := ih (inv_step h hmid) (noStop_step hstop ha hmid)
        (fun b hb => hown b (List.mem_cons_of_mem _ hb)) hrun'
      rw [List.length_cons]
      omega

end Work

/-! ## Main results -/

/-- What becomes of the callbacks of a pool. -/
structure Served (s : State) : Prop where
  once : s.executed.Nodup
  known : ∀ n ∈ s.executed, n < s.pushed
  /-- A thread has at most one function of the pool, and a free one has none. -/
  exclusive : ∀ (t : Nat) (th : EvThread.State Job), s._threads[t]? = some th →
    (∀ l k, some (.pooled l) ∈ th.held → some (.pooled k) ∈ th.held → l = k) ∧
      (t ∈ s._freeEvThreads → ∀ l, some (.pooled l) ∉ th.held)
  /-- With nothing left to do, every callback was called. -/
  complete : s._start → s._threads ≠ [] → NoStop s → (∀ a, a.goesOn → step s a = none) →
    ∀ n < s.pushed, n ∈ s.executed
  /-- However the threads and the calls that have begun go on, they come to that end. -/
  ends : NoStop s → ∀ (bs : List Action) (t : State), (∀ b ∈ bs, b.goesOn) →
    runActions step bs s = some t → bs.length ≤ s.work

section Main

variable {s : State} {t : Nat} {th : EvThread.State Job}

theorem Inv.once (h : Inv s) : s.executed.Nodup ∧ ∀ n ∈ s.executed, n < s.pushed := by
  have hle : ∀ n, s.executed.count n ≤ if n < s.pushed then 1 else 0 := by
    intro n
    have hplace := h.place n
    have hweight : total (Lease.called n) s.leases ≤ total (Lease.carries n) s.leases := by
      refine total_le_total (fun x => ?_) s.leases
      unfold Lease.called Lease.carries
      split
      · exact Stage.called_le_carries x.stage
      · exact Nat.le_refl 0
    rw [h.log n]
    omega
  refine ⟨List.nodup_iff_count_le_one.mpr fun n => ?_, fun n hn => ?_⟩
  · exact (hle n).trans (by split <;> omega)
  · by_contra hnot
    have hzero := hle n
    rw [if_neg hnot] at hzero
    have hpos := List.count_pos_iff.mpr hn
    omega

theorem Inv.exclusive (h : Inv s) (ht : s._threads[t]? = some th) :
    (∀ l k, some (.pooled l) ∈ th.held → some (.pooled k) ∈ th.held → l = k) ∧
      (t ∈ s._freeEvThreads → ∀ l, some (.pooled l) ∉ th.held) := by
  have howns : ∀ l, some (.pooled l) ∈ th.held →
      ∃ x, s.leases[l]? = some x ∧ Lease.owns t x = 1 := by
    intro l hl
    obtain ⟨x, own, called, hx, hthread, hstage, -⟩ := h.lease_of_held ht hl
    refine ⟨x, hx, ?_⟩
    rw [Lease.owns, if_pos hthread, hstage]
    cases own <;> rfl
  have howner : s._freeEvThreads.count t + s.releasing.count t +
      total (Lease.owns t) s.leases ≤ 1 := by
    rw [h.owner t]
    split <;> omega
  constructor
  · intro l k hl hk
    obtain ⟨x, hx, hxowns⟩ := howns l hl
    obtain ⟨y, hy, hyowns⟩ := howns k hk
    by_contra hne
    have := add_le_total (f := Lease.owns t) hx hy hne
    omega
  · intro hfree l hl
    obtain ⟨x, hx, hxowns⟩ := howns l hl
    have hle : Lease.owns t x ≤ total (Lease.owns t) s.leases := le_total hx
    have hpos := List.count_pos_iff.mpr hfree
    omega

/-- Where nothing goes on, no call of `check` has begun and no lease is in a round. -/
theorem Inv.quiet_rounds (h : Inv s) (hquiet : ∀ a, a.goesOn → step s a = none) :
    s.checking = 0 ∧ s.entered = 0 ∧ s.releasing = [] ∧
      ∀ x ∈ s.leases, (∃ listed called, x.stage = .handed false listed called) ∨
        x.stage = .returned false := by
  refine ⟨?_, ?_, ?_, fun x hx => ?_⟩
  · have htest := hquiet .test rfl
    simp only [step, State.test] at htest
    by_contra hne
    rw [if_neg hne] at htest
    split at htest <;> cases htest
  · have htake := hquiet .take rfl
    simp only [step, State.take] at htake
    by_contra hne
    rw [if_neg hne] at htake
    split at htake <;> cases htake
  · refine List.eq_nil_iff_forall_not_mem.mpr fun t ht => ?_
    have hrelease := hquiet (.release t) rfl
    simp only [step, State.release, if_pos ht] at hrelease
    cases hrelease
  · obtain ⟨l, hl⟩ := List.mem_iff_getElem?.mp hx
    obtain ⟨th, ht⟩ : ∃ th, s._threads[x.thread]? = some th :=
      ⟨_, List.getElem?_eq_getElem (h.known x hx)⟩
    have hisStart := hquiet (.isStart l) rfl
    have hhand := hquiet (.hand l) rfl
    have hgiveBack := hquiet (.giveBack l) rfl
    have hclose := hquiet (.close l) rfl
    simp only [step, State.isStart, State.hand, State.giveBack, State.close, State.give,
      State.setStage, hl, ht, Option.bind_eq_bind, Option.bind_some]
      at hisStart hhand hgiveBack hclose
    cases hstage : x.stage with
    | taken => simp [hstage] at hisStart
    | ready => simp [hstage] at hhand
    | refused => simp [hstage] at hgiveBack
    | handed own listed called =>
        cases own with
        | true =>
            rw [hstage] at hclose
            cases listed <;> cases hclose
        | false => exact .inl ⟨listed, called, rfl⟩
    | returned own =>
        cases own with
        | true =>
            rw [hstage] at hclose
            cases hclose
        | false => exact .inr rfl

theorem Inv.quiet_dying (h : Inv s) (hquiet : ∀ a, a.goesOn → step s a = none) : s.dying = [] := by
  cases hdying : s.dying with
  | nil => rfl
  | cons job jobs =>
      have hdestroy := hquiet (.destroy 0) rfl
      simp only [step, State.destroy, hdying, List.getElem?_cons_zero, Option.bind_eq_bind,
        Option.bind_some] at hdestroy
      rcases job with _ | l | _
      · cases hdestroy
      · -- A function that dies is listed by its lease.
        have hlisted := h.listed l
        rw [hdying, List.count_cons_self] at hlisted
        cases hx : s.leases[l]? with
        | none =>
            rw [listedAt, hx] at hlisted
            simp at hlisted
        | some x =>
            rw [listedAt_of_getElem? hx] at hlisted
            obtain ⟨own, called, hstage⟩ := Stage.listed_pos x.stage (by omega)
            simp only [hx, hstage, Option.bind_some] at hdestroy
            cases own <;> cases hdestroy
      · cases hdestroy

/-- And no thread holds anything. -/
theorem Inv.quiet_held (h : Inv s) (hstart : s._start) (hstop : NoStop s)
    (hquiet : ∀ a, a.goesOn → step s a = none) : ∀ th ∈ s._threads, th.held = [] := by
  intro th hth
  obtain ⟨t, ht⟩ := List.mem_iff_getElem?.mp hth
  have hlt := (List.getElem?_eq_some_iff.mp ht).1
  obtain ⟨hinv, -, hup⟩ := h.threads t th ht
  refine hinv.held_of_quiet (hup (h.whole hstart ▸ hlt)).1 (hstop th hth) fun a ha => ?_
  have hown := hquiet (.own t a) rfl
  simp only [step, State.own, ht, if_pos ha, Option.bind_eq_bind, Option.bind_some] at hown
  cases hth' : EvThread.step th a with
  | none => rfl
  | some th' =>
      rw [hth'] at hown
      cases hown

theorem Inv.complete (h : Inv s) (hstart : s._start) (hsome : s._threads ≠ []) (hstop : NoStop s)
    (hquiet : ∀ a, a.goesOn → step s a = none) : ∀ n < s.pushed, n ∈ s.executed := by
  obtain ⟨hchecking, hentered, hreleasing, hstages⟩ := h.quiet_rounds hquiet
  have hdying := h.quiet_dying hquiet
  have hheld := h.quiet_held hstart hstop hquiet
  have hzero : ∀ l, total (heldOf l) s._threads = 0 := fun l =>
    total_eq_zero fun th hth => by rw [heldOf, hheld th hth, List.count_nil]
  -- No lease is listed, and so none owns its thread.
  have hleases : ∀ (l : Nat) (x : Lease), s.leases[l]? = some x →
      (∃ called, x.stage = .handed false false called) ∨ x.stage = .returned false := by
    intro l x hx
    refine (hstages x (List.mem_of_getElem? hx)).imp_left ?_
    rintro ⟨listed, called, hstage⟩
    have hlisted := h.listed l
    rw [hzero l, hdying, listedAt_of_getElem? hx, hstage] at hlisted
    cases listed with
    | false => exact ⟨called, hstage⟩
    | true => simp [Stage.listed] at hlisted
  have howns : ∀ t, total (Lease.owns t) s.leases = 0 := by
    refine fun t => total_eq_zero fun x hx => ?_
    obtain ⟨l, hl⟩ := List.mem_iff_getElem?.mp hx
    rcases hleases l x hl with ⟨called, hstage⟩ | hstage <;> simp [Lease.owns, hstage, Stage.owns]
  have hrounds : total Lease.inRound s.leases = 0 := by
    refine total_eq_zero fun x hx => ?_
    obtain ⟨l, hl⟩ := List.mem_iff_getElem?.mp hx
    rcases hleases l x hl with ⟨called, hstage⟩ | hstage <;>
      simp [Lease.inRound, hstage, Stage.inRound]
  -- The first thread is free, so no callback waits.
  have hfree : s._freeEvThreads ≠ [] := by
    intro hnil
    have howner := h.owner 0
    have hpos := h.whole hstart ▸ List.length_pos_of_ne_nil hsome
    rw [hnil, hreleasing, howns 0, if_pos hpos] at howner
    simp at howner
  have hcallbacks : s._callbacks = [] := by
    by_contra hne
    have hbusy := h.busy hstart hfree hne
    rw [hchecking, hentered, hrounds, hreleasing] at hbusy
    simp at hbusy
  intro n hn
  have hplace := h.place n
  rw [hcallbacks, if_pos hn, List.count_nil, Nat.zero_add] at hplace
  have hweight : total (Lease.carries n) s.leases ≠ 0 := by
    rw [hplace]
    exact Nat.one_ne_zero
  obtain ⟨l, x, hx, hcarries⟩ := exists_of_total_ne_zero hweight
  obtain ⟨hcb, hstage⟩ := ite_ne_right_iff.mp hcarries
  rcases hleases l x hx with ⟨called, heq⟩ | heq
  · have hcalls := h.calls l x false false called hx heq
    cases called with
    | true =>
        have hle : Lease.called n x ≤ total (Lease.called n) s.leases := le_total hx
        rw [Lease.called, if_pos hcb, heq, Stage.called, ← h.log n] at hle
        exact List.count_pos_iff.mp hle
    | false =>
        rw [if_neg Bool.false_ne_true] at hcalls
        rcases hcalls with hwait | ⟨th, ht, hstopped⟩
        · have hle := total_le_total (waitOf_le l) s._threads
          have := hzero l
          omega
        · exact absurd hstopped (hstop th (List.mem_of_getElem? ht))
  · rw [heq] at hstage
    exact absurd rfl hstage

end Main

/-- Two callbacks for two threads.  The first thread is through with its list before `check` gives
up its reference, the other one after it. -/
def twoThreads : List Action :=
  [.startThread, .startedThread, .startThread, .startedThread, .startEnd, .dispatch false,
    .dispatch false, .test, .take, .isStart 0, .hand 0, .own 0 (.send true), .own 0 .recv,
    .own 0 .swap, .own 0 .call, .own 0 .finish, .destroy 0, .close 0, .test, .take, .isStart 1,
    .hand 1, .close 1, .release 0, .own 1 (.send true), .own 1 .recv, .own 1 .swap, .own 1 .call,
    .own 1 .finish, .destroy 0, .release 1, .test, .take, .test, .take, .test, .take]

end EvThreadPool
end Routn
