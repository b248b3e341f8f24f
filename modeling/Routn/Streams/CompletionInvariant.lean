import Routn.Foundation.Table
import Routn.Streams.Completion

/-!
# The contexts of requests in flight

What every reachable state of the completion machine satisfies.

* A context has at most one right to be scheduled: it is the non-null `scheduler`, or a thread of
  `doRsp` holds it, or it has been used.
* A context that a thread completes, or that was completed, has left `_ctxs`.

`Moves` says what a step of a thread can do; the invariant is derived from it.
-/

namespace Routn
namespace Completion

open Foundation

/-! ## The invariant -/

/-- The contexts a thread is completing: they are out of the map, and `doRsp` is about to be called
on them or running. -/
def Thread.completing : Thread → List Nat
  | .timed c => [c]
  | .deliver _ c => [c]
  | .innerClose rest => rest
  | .doRsp (.innerClose rest) c _ => c :: rest
  | .doRsp _ c _ => [c]
  | _ => []

/-- The thread has swapped the scheduler of the context out and will schedule its fiber. -/
def Thread.firing (c : Nat) : Thread → Nat
  | .doRsp _ c' (.cancel _) => if c' = c then 1 else 0
  | .doRsp _ c' (.schedule _) => if c' = c then 1 else 0
  | _ => 0

/-- What the log must hold for the thread to be where it is. -/
def Thread.Recorded (log : List Event) : Thread → Prop
  | .deliver response c => .removed (.doRecv response) c ∈ log
  | .doRsp (.doRecv response) c _ => .removed (.doRecv response) c ∈ log
  | .doRsp (.onTimeOut c) c' _ => c' = c
  | _ => True

namespace State

/-- The contexts whose fiber has been scheduled, once for each time. -/
def scheduled (s : State) : List Nat := s.log.filterMap Event.scheduledCtx

/-- The sequence number of a context. -/
def snOf (s : State) (c : Nat) : Option UInt32 := (s.heap[c]?).map Ctx.sn

/-- The scheduler of the context has not been swapped out. -/
def armed (s : State) (c : Nat) : Nat :=
  if ((s.heap[c]?).bind Ctx.scheduler).isSome then 1 else 0

/-- The right to schedule the fiber of a context, wherever it is. -/
def tokens (s : State) (c : Nat) : Nat :=
  s.armed c + total (Thread.firing c) s.threads + s.scheduled.count c

end State

/-! ## What one step of a thread does -/

/-- The fields the invariant looks at. -/
def Ctx.key (ctx : Ctx) : UInt32 × Option Nat := (ctx.sn, ctx.scheduler)

/-- The steps of a thread, told apart by what they do to the map, to `scheduler` and to the log. -/
inductive Moves (s : State) : Thread → State → Thread → Prop
  /-- Everything the invariant looks at stays. -/
  | quiet {th th' : Thread} {heap : List Ctx} {timers : List Nat}
      (hheap : heap.map Ctx.key = s.heap.map Ctx.key) (hfiring : ∀ c, th'.firing c = th.firing c)
      (hcompleting : th'.completing ⊆ th.completing)
      (hrecorded : ∀ log, th.Recorded log → th'.Recorded log)
      (hth : ∀ c, th ≠ .onTimeOut c) :
      Moves s th { s with heap := heap, timers := timers } th'
  | erase {c : Nat} {ctx : Ctx} (hctx : s.heap[c]? = some ctx) :
      Moves s (.onTimeOut c) (s.erase (.onTimeOut c) ctx.sn) (.timed c)
  | deliver {response : Response} {c : Nat} {heap : List Ctx}
      (hheap : heap.map Ctx.key = s.heap.map Ctx.key) :
      Moves s (.deliver response c)
        { s with heap := heap, log := .delivered response c :: s.log }
        (.doRsp (.doRecv response) c .load)
  | swap {caller : Caller} {c : Nat} {ctx : Ctx} {th' : Thread} (hctx : s.heap[c]? = some ctx)
      (hth' : th' = caller.resume ∨
        ∃ t, ctx.scheduler = some t ∧ th' = .doRsp caller c (.cancel t)) :
      Moves s (.doRsp caller c (.compareAndSwap ctx.scheduler))
        (s.assign c { ctx with scheduler := none }) th'
  | schedule {caller : Caller} {c t : Nat} {heap : List Ctx}
      (hheap : heap.map Ctx.key = s.heap.map Ctx.key) :
      Moves s (.doRsp caller c (.schedule t))
        { s with heap := heap, log := .scheduled caller.cause c :: s.log } caller.resume

section Advance

variable {s s' : State} {index : Nat} {th th' : Thread}

theorem key_set {c : Nat} {ctx ctx' : Ctx} (hctx : s.heap[c]? = some ctx)
    (hkey : ctx'.key = ctx.key) : (s.heap.set c ctx').map Ctx.key = s.heap.map Ctx.key := by
  obtain ⟨hlt, rfl⟩ := List.getElem?_eq_some_iff.mp hctx
  rw [List.map_set, hkey, ← List.getElem_map Ctx.key (h := by simpa using hlt),
    List.set_getElem_self]

@[simp] theorem firing_resume (caller : Caller) (c : Nat) : caller.resume.firing c = 0 := by
  cases caller <;> rfl

theorem completing_resume (caller : Caller) (c : Nat) (pc : RspPc) :
    caller.resume.completing ⊆ (Thread.doRsp caller c pc).completing := by
  cases caller <;> simp [Caller.resume, Thread.completing]

@[simp] theorem recorded_resume (caller : Caller) (log : List Event) :
    caller.resume.Recorded log := by
  cases caller <;> trivial

theorem recorded_doRsp (caller : Caller) (c : Nat) (pc pc' : RspPc) (log : List Event)
    (h : (Thread.doRsp caller c pc).Recorded log) : (Thread.doRsp caller c pc').Recorded log := by
  cases caller <;> exact h

theorem completing_doRsp (caller : Caller) (c : Nat) (pc pc' : RspPc) :
    (Thread.doRsp caller c pc).completing ⊆ (Thread.doRsp caller c pc').completing := by
  cases caller <;> exact List.Subset.refl _

/-- Every step of a thread is one of these. -/
theorem moves_of_advance (h : advance s index th = some (s', th')) : Moves s th s' th' := by
  cases th with
  | addTimer c =>
      obtain ⟨rfl, rfl⟩ := by simpa [advance] using h
      exact .quiet rfl (fun _ => rfl) (by simp [Thread.completing]) (fun _ _ => trivial) (by simp)
  | setTimer c =>
      obtain ⟨ctx, hctx, rfl, rfl⟩ := by simpa [advance, Option.bind_eq_some_iff] using h
      exact .quiet (key_set hctx rfl) (fun _ => rfl) (by simp [Thread.completing])
        (fun _ _ => trivial) (by simp)
  | onTimeOut c =>
      obtain ⟨ctx, hctx, rfl, rfl⟩ := by simpa [advance, Option.bind_eq_some_iff] using h
      exact .erase hctx
  | timed c =>
      obtain ⟨ctx, hctx, rfl, rfl⟩ := by simpa [advance, Option.bind_eq_some_iff] using h
      exact .quiet (key_set hctx rfl) (fun _ => rfl) (by simp [Thread.completing])
        (fun _ _ => rfl) (by simp)
  | deliver response c =>
      obtain ⟨ctx, hctx, rfl, rfl⟩ := by simpa [advance, Option.bind_eq_some_iff] using h
      exact .deliver (key_set hctx rfl)
  | innerClose rest =>
      cases rest with
      | nil =>
          obtain ⟨rfl, rfl⟩ := by simpa [advance] using h
          exact .quiet rfl (fun _ => rfl) (by simp [Thread.completing]) (fun _ _ => trivial)
            (by simp)
      | cons c₀ rest =>
          obtain ⟨c, hc, ctx, hctx, rfl, rfl⟩ := by
            simpa [advance, Option.bind_eq_some_iff] using h
          refine .quiet (key_set hctx rfl) (fun _ => rfl) ?_ (fun _ _ => trivial) (by simp)
          exact List.cons_subset.mpr ⟨List.mem_of_getElem? hc, List.eraseIdx_subset⟩
  | doRsp caller c pc =>
      cases pc with
      | load =>
          obtain ⟨ctx, hctx, rfl, rfl⟩ := by simpa [advance, Option.bind_eq_some_iff] using h
          exact .quiet rfl (fun _ => rfl) (completing_doRsp caller c _ _)
            (recorded_doRsp caller c _ _) (by simp)
      | compareAndSwap t =>
          simp only [advance, Option.bind_eq_bind, Option.bind_eq_some_iff] at h
          obtain ⟨ctx, hctx, h⟩ := h
          split at h
          · next heq =>
            subst heq
            split at h
            · next t fiber ht hfiber =>
              obtain ⟨rfl, rfl⟩ := by simpa using h
              exact .swap hctx (.inr ⟨t, ht, rfl⟩)
            · obtain ⟨rfl, rfl⟩ := by simpa using h
              exact .swap hctx (.inl rfl)
          · obtain ⟨rfl, rfl⟩ := by simpa using h
            exact .quiet rfl (firing_resume caller) (completing_resume caller c _)
              (by simp) (by simp)
      | cancel t =>
          simp only [advance, Option.bind_eq_bind, Option.bind_eq_some_iff] at h
          obtain ⟨ctx, hctx, h⟩ := h
          split at h
          · obtain ⟨rfl, rfl⟩ := by simpa using h
            exact .quiet (key_set hctx rfl) (fun _ => rfl) (completing_doRsp caller c _ _)
              (recorded_doRsp caller c _ _) (by simp)
          · obtain ⟨rfl, rfl⟩ := by simpa using h
            exact .quiet rfl (fun _ => rfl) (completing_doRsp caller c _ _)
              (recorded_doRsp caller c _ _) (by simp)
      | schedule t =>
          obtain ⟨ctx, hctx, rfl, rfl⟩ := by simpa [advance, Option.bind_eq_some_iff] using h
          exact .schedule (key_set hctx rfl)
  | done => simp [advance] at h

end Advance

/-! ## The invariant is kept -/

/-- What the log says about contexts is true of the heap. -/
def Event.Sound (s : State) : Event → Prop
  | .added c => c < s.heap.length
  | .removed (.doRecv response) c => s.snOf c = some response.sn
  | .removed _ c => c < s.heap.length
  | .delivered response c => s.snOf c = some response.sn
  | .scheduled _ c => c < s.heap.length

/-- The context exists and is out of the map. -/
def State.Settled (s : State) (c : Nat) : Prop := c < s.heap.length ∧ c ∉ s.registered

structure Inv (s : State) : Prop where
  /-- The key of an entry is the sequence number of its context. -/
  keyed : ∀ sn c, s._ctxs.lookup sn = some c → s.snOf c = some sn
  tokens : ∀ c, s.tokens c ≤ 1
  fresh : ∀ c, s.heap.length ≤ c → s.tokens c = 0
  completing : ∀ th ∈ s.threads, ∀ c ∈ th.completing, s.Settled c
  scheduled : ∀ c ∈ s.scheduled, s.Settled c
  recorded : ∀ th ∈ s.threads, th.Recorded s.log
  sound : ∀ e ∈ s.log, e.Sound s

section Keys

variable {s s' : State} {c : Nat}

theorem snOf_congr (h : s'.heap.map Ctx.key = s.heap.map Ctx.key) (c : Nat) :
    s'.snOf c = s.snOf c := by
  have hc := congrArg (fun keys => (keys[c]?).map Prod.fst) h
  simpa [State.snOf, Ctx.key, Function.comp_def] using hc

theorem armed_congr (h : s'.heap.map Ctx.key = s.heap.map Ctx.key) (c : Nat) :
    s'.armed c = s.armed c := by
  have hc := congrArg (fun keys => (keys[c]?).bind Prod.snd) h
  have hc' : (s'.heap[c]?).bind Ctx.scheduler = (s.heap[c]?).bind Ctx.scheduler := by
    simpa [Ctx.key, Function.comp_def, Option.bind_map] using hc
  simp only [State.armed, hc']

theorem length_congr (h : s'.heap.map Ctx.key = s.heap.map Ctx.key) :
    s'.heap.length = s.heap.length := by
  simpa using congrArg List.length h

theorem lt_of_snOf {sn : UInt32} (h : s.snOf c = some sn) : c < s.heap.length := by
  obtain ⟨ctx, hctx, -⟩ := Option.map_eq_some_iff.mp h
  exact (List.getElem?_eq_some_iff.mp hctx).1

theorem mem_registered : c ∈ s.registered ↔ ∃ sn, s._ctxs.lookup sn = some c := by
  simp only [State.registered, List.mem_map]
  constructor
  · rintro ⟨⟨sn, c⟩, hmem, rfl⟩
    exact ⟨sn, AList.mem_lookup_iff.mpr hmem⟩
  · rintro ⟨sn, hsn⟩
    exact ⟨⟨sn, c⟩, AList.mem_lookup_iff.mp hsn, rfl⟩

theorem Inv.registered_lt (h : Inv s) (hc : c ∈ s.registered) : c < s.heap.length := by
  obtain ⟨sn, hsn⟩ := mem_registered.mp hc
  exact lt_of_snOf (h.keyed sn c hsn)

theorem snOf_assign {ctx ctx' : Ctx} (hctx : s.heap[c]? = some ctx) (hsn : ctx'.sn = ctx.sn)
    (d : Nat) : (s.assign c ctx').snOf d = s.snOf d := by
  simp only [State.snOf, State.assign, List.getElem?_set]
  split
  · next heq =>
      subst heq
      obtain ⟨hlt, rfl⟩ := List.getElem?_eq_some_iff.mp hctx
      simp [hlt, hsn]
  · rfl

theorem armed_eq {ctx : Ctx} (hctx : s.heap[c]? = some ctx) :
    s.armed c = if ctx.scheduler.isSome then 1 else 0 := by
  simp [State.armed, hctx]

theorem armed_assign {ctx ctx' : Ctx} (hctx : s.heap[c]? = some ctx) (d : Nat) :
    (s.assign c ctx').armed d =
      if c = d then (if ctx'.scheduler.isSome then 1 else 0) else s.armed d := by
  obtain ⟨hlt, -⟩ := List.getElem?_eq_some_iff.mp hctx
  by_cases heq : c = d
  · subst heq
    simp [State.armed, State.assign, hlt]
  · simp [State.armed, State.assign, heq]

/-- Entries about the map are not entries about fibers. -/
theorem scheduled_removed (cause : Cause) (cs : List Nat) (log : List Event) :
    (cs.map (fun c => Event.removed cause c) ++ log).filterMap Event.scheduledCtx =
      log.filterMap Event.scheduledCtx := by
  have hnone : (cs.map fun c => Event.removed cause c).filterMap Event.scheduledCtx = [] := by
    simp [List.filterMap_map, Function.comp_def, Event.scheduledCtx]
  rw [List.filterMap_append, hnone, List.nil_append]

@[simp] theorem scheduled_erase (cause : Cause) (sn : UInt32) :
    (s.erase cause sn).scheduled = s.scheduled :=
  scheduled_removed _ _ _

/-- Erasing a key leaves the other entries. -/
theorem lookup_erase_eq_some {map : AList fun _ : UInt32 => Nat} {sn sn' : UInt32} :
    (map.erase sn').lookup sn = some c ↔ sn ≠ sn' ∧ map.lookup sn = some c := by
  by_cases heq : sn = sn'
  · subst heq
    simp
  · simp [heq, AList.lookup_erase_ne heq]

end Keys

section Kept

variable {s s' : State} {th th' : Thread} {c : Nat} {e : Event}

theorem Event.Sound.mono (h : e.Sound s) (hlength : s.heap.length ≤ s'.heap.length)
    (hsn : ∀ c sn, s.snOf c = some sn → s'.snOf c = some sn) : e.Sound s' := by
  cases e with
  | added c => exact Nat.lt_of_lt_of_le h hlength
  | removed cause c =>
      cases cause with
      | doRecv response => exact hsn c _ h
      | onTimeOut _ => exact Nat.lt_of_lt_of_le h hlength
      | innerClose => exact Nat.lt_of_lt_of_le h hlength
  | delivered response c => exact hsn c _ h
  | scheduled cause c => exact Nat.lt_of_lt_of_le h hlength

theorem State.Settled.mono (h : s.Settled c) (hlength : s.heap.length ≤ s'.heap.length)
    (hregistered : ∀ c ∈ s'.registered, c ∈ s.registered ∨ s.heap.length ≤ c) : s'.Settled c := by
  refine ⟨Nat.lt_of_lt_of_le h.1 hlength, fun hc => ?_⟩
  rcases hregistered c hc with hold | hnew
  · exact h.2 hold
  · exact absurd h.1 (Nat.not_lt.mpr hnew)

theorem Thread.Recorded.mono {log : List Event} (h : th.Recorded log) (new : List Event) :
    th.Recorded (new ++ log) := by
  cases th with
  | deliver response c => exact List.mem_append_right new h
  | doRsp caller c pc =>
      cases caller with
      | doRecv response => exact List.mem_append_right new h
      | onTimeOut c' => exact h
      | innerClose rest => trivial
  | _ => trivial

/-- The sequence numbers, the threads and the log across a step of a thread. -/
theorem Moves.frame (h : Moves s th s' th') :
    s'.threads = s.threads ∧ s'.heap.length = s.heap.length ∧ (∀ c, s'.snOf c = s.snOf c) ∧
      (∀ c ∈ s'.registered, c ∈ s.registered) ∧ ∃ new, s'.log = new ++ s.log := by
  cases h with
  | quiet hheap =>
      exact ⟨rfl, length_congr hheap, snOf_congr hheap, fun _ hc => hc, [], rfl⟩
  | erase hctx =>
      refine ⟨rfl, rfl, fun _ => rfl, fun c hc => ?_, _, rfl⟩
      obtain ⟨sn, hsn⟩ := mem_registered.mp hc
      exact mem_registered.mpr ⟨sn, (lookup_erase_eq_some.mp hsn).2⟩
  | deliver hheap =>
      exact ⟨rfl, length_congr hheap, snOf_congr hheap, fun _ hc => hc, [_], rfl⟩
  | swap hctx =>
      exact ⟨rfl, by simp [State.assign], snOf_assign hctx rfl, fun _ hc => hc, [], rfl⟩
  | schedule hheap =>
      exact ⟨rfl, length_congr hheap, snOf_congr hheap, fun _ hc => hc, [_], rfl⟩

/-- A step of a thread creates no right to schedule: `swap` takes the one of `scheduler`, and
`schedule` uses it up. -/
theorem Moves.tokens (h : Moves s th s' th') (c : Nat) :
    s'.armed c + th'.firing c + s'.scheduled.count c ≤
      s.armed c + th.firing c + s.scheduled.count c := by
  cases h with
  | quiet hheap hfiring =>
      rw [armed_congr hheap c, hfiring c]
      exact Nat.le_refl _
  | erase hctx =>
      rw [scheduled_erase]
      exact Nat.le_refl _
  | deliver hheap =>
      rw [armed_congr hheap c]
      exact Nat.le_refl _
  | @swap caller d ctx _ hctx hth' =>
      rw [armed_assign hctx c]
      show _ + s.scheduled.count c ≤ _ + s.scheduled.count c
      by_cases heq : d = c
      · subst heq
        -- The right moves from `scheduler` to the program point, or is dropped.
        rcases hth' with rfl | ⟨t, ht, rfl⟩
        · simp
        · simp [armed_eq hctx, ht, Thread.firing]
      · rcases hth' with rfl | ⟨t, ht, rfl⟩
        · simp [heq]
        · simp [heq, Thread.firing]
  | @schedule caller d t heap hheap =>
      rw [armed_congr hheap c, firing_resume]
      show _ + (d :: s.scheduled).count c ≤ _
      rw [List.count_cons]
      by_cases heq : d = c
      · simp [heq, Thread.firing]
        omega
      · simp [heq, Thread.firing]

theorem Moves.keyed (h : Moves s th s' th')
    (hkeyed : ∀ sn c, s._ctxs.lookup sn = some c → s.snOf c = some sn) :
    ∀ sn c, s'._ctxs.lookup sn = some c → s'.snOf c = some sn := by
  intro sn c hlookup
  rw [h.frame.2.2.1 c]
  refine hkeyed sn c ?_
  cases h with
  | erase hctx => exact (lookup_erase_eq_some.mp hlookup).2
  | _ => exact hlookup

/-- What a thread completes after the step has left the map: `erase` puts the context of the timer
there, the other steps add nothing. -/
theorem Moves.completing (h : Moves s th s' th') (hinv : Inv s) (hth : th ∈ s.threads) :
    ∀ c ∈ th'.completing, s'.Settled c := by
  have hframe := h.frame
  have hkept : ∀ c ∈ th.completing, s'.Settled c := fun c hc =>
    (hinv.completing th hth c hc).mono hframe.2.1.ge fun d hd => .inl (hframe.2.2.2.1 d hd)
  cases h with
  | quiet _ _ hcompleting => exact fun c hc => hkept c (hcompleting hc)
  | @erase d ctx hctx =>
      intro c hc
      obtain rfl : c = d := by simpa [Thread.completing] using hc
      -- The map knows a context under its own number only, and that one was erased.
      refine ⟨(List.getElem?_eq_some_iff.mp hctx).1, fun hmem => ?_⟩
      obtain ⟨sn, hsn⟩ := mem_registered.mp hmem
      obtain ⟨hne, hold⟩ := lookup_erase_eq_some.mp hsn
      have hkey := hinv.keyed sn c hold
      rw [State.snOf, hctx, Option.map_some, Option.some.injEq] at hkey
      exact hne hkey.symm
  | deliver hheap => exact hkept
  | @swap caller d _ _ _ hth' =>
      rcases hth' with rfl | ⟨t, ht, rfl⟩
      · exact fun c hc => hkept c (completing_resume caller d _ hc)
      · exact fun c hc => hkept c (completing_doRsp caller d _ _ hc)
  | @schedule caller d => exact fun c hc => hkept c (completing_resume caller d _ hc)

theorem mem_completing_doRsp (caller : Caller) (c : Nat) (pc : RspPc) :
    c ∈ (Thread.doRsp caller c pc).completing := by
  cases caller <;> simp [Thread.completing]

theorem Moves.scheduled (h : Moves s th s' th') :
    ∀ c ∈ s'.scheduled, c ∈ s.scheduled ∨ c ∈ th.completing := by
  intro c hc
  cases h with
  | erase hctx =>
      rw [scheduled_erase] at hc
      exact .inl hc
  | @schedule caller d =>
      rcases List.mem_cons.mp hc with rfl | hc
      · exact .inr (mem_completing_doRsp caller c _)
      · exact .inl hc
  | _ => exact .inl hc

theorem Moves.recorded (h : Moves s th s' th') (hth : th.Recorded s.log) : th'.Recorded s'.log := by
  cases h with
  | quiet _ _ _ hrecorded => exact hrecorded _ hth
  | erase hctx => trivial
  | deliver hheap => exact List.mem_cons_of_mem _ hth
  | @swap caller d _ _ _ hth' =>
      rcases hth' with rfl | ⟨t, ht, rfl⟩
      · exact recorded_resume caller _
      · exact recorded_doRsp caller d _ _ _ hth
  | @schedule caller => exact recorded_resume caller _

theorem Moves.sound (h : Moves s th s' th') (hinv : Inv s) (hth : th ∈ s.threads) :
    ∀ e ∈ s'.log, e.Sound s' := by
  have hframe := h.frame
  have hkept : ∀ e : Event, e.Sound s → e.Sound s' := fun e he =>
    he.mono hframe.2.1.ge fun c sn hsn => (hframe.2.2.1 c).trans hsn
  intro e he
  cases h with
  | quiet => exact hkept e (hinv.sound e he)
  | swap => exact hkept e (hinv.sound e he)
  | erase hctx =>
      rcases List.mem_append.mp he with hnew | hold
      · obtain ⟨c, hc, rfl⟩ := List.mem_map.mp hnew
        have hlookup := Option.mem_toList.mp hc
        exact lt_of_snOf (hinv.keyed _ c hlookup)
      · exact hkept e (hinv.sound e hold)
  | deliver hheap =>
      rcases List.mem_cons.mp he with rfl | hold
      · exact hkept (.removed (.doRecv _) _) (hinv.sound _ (hinv.recorded _ hth))
      · exact hkept e (hinv.sound e hold)
  | @schedule caller d =>
      rcases List.mem_cons.mp he with rfl | hold
      · have hd := hinv.completing _ hth d (mem_completing_doRsp caller d _)
        exact Nat.lt_of_lt_of_le hd.1 hframe.2.1.ge
      · exact hkept e (hinv.sound e hold)

/-- Removing entries from the map and starting a thread that completes them. -/
theorem Inv.spawn (hinv : Inv s) (cause : Cause) (cs : List Nat) (th : Thread)
    {timers : List Nat} {map : AList fun _ : UInt32 => Nat}
    (hmap : ∀ sn c, map.lookup sn = some c → s._ctxs.lookup sn = some c)
    (hfiring : ∀ c, th.firing c = 0)
    (hcompleting : ∀ c ∈ th.completing, c ∈ cs ∧ ∀ sn, map.lookup sn ≠ some c)
    (hrecorded : th.Recorded (cs.map (fun c => .removed cause c) ++ s.log))
    (hsound : ∀ c ∈ cs, (Event.removed cause c).Sound s) :
    Inv { s with
      _ctxs := map
      timers := timers
      threads := s.threads ++ [th]
      log := cs.map (fun c => .removed cause c) ++ s.log } := by
  set s' : State := { s with
    _ctxs := map
    timers := timers
    threads := s.threads ++ [th]
    log := cs.map (fun c => .removed cause c) ++ s.log }
  have hregistered : ∀ c ∈ s'.registered, c ∈ s.registered := by
    intro c hc
    obtain ⟨sn, hsn⟩ := mem_registered.mp hc
    exact mem_registered.mpr ⟨sn, hmap sn c hsn⟩
  have hsettled : ∀ c, s.Settled c → s'.Settled c := fun c hc =>
    hc.mono (Nat.le_refl _) fun d hd => .inl (hregistered d hd)
  have hscheduled : s'.scheduled = s.scheduled := scheduled_removed _ _ _
  have htokens : ∀ c, s'.tokens c = s.tokens c := by
    intro c
    show s.armed c + total _ (s.threads ++ [th]) + s'.scheduled.count c = _
    rw [hscheduled, total_append, total_cons, total_nil, hfiring c]
    rfl
  have hlt : ∀ c ∈ cs, c < s.heap.length := by
    intro c hc
    have hsnd := hsound c hc
    cases cause with
    | doRecv response => exact lt_of_snOf hsnd
    | onTimeOut _ => exact hsnd
    | innerClose => exact hsnd
  exact {
    keyed := fun sn c h => hinv.keyed sn c (hmap sn c h)
    tokens := fun c => (htokens c).trans_le (hinv.tokens c)
    fresh := fun c hc => (htokens c).trans (hinv.fresh c hc)
    completing := by
      intro th₁ hth₁ c hc
      rcases List.mem_append.mp hth₁ with hold | hnew
      · exact hsettled c (hinv.completing th₁ hold c hc)
      · obtain rfl := List.mem_singleton.mp hnew
        obtain ⟨hmem, hout⟩ := hcompleting c hc
        refine ⟨hlt c hmem, fun hreg => ?_⟩
        obtain ⟨sn, hsn⟩ := mem_registered.mp hreg
        exact hout sn hsn
    scheduled := fun c hc => hsettled c (hinv.scheduled c (hscheduled ▸ hc))
    recorded := by
      intro th₁ hth₁
      rcases List.mem_append.mp hth₁ with hold | hnew
      · exact (hinv.recorded th₁ hold).mono _
      · obtain rfl := List.mem_singleton.mp hnew
        exact hrecorded
    sound := by
      intro e he
      rcases List.mem_append.mp he with hnew | hold
      · obtain ⟨c, hc, rfl⟩ := List.mem_map.mp hnew
        exact (hsound c hc).mono (Nat.le_refl _) fun _ _ h => h
      · exact (hinv.sound e hold).mono (Nat.le_refl _) fun _ _ h => h }

/-- A step of a thread keeps the invariant. -/
theorem Inv.run (hinv : Inv s) {i : Nat} (hi : s.threads[i]? = some th) (h : Moves s th s' th') :
    Inv { s' with threads := s'.threads.set i th' } := by
  have hmem := List.mem_of_getElem? hi
  obtain ⟨hthreads, hlength, hsn, hregistered, new, hlog⟩ := h.frame
  have hsettled : ∀ c, s.Settled c → s'.Settled c := fun c hc =>
    hc.mono hlength.ge fun d hd => .inl (hregistered d hd)
  have htokens : ∀ c, State.tokens { s' with threads := s'.threads.set i th' } c ≤ s.tokens c := by
    intro c
    have hset := total_set (f := Thread.firing c) (b := th') hi
    have hmove := h.tokens c
    show s'.armed c + total _ (s'.threads.set i th') + s'.scheduled.count c ≤ _
    rw [hthreads, State.tokens]
    omega
  exact {
    keyed := h.keyed hinv.keyed
    tokens := fun c => (htokens c).trans (hinv.tokens c)
    fresh := by
      intro c hc
      have hzero := hinv.fresh c (hlength ▸ hc)
      have := htokens c
      omega
    completing := by
      intro th₁ hth₁ c hc
      rcases List.mem_or_eq_of_mem_set hth₁ with hold | rfl
      · exact hsettled c (hinv.completing th₁ (hthreads ▸ hold) c hc)
      · exact h.completing hinv hmem c hc
    scheduled := by
      intro c hc
      rcases h.scheduled c hc with hold | hnew
      · exact hsettled c (hinv.scheduled c hold)
      · exact hsettled c (hinv.completing th hmem c hnew)
    recorded := by
      intro th₁ hth₁
      rcases List.mem_or_eq_of_mem_set hth₁ with hold | rfl
      · show th₁.Recorded s'.log
        rw [hlog]
        exact (hinv.recorded th₁ (hthreads ▸ hold)).mono _
      · exact h.recorded (hinv.recorded th hmem)
    sound := h.sound hinv hmem }

/-- A context is registered under its own sequence number, if at all. -/
theorem lookup_addCtx {fresh c : Nat} {sn sn' : UInt32}
    (h : (s.addCtx fresh sn)._ctxs.lookup sn' = some c) :
    s._ctxs.lookup sn' = some c ∨ (sn' = sn ∧ c = fresh) := by
  have hmap : (s.addCtx fresh sn)._ctxs =
      if sn ∈ s._ctxs then s._ctxs else s._ctxs.insert sn fresh := rfl
  rw [hmap] at h
  split at h
  · exact .inl h
  · by_cases heq : sn' = sn
    · subst heq
      rw [AList.lookup_insert, Option.some.injEq] at h
      exact .inr ⟨rfl, h.symm⟩
    · rw [AList.lookup_insert_ne heq] at h
      exact .inl h

/-- `request` creates a context and registers it, or finds its sequence number taken. -/
theorem Inv.request (hinv : Inv s) {sn : UInt32} {scheduler fiber : Nat}
    (h : step s (.request sn scheduler fiber) = some s') : Inv s' := by
  obtain rfl := Option.some.inj h
  set fresh := s.heap.length
  set ctx : Ctx := ⟨sn, 0, false, some scheduler, some fiber, false, none⟩
  set s' : State := { s.addCtx fresh sn with
    heap := s.heap ++ [ctx]
    threads := s.threads ++ [.addTimer fresh] }
  have hold : ∀ c < fresh, s'.heap[c]? = s.heap[c]? := fun c hc => List.getElem?_append_left hc
  have hnew : s'.heap[fresh]? = some ctx := by simp [s', fresh]
  have hlength : s.heap.length ≤ s'.heap.length := by simp [s']
  have hsn : ∀ c sn, s.snOf c = some sn → s'.snOf c = some sn := by
    intro c sn hc
    rw [State.snOf, hold c (lt_of_snOf hc)]
    exact hc
  have hlookup : ∀ sn' c, s'._ctxs.lookup sn' = some c →
      s._ctxs.lookup sn' = some c ∨ (sn' = sn ∧ c = fresh) :=
    fun _ _ hc => lookup_addCtx hc
  have hsettled : ∀ c, s.Settled c → s'.Settled c := by
    refine fun c hc => hc.mono hlength fun d hd => ?_
    obtain ⟨sn', hd⟩ := mem_registered.mp hd
    rcases hlookup sn' d hd with hd | ⟨-, rfl⟩
    · exact .inl (mem_registered.mpr ⟨sn', hd⟩)
    · exact .inr (Nat.le_refl _)
  have hthreads : ∀ c, total (Thread.firing c) s'.threads = total (Thread.firing c) s.threads := by
    intro c
    show total _ (s.threads ++ [.addTimer fresh]) = _
    rw [total_append]
    rfl
  -- The other contexts are as they were.
  have harmed : ∀ c ≠ fresh, s'.armed c ≤ s.armed c := by
    intro c hc
    by_cases hlt : c < fresh
    · rw [State.armed, hold c hlt]
      exact Nat.le_refl _
    · have hnone : s'.heap[c]? = none := by
        simp only [List.getElem?_eq_none_iff, s', List.length_append, List.length_singleton]
        omega
      simp [State.armed, hnone]
  have htokens : ∀ c ≠ fresh, s'.tokens c ≤ s.tokens c := by
    intro c hc
    have := harmed c hc
    show s'.armed c + total _ s'.threads + s.scheduled.count c ≤ _
    rw [hthreads, State.tokens]
    omega
  exact {
    keyed := by
      intro sn' c hc
      rcases hlookup sn' c hc with hc | ⟨rfl, rfl⟩
      · exact hsn c sn' (hinv.keyed sn' c hc)
      · simp [State.snOf, hnew, ctx]
    tokens := by
      intro c
      by_cases heq : c = fresh
      · -- Nothing knew the fresh context, so its only token is its own scheduler.
        have hzero := hinv.fresh c (Nat.le_of_eq heq.symm)
        rw [State.tokens] at hzero
        show s'.armed c + total _ s'.threads + s.scheduled.count c ≤ 1
        rw [hthreads, heq, armed_eq hnew, ← heq]
        simp only [ctx, Option.isSome_some, if_true]
        omega
      · exact (htokens c heq).trans (hinv.tokens c)
    fresh := by
      intro c hc
      have hgt : fresh + 1 ≤ c := by simpa [s', fresh] using hc
      have hzero := hinv.fresh c (by omega)
      have := htokens c (by omega)
      omega
    completing := by
      intro th hth c hc
      rcases List.mem_append.mp hth with hth | hth
      · exact hsettled c (hinv.completing th hth c hc)
      · rw [List.mem_singleton.mp hth] at hc
        simp [Thread.completing] at hc
    scheduled := fun c hc => hsettled c (hinv.scheduled c hc)
    recorded := by
      intro th hth
      rcases List.mem_append.mp hth with hth | hth
      · exact (hinv.recorded th hth).mono [_]
      · rw [List.mem_singleton.mp hth]
        trivial
    sound := by
      intro e he
      rcases List.mem_cons.mp he with rfl | he
      · show fresh < s'.heap.length
        simp [s', fresh]
      · exact (hinv.sound e he).mono hlength hsn }

end Kept

/-! ## Steps of the system -/

section Step

variable {s s' : State} {a : Action}

theorem inv_init : Inv init where
  keyed := by simp [init]
  tokens c := by simp [State.tokens, State.armed, State.scheduled, init]
  fresh c _ := by simp [State.tokens, State.armed, State.scheduled, init]
  completing := by simp [init]
  scheduled := by simp [State.scheduled, init]
  recorded := by simp [init]
  sound := by simp [init]

/-- What `getAndDelCtx` does for a response. -/
theorem step_getAndDelCtx {response : Response}
    (h : step s (.getAndDelCtx response) = some s') :
    (s._ctxs.lookup response.sn = none ∧ s' = s) ∨
      ∃ c, s._ctxs.lookup response.sn = some c ∧
        s' = { s with
          _ctxs := s._ctxs.erase response.sn
          threads := s.threads ++ [.deliver response c]
          log := .removed (.doRecv response) c :: s.log } := by
  simp only [step] at h
  split at h
  · split at h
    · next c hc =>
      right
      refine ⟨c, hc, ?_⟩
      obtain rfl := Option.some.inj h
      simp [State.erase, hc]
    · next hnone => exact .inl ⟨hnone, (Option.some.inj h).symm⟩
  · cases h

theorem step_run {i index : Nat} (h : step s (.run i index) = some s') :
    ∃ th s₁ th', s.threads[i]? = some th ∧ advance s index th = some (s₁, th') ∧
      s' = { s₁ with threads := s₁.threads.set i th' } := by
  simp only [step, Option.bind_eq_bind, Option.bind_eq_some_iff, Option.pure_def,
    Option.some.injEq, Prod.exists] at h
  obtain ⟨th, hth, s₁, th', hadv, rfl⟩ := h
  exact ⟨th, s₁, th', hth, hadv, rfl⟩

theorem step_listExpiredCb {c : Nat} (h : step s (.listExpiredCb c) = some s') :
    c ∈ s.timers ∧
      s' = { s with timers := s.timers.erase c, threads := s.threads ++ [.onTimeOut c] } := by
  simp only [step] at h
  split at h
  · next hmem => exact ⟨hmem, (Option.some.inj h).symm⟩
  · cases h

/-- Every step keeps the invariant. -/
theorem inv_step (hinv : Inv s) (h : step s a = some s') : Inv s' := by
  cases a with
  | request sn scheduler fiber => exact hinv.request h
  | getAndDelCtx response =>
      rcases step_getAndDelCtx h with ⟨-, rfl⟩ | ⟨c, hc, rfl⟩
      · exact hinv
      · have hkey := hinv.keyed _ c hc
        refine hinv.spawn (.doRecv response) [c] (.deliver response c)
          (fun sn d hd => (lookup_erase_eq_some.mp hd).2) (fun _ => rfl) ?_ ?_ ?_
        · intro d hd
          obtain rfl := List.mem_singleton.mp hd
          refine ⟨hd, fun sn hsn => ?_⟩
          -- The only key of the context is the one that was erased.
          obtain ⟨hne, hold⟩ := lookup_erase_eq_some.mp hsn
          exact hne (Option.some.inj ((hinv.keyed sn d hold).symm.trans hkey))
        · exact List.mem_cons_self
        · intro d hd
          obtain rfl := List.mem_singleton.mp hd
          exact hkey
  | listExpiredCb c =>
      obtain ⟨-, rfl⟩ := step_listExpiredCb h
      exact hinv.spawn .innerClose [] (.onTimeOut c) (fun _ _ hd => hd) (fun _ => rfl)
        (by simp [Thread.completing]) trivial (by simp)
  | innerClose =>
      obtain rfl := Option.some.inj h
      exact hinv.spawn .innerClose s.registered (.innerClose s.registered) (by simp) (fun _ => rfl)
        (fun c hc => ⟨hc, by simp⟩) trivial (fun c hc => hinv.registered_lt hc)
  | run i index =>
      obtain ⟨th, s₁, th', hth, hadv, rfl⟩ := step_run h
      exact hinv.run hth (moves_of_advance hadv)

end Step

end Completion
end Routn
