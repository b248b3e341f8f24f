import Routn.Streams.CompletionInvariant

/-!
# Which runs complete requests safely

Every path erases from `_ctxs` by sequence number alone.  The map is therefore only as good as the
sequence numbers: a timeout callback that was taken out of the timer queue before its request was
answered still erases, and whatever is registered under the number by then goes.

* `FindsOwn` is the condition on a step: a timeout callback, or a response to a request, finds under
  its sequence number no context or its own.
* `FreeSn` is the condition on a registration: `emplace` finds the sequence number free.

A run is safe exactly if all its steps meet the conditions.
-/

namespace Routn
namespace Completion

open Foundation

/-- The event was caused on behalf of the context it happened to. -/
def Event.Own : Event → Prop
  | .added _ => True
  | .removed cause c => cause.Own c
  | .delivered response c => (Cause.doRecv response).Own c
  | .scheduled cause c => cause.Own c

/-- What a timeout callback and a response find under their sequence number. -/
def FindsOwn (s : State) : Action → Prop
  | .getAndDelCtx response =>
      ∀ target ∈ s._ctxs.lookup response.sn, (Cause.doRecv response).Own target
  | .run i _ =>
      match s.threads[i]? with
      | some (.onTimeOut c) =>
          ∀ sn ∈ s.snOf c, ∀ target ∈ s._ctxs.lookup sn, (Cause.onTimeOut c).Own target
      | _ => True
  | _ => True

/-- A request is registered under a sequence number that is not in the map. -/
def FreeSn (s : State) : Action → Prop
  | .request sn _ _ => sn ∉ s._ctxs
  | _ => True

/-- A request is registered under a sequence number that no earlier request has used. -/
def FreshSn (s : State) : Action → Prop
  | .request sn _ _ => ∀ c, s.snOf c ≠ some sn
  | _ => True

/-- A request is registered under a sequence number that no request waits with. -/
def NotOutstanding (s : State) : Action → Prop
  | .request sn _ _ => ∀ c ∈ List.range s.heap.length, s.snOf c = some sn → c ∈ s.scheduled
  | _ => True

/-- Every event was caused on behalf of its context. -/
def OwnEvents (s : State) : Prop := ∀ e ∈ s.log, e.Own

/-- A context that was accepted is registered, or was taken out. -/
def Accepted (s : State) : Prop :=
  ∀ c, .added c ∈ s.log → c ∈ s.registered ∨ ∃ cause, .removed cause c ∈ s.log

instance : ∀ e : Event, Decidable e.Own
  | .added _ => inferInstanceAs (Decidable True)
  | .removed cause c => inferInstanceAs (Decidable (cause.Own c))
  | .delivered response c => inferInstanceAs (Decidable ((Cause.doRecv response).Own c))
  | .scheduled cause c => inferInstanceAs (Decidable (cause.Own c))

instance (s : State) : Decidable (OwnEvents s) :=
  inferInstanceAs (Decidable (∀ e ∈ s.log, e.Own))

instance (s : State) : ∀ a, Decidable (NotOutstanding s a)
  | .request sn _ _ =>
      inferInstanceAs
        (Decidable (∀ c ∈ List.range s.heap.length, s.snOf c = some sn → c ∈ s.scheduled))
  | .getAndDelCtx _ => inferInstanceAs (Decidable True)
  | .listExpiredCb _ => inferInstanceAs (Decidable True)
  | .innerClose => inferInstanceAs (Decidable True)
  | .run _ _ => inferInstanceAs (Decidable True)

section Log

variable {s s' : State} {a : Action} {c : Nat}

/-- The log only grows. -/
theorem step_log (h : step s a = some s') : ∃ new, s'.log = new ++ s.log := by
  cases a with
  | request sn scheduler fiber =>
      obtain rfl := Option.some.inj h
      exact ⟨[_], rfl⟩
  | getAndDelCtx response =>
      rcases step_getAndDelCtx h with ⟨-, rfl⟩ | ⟨c, hc, rfl⟩
      · exact ⟨[], rfl⟩
      · exact ⟨[_], rfl⟩
  | listExpiredCb c =>
      obtain ⟨-, rfl⟩ := step_listExpiredCb h
      exact ⟨[], rfl⟩
  | innerClose =>
      obtain rfl := Option.some.inj h
      exact ⟨_, rfl⟩
  | run i index =>
      obtain ⟨th, s₁, th', hth, hadv, rfl⟩ := step_run h
      exact (moves_of_advance hadv).frame.2.2.2.2

theorem ownEvents_lost (h : step s a = some s') (hown : OwnEvents s') : OwnEvents s := by
  obtain ⟨new, hlog⟩ := step_log h
  intro e he
  refine hown e ?_
  rw [hlog]
  exact List.mem_append_right new he

theorem ownEvents_cons {e : Event} (hown : OwnEvents s) (hlog : s'.log = e :: s.log) :
    OwnEvents s' ↔ e.Own := by
  rw [OwnEvents, hlog, List.forall_mem_cons]
  exact and_iff_left hown

theorem recorded_own {caller : Caller} {pc : RspPc} (hown : OwnEvents s)
    (h : (Thread.doRsp caller c pc).Recorded s.log) : caller.cause.Own c := by
  cases caller with
  | onTimeOut c' => exact h
  | doRecv response => exact hown _ h
  | innerClose rest => trivial

/-- **Events stay own exactly across steps that find their own.** -/
theorem ownEvents_step (hinv : Inv s) (hown : OwnEvents s) (h : step s a = some s') :
    OwnEvents s' ↔ FindsOwn s a := by
  cases a with
  | request sn scheduler fiber =>
      obtain rfl := Option.some.inj h
      exact ownEvents_cons (e := .added s.heap.length) hown rfl
  | getAndDelCtx response =>
      rcases step_getAndDelCtx h with ⟨hnone, rfl⟩ | ⟨c, hc, rfl⟩
      · simp [FindsOwn, hnone, hown]
      · rw [ownEvents_cons hown rfl]
        simp [FindsOwn, hc, Event.Own]
  | listExpiredCb c =>
      obtain ⟨-, rfl⟩ := step_listExpiredCb h
      exact iff_of_true hown trivial
  | innerClose =>
      obtain rfl := Option.some.inj h
      refine iff_of_true (fun e he => ?_) trivial
      rcases List.mem_append.mp he with hnew | hold
      · obtain ⟨c, -, rfl⟩ := List.mem_map.mp hnew
        trivial
      · exact hown e hold
  | run i index =>
      obtain ⟨th, s₁, th', hth, hadv, rfl⟩ := step_run h
      have hrecorded := hinv.recorded th (List.mem_of_getElem? hth)
      cases moves_of_advance hadv with
      | quiet _ _ _ _ hne =>
          refine iff_of_true hown ?_
          simp only [FindsOwn, hth]
          split
          · next c heq => exact absurd (Option.some.inj heq) (hne c)
          · trivial
      -- The timer erases by number, so it may find the context of another request.
      | @erase c ctx hctx =>
          have hsn : s.snOf c = some ctx.sn := by rw [State.snOf, hctx, Option.map_some]
          simp only [FindsOwn, hth, hsn, Option.mem_some_iff, forall_eq']
          cases hlookup : s._ctxs.lookup ctx.sn with
          | none => simpa [OwnEvents, State.erase, hlookup] using hown
          | some target =>
              rw [ownEvents_cons (e := .removed (.onTimeOut c) target) hown
                (by simp [State.erase, hlookup])]
              simp [Event.Own]
      | @deliver response c =>
          rw [ownEvents_cons hown rfl]
          simp only [FindsOwn, hth, iff_true]
          exact hown (.removed (.doRecv response) c) hrecorded
      | swap => exact iff_of_true hown (by simp [FindsOwn, hth])
      | @schedule caller c =>
          rw [ownEvents_cons hown rfl]
          simp only [FindsOwn, hth, iff_true]
          exact recorded_own hown hrecorded

end Log

/-! ## Completion -/

/-- What the completion of requests promises. -/
structure Safe (s : State) : Prop where
  /-- A fiber is scheduled at most once. -/
  once : s.scheduled.Nodup
  /-- A response reaches the context with its sequence number. -/
  sameSn : ∀ response c, .delivered response c ∈ s.log → s.snOf c = some response.sn
  /-- A context whose fiber was scheduled is no longer registered. -/
  gone : ∀ c ∈ s.scheduled, c ∉ s.registered
  /-- Timeouts and responses remove, fill and schedule their own context. -/
  own : OwnEvents s

theorem Inv.nodup_scheduled {s : State} (h : Inv s) : s.scheduled.Nodup := by
  refine List.nodup_iff_count_le_one.mpr fun c => ?_
  have := h.tokens c
  rw [State.tokens] at this
  omega

theorem Inv.safe_iff {s : State} (h : Inv s) : Safe s ↔ OwnEvents s := by
  constructor
  · exact Safe.own
  · intro hown
    exact ⟨h.nodup_scheduled, fun response c hc => h.sound _ hc, fun c hc => (h.scheduled c hc).2,
      hown⟩

theorem inv_of_run {as : List Action} {s : State} (hrun : runActions step as init = some s) :
    Inv s :=
  invariant_of_runActions inv_step as inv_init hrun

theorem ownEvents_iff {as : List Action} {s : State} (hrun : runActions step as init = some s) :
    OwnEvents s ↔ runMeets step FindsOwn as init :=
  runMeets_iff inv_step (fun _ => ownEvents_lost) ownEvents_step as inv_init
    (by simp [OwnEvents, init]) hrun

/-- **A run completes its requests safely exactly if every timeout callback and every response finds
its own context or none.** -/
theorem safe_iff_meets {as : List Action} {s : State} (hrun : runActions step as init = some s) :
    Safe s ↔ runMeets step FindsOwn as init := by
  rw [(inv_of_run hrun).safe_iff, ownEvents_iff hrun]

/-- A request under the sequence number `7`: its timer is armed, the response arrives, and the fiber
is scheduled. -/
def answeredRun : List Action :=
  [.request 7 0 0, .run 0 0, .run 0 0, .getAndDelCtx ⟨7, 0, some 0⟩,
    .run 1 0, .run 1 0, .run 1 0, .run 1 0, .run 1 0]

theorem safe_answeredRun : ∃ s, runActions step answeredRun init = some s ∧
    (Safe s ↔ runMeets step FindsOwn answeredRun init) :=
  ⟨_, rfl, safe_iff_meets rfl⟩

/-- The timer of a request expires, and its callback waits to be run.  Meanwhile the response
completes the request, and the next request takes the same sequence number: the callback erases
it. -/
def staleTimeout : List Action :=
  [.request 0 0 0, .run 0 0, .run 0 0, .listExpiredCb 0, .getAndDelCtx ⟨0, 0, some 0⟩,
    .run 2 0, .run 2 0, .run 2 0, .run 2 0, .run 2 0, .request 0 0 0, .run 1 0]

theorem not_safe_staleTimeout :
    ¬ ∀ as s, runActions step as init = some s → runMeets step NotOutstanding as init → Safe s := by
  intro h
  exact absurd (h staleTimeout _ rfl (by decide)).own (by decide)

/-! ## Isolation -/

section Registered

variable {s s' : State} {a : Action} {c : Nat}

/-- Only a fresh context enters the map. -/
theorem step_registered (h : step s a = some s') (hc : c ∈ s'.registered) :
    c ∈ s.registered ∨ c = s.heap.length := by
  cases a with
  | request sn scheduler fiber =>
      obtain rfl := Option.some.inj h
      obtain ⟨sn', hsn'⟩ := mem_registered.mp hc
      rw [mem_registered]
      change (if sn ∈ s._ctxs then s._ctxs else s._ctxs.insert sn _).lookup sn' = some c at hsn'
      split at hsn'
      · exact .inl ⟨sn', hsn'⟩
      · -- `insert` under a free number adds the fresh context and nothing else.
        by_cases heq : sn' = sn
        · subst heq
          rw [AList.lookup_insert, Option.some.injEq] at hsn'
          exact .inr hsn'.symm
        · rw [AList.lookup_insert_ne heq] at hsn'
          exact .inl ⟨sn', hsn'⟩
  | getAndDelCtx response =>
      left
      rcases step_getAndDelCtx h with ⟨-, rfl⟩ | ⟨d, -, rfl⟩
      · exact hc
      · obtain ⟨sn, hsn⟩ := mem_registered.mp hc
        exact mem_registered.mpr ⟨sn, (lookup_erase_eq_some.mp hsn).2⟩
  | listExpiredCb d =>
      obtain ⟨-, rfl⟩ := step_listExpiredCb h
      exact .inl hc
  | innerClose =>
      obtain rfl := Option.some.inj h
      obtain ⟨sn, hsn⟩ := mem_registered.mp hc
      simp at hsn
  | run i index =>
      obtain ⟨th, s₁, th', hth, hadv, rfl⟩ := step_run h
      exact .inl ((moves_of_advance hadv).frame.2.2.2.1 c hc)

/-- A context that a step takes out was registered. -/
theorem step_removed {cause : Cause} (h : step s a = some s') (hc : .removed cause c ∈ s'.log) :
    .removed cause c ∈ s.log ∨ c ∈ s.registered := by
  cases a with
  | request sn scheduler fiber =>
      obtain rfl := Option.some.inj h
      rcases List.mem_cons.mp hc with heq | hold
      · cases heq
      · exact .inl hold
  | getAndDelCtx response =>
      rcases step_getAndDelCtx h with ⟨-, rfl⟩ | ⟨d, hd, rfl⟩
      · exact .inl hc
      · rcases List.mem_cons.mp hc with heq | hold
        · obtain ⟨-, rfl⟩ := Event.removed.inj heq
          exact .inr (mem_registered.mpr ⟨_, hd⟩)
        · exact .inl hold
  | listExpiredCb d =>
      obtain ⟨-, rfl⟩ := step_listExpiredCb h
      exact .inl hc
  | innerClose =>
      obtain rfl := Option.some.inj h
      rcases List.mem_append.mp hc with hnew | hold
      · obtain ⟨d, hd, heq⟩ := List.mem_map.mp hnew
        obtain ⟨-, rfl⟩ := Event.removed.inj heq
        exact .inr hd
      · exact .inl hold
  | run i index =>
      obtain ⟨th, s₁, th', hth, hadv, rfl⟩ := step_run h
      cases moves_of_advance hadv with
      | quiet => exact .inl hc
      | swap => exact .inl hc
      | deliver =>
          rcases List.mem_cons.mp hc with heq | hold
          · cases heq
          · exact .inl hold
      | schedule =>
          rcases List.mem_cons.mp hc with heq | hold
          · cases heq
          · exact .inl hold
      | erase hctx =>
          rcases List.mem_append.mp hc with hnew | hold
          · obtain ⟨d, hd, heq⟩ := List.mem_map.mp hnew
            obtain ⟨-, rfl⟩ := Event.removed.inj heq
            exact .inr (mem_registered.mpr ⟨_, Option.mem_toList.mp hd⟩)
          · exact .inl hold

/-- A registered context stays registered, or is taken out with an event. -/
theorem step_left (h : step s a = some s') (hc : c ∈ s.registered) :
    c ∈ s'.registered ∨ ∃ cause, .removed cause c ∈ s'.log := by
  obtain ⟨sn, hsn⟩ := mem_registered.mp hc
  cases a with
  | request sn' scheduler fiber =>
      obtain rfl := Option.some.inj h
      left
      rw [mem_registered]
      refine ⟨sn, ?_⟩
      show (if sn' ∈ s._ctxs then s._ctxs else s._ctxs.insert sn' _).lookup sn = some c
      split
      · exact hsn
      · next hfree =>
        have hne : sn ≠ sn' := by
          rintro rfl
          exact hfree (AList.lookup_isSome.mp (by rw [hsn]; rfl))
        rw [AList.lookup_insert_ne hne]
        exact hsn
  | getAndDelCtx response =>
      rcases step_getAndDelCtx h with ⟨-, rfl⟩ | ⟨d, hd, rfl⟩
      · exact .inl hc
      · by_cases heq : sn = response.sn
        · subst heq
          obtain rfl : d = c := Option.some.inj (hd.symm.trans hsn)
          exact .inr ⟨_, List.mem_cons_self⟩
        · exact .inl (mem_registered.mpr ⟨sn, lookup_erase_eq_some.mpr ⟨heq, hsn⟩⟩)
  | listExpiredCb d =>
      obtain ⟨-, rfl⟩ := step_listExpiredCb h
      exact .inl hc
  | innerClose =>
      obtain rfl := Option.some.inj h
      exact .inr ⟨.innerClose, List.mem_append_left _ (List.mem_map.mpr ⟨c, hc, rfl⟩)⟩
  | run i index =>
      obtain ⟨th, s₁, th', hth, hadv, rfl⟩ := step_run h
      cases moves_of_advance hadv with
      | @erase d ctx hctx =>
          by_cases heq : sn = ctx.sn
          · subst heq
            refine .inr ⟨.onTimeOut d, List.mem_append_left _ (List.mem_map.mpr ⟨c, ?_, rfl⟩)⟩
            exact Option.mem_toList.mpr hsn
          · exact .inl (mem_registered.mpr ⟨sn, lookup_erase_eq_some.mpr ⟨heq, hsn⟩⟩)
      | _ => exact .inl hc

theorem accepted_lost (hinv : Inv s) (h : step s a = some s') (hacc : Accepted s') :
    Accepted s := by
  intro c hc
  obtain ⟨new, hlog⟩ := step_log h
  have hlt : c < s.heap.length := hinv.sound _ hc
  -- A context that existed before the step was neither added nor left out by it.
  rcases hacc c (hlog ▸ List.mem_append_right new hc) with hreg | ⟨cause, hremoved⟩
  · rcases step_registered h hreg with hold | rfl
    · exact .inl hold
    · exact absurd hlt (Nat.lt_irrefl _)
  · rcases step_removed h hremoved with hold | hold
    · exact .inr ⟨cause, hold⟩
    · exact .inl hold

/-- **Acceptance is kept exactly across registrations under a free number.** -/
theorem accepted_step (hinv : Inv s) (hacc : Accepted s) (h : step s a = some s') :
    Accepted s' ↔ FreeSn s a := by
  have hkept : ∀ c, .added c ∈ s.log → c ∈ s'.registered ∨ ∃ cause, .removed cause c ∈ s'.log := by
    intro c hc
    obtain ⟨new, hlog⟩ := step_log h
    rcases hacc c hc with hreg | ⟨cause, hremoved⟩
    · exact step_left h hreg
    · exact .inr ⟨cause, hlog ▸ List.mem_append_right new hremoved⟩
  have hother : (∀ c, .added c ∈ s'.log → .added c ∈ s.log) → Accepted s' :=
    fun hold c hc => hkept c (hold c hc)
  cases a with
  | request sn scheduler fiber =>
      obtain rfl := Option.some.inj h
      constructor
      · intro hacc' htaken
        -- The context was not put into the map, and nothing can have taken it out.
        rcases hacc' s.heap.length List.mem_cons_self with hreg | ⟨cause, hremoved⟩
        · obtain ⟨sn', hsn'⟩ := mem_registered.mp hreg
          change (if sn ∈ s._ctxs then s._ctxs else s._ctxs.insert sn _).lookup sn' = _ at hsn'
          rw [if_pos htaken] at hsn'
          exact absurd (lt_of_snOf (hinv.keyed sn' _ hsn')) (Nat.lt_irrefl _)
        · rcases List.mem_cons.mp hremoved with heq | hold
          · cases heq
          · have hsound := hinv.sound _ hold
            cases cause with
            | doRecv response => exact absurd (lt_of_snOf hsound) (Nat.lt_irrefl _)
            | onTimeOut d => exact absurd hsound (Nat.lt_irrefl _)
            | innerClose => exact absurd hsound (Nat.lt_irrefl _)
      · intro hfree c hc
        rcases List.mem_cons.mp hc with heq | hold
        · obtain rfl := Event.added.inj heq
          refine .inl (mem_registered.mpr ⟨sn, ?_⟩)
          show (if sn ∈ s._ctxs then s._ctxs else s._ctxs.insert sn _).lookup sn = _
          rw [if_neg hfree, AList.lookup_insert]
        · exact hkept c hold
  | getAndDelCtx response =>
      refine iff_of_true (hother fun c hc => ?_) trivial
      rcases step_getAndDelCtx h with ⟨-, rfl⟩ | ⟨d, -, rfl⟩
      · exact hc
      · simpa using hc
  | listExpiredCb d =>
      refine iff_of_true (hother fun c hc => ?_) trivial
      obtain ⟨-, rfl⟩ := step_listExpiredCb h
      exact hc
  | innerClose =>
      refine iff_of_true (hother fun c hc => ?_) trivial
      obtain rfl := Option.some.inj h
      simpa using hc
  | run i index =>
      refine iff_of_true (hother fun c hc => ?_) trivial
      obtain ⟨th, s₁, th', hth, hadv, rfl⟩ := step_run h
      cases moves_of_advance hadv with
      | quiet => exact hc
      | swap => exact hc
      | deliver => simpa using hc
      | schedule => simpa using hc
      | erase hctx => simpa [State.erase] using hc

end Registered

/-- Requests do not interfere: each event is about the context it was caused for, and an accepted
context is registered until a path of its own takes it out. -/
structure Isolated (s : State) : Prop where
  own : OwnEvents s
  accepted : ∀ c, .added c ∈ s.log →
    c ∈ s.registered ∨ ∃ cause : Cause, cause.Own c ∧ .removed cause c ∈ s.log

theorem isolated_iff_accepted {s : State} : Isolated s ↔ OwnEvents s ∧ Accepted s := by
  constructor
  · rintro ⟨hown, hacc⟩
    exact ⟨hown, fun c hc => (hacc c hc).imp_right fun ⟨cause, _, h⟩ => ⟨cause, h⟩⟩
  · rintro ⟨hown, hacc⟩
    exact ⟨hown, fun c hc => (hacc c hc).imp_right fun ⟨cause, h⟩ => ⟨cause, hown _ h, h⟩⟩

/-- **A run isolates its requests exactly if every request registers a free number, and every
timeout callback and response finds its own context or none.** -/
theorem isolated_iff {as : List Action} {s : State} (hrun : runActions step as init = some s) :
    Isolated s ↔ runMeets step (fun s a => FindsOwn s a ∧ FreeSn s a) as init := by
  rw [isolated_iff_accepted]
  exact runMeets_iff (P := fun s => OwnEvents s ∧ Accepted s) inv_step
    (fun hinv h hp => ⟨ownEvents_lost h hp.1, accepted_lost hinv h hp.2⟩)
    (fun hinv hp h => and_congr (ownEvents_step hinv hp.1 h) (accepted_step hinv hp.2 h))
    as inv_init ⟨by simp [OwnEvents, init], by simp [Accepted, init]⟩ hrun

theorem isolated_answeredRun : ∃ s, runActions step answeredRun init = some s ∧
    (Isolated s ↔ runMeets step (fun s a => FindsOwn s a ∧ FreeSn s a) answeredRun init) :=
  ⟨_, rfl, isolated_iff rfl⟩

/-- Two requests with the default sequence number.  The second is not in the map, and its timer
erases the first. -/
def sameNumber : List Action :=
  [.request 0 0 0, .request 0 0 1, .run 1 0, .listExpiredCb 1, .run 2 0]

theorem not_isolated_sameNumber :
    ¬ ∀ as s, runActions step as init = some s → Isolated s := by
  intro h
  exact absurd (h sameNumber _ rfl).own (by decide)

/-! ## Fresh sequence numbers -/

/-- Fresh numbers keep the contexts apart. -/
def Distinct (s : State) : Prop := ∀ c d sn, s.snOf c = some sn → s.snOf d = some sn → c = d

section Fresh

variable {s s' : State} {a : Action}

/-- A step gives a sequence number to a fresh context only. -/
theorem step_snOf (h : step s a = some s') (c : Nat) :
    s'.snOf c = s.snOf c ∨
      ∃ sn scheduler fiber, a = .request sn scheduler fiber ∧ c = s.heap.length ∧
        s'.snOf c = some sn := by
  cases a with
  | request sn scheduler fiber =>
      obtain rfl := Option.some.inj h
      rcases Nat.lt_trichotomy c s.heap.length with hlt | heq | hgt
      · left
        simp [State.snOf, List.getElem?_append_left hlt]
      · exact .inr ⟨sn, scheduler, fiber, rfl, heq, by simp [State.snOf, heq]⟩
      · left
        have hnone : s.heap[c]? = none := List.getElem?_eq_none hgt.le
        have hnone' : (s.heap ++ [⟨sn, 0, false, some scheduler, some fiber, false, none⟩])[c]? =
            none := List.getElem?_eq_none (by simpa using hgt)
        simp [State.snOf, hnone, hnone']
  | getAndDelCtx response =>
      left
      rcases step_getAndDelCtx h with ⟨-, rfl⟩ | ⟨d, -, rfl⟩
      · rfl
      · rfl
  | listExpiredCb d =>
      obtain ⟨-, rfl⟩ := step_listExpiredCb h
      exact .inl rfl
  | innerClose =>
      obtain rfl := Option.some.inj h
      exact .inl rfl
  | run i index =>
      obtain ⟨th, s₁, th', hth, hadv, rfl⟩ := step_run h
      exact .inl ((moves_of_advance hadv).frame.2.2.1 c)

theorem distinct_step (hdistinct : Distinct s) (hfresh : FreshSn s a) (h : step s a = some s') :
    Distinct s' := by
  intro c d sn hc hd
  rcases step_snOf h c with hc' | ⟨sn', scheduler, fiber, rfl, rfl, hc'⟩
  · rcases step_snOf h d with hd' | ⟨sn', scheduler, fiber, rfl, rfl, hd'⟩
    · exact hdistinct c d sn (hc' ▸ hc) (hd' ▸ hd)
    · -- The other one is older, and had this number before the step.
      obtain rfl : sn' = sn := Option.some.inj (hd'.symm.trans hd)
      exact absurd (hc' ▸ hc) (hfresh c)
  · rcases step_snOf h d with hd' | ⟨sn'', _, _, -, rfl, -⟩
    · obtain rfl : sn' = sn := Option.some.inj (hc'.symm.trans hc)
      exact absurd (hd' ▸ hd) (hfresh d)
    · rfl

/-- Where numbers tell contexts apart, a lookup finds the right one. -/
theorem meets_of_distinct (hinv : Inv s) (hdistinct : Distinct s) (hfresh : FreshSn s a)
    (h : step s a = some s') : FindsOwn s a ∧ FreeSn s a := by
  have hown : ∀ c sn, s.snOf c = some sn → ∀ target ∈ s._ctxs.lookup sn, target = c :=
    fun c sn hc target htarget => hdistinct target c sn (hinv.keyed sn target htarget) hc
  cases a with
  | request sn scheduler fiber =>
      refine ⟨trivial, fun htaken => ?_⟩
      obtain ⟨c, hc⟩ := Option.isSome_iff_exists.mp (AList.lookup_isSome.mpr htaken)
      exact hfresh c (hinv.keyed sn c hc)
  | getAndDelCtx response =>
      refine ⟨fun target htarget => ?_, trivial⟩
      simp only [step] at h
      split at h
      · next hanswers =>
        cases hresponse : response.answers with
        | none => exact .inl hresponse
        | some c =>
            have hsn := hanswers c hresponse
            exact .inr (by rw [hresponse, hown c _ hsn target htarget])
      · cases h
  | run i index =>
      refine ⟨?_, trivial⟩
      simp only [FindsOwn]
      split
      · next c _ => exact fun sn hsn target htarget => hown c sn hsn target htarget
      · trivial
  | _ => exact ⟨trivial, trivial⟩

/-- Requests that each use a number of their own are isolated. -/
theorem isolated_of_fresh {as : List Action} (hrun : runActions step as init = some s)
    (hfresh : runMeets step FreshSn as init) : Isolated s := by
  refine (isolated_iff hrun).mpr (runMeets_mono (I := fun s => Inv s ∧ Distinct s)
    (fun hI hok h => ⟨inv_step hI.1 h, distinct_step hI.2 hok h⟩)
    (fun hI hok h => meets_of_distinct hI.1 hI.2 hok h) as ⟨inv_init, ?_⟩ hrun hfresh)
  intro c d sn hc
  simp [State.snOf, init] at hc

end Fresh

end Completion
end Routn
