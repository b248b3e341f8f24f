import Routn.Streams.CompletionInvariant

/-!
# What a request returns

The fiber of a request is woken by one of three paths, and each of them has written the context
before.  `result` is then `TIMEOUT`, `IO_ERROR` or what a response says that was stored in the
context; the 0 that the context starts with, which stands for success, is not returned by itself
(`outcome_of_run`).
-/

namespace Routn
namespace Completion

open Foundation

/-- The value is one that a path has written for the context. -/
def Written (s : State) (c : Nat) (result : UInt32) : Prop :=
  result = TIMEOUT ∨ result = IO_ERROR ∨
    ∃ response, .delivered response c ∈ s.log ∧ response.result = result

/-- The context is ready for `doRsp`. -/
def Ready (s : State) (c : Nat) : Prop :=
  ∀ ctx, s.heap[c]? = some ctx → ctx.timed = true ∨ Written s c ctx.result

/-- What its fiber returns is settled. -/
def Settled (s : State) (c : Nat) : Prop :=
  ∀ ctx, s.heap[c]? = some ctx → Written s c ctx.result

/-- A thread that is in `doRsp` has made the context ready. -/
def Thread.Prepared (s : State) : Thread → Prop
  | .doRsp _ c _ => Ready s c
  | _ => True

structure Outcomes (s : State) : Prop where
  prepared : ∀ th ∈ s.threads, th.Prepared s
  settled : ∀ c ∈ s.scheduled, Settled s c
  /-- A response is stored after the context was taken out. -/
  delivered : ∀ response c, .delivered response c ∈ s.log → .removed (.doRecv response) c ∈ s.log

section Step

variable {s s' : State} {c : Nat}

/-- The contexts are written in these ways only. -/
structure Rewrites (s s' : State) : Prop where
  log : ∀ e ∈ s.log, e ∈ s'.log
  length : s.heap.length ≤ s'.heap.length
  ctx : ∀ c ctx', c < s.heap.length → s'.heap[c]? = some ctx' →
    ∃ ctx, s.heap[c]? = some ctx ∧ (ctx.timed = true → ctx'.timed = true) ∧
      (ctx'.result = ctx.result ∨ Written s' c ctx'.result)

theorem Written.mono (hlog : ∀ e ∈ s.log, e ∈ s'.log) {result : UInt32}
    (h : Written s c result) : Written s' c result := by
  rcases h with h | h | ⟨response, hmem, h⟩
  · exact .inl h
  · exact .inr (.inl h)
  · exact .inr (.inr ⟨response, hlog _ hmem, h⟩)

theorem Rewrites.settled (h : Rewrites s s') (hlt : c < s.heap.length) (hc : Settled s c) :
    Settled s' c := by
  intro ctx' hctx'
  obtain ⟨ctx, hctx, -, hsame | hwritten⟩ := h.ctx c ctx' hlt hctx'
  · rw [hsame]
    exact (hc ctx hctx).mono h.log
  · exact hwritten

theorem Rewrites.ready (h : Rewrites s s') (hlt : c < s.heap.length) (hc : Ready s c) :
    Ready s' c := by
  intro ctx' hctx'
  obtain ⟨ctx, hctx, htimed, hresult⟩ := h.ctx c ctx' hlt hctx'
  rcases hc ctx hctx with hold | hold
  · exact .inl (htimed hold)
  · rcases hresult with hsame | hwritten
    · exact .inr (hsame ▸ hold.mono h.log)
    · exact .inr hwritten

theorem rewrites_of_heap (hheap : s'.heap = s.heap) (hlog : ∀ e ∈ s.log, e ∈ s'.log) :
    Rewrites s s' where
  log := hlog
  length := by rw [hheap]
  ctx := fun _ ctx' _ h => ⟨ctx', hheap ▸ h, id, .inl rfl⟩

theorem rewrites_of_set {d : Nat} {ctx ctx' : Ctx} (hctx : s.heap[d]? = some ctx)
    (hheap : s'.heap = s.heap.set d ctx') (hlog : ∀ e ∈ s.log, e ∈ s'.log)
    (htimed : ctx.timed = true → ctx'.timed = true)
    (hresult : ctx'.result = ctx.result ∨ Written s' d ctx'.result) : Rewrites s s' where
  log := hlog
  length := by rw [hheap, List.length_set]
  ctx := by
    intro e ctx₁ _ h
    rw [hheap] at h
    rcases getElem?_of_set h with ⟨rfl, rfl⟩ | ⟨-, hold⟩
    · exact ⟨ctx, hctx, htimed, hresult⟩
    · exact ⟨ctx₁, hold, id, .inl rfl⟩

theorem prepared_resume (caller : Caller) : caller.resume.Prepared s := by
  cases caller <;> trivial

/-- **What a step of a thread does to the contexts:** it writes what a path may write, a thread that
enters `doRsp` has made its context ready, and what is scheduled is settled. -/
theorem outcome_advance {index : Nat} {th th' : Thread} (h : advance s index th = some (s', th'))
    (hprepared : th.Prepared s) (hlt : ∀ caller c pc, th = .doRsp caller c pc → c < s.heap.length) :
    Rewrites s s' ∧ th'.Prepared s' ∧
      ∀ c ∈ s'.scheduled, c ∈ s.scheduled ∨ Settled s' c := by
  cases th with
  | addTimer c =>
      obtain ⟨rfl, rfl⟩ := by simpa [advance] using h
      exact ⟨rewrites_of_heap rfl fun _ he => he, trivial, fun _ hc => .inl hc⟩
  | setTimer c =>
      obtain ⟨ctx, hctx, rfl, rfl⟩ := by simpa [advance, Option.bind_eq_some_iff] using h
      exact ⟨rewrites_of_set hctx rfl (fun _ he => he) id (.inl rfl), trivial, fun _ hc => .inl hc⟩
  | onTimeOut c =>
      obtain ⟨ctx, hctx, rfl, rfl⟩ := by simpa [advance, Option.bind_eq_some_iff] using h
      refine ⟨rewrites_of_heap rfl fun _ he => List.mem_append_right _ he, trivial, fun d hd => ?_⟩
      rw [scheduled_erase] at hd
      exact .inl hd
  | timed c =>
      obtain ⟨ctx, hctx, rfl, rfl⟩ := by simpa [advance, Option.bind_eq_some_iff] using h
      refine ⟨rewrites_of_set hctx rfl (fun _ he => he) (fun _ => rfl) (.inl rfl), ?_,
        fun _ hc => .inl hc⟩
      intro ctx₁ h₁
      rcases getElem?_of_set h₁ with ⟨-, rfl⟩ | ⟨hne, -⟩
      · exact .inl rfl
      · exact absurd rfl hne
  | deliver response c =>
      obtain ⟨ctx, hctx, rfl, rfl⟩ := by simpa [advance, Option.bind_eq_some_iff] using h
      have hwritten : Written ((s.assign c { ctx with
          result := response.result, response := some response }).record
          (.delivered response c)) c response.result :=
        .inr (.inr ⟨response, List.mem_cons_self, rfl⟩)
      refine ⟨rewrites_of_set hctx rfl (fun _ he => List.mem_cons_of_mem _ he) id (.inr hwritten),
        ?_, fun _ hc => .inl hc⟩
      intro ctx₁ h₁
      rcases getElem?_of_set h₁ with ⟨-, rfl⟩ | ⟨hne, -⟩
      · exact .inr hwritten
      · exact absurd rfl hne
  | innerClose rest =>
      cases rest with
      | nil =>
          obtain ⟨rfl, rfl⟩ := by simpa [advance] using h
          exact ⟨rewrites_of_heap rfl fun _ he => he, trivial, fun _ hc => .inl hc⟩
      | cons c₀ rest =>
          obtain ⟨c, hc, ctx, hctx, rfl, rfl⟩ := by
            simpa [advance, Option.bind_eq_some_iff] using h
          have hwritten : Written (s.assign c { ctx with result := IO_ERROR }) c IO_ERROR :=
            .inr (.inl rfl)
          refine ⟨rewrites_of_set hctx rfl (fun _ he => he) id (.inr hwritten), ?_,
            fun _ hc => .inl hc⟩
          intro ctx₁ h₁
          rcases getElem?_of_set h₁ with ⟨-, rfl⟩ | ⟨hne, -⟩
          · exact .inr hwritten
          · exact absurd rfl hne
  | doRsp caller c pc =>
      have hready : Ready s c := hprepared
      have hbound := hlt caller c pc rfl
      cases pc with
      | load =>
          obtain ⟨ctx, hctx, rfl, rfl⟩ := by simpa [advance, Option.bind_eq_some_iff] using h
          exact ⟨rewrites_of_heap rfl fun _ he => he, hready, fun _ hc => .inl hc⟩
      | compareAndSwap t =>
          simp only [advance, Option.bind_eq_bind, Option.bind_eq_some_iff] at h
          obtain ⟨ctx, hctx, h⟩ := h
          split at h
          · have hrewrites : Rewrites s (s.assign c { ctx with scheduler := none }) :=
              rewrites_of_set hctx rfl (fun _ he => he) id (.inl rfl)
            split at h
            · obtain ⟨rfl, rfl⟩ := by simpa using h
              exact ⟨hrewrites, hrewrites.ready hbound hready, fun _ hc => .inl hc⟩
            · obtain ⟨rfl, rfl⟩ := by simpa using h
              exact ⟨hrewrites, prepared_resume caller, fun _ hc => .inl hc⟩
          · obtain ⟨rfl, rfl⟩ := by simpa using h
            exact ⟨rewrites_of_heap rfl fun _ he => he, prepared_resume caller,
              fun _ hc => .inl hc⟩
      | cancel t =>
          simp only [advance, Option.bind_eq_bind, Option.bind_eq_some_iff] at h
          obtain ⟨ctx, hctx, h⟩ := h
          split at h
          · obtain ⟨rfl, rfl⟩ := by simpa using h
            have hrewrites : Rewrites s { s.assign c { ctx with timer := false } with
                timers := s.timers.erase c } :=
              rewrites_of_set hctx rfl (fun _ he => he) id (.inl rfl)
            exact ⟨hrewrites, hrewrites.ready hbound hready, fun _ hc => .inl hc⟩
          · obtain ⟨rfl, rfl⟩ := by simpa using h
            exact ⟨rewrites_of_heap rfl fun _ he => he, hready, fun _ hc => .inl hc⟩
      | schedule t =>
          obtain ⟨ctx, hctx, rfl, rfl⟩ := by simpa [advance, Option.bind_eq_some_iff] using h
          set s₁ := (s.assign c { ctx with
            result := if ctx.timed then TIMEOUT else ctx.result, fiber := none }).record
            (.scheduled caller.cause c) with hs₁
          have hlog : ∀ e ∈ s.log, e ∈ s₁.log := fun e he => List.mem_cons_of_mem _ he
          have hwritten : Written s₁ c (if ctx.timed then TIMEOUT else ctx.result) := by
            split
            · exact .inl rfl
            · next htimed =>
                rcases hready ctx hctx with h | h
                · exact absurd h htimed
                · exact h.mono hlog
          refine ⟨rewrites_of_set hctx rfl hlog id (.inr hwritten), prepared_resume caller,
            fun d hd => ?_⟩
          rcases List.mem_cons.mp hd with rfl | hd
          · refine .inr fun ctx₁ h₁ => ?_
            rcases getElem?_of_set h₁ with ⟨-, rfl⟩ | ⟨hne, -⟩
            · exact hwritten
            · exact absurd rfl hne
          · exact .inl hd
  | done => simp [advance] at h

theorem delivered_of_moves {th th' : Thread} {response : Response} (h : Moves s th s' th')
    (hc : .delivered response c ∈ s'.log) :
    .delivered response c ∈ s.log ∨ th = .deliver response c := by
  cases h with
  | quiet => exact .inl hc
  | erase hctx => exact .inl (by simpa [State.erase] using hc)
  | deliver =>
      rcases List.mem_cons.mp hc with heq | hc
      · cases heq
        exact .inr rfl
      · exact .inl hc
  | swap => exact .inl hc
  | schedule =>
      rcases List.mem_cons.mp hc with heq | hc
      · cases heq
      · exact .inl hc

/-- A step that adds no thread in `doRsp` and wakes no fiber. -/
theorem Outcomes.of_rewrites (hinv : Inv s) (h : Outcomes s) (hrewrites : Rewrites s s')
    (hthreads : ∀ th ∈ s'.threads, th ∈ s.threads ∨ ∀ t, th.Prepared t)
    (hscheduled : s'.scheduled = s.scheduled)
    (hdelivered : ∀ response c, .delivered response c ∈ s'.log → .delivered response c ∈ s.log) :
    Outcomes s' where
  prepared := by
    intro th hth
    rcases hthreads th hth with hold | htrivial
    · have hprepared := h.prepared th hold
      cases th with
      | doRsp caller c pc =>
          have hmem : c ∈ (Thread.doRsp caller c pc).completing := mem_completing_doRsp caller c pc
          exact hrewrites.ready (hinv.completing _ hold c hmem).1 hprepared
      | _ => trivial
    · exact htrivial s'
  settled := by
    intro c hc
    rw [hscheduled] at hc
    exact hrewrites.settled (hinv.scheduled c hc).1 (h.settled c hc)
  delivered := fun response c hc => hrewrites.log _ (h.delivered response c (hdelivered _ _ hc))

theorem outcomes_init : Outcomes init where
  prepared := nofun
  settled := nofun
  delivered := nofun

theorem outcomes_step {a : Action} (hinv : Inv s) (h : Outcomes s) (hstep : step s a = some s') :
    Outcomes s' := by
  cases a with
  | request sn scheduler fiber =>
      obtain rfl := Option.some.inj hstep
      refine h.of_rewrites hinv ⟨fun _ he => List.mem_cons_of_mem _ he, by simp, ?_⟩ ?_ rfl ?_
      · intro c ctx' hlt hctx'
        exact ⟨ctx', (List.getElem?_append_left hlt).symm.trans hctx', id, .inl rfl⟩
      · intro th hth
        rcases List.mem_append.mp hth with hth | hth
        · exact .inl hth
        · rw [List.mem_singleton.mp hth]
          exact .inr fun _ => trivial
      · intro response c hc
        rcases List.mem_cons.mp hc with heq | hc
        · cases heq
        · exact hc
  | getAndDelCtx response =>
      rcases step_getAndDelCtx hstep with ⟨-, rfl⟩ | ⟨c, hc, rfl⟩
      · exact h
      · refine h.of_rewrites hinv
          (rewrites_of_heap rfl fun _ he => List.mem_cons_of_mem _ he) ?_ rfl ?_
        · intro th hth
          rcases List.mem_append.mp hth with hth | hth
          · exact .inl hth
          · rw [List.mem_singleton.mp hth]
            exact .inr fun _ => trivial
        · intro response c hc
          rcases List.mem_cons.mp hc with heq | hc
          · cases heq
          · exact hc
  | listExpiredCb c =>
      obtain ⟨-, rfl⟩ := step_listExpiredCb hstep
      refine h.of_rewrites hinv (rewrites_of_heap rfl fun _ he => he) ?_ rfl fun _ _ hc => hc
      intro th hth
      rcases List.mem_append.mp hth with hth | hth
      · exact .inl hth
      · rw [List.mem_singleton.mp hth]
        exact .inr fun _ => trivial
  | innerClose =>
      obtain rfl := Option.some.inj hstep
      refine h.of_rewrites hinv (rewrites_of_heap rfl fun _ he => List.mem_append_right _ he) ?_
        (scheduled_removed _ _ _) ?_
      · intro th hth
        rcases List.mem_append.mp hth with hth | hth
        · exact .inl hth
        · rw [List.mem_singleton.mp hth]
          exact .inr fun _ => trivial
      · intro response c hc
        simpa using hc
  | run i index =>
      obtain ⟨th, s₁, th', hth, hadv, rfl⟩ := step_run hstep
      have hmem := List.mem_of_getElem? hth
      have hmoves := moves_of_advance hadv
      have hbound : ∀ {t : Thread}, t ∈ s.threads → ∀ caller c pc, t = .doRsp caller c pc →
          c < s.heap.length := by
        rintro t ht caller c pc rfl
        exact (hinv.completing _ ht c (mem_completing_doRsp caller c pc)).1
      obtain ⟨hrewrites, hprepared', hsettled⟩ :=
        outcome_advance hadv (h.prepared th hmem) (hbound hmem)
      refine ⟨?_, ?_, ?_⟩
      · intro t ht
        rcases List.mem_or_eq_of_mem_set ht with hold | rfl
        · rw [hmoves.frame.1] at hold
          have hprepared := h.prepared t hold
          cases t with
          | doRsp caller c pc => exact hrewrites.ready (hbound hold caller c pc rfl) hprepared
          | _ => trivial
        · cases t with
          | doRsp caller c pc => exact hprepared'
          | _ => trivial
      · intro c hc
        rcases hsettled c hc with hold | hnew
        · exact hrewrites.settled (hinv.scheduled c hold).1 (h.settled c hold)
        · exact hnew
      · intro response c hc
        rcases delivered_of_moves hmoves hc with hold | rfl
        · exact hrewrites.log _ (h.delivered response c hold)
        · exact hrewrites.log _ (hinv.recorded _ hmem)

end Step

end Completion
end Routn
