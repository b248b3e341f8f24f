import Routn.Rpc.Peers
import Routn.Streams.Isolation
import Routn.Streams.Outcome

/-!
# Requests and their answers

A request is in one place at a time: it is entered, in the queue, on a socket, scheduled on a worker
or answered.  With the sequence numbers of the contexts, which the answers carry back, this says what
`request` returns when the numbers are fresh (`served_of_run`).
-/

namespace Routn
namespace Peers

open Foundation

/-! ## The invariant -/

namespace Session

/-- The places of a request in a session. -/
def holds (c : Nat) (x : Session) : Nat :=
  (x.up.map Prod.fst).count c + (x.tasks.map Prod.fst).count c

end Session

namespace State

/-- The places of a request, from `enqueue` to the answer. -/
def places (s : State) (c : Nat) : Nat :=
  s.entering.count c + s._queue.count c + total (Session.holds c) s.sessions +
    (s.handled.map Prod.fst).count c

end State

/-- What a session has of requests and answers is what was sent and what was answered. -/
structure Session.Sound (s : State) (x : Session) : Prop where
  known : ∀ m ∈ x.up ++ x.tasks, s.requests[m.1]? = some m.2
  answers : ∀ c rsp, .response c rsp ∈ x._queue ++ x.down → ∃ req, (c, req, rsp) ∈ s.handled

/-- The response is an answer that was given. -/
def Answered (s : State) (response : Completion.Response) : Prop :=
  ∃ c req rsp, (c, req, rsp) ∈ s.handled ∧ response = received c rsp

structure Inv (s : State) : Prop where
  calls : Completion.Inv s.calls
  outcomes : Completion.Outcomes s.calls
  aligned : ∀ c, s.calls.snOf c = (s.requests[c]?).map (·.sn)
  once : ∀ c, s.places c ≤ 1
  fresh : ∀ c, s.requests.length ≤ c → s.places c = 0
  sessions : ∀ x ∈ s.sessions, x.Sound s
  handled : ∀ m ∈ s.handled, s.requests[m.1]? = some m.2.1 ∧ m.2.2.sn = m.2.1.sn
  logged : ∀ response c, .removed (.doRecv response) c ∈ s.calls.log → Answered s response

theorem inv_init : Inv init where
  calls := Completion.inv_init
  outcomes := Completion.outcomes_init
  aligned := fun _ => rfl
  once := fun _ => Nat.zero_le _
  fresh := fun _ _ => rfl
  sessions := nofun
  handled := nofun
  logged := nofun

section Step

variable {s s' : State} {calls : Completion.State} {k c : Nat} {x x' : Session}

theorem Inv.length_eq (h : Inv s) : s.calls.heap.length = s.requests.length := by
  have hiff : ∀ c, s.calls.heap.length ≤ c ↔ s.requests.length ≤ c := by
    intro c
    have hc := h.aligned c
    rw [← List.getElem?_eq_none_iff, ← List.getElem?_eq_none_iff,
      ← Option.map_eq_none_iff (f := Completion.Ctx.sn),
      ← Option.map_eq_none_iff (f := fun req : RockRequest => req.sn)]
    exact Iff.of_eq (congrArg (· = none) hc)
  exact Nat.le_antisymm ((hiff _).mpr (Nat.le_refl _)) ((hiff _).mp (Nat.le_refl _))

/-- A response takes a context out only when it is received. -/
theorem removed_doRecv {a : Completion.Action} {t t' : Completion.State}
    {response : Completion.Response} (h : Completion.step t a = some t')
    (hc : .removed (.doRecv response) c ∈ t'.log) :
    .removed (.doRecv response) c ∈ t.log ∨ a = .getAndDelCtx response := by
  cases a with
  | request sn scheduler fiber =>
      obtain rfl := Option.some.inj h
      rcases List.mem_cons.mp hc with heq | hc
      · cases heq
      · exact .inl hc
  | getAndDelCtx response' =>
      rcases Completion.step_getAndDelCtx h with ⟨-, rfl⟩ | ⟨d, hd, rfl⟩
      · exact .inl hc
      · rcases List.mem_cons.mp hc with heq | hc
        · cases heq
          exact .inr rfl
        · exact .inl hc
  | listExpiredCb d =>
      obtain ⟨-, rfl⟩ := Completion.step_listExpiredCb h
      exact .inl hc
  | innerClose =>
      obtain rfl := Option.some.inj h
      exact .inl (by simpa using hc)
  | run i index =>
      obtain ⟨th, t₁, th', hth, hadv, rfl⟩ := Completion.step_run h
      left
      cases Completion.moves_of_advance hadv with
      | quiet => exact hc
      | erase hctx => simpa [Completion.State.erase] using hc
      | deliver => simpa using hc
      | swap => exact hc
      | schedule => simpa using hc

theorem Session.Sound.mono (h : x.Sound s)
    (hrequests : ∀ (c : Nat) (req : RockRequest), s.requests[c]? = some req → s'.requests[c]? = some req)
    (hhandled : ∀ m ∈ s.handled, m ∈ s'.handled) : x.Sound s' where
  known := fun m hm => hrequests _ _ (h.known m hm)
  answers := fun c rsp hc => (h.answers c rsp hc).imp fun _ hreq => hhandled _ hreq

theorem Answered.mono {response : Completion.Response} (h : Answered s response)
    (hhandled : ∀ m ∈ s.handled, m ∈ s'.handled) : Answered s' response := by
  obtain ⟨c, req, rsp, hmem, rfl⟩ := h
  exact ⟨c, req, rsp, hhandled _ hmem, rfl⟩

/-- A step of the completion machine other than a request. -/
theorem Inv.call (h : Inv s) {a : Completion.Action} (hstep : Completion.step s.calls a = some calls)
    (hrequest : ∀ sn scheduler fiber, a ≠ .request sn scheduler fiber)
    (hresponse : ∀ response, a = .getAndDelCtx response → Answered s response) :
    Inv { s with calls := calls } where
  calls := Completion.inv_step h.calls hstep
  outcomes := Completion.outcomes_step h.calls h.outcomes hstep
  aligned := by
    intro c
    rcases Completion.step_snOf hstep c with hsame | ⟨sn, scheduler, fiber, rfl, -⟩
    · exact hsame.trans (h.aligned c)
    · exact absurd rfl (hrequest sn scheduler fiber)
  once := h.once
  fresh := h.fresh
  sessions := fun x hx => (h.sessions x hx).mono (fun _ _ hreq => hreq) fun _ hm => hm
  handled := h.handled
  logged := by
    intro response c hc
    rcases removed_doRecv hstep hc with hold | rfl
    · exact h.logged response c hold
    · exact hresponse response rfl

/-- A step that moves requests on, and leaves the contexts alone. -/
theorem Inv.moved (h : Inv s) (hcalls : s'.calls = s.calls) (hrequests : s'.requests = s.requests)
    (hplaces : ∀ c, s'.places c ≤ s.places c) (hold : ∀ m ∈ s.handled, m ∈ s'.handled)
    (hnew : ∀ m ∈ s'.handled, m ∈ s.handled ∨
      (s.requests[m.1]? = some m.2.1 ∧ m.2.2.sn = m.2.1.sn))
    (hsessions : ∀ x ∈ s'.sessions, x ∈ s.sessions ∨ x.Sound s') : Inv s' where
  calls := hcalls ▸ h.calls
  outcomes := hcalls ▸ h.outcomes
  aligned := by
    rw [hcalls, hrequests]
    exact h.aligned
  once := fun c => (hplaces c).trans (h.once c)
  fresh := fun c hc => Nat.le_zero.mp ((hplaces c).trans_eq (h.fresh c (hrequests ▸ hc)))
  sessions := by
    intro x hx
    rcases hsessions x hx with hx | hsound
    · exact (h.sessions x hx).mono (fun _ _ hreq => hrequests ▸ hreq) hold
    · exact hsound
  handled := by
    intro m hm
    rw [hrequests]
    rcases hnew m hm with hm | hm
    · exact h.handled m hm
    · exact hm
  logged := by
    rw [hcalls]
    exact fun response c hc => (h.logged response c hc).mono hold

/-- A session is replaced. -/
theorem Inv.setSession (h : Inv s) (hx : s.sessions[k]? = some x)
    (hholds : ∀ c, x'.holds c ≤ x.holds c) (hsound : x'.Sound s) : Inv (s.setSession k x') := by
  refine h.moved rfl rfl (fun c => ?_) (fun _ hm => hm) (fun _ hm => .inl hm) fun y hy => ?_
  · have htotal := total_set (f := Session.holds c) hx (b := x')
    have hle := hholds c
    show s.entering.count c + s._queue.count c + total (Session.holds c) (s.sessions.set k x') +
      (s.handled.map Prod.fst).count c ≤ _
    rw [State.places]
    omega
  · rcases List.mem_or_eq_of_mem_set hy with hy | rfl
    · exact .inl hy
    · exact .inr (hsound.mono (fun _ _ hreq => hreq) fun _ hm => hm)

theorem Inv.request (h : Inv s) {req : RockRequest} {scheduler fiber : Nat}
    (hstep : step s (.request req scheduler fiber) = some s') : Inv s' := by
  simp only [step, Option.bind_eq_bind, Option.bind_eq_some_iff, Option.pure_def,
    Option.some.injEq] at hstep
  obtain ⟨calls, hcalls, rfl⟩ := hstep
  have hlength := h.length_eq
  have hsame : ∀ (c : Nat) (req' : RockRequest), s.requests[c]? = some req' →
      (s.requests ++ [req])[c]? = some req' := fun c req' hc =>
    (List.getElem?_append_left (List.getElem?_eq_some_iff.mp hc).1).trans hc
  have hplaces : ∀ d, State.places { s with
      calls := calls
      requests := s.requests ++ [req]
      entering := s.entering ++ [s.requests.length] } d =
      s.places d + if s.requests.length = d then 1 else 0 := by
    intro d
    simp only [State.places, List.count_append, List.count_singleton, beq_iff_eq]
    omega
  exact {
    calls := Completion.inv_step h.calls hcalls
    outcomes := Completion.outcomes_step h.calls h.outcomes hcalls
    aligned := by
      intro d
      obtain rfl := Option.some.inj hcalls
      show ((s.calls.heap ++ [_])[d]?).map Completion.Ctx.sn = ((s.requests ++ [req])[d]?).map _
      rw [List.getElem?_append, List.getElem?_append, hlength]
      split
      · exact h.aligned d
      · cases d - s.requests.length <;> rfl
    once := by
      intro d
      rw [hplaces]
      split
      · next heq =>
          have hzero := h.fresh d heq.le
          omega
      · exact h.once d
    fresh := by
      intro d hd
      rw [List.length_append, List.length_singleton] at hd
      rw [hplaces, if_neg (by omega), h.fresh d (by omega)]
    sessions := fun x hx => (h.sessions x hx).mono hsame fun _ hm => hm
    handled := fun m hm => ⟨hsame _ _ (h.handled m hm).1, (h.handled m hm).2⟩
    logged := by
      intro response d hd
      rcases removed_doRecv hcalls hd with hold | heq
      · exact h.logged response d hold
      · cases heq }


theorem Inv.enqueue (h : Inv s) (hstep : step s (.enqueue c) = some s') : Inv s' := by
  simp only [step] at hstep
  split at hstep
  · next hmem =>
      obtain rfl := Option.some.inj hstep
      refine h.moved rfl rfl (fun d => ?_) (fun _ hm => hm) (fun _ hm => .inl hm) fun _ hx => .inl hx
      have hpos := List.count_pos_iff.mpr hmem
      simp only [State.places, List.count_append, List.count_singleton, List.count_erase, beq_iff_eq]
      by_cases heq : c = d
      · subst heq
        simp only [if_true]
        omega
      · simp only [if_neg heq]
        omega
  · cases hstep

theorem Inv.doWrite (h : Inv s) (hstep : step s .doWrite = some s') : Inv s' := by
  simp only [step, Option.bind_eq_bind, Option.bind_eq_some_iff] at hstep
  obtain ⟨k, -, x, hx, hstep⟩ := hstep
  split at hstep
  · cases hstep
  · next c rest hqueue =>
      simp only [Option.bind_eq_some_iff, Option.pure_def, Option.some.injEq] at hstep
      obtain ⟨req, hreq, rfl⟩ := hstep
      refine h.moved rfl rfl (fun d => ?_) (fun _ hm => hm) (fun _ hm => .inl hm) fun y hy => ?_
      · have htotal := total_set (f := Session.holds d) hx
          (b := { x with up := x.up ++ [(c, req)] })
        simp only [State.places, State.setSession, Session.holds, hqueue, List.map_append,
          List.map_cons, List.map_nil, List.count_append, List.count_cons, List.count_nil]
          at htotal ⊢
        omega
      · rcases List.mem_or_eq_of_mem_set hy with hy | rfl
        · exact .inl hy
        · have hsound := h.sessions x (List.mem_of_getElem? hx)
          refine .inr ⟨fun m hm => ?_, hsound.answers⟩
          simp only [List.mem_append, List.mem_singleton] at hm
          rcases hm with (hm | rfl) | hm
          · exact hsound.known m (List.mem_append_left _ hm)
          · exact hreq
          · exact hsound.known m (List.mem_append_right _ hm)

theorem Inv.doRecv (h : Inv s) (hstep : step s .doRecv = some s') : Inv s' := by
  simp only [step, Option.bind_eq_bind, Option.bind_eq_some_iff] at hstep
  obtain ⟨k, -, x, hx, hstep⟩ := hstep
  have hsound := h.sessions x (List.mem_of_getElem? hx)
  split at hstep
  · cases hstep
  · next c rsp rest hdown =>
      simp only [Option.bind_eq_some_iff, Option.pure_def, Option.some.injEq] at hstep
      obtain ⟨calls, hcalls, rfl⟩ := hstep
      obtain ⟨req, hreq⟩ := hsound.answers c rsp (by simp [hdown])
      have hcalled : Inv { s with calls := calls } := by
        refine h.call hcalls (fun _ _ _ => nofun) fun response heq => ?_
        obtain rfl := Completion.Action.getAndDelCtx.inj heq
        exact ⟨c, req, rsp, hreq, rfl⟩
      refine hcalled.setSession hx (fun _ => Nat.le_refl _) ⟨hsound.known, fun d r hd => ?_⟩
      exact hsound.answers d r (by
        rw [hdown, List.mem_append, List.mem_cons]
        exact (List.mem_append.mp hd).imp_right .inr)
  · next ntf rest hdown =>
      obtain rfl := Option.some.inj hstep
      have hnotified : Inv { s with notified := s.notified ++ [ntf] } :=
        h.moved rfl rfl (fun _ => Nat.le_refl _) (fun _ hm => hm) (fun _ hm => .inl hm)
          fun _ hy => .inl hy
      refine hnotified.setSession hx (fun _ => Nat.le_refl _) ⟨hsound.known, fun d r hd => ?_⟩
      exact hsound.answers d r (by
        rw [hdown, List.mem_append, List.mem_cons]
        exact (List.mem_append.mp hd).imp_right .inr)

theorem Inv.accept (h : Inv s) (hstep : step s (.accept k) = some s') : Inv s' := by
  simp only [step, Option.bind_eq_bind, Option.bind_eq_some_iff] at hstep
  obtain ⟨x, hx, hstep⟩ := hstep
  have hsound := h.sessions x (List.mem_of_getElem? hx)
  split at hstep
  · cases hstep
  · next first rest hup =>
      split at hstep
      · obtain rfl := Option.some.inj hstep
        refine h.setSession hx (fun d => ?_) ⟨fun m hm => hsound.known m ?_, hsound.answers⟩
        · simp only [Session.holds, hup, List.map_append, List.map_cons, List.map_nil,
            List.count_append, List.count_cons, List.count_nil]
          omega
        · simp only [List.mem_append, List.mem_singleton] at hm
          rw [hup, List.mem_append, List.mem_cons]
          tauto
      · cases hstep

theorem sendMessage_cases (x : Session) (msg : Reply) :
    (x.sendMessage msg).up = x.up ∧ (x.sendMessage msg).tasks = x.tasks ∧
      (x.sendMessage msg).down = x.down ∧
      ∀ r ∈ (x.sendMessage msg)._queue, r ∈ x._queue ∨ r = msg := by
  rw [Session.sendMessage]
  split
  · refine ⟨rfl, rfl, rfl, fun r hr => ?_⟩
    rcases List.mem_append.mp hr with hr | hr
    · exact .inl hr
    · exact .inr (List.mem_singleton.mp hr)
  · exact ⟨rfl, rfl, rfl, fun _ hr => .inl hr⟩

theorem Session.Sound.close (h : x.Sound s) : x.close.Sound s where
  known := h.known
  answers := fun c rsp hc => h.answers c rsp (List.mem_append_right _ hc)

theorem Inv.handleRequest (h : Inv s) {i : Nat} {result : UInt32} {resStr body : List UInt8}
    {goOn : Bool} (hstep : step s (.handleRequest k i result resStr body goOn) = some s') :
    Inv s' := by
  simp only [step, Option.bind_eq_bind, Option.bind_eq_some_iff, Option.pure_def,
    Option.some.injEq, Prod.exists] at hstep
  obtain ⟨x, hx, c, req, hi, rfl⟩ := hstep
  have hsound := h.sessions x (List.mem_of_getElem? hx)
  have hreq := hsound.known (c, req) (List.mem_append_right _ (List.mem_of_getElem? hi))
  set rsp : RockResponse :=
    { req.createResponse with result := result, resStr := resStr, body := body }
  set x₁ : Session := { x with tasks := x.tasks.eraseIdx i }
  obtain ⟨hup, htasks, hdown, hqueue⟩ := sendMessage_cases x₁ (.response c rsp)
  set x₂ := x₁.sendMessage (.response c rsp)
  -- The request leaves the tasks and is answered.
  have hcount : ∀ d, x₂.holds d + (if c = d then 1 else 0) = x.holds d := by
    intro d
    have herase : ((x.tasks.eraseIdx i).map Prod.fst).count d + (if c = d then 1 else 0) =
        (x.tasks.map Prod.fst).count d := by
      obtain ⟨hlt, heq⟩ := List.getElem?_eq_some_iff.mp hi
      have hperm := (List.getElem_cons_eraseIdx_perm hlt).map Prod.fst
      rw [← hperm.count_eq d, heq, List.map_cons, List.count_cons]
      simp only [beq_iff_eq]
    simp only [Session.holds, hup, htasks]
    show (x.up.map Prod.fst).count d + ((x.tasks.eraseIdx i).map Prod.fst).count d + _ = _
    omega
  have hsound₂ : x₂.Sound { s with handled := (c, req, rsp) :: s.handled } := by
    refine ⟨fun m hm => hsound.known m ?_, fun d r hd => ?_⟩
    · rw [hup, htasks] at hm
      rcases List.mem_append.mp hm with hm | hm
      · exact List.mem_append_left _ hm
      · exact List.mem_append_right _ (List.mem_of_mem_eraseIdx hm)
    · rw [hdown] at hd
      rcases List.mem_append.mp hd with hd | hd
      · rcases hqueue _ hd with hd | heq
        · obtain ⟨req', hreq'⟩ := hsound.answers d r (List.mem_append_left _ hd)
          exact ⟨req', List.mem_cons_of_mem _ hreq'⟩
        · cases heq
          exact ⟨req, List.mem_cons_self⟩
      · obtain ⟨req', hreq'⟩ := hsound.answers d r (List.mem_append_right _ hd)
        exact ⟨req', List.mem_cons_of_mem _ hreq'⟩
  have hends : ∀ x', (x' = x₂ ∨ x' = x₂.close) →
      Inv ({ s with handled := (c, req, rsp) :: s.handled }.setSession k x') := by
    intro x' hx'
    refine h.moved rfl rfl (fun d => ?_) (fun _ hm => List.mem_cons_of_mem _ hm)
      (fun m hm => ?_) fun y hy => ?_
    · have htotal := total_set (f := Session.holds d) hx (b := x')
      have hd := hcount d
      have hsame : x'.holds d = x₂.holds d := by rcases hx' with rfl | rfl <;> rfl
      simp only [State.places, State.setSession, List.map_cons, List.count_cons, beq_iff_eq]
      omega
    · rcases List.mem_cons.mp hm with rfl | hm
      · exact .inr ⟨hreq, rfl⟩
      · exact .inl hm
    · rcases List.mem_or_eq_of_mem_set hy with hy | rfl
      · exact .inl hy
      · rcases hx' with rfl | rfl
        · exact .inr ⟨hsound₂.known, hsound₂.answers⟩
        · exact .inr ⟨hsound₂.close.known, hsound₂.close.answers⟩
  cases goOn with
  | true => exact hends _ (.inl rfl)
  | false => exact hends _ (.inr rfl)


theorem Inv.sendNotify (h : Inv s) {ntf : RockNotify}
    (hstep : step s (.sendNotify k ntf) = some s') : Inv s' := by
  simp only [step, Option.bind_eq_bind, Option.bind_eq_some_iff, Option.pure_def,
    Option.some.injEq] at hstep
  obtain ⟨x, hx, rfl⟩ := hstep
  have hsound := h.sessions x (List.mem_of_getElem? hx)
  obtain ⟨hup, htasks, hdown, hqueue⟩ := sendMessage_cases x (.notify ntf)
  refine h.setSession hx (fun d => ?_) ⟨fun m hm => hsound.known m ?_, fun d r hd => ?_⟩
  · rw [Session.holds, hup, htasks]
    exact Nat.le_refl _
  · rwa [hup, htasks] at hm
  · rw [hdown] at hd
    rcases List.mem_append.mp hd with hd | hd
    · rcases hqueue _ hd with hd | heq
      · exact hsound.answers d r (List.mem_append_left _ hd)
      · cases heq
    · exact hsound.answers d r (List.mem_append_right _ hd)

theorem Inv.reply (h : Inv s) (hstep : step s (.reply k) = some s') : Inv s' := by
  simp only [step, Option.bind_eq_bind, Option.bind_eq_some_iff] at hstep
  obtain ⟨x, hx, hstep⟩ := hstep
  have hsound := h.sessions x (List.mem_of_getElem? hx)
  split at hstep
  · cases hstep
  · next first rest hqueue =>
      split at hstep
      · obtain rfl := Option.some.inj hstep
        refine h.setSession hx (fun _ => Nat.le_refl _) ⟨hsound.known, fun d r hd => ?_⟩
        refine hsound.answers d r ?_
        simp only [List.mem_append, List.mem_singleton] at hd
        rw [hqueue, List.mem_append, List.mem_cons]
        tauto
      · cases hstep

theorem Inv.start (h : Inv s) (hstep : step s .start = some s') : Inv s' := by
  simp only [step] at hstep
  split at hstep
  · obtain rfl := Option.some.inj hstep
    refine h.moved rfl rfl (fun d => ?_) (fun _ hm => hm) (fun _ hm => .inl hm) fun y hy => ?_
    · simp [State.places, Session.holds]
    · rcases List.mem_append.mp hy with hy | hy
      · exact .inl hy
      · rw [List.mem_singleton.mp hy]
        exact .inr ⟨nofun, nofun⟩
  · cases hstep

theorem Inv.innerClose (h : Inv s) (hstep : step s .innerClose = some s') : Inv s' := by
  simp only [step, Option.bind_eq_bind, Option.bind_eq_some_iff, Option.pure_def,
    Option.some.injEq] at hstep
  obtain ⟨calls, hcalls, rfl⟩ := hstep
  refine (h.call hcalls (fun _ _ _ => nofun) fun _ => nofun).moved rfl rfl (fun d => ?_)
    (fun _ hm => hm) (fun _ hm => .inl hm) fun _ hy => .inl hy
  simp only [State.places, List.count_nil]
  omega

/-- **Every step keeps the invariant.** -/
theorem inv_step {a : Action} (h : Inv s) (hstep : step s a = some s') : Inv s' := by
  cases a with
  | request req scheduler fiber => exact h.request hstep
  | enqueue c => exact h.enqueue hstep
  | doWrite => exact h.doWrite hstep
  | doRecv => exact h.doRecv hstep
  | listExpiredCb c =>
      obtain ⟨calls, hcalls, rfl⟩ := by
        simpa [step, Option.bind_eq_some_iff] using hstep
      exact h.call hcalls (fun _ _ _ => nofun) fun _ => nofun
  | run thread index =>
      obtain ⟨calls, hcalls, rfl⟩ := by
        simpa [step, Option.bind_eq_some_iff] using hstep
      exact h.call hcalls (fun _ _ _ => nofun) fun _ => nofun
  | innerClose => exact h.innerClose hstep
  | start => exact h.start hstep
  | accept k => exact h.accept hstep
  | handleRequest k i result resStr body goOn => exact h.handleRequest hstep
  | sendNotify k ntf => exact h.sendNotify hstep
  | reply k => exact h.reply hstep
  | closeSession k =>
      simp only [step, Option.bind_eq_bind, Option.bind_eq_some_iff, Option.pure_def,
        Option.some.injEq] at hstep
      obtain ⟨x, hx, rfl⟩ := hstep
      exact h.setSession hx (fun _ => Nat.le_refl _) (h.sessions x (List.mem_of_getElem? hx)).close

/-! ## Fresh sequence numbers -/

/-- No response is refused by the completion machine: what the peer sends carries the number of its
request. -/
theorem doRecv_not_refused (h : Inv s) (hk : s.socket = some k) (hx : s.sessions[k]? = some x)
    (hdown : x.down ≠ []) : (step s .doRecv).isSome = true := by
  have hsound := h.sessions x (List.mem_of_getElem? hx)
  match hmessages : x.down with
  | [] => exact absurd hmessages hdown
  | .notify ntf :: rest => simp [step, hk, hx, hmessages]
  | .response c rsp :: rest =>
      obtain ⟨req, hreq⟩ := hsound.answers c rsp (by simp [hmessages])
      obtain ⟨hknown, hsn⟩ := h.handled _ hreq
      have hguard : ∀ d ∈ (received c rsp).answers,
          (s.calls.heap[d]?).map Completion.Ctx.sn = some (received c rsp).sn := by
        rintro d ⟨⟩
        have haligned := h.aligned c
        rw [hknown] at haligned
        exact haligned.trans (congrArg some hsn.symm)
      have hcalls : (Completion.step s.calls (.getAndDelCtx (received c rsp))).isSome = true := by
        rw [Completion.step, if_pos hguard]
        split <;> rfl
      obtain ⟨calls, hcalls⟩ := Option.isSome_iff_exists.mp hcalls
      simp [step, hk, hx, hmessages, hcalls]

/-- What holds in addition while the numbers are fresh. -/
structure Apart (s : State) : Prop where
  own : Completion.OwnEvents s.calls
  distinct : Completion.Distinct s.calls

/-- What a step does to the completion machine is one of its steps, under a fresh number. -/
theorem calls_step {a : Action} (h : Inv s) (hfresh : FreshSn s a) (hstep : step s a = some s') :
    s'.calls = s.calls ∨ ∃ b, Completion.step s.calls b = some s'.calls ∧
      Completion.FreshSn s.calls b := by
  cases a with
  | request req scheduler fiber =>
      simp only [step, Option.bind_eq_bind, Option.bind_eq_some_iff, Option.pure_def,
        Option.some.injEq] at hstep
      obtain ⟨calls, hcalls, rfl⟩ := hstep
      refine .inr ⟨_, hcalls, fun c hc => ?_⟩
      rw [h.aligned c] at hc
      obtain ⟨earlier, hearlier, hsn⟩ := Option.map_eq_some_iff.mp hc
      exact hfresh earlier (List.mem_of_getElem? hearlier) hsn
  | enqueue c =>
      simp only [step] at hstep
      split at hstep
      · exact .inl (Option.some.inj hstep ▸ rfl)
      · cases hstep
  | doWrite =>
      simp only [step, Option.bind_eq_bind, Option.bind_eq_some_iff] at hstep
      obtain ⟨k, -, x, hx, hstep⟩ := hstep
      split at hstep
      · cases hstep
      · simp only [Option.bind_eq_some_iff, Option.pure_def, Option.some.injEq] at hstep
        obtain ⟨req, -, rfl⟩ := hstep
        exact .inl rfl
  | doRecv =>
      simp only [step, Option.bind_eq_bind, Option.bind_eq_some_iff] at hstep
      obtain ⟨k, -, x, hx, hstep⟩ := hstep
      split at hstep
      · cases hstep
      · simp only [Option.bind_eq_some_iff, Option.pure_def, Option.some.injEq] at hstep
        obtain ⟨calls, hcalls, rfl⟩ := hstep
        exact .inr ⟨_, hcalls, trivial⟩
      · exact .inl (Option.some.inj hstep ▸ rfl)
  | listExpiredCb c =>
      obtain ⟨calls, hcalls, rfl⟩ := by
        simpa [step, Option.bind_eq_some_iff] using hstep
      exact .inr ⟨_, hcalls, trivial⟩
  | run thread index =>
      obtain ⟨calls, hcalls, rfl⟩ := by
        simpa [step, Option.bind_eq_some_iff] using hstep
      exact .inr ⟨_, hcalls, trivial⟩
  | innerClose =>
      simp only [step, Option.bind_eq_bind, Option.bind_eq_some_iff, Option.pure_def,
        Option.some.injEq] at hstep
      obtain ⟨calls, hcalls, rfl⟩ := hstep
      exact .inr ⟨_, hcalls, trivial⟩
  | start =>
      simp only [step] at hstep
      split at hstep
      · exact .inl (Option.some.inj hstep ▸ rfl)
      · cases hstep
  | accept k =>
      simp only [step, Option.bind_eq_bind, Option.bind_eq_some_iff] at hstep
      obtain ⟨x, hx, hstep⟩ := hstep
      split at hstep
      · cases hstep
      · split at hstep
        · exact .inl (Option.some.inj hstep ▸ rfl)
        · cases hstep
  | handleRequest k i result resStr body goOn =>
      simp only [step, Option.bind_eq_bind, Option.bind_eq_some_iff, Option.pure_def,
        Option.some.injEq, Prod.exists] at hstep
      obtain ⟨x, hx, c, req, hi, rfl⟩ := hstep
      exact .inl rfl
  | sendNotify k ntf =>
      simp only [step, Option.bind_eq_bind, Option.bind_eq_some_iff, Option.pure_def,
        Option.some.injEq] at hstep
      obtain ⟨x, hx, rfl⟩ := hstep
      exact .inl rfl
  | reply k =>
      simp only [step, Option.bind_eq_bind, Option.bind_eq_some_iff] at hstep
      obtain ⟨x, hx, hstep⟩ := hstep
      split at hstep
      · cases hstep
      · split at hstep
        · exact .inl (Option.some.inj hstep ▸ rfl)
        · cases hstep
  | closeSession k =>
      simp only [step, Option.bind_eq_bind, Option.bind_eq_some_iff, Option.pure_def,
        Option.some.injEq] at hstep
      obtain ⟨x, hx, rfl⟩ := hstep
      exact .inl rfl


theorem apart_step {a : Action} (h : Inv s) (ha : Apart s) (hfresh : FreshSn s a)
    (hstep : step s a = some s') : Apart s' := by
  rcases calls_step h hfresh hstep with hsame | ⟨b, hcalls, hfresh'⟩
  · exact ⟨hsame ▸ ha.own, hsame ▸ ha.distinct⟩
  · have hmeets := Completion.meets_of_distinct h.calls ha.distinct hfresh' hcalls
    exact ⟨(Completion.ownEvents_step h.calls ha.own hcalls).mpr hmeets.1,
      Completion.distinct_step ha.distinct hfresh' hcalls⟩

end Step

/-- What the requests get. -/
structure Served (s : State) : Prop where
  /-- The response that is stored for a request is the answer that was given to it. -/
  answered : ∀ response c, .delivered response c ∈ s.calls.log →
    ∃ req rsp, s.requests[c]? = some req ∧ (c, req, rsp) ∈ s.handled ∧ response = received c rsp
  /-- No request is handled twice. -/
  once : (s.handled.map Prod.fst).Nodup
  /-- No fiber is woken twice. -/
  woken : s.calls.scheduled.Nodup
  /-- What `request` returns is a failure of the connection or the result of the answer. -/
  result : ∀ c ∈ s.calls.scheduled, ∀ ctx, s.calls.heap[c]? = some ctx →
    ctx.result = Completion.TIMEOUT ∨ ctx.result = Completion.IO_ERROR ∨
      ∃ req rsp, s.requests[c]? = some req ∧ (c, req, rsp) ∈ s.handled ∧ ctx.result = rsp.result

theorem answered_of_inv {s : State} (h : Inv s) (ha : Apart s) {response : Completion.Response}
    {c : Nat} (hc : .delivered response c ∈ s.calls.log) :
    ∃ req rsp, s.requests[c]? = some req ∧ (c, req, rsp) ∈ s.handled ∧
      response = received c rsp := by
  obtain ⟨d, req, rsp, hmem, rfl⟩ := h.logged _ c (h.outcomes.delivered _ c hc)
  rcases ha.own _ hc with hnone | hsome
  · cases hnone
  · obtain rfl := Option.some.inj hsome
    exact ⟨req, rsp, (h.handled _ hmem).1, hmem, rfl⟩

theorem served_of_inv {s : State} (h : Inv s) (ha : Apart s) : Served s where
  answered := fun _ _ hc => answered_of_inv h ha hc
  once := by
    refine List.nodup_iff_count_le_one.mpr fun c => ?_
    have hle := h.once c
    rw [State.places] at hle
    omega
  woken := h.calls.nodup_scheduled
  result := by
    intro c hc ctx hctx
    rcases h.outcomes.settled c hc ctx hctx with hresult | hresult | ⟨response, hmem, hresult⟩
    · exact .inl hresult
    · exact .inr (.inl hresult)
    · obtain ⟨req, rsp, hreq, hhandled, rfl⟩ := answered_of_inv h ha hmem
      exact .inr (.inr ⟨req, rsp, hreq, hhandled, hresult.symm⟩)

instance (s : State) : ∀ a, Decidable (FreshSn s a)
  | .request req _ _ => inferInstanceAs (Decidable (∀ earlier ∈ s.requests, earlier.sn ≠ req.sn))
  | .enqueue _ => inferInstanceAs (Decidable True)
  | .doWrite => inferInstanceAs (Decidable True)
  | .doRecv => inferInstanceAs (Decidable True)
  | .listExpiredCb _ => inferInstanceAs (Decidable True)
  | .run _ _ => inferInstanceAs (Decidable True)
  | .innerClose => inferInstanceAs (Decidable True)
  | .start => inferInstanceAs (Decidable True)
  | .accept _ => inferInstanceAs (Decidable True)
  | .handleRequest .. => inferInstanceAs (Decidable True)
  | .sendNotify .. => inferInstanceAs (Decidable True)
  | .reply _ => inferInstanceAs (Decidable True)
  | .closeSession _ => inferInstanceAs (Decidable True)

/-- A request is lost with its connection, and the next one is answered with 200. -/
def reconnected : List Action :=
  [.start, .request { sn := 1, cmd := 5 } 0 0, .run 0 0, .run 0 0, .enqueue 0, .doWrite, .accept 0,
    .innerClose, .run 1 0, .run 1 0, .run 1 0, .run 1 0, .run 1 0, .start,
    .request { sn := 2, cmd := 5 } 0 0, .run 2 0, .run 2 0, .enqueue 1, .doWrite, .accept 1,
    .handleRequest 0 0 200 [] [] true, .handleRequest 1 0 200 [] [] true, .reply 1, .doRecv,
    .run 3 0, .run 3 0, .run 3 0, .run 3 0, .run 3 0]

end Peers
end Routn
