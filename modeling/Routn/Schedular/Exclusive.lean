import Routn.Foundation.Table
import Routn.Schedular.Moves

/-!
# A fiber on one worker at a time

`TakenAlone` is a condition on the step that takes a fiber out of the queue: no other worker has the
fiber as its `cb_fiber`, and none is engaged with it, unless the fiber has ended.  A worker is
engaged from taking the fiber until it has looked at the status with which the fiber came back, and
has done what the status asks for.

Under this condition two workers are engaged with the same fiber only if it has ended, and then one
of them is about to drop it.  So nobody resumes a fiber that runs, every assertion on a status
holds, and no status is overwritten.
-/

namespace Routn
namespace Schedular

open Foundation

/-- The fiber a worker is engaged with, `cb_fiber` apart. -/
def Pc.engaged : Pc → Option Nat
  | .taken task => match task.job with
    | .fiber f => some f
    | .callback => none
  | .swapIn _ f _ => some f
  | .run f _ => some f
  | .swapOut f _ => some f
  | .returned f _ => some f
  | .look f _ => some f
  | .reset f => some f
  | .hold f _ => some f
  | _ => none

/-- The worker goes on with its `cb_fiber`. -/
def Pc.usesCb : Pc → Bool
  | .swapIn task _ _ => task.job == .callback
  | .run _ cb => cb
  | .swapOut _ cb => cb
  | .returned _ cb => cb
  | .look _ cb => cb
  | .reset _ => true
  | .hold _ cb => cb
  | _ => false

def Pc.isTaken : Pc → Bool
  | .taken _ => true
  | _ => false

/-- The worker has no fiber in hand. -/
def Pc.isFree : Pc → Bool
  | .pick => true
  | .schedule _ => true
  | .drop => true
  | .idle => true
  | .exited => true
  | _ => false

def Worker.Engaged (k : Worker) (f : Nat) : Prop := k.pc.engaged = some f ∨ k.cb_fiber = some f

variable (s : Schedular)

/-- The fiber that a step takes out of the queue, and the worker that takes it. -/
def takenFiber : Action → Option (Nat × Nat)
  | .work w _ =>
      match s.workers[w]? with
      | some ⟨.pick, _, _⟩ =>
          match (scan w s.fibers s.queue).2.1 with
          | some ⟨_, .fiber f, _⟩ => some (w, f)
          | _ => none
      | _ => none
  | _ => none

/-- Another worker has the fiber as its `cb_fiber`, or is engaged with it and it has not ended. -/
def engagedElsewhere (w f : Nat) : Bool :=
  s.anyOther w fun k =>
    k.cb_fiber == some f || (k.pc.engaged == some f && !(s.fibers f).status.ended)

def TakenAlone (a : Action) : Prop :=
  ∀ taken ∈ s.takenFiber a, s.engagedElsewhere taken.1 taken.2 = false

instance (a : Action) : Decidable (s.TakenAlone a) := Option.decidableForallMem (s.takenFiber a)

/-! ## What a worker knows about its fiber -/

/-- The status a fiber may come back with. -/
def Status.comesBack : Status → Bool
  | .init => false
  | .hold => false
  | _ => true

def Pc.Agrees (fibers : Nat → Fiber) : Pc → Prop
  | .taken task => task.status fibers ≠ some .exec
  | .swapIn _ f _ =>
      (fibers f).status ≠ .exec ∧ (fibers f).status.ended = false ∧ (fibers f).saved = true
  | .run f _ => (fibers f).status = .exec
  | .swapOut f _ => (fibers f).status.comesBack = true
  | .returned f _ => (fibers f).status.comesBack = true
  | .look f _ => (fibers f).status.comesBack = true
  | .reset f => (fibers f).status.ended = true
  | .hold f _ => (fibers f).status = .exec
  | _ => True

structure Worker.Agrees (fibers : Nat → Fiber) (k : Worker) : Prop where
  pc : k.pc.Agrees fibers
  uses : k.pc.usesCb = true → k.pc.engaged = k.cb_fiber
  /-- A `cb_fiber` that waits for the next callback has no function: it can only throw. -/
  owns : k.pc.usesCb = false → ∀ f, k.cb_fiber = some f →
    (fibers f).callback = false ∧ (k.pc = .run f false ∨ (fibers f).status.resettable = true)

/-- Two workers are engaged with a fiber that has ended, and one of them is about to drop it. -/
structure Stale (fibers : Nat → Fiber) (k l : Worker) (f : Nat) : Prop where
  ended : (fibers f).status.ended = true
  left : k.cb_fiber ≠ some f
  right : l.cb_fiber ≠ some f
  taken : k.pc.isTaken = true ∨ l.pc.isTaken = true

structure Exclusive : Prop where
  apart : ∀ {v w : Nat} {k l : Worker} {f : Nat}, v ≠ w → s.workers[v]? = some k →
    s.workers[w]? = some l → k.Engaged f → l.Engaged f → Stale s.fibers k l f
  agrees : ∀ {w : Nat} {k : Worker}, s.workers[w]? = some k → k.Agrees s.fibers
  /-- A fiber that is not saved runs on some worker. -/
  stack : ∀ {f : Nat}, (s.fibers f).saved = false →
    ∃ (w : Nat) (k : Worker), s.workers[w]? = some k ∧ k.pc.onStack = some f

/-- No worker other than `w` is engaged with `f`. -/
def Alone (w f : Nat) : Prop :=
  ∀ {v : Nat} {k : Worker}, v ≠ w → s.workers[v]? = some k → ¬ k.Engaged f

/-- The fiber a worker knows, `cb_fiber` apart. -/
def Pc.mentions : Pc → Option Nat
  | .schedule f => some f
  | pc => pc.engaged

/-- Only fibers that exist are mentioned. -/
structure Known : Prop where
  queue : ∀ task ∈ s.queue, ∀ f, task.job = .fiber f → f < s.fiberCount
  pc : ∀ k ∈ s.workers, ∀ f, k.pc.mentions = some f → f < s.fiberCount
  cb_fiber : ∀ k ∈ s.workers, ∀ f, k.cb_fiber = some f → f < s.fiberCount

variable {s} {s' : Schedular} {v w f : Nat} {k k' l : Worker}

theorem anyOther_iff {p : Worker → Bool} : s.anyOther w p = true ↔
    ∃ (v : Nat) (k : Worker), v ≠ w ∧ s.workers[v]? = some k ∧ p k = true := by
  simp only [anyOther, List.any_eq_true, List.mem_range, Bool.and_eq_true, bne_iff_ne, ne_eq,
    Option.any_eq_true]
  constructor
  · rintro ⟨v, -, hne, k, hk, hp⟩
    exact ⟨v, k, hne, hk, hp⟩
  · rintro ⟨v, k, hne, hk, hp⟩
    obtain ⟨hlt, -⟩ := List.getElem?_eq_some_iff.mp hk
    exact ⟨v, hlt, hne, k, hk, hp⟩

theorem Pc.engaged_of_onStack {pc : Pc} (h : pc.onStack = some f) : pc.engaged = some f := by
  cases pc with
  | run g cb => exact h
  | swapOut g cb => exact h
  | _ => cases h

theorem Status.exec_of_comesBack {status : Status} (h : status.comesBack = true)
    (hready : status ≠ .ready) (hended : status.ended = false) : status = .exec := by
  cases status with
  | exec => rfl
  | ready => exact absurd rfl hready
  | term => cases hended
  | except => cases hended
  | _ => cases h

theorem Stale.symm {fibers : Nat → Fiber} (h : Stale fibers k l f) : Stale fibers l k f :=
  ⟨h.ended, h.right, h.left, h.taken.symm⟩

/-- A fiber is as it was, but its context may have been saved. -/
structure SavedFrom (fiber fiber' : Fiber) : Prop where
  status : fiber'.status = fiber.status
  callback : fiber'.callback = fiber.callback
  saved : fiber.saved = true → fiber'.saved = true

theorem SavedFrom.of_eq {fiber fiber' : Fiber} (h : fiber' = fiber) : SavedFrom fiber fiber' := by
  rw [h]
  exact ⟨rfl, rfl, id⟩

/-- A worker depends on the fibers it is engaged with. -/
theorem Worker.Agrees.congr {fibers fibers' : Nat → Fiber} (h : k.Agrees fibers)
    (hsame : ∀ g, k.Engaged g → SavedFrom (fibers g) (fibers' g)) : k.Agrees fibers' := by
  refine ⟨?_, h.uses, fun huses g hg => ?_⟩
  · have hpc := h.pc
    have heng : ∀ g, k.pc.engaged = some g → SavedFrom (fibers g) (fibers' g) :=
      fun g hg => hsame g (.inl hg)
    obtain ⟨pc, cb_fiber, idleTerm⟩ := k
    cases pc with
    | taken task =>
        obtain ⟨number, job, thread_id⟩ := task
        cases job with
        | fiber g =>
            simp only [Pc.Agrees, FiberAndThread.status, (heng g rfl).status] at hpc ⊢
            exact hpc
        | callback => simp [Pc.Agrees, FiberAndThread.status]
    | swapIn task g status =>
        simp only [Pc.Agrees, (heng g rfl).status] at hpc ⊢
        exact ⟨hpc.1, hpc.2.1, (heng g rfl).saved hpc.2.2⟩
    | run g cb => simpa only [Pc.Agrees, (heng g rfl).status] using hpc
    | swapOut g cb => simpa only [Pc.Agrees, (heng g rfl).status] using hpc
    | returned g cb => simpa only [Pc.Agrees, (heng g rfl).status] using hpc
    | look g cb => simpa only [Pc.Agrees, (heng g rfl).status] using hpc
    | reset g => simpa only [Pc.Agrees, (heng g rfl).status] using hpc
    | hold g cb => simpa only [Pc.Agrees, (heng g rfl).status] using hpc
    | _ => trivial
  · rw [(hsame g (.inr hg)).callback, (hsame g (.inr hg)).status]
    exact h.owns huses g hg

theorem Pc.agrees_of_isFree {pc : Pc} (h : pc.isFree = true) (fibers : Nat → Fiber) :
    pc.engaged = none ∧ pc.usesCb = false ∧ pc.Agrees fibers := by
  cases pc with
  | pick => exact ⟨rfl, rfl, trivial⟩
  | schedule g => exact ⟨rfl, rfl, trivial⟩
  | drop => exact ⟨rfl, rfl, trivial⟩
  | idle => exact ⟨rfl, rfl, trivial⟩
  | exited => exact ⟨rfl, rfl, trivial⟩
  | _ => cases h

theorem Pc.mentions_of_engaged {pc : Pc} (h : pc.engaged = some f) : pc.mentions = some f := by
  cases pc with
  | schedule g => cases h
  | _ => exact h

theorem Known.fresh (h : s.Known) : ∀ k ∈ s.workers, ¬ k.Engaged s.fiberCount := by
  rintro k hk (hpc | hcb)
  · exact absurd (h.pc k hk _ (Pc.mentions_of_engaged hpc)) (Nat.lt_irrefl _)
  · exact absurd (h.cb_fiber k hk _ hcb) (Nat.lt_irrefl _)

theorem setFiber_saved {g : Nat} {fiber : Fiber}
    (hsaved : ((s.setFiber f fiber).fibers g).saved = false) :
    (g = f ∧ fiber.saved = false) ∨ (g ≠ f ∧ (s.fibers g).saved = false) := by
  by_cases heq : g = f
  · subst heq
    simp only [setFiber, Function.update_self] at hsaved
    exact .inl ⟨rfl, hsaved⟩
  · simp only [setFiber, Function.update_of_ne heq] at hsaved
    exact .inr ⟨heq, hsaved⟩

namespace Exclusive

theorem alone_of_cb (h : s.Exclusive) (hw : s.workers[w]? = some k) (hcb : k.cb_fiber = some f) :
    s.Alone w f :=
  fun hne hv hengaged => (h.apart hne hv hw hengaged (.inr hcb)).right hcb

theorem alone_of_not_ended (h : s.Exclusive) (hw : s.workers[w]? = some k) (hengaged : k.Engaged f)
    (hended : (s.fibers f).status.ended = false) : s.Alone w f := by
  intro v l hne hv hl
  rw [(h.apart hne hv hw hl hengaged).ended] at hended
  cases hended

/-- After its step the worker is engaged with the fiber it went on with, and keeps `cb_fiber`. -/
theorem alone_of_engaged (h : s.Exclusive) (hw : s.workers[w]? = some k) (halone : s.Alone w f)
    (hpc : k'.pc.engaged = some f ∨ k'.pc.engaged = none)
    (hcb : ∀ g, k'.cb_fiber = some g → k.cb_fiber = some g) :
    ∀ g, k'.Engaged g → s.Alone w g := by
  rintro g (hg | hg)
  · rcases hpc with hpc | hpc
    · obtain rfl := Option.some.inj (hpc.symm.trans hg)
      exact halone
    · rw [hpc] at hg
      cases hg
  · exact h.alone_of_cb hw (hcb g hg)

theorem not_runsElsewhere (halone : s.Alone w f) : s.runsElsewhere w f = false := by
  rw [Bool.eq_false_iff, Ne, runsElsewhere, anyOther_iff]
  rintro ⟨v, l, hne, hv, hl⟩
  exact halone hne hv (.inl (Pc.engaged_of_onStack (beq_iff_eq.mp hl)))

/-- A step of worker `w`. -/
theorem goto (h : s.Exclusive) (hw : s.workers[w]? = some k)
    (hworkers : s'.workers = s.workers.set w k')
    (hpairs : ∀ {v : Nat} {l : Worker} {f : Nat}, v ≠ w → s.workers[v]? = some l → l.Engaged f →
      k'.Engaged f → Stale s'.fibers l k' f)
    (hstatus : ∀ {f : Nat}, ¬ s.Alone w f → (s'.fibers f).status = (s.fibers f).status)
    (hothers : ∀ {v : Nat} {l : Worker}, v ≠ w → s.workers[v]? = some l → l.Agrees s'.fibers)
    (hagrees : k'.Agrees s'.fibers)
    (hstack : ∀ {f : Nat}, (s'.fibers f).saved = false → k'.pc.onStack = some f ∨
      ((s.fibers f).saved = false ∧ k.pc.onStack ≠ some f)) : s'.Exclusive := by
  -- A worker after the step is `w`, or another one that has not moved.
  have hcases : ∀ {v : Nat} {l : Worker}, s'.workers[v]? = some l →
      (v = w ∧ l = k') ∨ (v ≠ w ∧ s.workers[v]? = some l) := by
    intro v l hv
    rw [hworkers] at hv
    exact getElem?_of_set hv
  refine ⟨fun {v u l m f} hne hv hu hl hm => ?_, fun {v l} hv => ?_, fun {f} hsaved => ?_⟩
  · rcases hcases hv with ⟨rfl, rfl⟩ | ⟨hvw, hv⟩
    · obtain ⟨rfl, -⟩ | ⟨huw, hu⟩ := hcases hu
      · exact absurd rfl hne
      · exact (hpairs huw hu hm hl).symm
    · rcases hcases hu with ⟨rfl, rfl⟩ | ⟨-, hu⟩
      · exact hpairs hvw hv hl hm
      · obtain ⟨hended, hleft, hright, htaken⟩ := h.apart hne hv hu hl hm
        refine ⟨?_, hleft, hright, htaken⟩
        rw [hstatus fun halone => halone hvw hv hl]
        exact hended
  · rcases hcases hv with ⟨-, rfl⟩ | ⟨hvw, hv⟩
    · exact hagrees
    · exact hothers hvw hv
  · rw [hworkers]
    obtain ⟨hlt, -⟩ := List.getElem?_eq_some_iff.mp hw
    rcases hstack hsaved with hk' | ⟨hsaved, hk⟩
    · exact ⟨w, k', List.getElem?_set_self hlt, hk'⟩
    · obtain ⟨v, l, hv, hl⟩ := h.stack hsaved
      have hne : w ≠ v := by
        rintro rfl
        obtain rfl := Option.some.inj (hw.symm.trans hv)
        exact hk hl
      exact ⟨v, l, (List.getElem?_set_ne hne).trans hv, hl⟩

/-- A step of worker `w` that changes only fibers no other worker is engaged with, and after which
it is engaged only with such fibers. -/
theorem goto_alone (h : s.Exclusive) (hw : s.workers[w]? = some k)
    (hworkers : s'.workers = s.workers.set w k')
    (hfibers : ∀ f, s'.fibers f = s.fibers f ∨ s.Alone w f)
    (halone : ∀ f, k'.Engaged f → s.Alone w f) (hagrees : k'.Agrees s'.fibers)
    (hstack : ∀ {f : Nat}, (s'.fibers f).saved = false → k'.pc.onStack = some f ∨
      ((s.fibers f).saved = false ∧ k.pc.onStack ≠ some f)) : s'.Exclusive := by
  refine h.goto hw hworkers ?_ ?_ ?_ hagrees hstack
  · exact fun hne hv hl hk' => absurd hl (halone _ hk' hne hv)
  · exact fun hnot => congrArg Fiber.status ((hfibers _).resolve_right hnot)
  · refine fun hne hv => (h.agrees hv).congr fun g hg => .of_eq ?_
    exact (hfibers g).resolve_right fun halone => halone hne hv hg

/-- The switch-out of a fiber that may have ended. -/
theorem goto_swapOut (h : s.Exclusive) {cb_fiber : Option Nat} {idleTerm cb : Bool}
    (hw : s.workers[w]? = some ⟨.swapOut f cb, cb_fiber, idleTerm⟩) :
    ((s.setFiber f { s.fibers f with saved := true }).goto w
      ⟨.returned f cb, cb_fiber, idleTerm⟩).Exclusive := by
  have hfibers : ∀ g, SavedFrom (s.fibers g)
      ((s.setFiber f { s.fibers f with saved := true }).fibers g) := by
    intro g
    by_cases heq : g = f
    · subst heq
      simp only [setFiber, Function.update_self]
      exact ⟨rfl, rfl, fun _ => rfl⟩
    · exact .of_eq (Function.update_of_ne heq _ _)
  refine h.goto hw rfl ?_ (fun _ => (hfibers _).status) ?_ ?_ ?_
  · intro v l g hne hv hl hk'
    obtain ⟨hended, hleft, hright, htaken⟩ := h.apart hne hv hw hl hk'
    exact ⟨(congrArg Status.ended (hfibers g).status).trans hended, hleft, hright,
      .inl (htaken.resolve_right (by simp [Pc.isTaken]))⟩
  · exact fun hne hv => (h.agrees hv).congr fun g _ => hfibers g
  · have hagrees := (h.agrees hw).congr fun g _ => hfibers g
    refine ⟨hagrees.pc, hagrees.uses, fun huses g hg => ?_⟩
    obtain ⟨hcallback, hcase⟩ := hagrees.owns huses g hg
    exact ⟨hcallback, .inr (hcase.resolve_left (by simp))⟩
  · intro g hsaved
    rcases setFiber_saved hsaved with ⟨-, hnew⟩ | ⟨hne, hsaved⟩
    · cases hnew
    · exact .inr ⟨hsaved, by simpa [Pc.onStack] using Ne.symm hne⟩

/-- The decrement for a fiber that may have ended. -/
theorem goto_returned (h : s.Exclusive) {cb_fiber : Option Nat} {idleTerm cb : Bool}
    (hw : s.workers[w]? = some ⟨.returned f cb, cb_fiber, idleTerm⟩) :
    (s.goto w ⟨.look f cb, cb_fiber, idleTerm⟩).Exclusive := by
  have hagrees := h.agrees hw
  refine h.goto hw rfl ?_ (fun _ => rfl) (fun _ hv => h.agrees hv) ?_ ?_
  · intro v l g hne hv hl hk'
    obtain ⟨hended, hleft, hright, htaken⟩ := h.apart hne hv hw hl hk'
    exact ⟨hended, hleft, hright, .inl (htaken.resolve_right (by simp [Pc.isTaken]))⟩
  · refine ⟨hagrees.pc, hagrees.uses, fun huses g hg => ?_⟩
    obtain ⟨hcallback, hcase⟩ := hagrees.owns huses g hg
    exact ⟨hcallback, .inr (hcase.resolve_left (by simp))⟩
  · exact fun hsaved => .inr ⟨hsaved, by simp [Pc.onStack]⟩

/-- A worker takes a task whose fiber no other worker goes on with. -/
theorem goto_taken (h : s.Exclusive) {cb_fiber : Option Nat} {idleTerm : Bool}
    {task : FiberAndThread} (hw : s.workers[w]? = some ⟨.pick, cb_fiber, idleTerm⟩)
    (hexec : task.status s.fibers ≠ some .exec)
    (hfree : ∀ f, task.job = .fiber f → s.engagedElsewhere w f = false) :
    (s.goto w ⟨.taken task, cb_fiber, idleTerm⟩).Exclusive := by
  have hagrees := h.agrees hw
  refine h.goto hw rfl ?_ (fun _ => rfl) (fun _ hv => h.agrees hv) ?_ ?_
  · intro v l f hne hv hl hk'
    have hcb : cb_fiber ≠ some f := by
      rintro rfl
      exact h.alone_of_cb hw rfl hne hv hl
    rcases hk' with htask | hcb'
    · have hjob : task.job = .fiber f := by
        obtain ⟨number, job, thread_id⟩ := task
        cases job with
        | fiber g => exact congrArg Job.fiber (Option.some.inj htask)
        | callback => cases htask
      have hnone := hfree f hjob
      rw [Bool.eq_false_iff, Ne, engagedElsewhere, anyOther_iff] at hnone
      push Not at hnone
      have hl' := hnone v l hne hv
      simp only [ne_eq, Bool.or_eq_true, beq_iff_eq, Bool.and_eq_true, Bool.not_eq_true', not_or,
        not_and, Bool.not_eq_false] at hl'
      exact ⟨hl'.2 (hl.resolve_right hl'.1), hl'.1, hcb, .inr rfl⟩
    · exact absurd hcb' hcb
  · refine ⟨hexec, fun huses => absurd huses Bool.false_ne_true, fun _ g hg => ?_⟩
    obtain ⟨hcallback, hcase⟩ := hagrees.owns rfl g hg
    exact ⟨hcallback, .inr (hcase.resolve_left (by simp))⟩
  · exact fun hsaved => .inr ⟨hsaved, by simp [Pc.onStack]⟩

theorem congr (h : s.Exclusive) (hfibers : s'.fibers = s.fibers)
    (hworkers : s'.workers = s.workers) : s'.Exclusive := by
  refine ⟨fun hne hv hw => ?_, fun hw => ?_, fun hsaved => ?_⟩
  · rw [hworkers] at hv hw
    rw [hfibers]
    exact h.apart hne hv hw
  · rw [hworkers] at hw
    rw [hfibers]
    exact h.agrees hw
  · rw [hfibers] at hsaved
    rw [hworkers]
    exact h.stack hsaved

theorem schedule (h : s.Exclusive) (fcs : List (Option Job)) (thread : Option Nat) :
    (s.schedule fcs thread).Exclusive := by
  obtain ⟨tasks, tickles, heq, -⟩ := schedule_spec s fcs thread
  rw [heq]
  exact h.congr rfl rfl

/-- Writing a fiber that no other worker is engaged with. -/
theorem fibers_of_alone {fiber : Fiber} (halone : s.Alone w f) (g : Nat) :
    (s.setFiber f fiber).fibers g = s.fibers g ∨ s.Alone w g := by
  by_cases heq : g = f
  · rw [heq]
    exact .inr halone
  · exact .inl (Function.update_of_ne heq _ _)

/-- A `cb_fiber` that is not in use. -/
theorem resettable_of_cb (h : s.Exclusive) (hw : s.workers[w]? = some k)
    (huses : k.pc.usesCb = false) (hrun : k.pc.onStack = none) (hcb : k.cb_fiber = some f) :
    (s.fibers f).callback = false ∧ (s.fibers f).status.resettable = true := by
  obtain ⟨hcallback, hcase⟩ := (h.agrees hw).owns huses f hcb
  refine ⟨hcallback, hcase.resolve_left fun heq => ?_⟩
  rw [heq] at hrun
  cases hrun

/-- A worker that goes on without a fiber. -/
theorem goto_free (h : s.Exclusive) (hw : s.workers[w]? = some k)
    (hworkers : s'.workers = s.workers.set w k') (hfibers : s'.fibers = s.fibers)
    (hfree : k'.pc.isFree = true)
    (hcb : ∀ f, k'.cb_fiber = some f → k.cb_fiber = some f ∧ k.pc.usesCb = false)
    (hstack : k.pc.onStack = none) : s'.Exclusive := by
  obtain ⟨hpc, huses, hagrees⟩ := Pc.agrees_of_isFree hfree s'.fibers
  refine h.goto_alone hw hworkers (fun f => .inl (by rw [hfibers])) ?_ ⟨hagrees, ?_, ?_⟩ ?_
  · rintro f (hf | hf)
    · rw [hpc] at hf
      cases hf
    · exact h.alone_of_cb hw (hcb f hf).1
  · intro huses'
    rw [huses] at huses'
    cases huses'
  · intro _ f hf
    obtain ⟨hcallback, hreset⟩ := h.resettable_of_cb hw (hcb f hf).2 hstack (hcb f hf).1
    rw [hfibers]
    exact ⟨hcallback, .inr hreset⟩
  · intro f hsaved
    rw [hfibers] at hsaved
    exact .inr ⟨hsaved, by simp [hstack]⟩

/-- A fiber is constructed. -/
theorem setFiber_fresh (h : s.Exclusive) (hfresh : ∀ k ∈ s.workers, ¬ k.Engaged f) :
    (s.setFiber f (.new true)).Exclusive := by
  have hother : ∀ {v : Nat} {k : Worker} {g : Nat}, s.workers[v]? = some k → k.Engaged g →
      (s.setFiber f (.new true)).fibers g = s.fibers g := by
    intro v k g hv hg
    refine Function.update_of_ne ?_ _ _
    rintro rfl
    exact hfresh k (List.mem_of_getElem? hv) hg
  refine ⟨fun {v w k l g} hne hv hw hk hl => ?_, fun {w k} hw => ?_, fun {g} hsaved => ?_⟩
  · obtain ⟨hended, hleft, hright, htaken⟩ := h.apart hne hv hw hk hl
    refine ⟨?_, hleft, hright, htaken⟩
    rw [hother hv hk]
    exact hended
  · exact (h.agrees hw).congr fun g hg => .of_eq (hother hw hg)
  · rcases setFiber_saved hsaved with ⟨-, hnew⟩ | ⟨-, hsaved⟩
    · cases hnew
    · exact h.stack hsaved

/-- The fiber of a task that passes the test. -/
theorem goto_accept (h : s.Exclusive) {cb_fiber : Option Nat} {idleTerm : Bool}
    {task : FiberAndThread} (hw : s.workers[w]? = some ⟨.taken task, cb_fiber, idleTerm⟩)
    (hjob : task.job = .fiber f) (hended : (s.fibers f).status.ended = false) :
    (s.goto w ⟨.swapIn task f (s.fibers f).status, cb_fiber, idleTerm⟩).Exclusive := by
  have hengaged : (Pc.taken task).engaged = some f := by simp only [Pc.engaged, hjob]
  have halone : s.Alone w f := h.alone_of_not_ended hw (.inl hengaged) hended
  have huses : (Pc.swapIn task f (s.fibers f).status).usesCb = false := by simp [Pc.usesCb, hjob]
  refine h.goto_alone hw rfl (fun _ => .inl rfl)
    (h.alone_of_engaged hw halone (.inl rfl) fun _ => id)
    ⟨⟨?_, hended, ?_⟩, fun huses' => ?_, ?_⟩ ?_
  · have hexec := (h.agrees hw).pc
    simp only [Pc.Agrees, FiberAndThread.status, hjob, ne_eq, Option.some.injEq] at hexec
    exact hexec
  · -- It does not run anywhere, so it has been saved.
    rw [← Bool.not_eq_false]
    intro hsaved
    obtain ⟨v, l, hv, hl⟩ := h.stack hsaved
    have hne : v ≠ w := by
      rintro rfl
      obtain rfl := Option.some.inj (hw.symm.trans hv)
      cases hl
    exact halone hne hv (.inl (Pc.engaged_of_onStack hl))
  · rw [huses] at huses'
    cases huses'
  · intro _ g hg
    obtain ⟨hcallback, hreset⟩ := h.resettable_of_cb hw rfl rfl hg
    exact ⟨hcallback, .inr hreset⟩
  · exact fun hsaved => .inr ⟨hsaved, by simp [Pc.onStack]⟩

/-- A callback is given to a `cb_fiber` that was reset or constructed for it. -/
theorem goto_callback (h : s.Exclusive) {idleTerm : Bool} {task : FiberAndThread}
    {cb_fiber : Option Nat} (hw : s.workers[w]? = some ⟨.taken task, cb_fiber, idleTerm⟩)
    (hjob : task.job = .callback) (halone : s.Alone w f)
    (hworkers : s'.workers = s.workers.set w ⟨.swapIn task f .init, some f, idleTerm⟩)
    (hfibers : s'.fibers = Function.update s.fibers f (.new true)) : s'.Exclusive := by
  have hnew : s'.fibers f = .new true := by rw [hfibers, Function.update_self]
  refine h.goto_alone hw hworkers (fun g => ?_) (fun g hg => ?_) ⟨?_, fun _ => rfl, ?_⟩ ?_
  · rw [hfibers]
    exact fibers_of_alone halone g
  · rcases hg with hg | hg
    · obtain rfl := Option.some.inj hg
      exact halone
    · obtain rfl := Option.some.inj hg
      exact halone
  · simp [Pc.Agrees, hnew, Fiber.new, Status.ended]
  · intro huses
    simp [Pc.usesCb, hjob] at huses
  · intro g hsaved
    refine .inr ⟨?_, by simp [Pc.onStack]⟩
    by_cases heq : g = f
    · rw [heq, hnew] at hsaved
      cases hsaved
    · rwa [hfibers, Function.update_of_ne heq] at hsaved

/-- A fiber is resumed. -/
theorem goto_run (h : s.Exclusive) {cb_fiber : Option Nat} {idleTerm : Bool}
    {task : FiberAndThread} {status : Status}
    (hw : s.workers[w]? = some ⟨.swapIn task f status, cb_fiber, idleTerm⟩) :
    ((s.setFiber f { s.fibers f with status := .exec, saved := false }).goto w
      ⟨.run f (task.job == .callback), cb_fiber, idleTerm⟩).Exclusive := by
  have hagrees := h.agrees hw
  have halone : s.Alone w f := h.alone_of_not_ended hw (.inl rfl) hagrees.pc.2.1
  refine h.goto_alone hw rfl (fibers_of_alone halone)
    (h.alone_of_engaged hw halone (.inl rfl) fun _ => id)
    ⟨?_, hagrees.uses, fun huses g hg => ?_⟩ ?_
  · simp [Pc.Agrees, Schedular.goto, setFiber]
  · obtain ⟨hcallback, hcase⟩ := hagrees.owns huses g hg
    by_cases heq : g = f
    · -- A stale entry of the worker's own `cb_fiber`.
      subst heq
      replace huses : (task.job == .callback) = false := huses
      rw [huses]
      simp only [Schedular.goto, setFiber, Function.update_self]
      exact ⟨hcallback, .inl trivial⟩
    · simp only [Schedular.goto, setFiber, Function.update_of_ne heq]
      exact ⟨hcallback, .inr (hcase.resolve_left (by simp))⟩
  · intro g hsaved
    rcases setFiber_saved hsaved with ⟨heq, -⟩ | ⟨-, hsaved⟩
    · exact .inl (congrArg some heq.symm)
    · exact .inr ⟨hsaved, by simp [Pc.onStack]⟩

/-- A fiber that runs writes its status. -/
theorem goto_yield (h : s.Exclusive) {cb_fiber : Option Nat} {idleTerm cb : Bool} {fiber : Fiber}
    (hw : s.workers[w]? = some ⟨.run f cb, cb_fiber, idleTerm⟩)
    (hyields : Yields (s.fibers f) fiber) :
    ((s.setFiber f fiber).goto w ⟨.swapOut f cb, cb_fiber, idleTerm⟩).Exclusive := by
  have hagrees := h.agrees hw
  have hexec : (s.fibers f).status = .exec := hagrees.pc
  have halone : s.Alone w f := h.alone_of_not_ended hw (.inl rfl) (by rw [hexec]; rfl)
  refine h.goto_alone hw rfl (fibers_of_alone halone)
    (h.alone_of_engaged hw halone (.inl rfl) fun _ => id)
    ⟨?_, hagrees.uses, fun huses g hg => ?_⟩ ?_
  · simp only [Pc.Agrees, Schedular.goto, setFiber, Function.update_self]
    cases hyields with
    | yieldToHold _ hexec => rw [hexec]; rfl
    | _ => rfl
  · obtain ⟨hcallback, hcase⟩ := hagrees.owns huses g hg
    by_cases heq : g = f
    · subst heq
      simp only [Schedular.goto, setFiber, Function.update_self]
      cases hyields with
      | throws => exact ⟨hcallback, .inr rfl⟩
      | _ hnot => exact absurd (hcallback.symm.trans hnot) Bool.false_ne_true
    · simp only [Schedular.goto, setFiber, Function.update_of_ne heq]
      refine ⟨hcallback, .inr (hcase.resolve_left fun hrun => ?_)⟩
      exact heq (Pc.run.inj hrun).1.symm
  · intro g hsaved
    rcases setFiber_saved hsaved with ⟨heq, -⟩ | ⟨hne, hsaved⟩
    · exact .inl (congrArg some heq.symm)
    · exact .inr ⟨hsaved, by simpa [Pc.onStack] using Ne.symm hne⟩

/-- The `cb_fiber` has ended. -/
theorem goto_ended (h : s.Exclusive) {cb_fiber : Option Nat} {idleTerm : Bool}
    (hw : s.workers[w]? = some ⟨.look f true, cb_fiber, idleTerm⟩)
    (hended : (s.fibers f).status.ended = true) :
    (s.goto w ⟨.reset f, cb_fiber, idleTerm⟩).Exclusive := by
  have huses : some f = cb_fiber := (h.agrees hw).uses rfl
  have halone : s.Alone w f := h.alone_of_cb hw huses.symm
  refine h.goto_alone hw rfl (fun _ => .inl rfl)
    (h.alone_of_engaged hw halone (.inl rfl) fun _ => id) ⟨hended, fun _ => huses, nofun⟩ ?_
  exact fun hsaved => .inr ⟨hsaved, by simp [Pc.onStack]⟩

/-- The fiber has come back with `EXEC`. -/
theorem goto_held (h : s.Exclusive) {cb_fiber : Option Nat} {idleTerm cb : Bool}
    (hw : s.workers[w]? = some ⟨.look f cb, cb_fiber, idleTerm⟩)
    (hready : (s.fibers f).status ≠ .ready) (hended : (s.fibers f).status.ended = false) :
    (s.goto w ⟨.hold f cb, cb_fiber, idleTerm⟩).Exclusive := by
  have hagrees := h.agrees hw
  have halone : s.Alone w f := h.alone_of_not_ended hw (.inl rfl) hended
  refine h.goto_alone hw rfl (fun _ => .inl rfl)
    (h.alone_of_engaged hw halone (.inl rfl) fun _ => id)
    ⟨?_, hagrees.uses, fun huses g hg => ?_⟩ ?_
  · exact Status.exec_of_comesBack hagrees.pc hready hended
  · obtain ⟨hcallback, hreset⟩ := h.resettable_of_cb hw huses rfl hg
    exact ⟨hcallback, .inr hreset⟩
  · exact fun hsaved => .inr ⟨hsaved, by simp [Pc.onStack]⟩

/-- The `cb_fiber` waits for the next callback. -/
theorem goto_reset (h : s.Exclusive) {cb_fiber : Option Nat} {idleTerm : Bool}
    (hw : s.workers[w]? = some ⟨.reset f, cb_fiber, idleTerm⟩) :
    ((s.setFiber f (.new false)).goto w ⟨.pick, cb_fiber, idleTerm⟩).Exclusive := by
  obtain rfl : some f = cb_fiber := (h.agrees hw).uses rfl
  have halone : s.Alone w f := h.alone_of_cb hw rfl
  refine h.goto_alone hw rfl (fibers_of_alone halone)
    (h.alone_of_engaged hw halone (.inr rfl) fun _ => id) ⟨trivial, nofun, fun _ g hg => ?_⟩ ?_
  · obtain rfl := Option.some.inj hg
    simp [Schedular.goto, setFiber, Fiber.new, Status.resettable, Status.ended]
  · intro g hsaved
    rcases setFiber_saved hsaved with ⟨-, hnew⟩ | ⟨-, hsaved⟩
    · cases hnew
    · exact .inr ⟨hsaved, by simp [Pc.onStack]⟩

/-- A fiber that came back with `EXEC` is held. -/
theorem goto_hold (h : s.Exclusive) {cb_fiber : Option Nat} {idleTerm cb : Bool}
    (hw : s.workers[w]? = some ⟨.hold f cb, cb_fiber, idleTerm⟩) :
    ((s.setFiber f { s.fibers f with status := .hold }).goto w
      ⟨.pick, if cb then none else cb_fiber, idleTerm⟩).Exclusive := by
  have hexec : (s.fibers f).status = .exec := (h.agrees hw).pc
  have halone : s.Alone w f := h.alone_of_not_ended hw (.inl rfl) (by rw [hexec]; rfl)
  -- The worker keeps its `cb_fiber` if that is not the fiber it holds.
  have hcb : ∀ g, (if cb then none else cb_fiber) = some g → cb_fiber = some g ∧ cb = false := by
    intro g hg
    cases cb with
    | true => cases hg
    | false => exact ⟨hg, rfl⟩
  refine h.goto_alone hw rfl (fibers_of_alone halone)
    (h.alone_of_engaged hw halone (.inr rfl) fun g hg => (hcb g hg).1)
    ⟨trivial, nofun, fun _ g hg => ?_⟩ ?_
  · obtain ⟨hcb_fiber, rfl⟩ := hcb g hg
    obtain ⟨hcallback, hreset⟩ := h.resettable_of_cb hw rfl rfl hcb_fiber
    have hne : g ≠ f := by
      rintro rfl
      rw [hexec] at hreset
      cases hreset
    simp only [Schedular.goto, setFiber, Function.update_of_ne hne]
    exact ⟨hcallback, .inr hreset⟩
  · intro g hsaved
    rcases setFiber_saved hsaved with ⟨rfl, hsaved⟩ | ⟨-, hsaved⟩
    · exact .inr ⟨hsaved, by simp [Pc.onStack]⟩
    · exact .inr ⟨hsaved, by simp [Pc.onStack]⟩

end Exclusive

theorem job_of_takenFiber {cb_fiber : Option Nat} {idleTerm tickle_me : Bool}
    {task : FiberAndThread} {left : List FiberAndThread} {ch : Choice}
    (hw : s.workers[w]? = some ⟨.pick, cb_fiber, idleTerm⟩)
    (hscan : scan w s.fibers s.queue = (tickle_me, some task, left))
    (hjob : task.job = .fiber f) : s.takenFiber (.work w ch) = some (w, f) := by
  obtain ⟨number, job, thread_id⟩ := task
  obtain rfl : job = .fiber f := hjob
  simp only [takenFiber, hw, hscan]

namespace Exclusive

theorem step (h : s.Exclusive) (hknown : s.Known) {a : Action} (halone : s.TakenAlone a)
    (hmoves : s.Moves a s') : s'.Exclusive := by
  cases hmoves with
  | schedule => exact h.schedule _ _
  | scheduleAll => exact h.schedule _ _
  | newFiber => exact (h.setFiber_fresh hknown.fresh).congr rfl rfl
  | autostop => exact h.congr rfl rfl
  | stop => exact h.congr rfl rfl
  | fail => exact h.congr rfl rfl
  | take hw hscan =>
      obtain ⟨hskips, -⟩ := scan_some hscan
      refine (h.goto_taken hw (fun hexec => ?_) fun f hjob => ?_).congr rfl rfl
      · simp [skips, hexec] at hskips
      · exact halone _ (job_of_takenFiber hw hscan hjob)
  | @nothing w ch cb_fiber idleTerm tickle_me left hw hscan =>
      cases idleTerm with
      | false =>
          exact h.goto_free hw rfl rfl rfl (fun _ hcb => ⟨hcb, rfl⟩) rfl
      | true => exact h.goto_free hw rfl rfl rfl nofun rfl
  | refuse hw =>
      exact h.goto_free hw rfl rfl rfl (fun _ hcb => ⟨hcb, rfl⟩) rfl
  | accept hw hjob hended => exact h.goto_accept hw hjob hended
  | reuse hw hjob => exact h.goto_callback hw hjob (h.alone_of_cb hw rfl) rfl rfl
  | create hw hjob =>
      exact h.goto_callback hw hjob (fun _ hv => hknown.fresh _ (List.mem_of_getElem? hv)) rfl rfl
  | swapIn hw => exact (h.goto_run hw).congr rfl rfl
  | yield hw hyields => exact h.goto_yield hw hyields
  | swapOut hw => exact h.goto_swapOut hw
  | returned hw => exact (h.goto_returned hw).congr rfl rfl
  | @ready w ch cb_fiber idleTerm f cb hw hstatus =>
      refine h.goto_free hw rfl rfl rfl (fun g hcb => ?_) rfl
      cases cb with
      | true => cases hcb
      | false => exact ⟨hcb, rfl⟩
  | @ended w ch cb_fiber idleTerm f cb hw hended =>
      cases cb with
      | true => exact h.goto_ended hw hended
      | false =>
          exact h.goto_free hw rfl rfl rfl (fun _ hcb => ⟨hcb, rfl⟩) rfl
  | held hw hstatus => exact h.goto_held hw hstatus.1 hstatus.2
  | requeue hw =>
      exact (h.schedule _ none).goto_free (k := ⟨.schedule _, _, _⟩) hw rfl rfl rfl
        (fun _ hcb => ⟨hcb, rfl⟩) rfl
  | reset hw => exact (h.goto_reset hw).congr rfl rfl
  | hold hw => exact (h.goto_hold hw).congr rfl rfl
  | drop hw =>
      exact h.goto_free hw rfl rfl rfl (fun _ hcb => ⟨hcb, rfl⟩) rfl
  | idle hw =>
      exact h.goto_free hw rfl rfl rfl (fun _ hcb => ⟨hcb, rfl⟩) rfl

/-- Nobody resumes a fiber that runs, no assertion fails, and no status is overwritten. -/
theorem faults_of_moves (h : s.Exclusive) {a : Action} (hmoves : s.Moves a s') :
    s'.faults = s.faults := by
  have hwrite : ∀ {w f : Nat} (fiber : Fiber), s.Alone w f →
      (s.write w f fiber).faults = s.faults := by
    intro w f fiber halone
    simp [write, not_runsElsewhere halone]
  have hschedule : ∀ (fcs : List (Option Job)) (thread : Option Nat),
      (s.schedule fcs thread).faults = s.faults := by
    intro fcs thread
    obtain ⟨tasks, tickles, heq, -⟩ := schedule_spec s fcs thread
    rw [heq]
  cases hmoves with
  | schedule => exact hschedule _ _
  | scheduleAll => exact hschedule _ _
  | @requeue w ch cb_fiber idleTerm f => exact hschedule [some (.fiber f)] none
  | reuse hw => exact hwrite (.new true) (h.alone_of_cb hw rfl)
  | @swapIn w ch cb_fiber idleTerm task f status hw =>
      obtain ⟨-, hended, hsaved⟩ := (h.agrees hw).pc
      have halone : s.Alone w f := h.alone_of_not_ended hw (.inl rfl) hended
      simp [write, hsaved, not_runsElsewhere halone]
  | reset hw => exact hwrite (.new false) (h.alone_of_cb hw ((h.agrees hw).uses rfl).symm)
  | @hold w ch cb_fiber idleTerm f cb hw =>
      have hexec := (h.agrees hw).pc
      exact hwrite { s.fibers f with status := .hold }
        (h.alone_of_not_ended hw (.inl rfl) (by rw [hexec]; rfl))
  | fail hw hfails =>
      have hagrees := h.agrees hw
      cases hfails with
      | swapIn hexec => exact absurd hexec hagrees.pc.1
      | reuse hjob hcb hreset =>
          have htrue := (h.resettable_of_cb hw rfl rfl hcb).2
          rw [resettable, htrue] at hreset
          cases hreset
      | reset hreset =>
          have hended : (s.fibers _).status.ended = true := hagrees.pc
          simp [resettable, Status.resettable, hended] at hreset
      | yieldToHold hexec => exact absurd hagrees.pc hexec
  | _ => rfl

end Exclusive

namespace Known

/-- A step of worker `w` that leaves the queue as it was or takes from it. -/
theorem goto (h : s.Known) (hworkers : s'.workers = s.workers.set w k')
    (hqueue : ∀ task ∈ s'.queue, task ∈ s.queue) (hcount : s'.fiberCount = s.fiberCount)
    (hpc : ∀ f, k'.pc.mentions = some f → f < s.fiberCount)
    (hcb : ∀ f, k'.cb_fiber = some f → f < s.fiberCount) : s'.Known := by
  refine ⟨fun task htask => ?_, fun l hl => ?_, fun l hl => ?_⟩
  · rw [hcount]
    exact h.queue task (hqueue task htask)
  · rw [hcount]
    rw [hworkers] at hl
    rcases List.mem_or_eq_of_mem_set hl with hl | rfl
    · exact h.pc l hl
    · exact hpc
  · rw [hcount]
    rw [hworkers] at hl
    rcases List.mem_or_eq_of_mem_set hl with hl | rfl
    · exact h.cb_fiber l hl
    · exact hcb

theorem schedule (h : s.Known) {fcs : List (Option Job)}
    (hpass : ∀ fc ∈ fcs, s.mayPass fc = true) (thread : Option Nat) :
    (s.schedule fcs thread).Known := by
  obtain ⟨tasks, tickles, heq, -, hjobs, -⟩ := schedule_spec s fcs thread
  rw [heq]
  refine ⟨fun task htask f hjob => ?_, h.pc, h.cb_fiber⟩
  rcases List.mem_append.mp htask with htask | htask
  · exact h.queue task htask f hjob
  · have hmem : some task.job ∈ tasks.map fun task => some task.job :=
      List.mem_map.mpr ⟨task, htask, rfl⟩
    rw [hjobs, hjob] at hmem
    simpa [mayPass] using hpass _ (List.mem_filter.mp hmem).1

/-- A fiber is constructed. -/
theorem create (h : s.Known) (hqueue : s'.queue = s.queue)
    (hcount : s'.fiberCount = s.fiberCount + 1)
    (hworkers : ∀ k ∈ s'.workers, k ∈ s.workers ∨
      (∀ f, k.pc.mentions = some f → f = s.fiberCount) ∧
        ∀ f, k.cb_fiber = some f → f = s.fiberCount) : s'.Known := by
  refine ⟨fun task htask f hjob => ?_, fun l hl f hf => ?_, fun l hl f hf => ?_⟩
  · rw [hqueue] at htask
    rw [hcount]
    exact Nat.lt_succ_of_lt (h.queue task htask f hjob)
  · rw [hcount]
    rcases hworkers l hl with hl | ⟨hpc, -⟩
    · exact Nat.lt_succ_of_lt (h.pc l hl f hf)
    · exact Nat.lt_succ_of_le (hpc f hf).le
  · rw [hcount]
    rcases hworkers l hl with hl | ⟨-, hcb⟩
    · exact Nat.lt_succ_of_lt (h.cb_fiber l hl f hf)
    · exact Nat.lt_succ_of_le (hcb f hf).le

theorem step (h : s.Known) {a : Action} (hmoves : s.Moves a s') : s'.Known := by
  -- What the worker knew before its step.
  have hpc : ∀ {w : Nat} {k : Worker}, s.workers[w]? = some k →
      ∀ f, k.pc.mentions = some f → f < s.fiberCount :=
    fun hw => h.pc _ (List.mem_of_getElem? hw)
  have hcb : ∀ {w : Nat} {pc : Pc} {cb_fiber : Option Nat} {idleTerm : Bool},
      s.workers[w]? = some ⟨pc, cb_fiber, idleTerm⟩ → ∀ f, cb_fiber = some f → f < s.fiberCount :=
    fun hw => h.cb_fiber _ (List.mem_of_getElem? hw)
  have hdropped : ∀ {w : Nat} {pc : Pc} {cb_fiber : Option Nat} {idleTerm cb : Bool},
      s.workers[w]? = some ⟨pc, cb_fiber, idleTerm⟩ →
      ∀ f, (if cb then none else cb_fiber) = some f → f < s.fiberCount := by
    intro w pc cb_fiber idleTerm cb hw f hf
    cases cb with
    | true => cases hf
    | false => exact hcb hw f hf
  cases hmoves with
  | schedule hpass => exact h.schedule (by simpa using hpass) _
  | scheduleAll hpass => exact h.schedule hpass none
  | newFiber => exact h.create rfl rfl fun _ hk => .inl hk
  | autostop => exact ⟨h.queue, h.pc, h.cb_fiber⟩
  | stop => exact ⟨h.queue, h.pc, h.cb_fiber⟩
  | fail => exact ⟨h.queue, h.pc, h.cb_fiber⟩
  | @take w ch cb_fiber idleTerm tickle_me task left hw hscan =>
      obtain ⟨-, skipped, rest, hqueue, hleft⟩ := scan_some hscan
      refine h.goto rfl (fun t ht => ?_) rfl (fun f hf => ?_) (hcb hw)
      · replace ht : t ∈ left := ht
        rw [hleft] at ht
        rw [hqueue]
        simp only [List.mem_append, List.mem_cons] at ht ⊢
        exact ht.imp_right .inr
      · have hjob : task.job = .fiber f := by
          obtain ⟨number, job, thread_id⟩ := task
          cases job with
          | fiber g => exact congrArg Job.fiber (Option.some.inj hf)
          | callback => cases hf
        exact h.queue task (by simp [hqueue]) f hjob
  | @nothing w ch cb_fiber idleTerm tickle_me left hw =>
      refine h.goto rfl (fun _ => id) rfl ?_ (hdropped hw)
      cases idleTerm <;> exact nofun
  | refuse hw => exact h.goto rfl (fun _ => id) rfl nofun (hcb hw)
  | accept hw hjob =>
      refine h.goto rfl (fun _ => id) rfl (fun g hg => hpc hw g ?_) (hcb hw)
      simpa only [Pc.mentions, Pc.engaged, hjob] using hg
  | reuse hw => exact h.goto rfl (fun _ => id) rfl (fun g hg => hcb hw g hg) (hcb hw)
  | create hw =>
      refine h.create rfl rfl fun k hk => (List.mem_or_eq_of_mem_set hk).imp_right ?_
      rintro rfl
      exact ⟨fun f hf => (Option.some.inj hf).symm, fun f hf => (Option.some.inj hf).symm⟩
  | swapIn hw => exact h.goto rfl (fun _ => id) rfl (fun g hg => hpc hw g hg) (hcb hw)
  | yield hw => exact h.goto rfl (fun _ => id) rfl (fun g hg => hpc hw g hg) (hcb hw)
  | swapOut hw => exact h.goto rfl (fun _ => id) rfl (fun g hg => hpc hw g hg) (hcb hw)
  | returned hw => exact h.goto rfl (fun _ => id) rfl (fun g hg => hpc hw g hg) (hcb hw)
  | ready hw => exact h.goto rfl (fun _ => id) rfl (fun g hg => hpc hw g hg) (hdropped hw)
  | @ended w ch cb_fiber idleTerm f cb hw =>
      refine h.goto rfl (fun _ => id) rfl ?_ (hcb hw)
      cases cb with
      | true => exact fun g hg => hpc hw g hg
      | false => exact nofun
  | held hw => exact h.goto rfl (fun _ => id) rfl (fun g hg => hpc hw g hg) (hcb hw)
  | @requeue w ch cb_fiber idleTerm f hw =>
      have hpass : s.mayPass (some (.fiber f)) = true := by simpa [mayPass] using hpc hw f rfl
      exact (h.schedule (by simpa using hpass) none).goto rfl (fun _ => id) rfl nofun (hcb hw)
  | reset hw => exact h.goto rfl (fun _ => id) rfl nofun (hcb hw)
  | hold hw => exact h.goto rfl (fun _ => id) rfl nofun (hdropped hw)
  | drop hw => exact h.goto rfl (fun _ => id) rfl nofun (hcb hw)
  | idle hw => exact h.goto rfl (fun _ => id) rfl nofun (hcb hw)

end Known

theorem exclusive_init (threads : Nat) : (init threads).Exclusive := by
  have hidle : ∀ {w : Nat} {k : Worker}, (init threads).workers[w]? = some k →
      k = ⟨.pick, none, false⟩ := by
    intro w k hw
    exact List.eq_of_mem_replicate (List.mem_of_getElem? hw)
  refine ⟨fun _ hv _ hk _ => ?_, fun hw => ?_, fun hsaved => ?_⟩
  · obtain rfl := hidle hv
    rcases hk with hk | hk <;> cases hk
  · obtain rfl := hidle hw
    exact ⟨trivial, nofun, nofun⟩
  · simp [init, Fiber.new] at hsaved

theorem known_init (threads : Nat) : (init threads).Known := by
  refine ⟨nofun, fun k hk f hf => ?_, fun k hk f hf => ?_⟩
  · rw [List.eq_of_mem_replicate hk] at hf
    cases hf
  · rw [List.eq_of_mem_replicate hk] at hf
    cases hf

/-- As long as the condition is met, there is no fault. -/
theorem exclusive_of_meets {threads : Nat} {s : Schedular}
    (h : Reach (init threads) step TakenAlone s) : s.Exclusive ∧ s.Known ∧ s.faults = [] := by
  refine Reach.invariant (P := fun s => s.Exclusive ∧ s.Known ∧ s.faults = []) ?_ ?_ h
  · exact ⟨exclusive_init threads, known_init threads, rfl⟩
  · rintro s s' a - ⟨hexclusive, hknown, hnone⟩ halone hstep
    have hmoves := moves_of_step hstep
    exact ⟨hexclusive.step hknown halone hmoves, hknown.step hmoves,
      (hexclusive.faults_of_moves hmoves).trans hnone⟩

end Schedular
end Routn
