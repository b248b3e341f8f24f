import Routn.Streams.Permits

/-!
# The queue of the writer

`enqueue` notifies `_sem` only when it finds the queue empty, and the writer takes the whole queue
each time it gets a permit, so one permit stands for a queue of any length.  `Credit` says where
that permit is while the queue is not empty; `Ordered` says that what was sent, what the writer is
sending and what waits in the queue come in the order of the calls of `enqueue`.
-/

namespace Routn
namespace AsyncSocketStream

open Foundation
open Fibers

/-- The writer has a permit of `_sem` and has not yet swapped the queue out. -/
def Thread.inHand : Thread → Prop
  | .doWrite .woken => True
  | .doWrite .swap => True
  | _ => False

/-- The contexts the writer has taken out of the queue and still has to send. -/
def Thread.hand : Thread → List Nat
  | .doWrite (.sending ctxs) => ctxs
  | _ => []

/-- While the queue is not empty, its permit is free, or the writer has it, or the `enqueue` that
made the queue non-empty has still to notify. -/
def Credit (s : State) : Prop :=
  ∀ ctx rest, s.shared.queue = ctx :: rest →
    0 < (s.sems .sem).concurrency ∨
      (∃ (j : Nat) (th : Thread), s.threads[j]? = some th ∧ th.inHand) ∨
      ∃ j : Nat, s.threads[j]? = some (.enqueue (.notify ctx))

/-- Sent, being sent, waiting, and to be enqueued next, in this order. -/
def Ordered (s : State) : Prop :=
  ∀ th ∈ Thread.done :: s.threads,
    (s.shared.sent ++ th.hand ++ s.shared.queue ++ [s.shared.enqueued]).Pairwise (· < ·)

section Sections

variable {sh sh' : Shared} {ch : Choice} {th after : Thread} {spawned : List Thread}

/-- What a section without semaphores does to the queue. -/
inductive QueueStep (sh sh' : Shared) : Thread → Thread → Prop
  | keep {th after : Thread} (hqueue : sh'.queue = sh.queue) (hsent : sh'.sent = sh.sent)
      (henqueued : sh'.enqueued = sh.enqueued) (hhand : after.hand = th.hand)
      (hinHand : th.inHand → after.inHand) : QueueStep sh sh' th after
  | push {after : Thread} (hqueue : sh'.queue = sh.queue ++ [sh.enqueued])
      (hsent : sh'.sent = sh.sent) (henqueued : sh'.enqueued = sh.enqueued + 1)
      (hhand : after.hand = [])
      (hempty : sh.queue = [] → after = .enqueue (.notify sh.enqueued)) :
      QueueStep sh sh' (.enqueue .push) after
  | swap (hqueue : sh'.queue = []) (hsent : sh'.sent = sh.sent)
      (henqueued : sh'.enqueued = sh.enqueued) :
      QueueStep sh sh' (.doWrite .swap) (.doWrite (.sending sh.queue))
  | send {ctx : Nat} {rest : List Nat} {after : Thread} (hqueue : sh'.queue = sh.queue)
      (hsent : sh'.sent = sh.sent ++ [ctx]) (henqueued : sh'.enqueued = sh.enqueued)
      (hhand : after.hand = rest ∨ after.hand = []) :
      QueueStep sh sh' (.doWrite (.sending (ctx :: rest))) after
  | clear {th after : Thread} (hqueue : sh'.queue = []) (hsent : sh'.sent = sh.sent)
      (henqueued : sh'.enqueued = sh.enqueued) (hhand : th.hand = [] ∧ after.hand = []) :
      QueueStep sh sh' th after

theorem hand_resume (caller : Caller) : caller.resume.hand = [] := by
  cases caller <;> rfl

/-- Every section is one of these. -/
theorem queueStep_of_next (h : next sh ch th = some (.tau sh' after spawned)) :
    QueueStep sh sh' th after := by
  have hcancel : sh.cancelTimer.queue = sh.queue ∧ sh.cancelTimer.sent = sh.sent ∧
      sh.cancelTimer.enqueued = sh.enqueued := by
    unfold Shared.cancelTimer
    split <;> exact ⟨rfl, rfl, rfl⟩
  cases th with
  | start pc =>
      cases pc with
      | both =>
          obtain ⟨rfl, rfl, -⟩ := by simpa [next] using h
          exact .keep hcancel.1 hcancel.2.1 hcancel.2.2 rfl False.elim
      | retry =>
          simp only [next] at h
          split at h <;> cases h
          · exact .keep hcancel.1 hcancel.2.1 hcancel.2.2 rfl False.elim
          · exact .keep rfl rfl rfl rfl False.elim
      | connect =>
          simp only [next] at h
          split at h
          · cases h
            exact .keep rfl rfl rfl rfl False.elim
          · split at h <;> cases h <;> exact .keep rfl rfl rfl rfl False.elim
      | callback =>
          simp only [next] at h
          split at h <;> cases h <;> exact .keep rfl rfl rfl rfl False.elim
      | _ => cases h <;> exact .keep rfl rfl rfl rfl False.elim
  | doRead pc =>
      cases pc with
      | top =>
          simp only [next] at h
          split at h <;> cases h <;> exact .keep rfl rfl rfl rfl False.elim
      | recv => cases ch <;> cases h <;> exact .keep rfl rfl rfl rfl False.elim
      | notify => cases h
      | retry =>
          cases h
          split <;> exact .keep rfl rfl rfl rfl False.elim
  | doWrite pc =>
      cases pc with
      | top =>
          simp only [next] at h
          split at h <;> cases h <;> exact .keep rfl rfl rfl rfl False.elim
      | woken =>
          cases h
          exact .keep rfl rfl rfl rfl fun _ => trivial
      | swap =>
          cases h
          exact .swap rfl rfl rfl
      | sending ctxs =>
          cases ctxs with
          | nil =>
              cases h
              exact .keep rfl rfl rfl rfl False.elim
          | cons ctx rest =>
              cases ch with
              | success =>
                  cases h
                  exact .send rfl rfl rfl (.inl rfl)
              | failure =>
                  cases h
                  exact .send rfl rfl rfl (.inr rfl)
              | exception =>
                  cases h
                  exact .send rfl rfl rfl (.inr rfl)
      | clear =>
          cases h
          exact .clear rfl rfl rfl ⟨rfl, rfl⟩
      | _ => cases h
  | enqueue pc =>
      cases pc with
      | push =>
          cases h
          refine .push rfl rfl rfl ?_ fun hempty => if_pos hempty
          split <;> rfl
      | notify ctx => cases h
  | innerClose pc caller =>
      cases pc with
      | close =>
          cases h
          exact .keep rfl rfl rfl rfl False.elim
      | notify => cases h
      | clear =>
          cases h
          exact .clear rfl rfl rfl ⟨rfl, hand_resume caller⟩
  | done => cases h

end Sections

section Credit

variable {s s' : State} {a : Action} {connected autoConnect : Bool}

theorem waiting_of_inHand {th : Thread} (h : th.inHand) : program.waiting th = none := by
  unfold Thread.inHand at h
  split at h
  · rfl
  · rfl
  · exact h.elim

/-- A permit that fiber `i` has nothing to do with stays where it is. -/
theorem Credit.frame (hs : program.WellFormed s) (hcredit : Credit s) {i : Nat} {ch : Choice}
    {th : Thread} (hi : s.threads[i]? = some th) (hmoves : program.Moves s i ch s')
    (hidle : ¬ th.inHand ∧ ∀ ctx, th ≠ .enqueue (.notify ctx))
    (hhead : s'.shared.queue.head? = s.shared.queue.head?)
    (hsem : (s.sems .sem).concurrency ≤ (s'.sems .sem).concurrency) : Credit s' := by
  intro ctx rest hqueue
  rw [hqueue, List.head?_cons] at hhead
  obtain ⟨rest', hold⟩ := List.head?_eq_some_iff.mp hhead.symm
  rcases hcredit ctx rest' hold with hfree | ⟨j, th', hj, hinHand⟩ | ⟨j, hj⟩
  · exact .inl (Nat.lt_of_lt_of_le hfree hsem)
  · have hne : i ≠ j := by
      rintro rfl
      obtain rfl : th = th' := Option.some.inj (hi.symm.trans hj)
      exact hidle.1 hinHand
    exact .inr (.inl ⟨j, th', hmoves.getElem?_ne hs hne hj (waiting_of_inHand hinHand), hinHand⟩)
  · have hne : i ≠ j := by
      rintro rfl
      exact hidle.2 ctx (Option.some.inj (hi.symm.trans hj))
    exact .inr (.inr ⟨j, hmoves.getElem?_ne hs hne hj rfl⟩)

/-- A fiber that has the permit in hand accounts for any queue. -/
theorem credit_of_inHand (i : Nat) {th : Thread} (hi : s.threads[i]? = some th) (h : th.inHand) :
    Credit s := fun _ _ _ => .inr (.inl ⟨i, th, hi, h⟩)

theorem credit_moves (hs : program.WellFormed s) (hcredit : Credit s) {i : Nat} {ch : Choice}
    (hmoves : program.Moves s i ch s') : Credit s' := by
  have hmoves' := hmoves
  cases hmoves with
  | @acquire th k blocked acquired hi hnext hfree =>
      obtain ⟨hlt, -⟩ := List.getElem?_eq_some_iff.mp hi
      rcases next_wait hnext with ⟨rfl, rfl, -, rfl⟩ | ⟨rfl, rfl, -, rfl⟩ | ⟨rfl, rfl, -, rfl⟩
      · exact hcredit.frame hs hi hmoves' ⟨id, by simp⟩ rfl (Nat.le_refl _)
      · exact hcredit.frame hs hi hmoves' ⟨id, by simp⟩ rfl (Nat.le_refl _)
      · exact credit_of_inHand i (List.getElem?_set_self hlt) trivial
  | @block th k blocked acquired hi hnext hfree =>
      rcases next_wait hnext with ⟨rfl, rfl, rfl, -⟩ | ⟨rfl, rfl, rfl, -⟩ | ⟨rfl, rfl, rfl, -⟩
      · exact hcredit.frame hs hi hmoves' ⟨id, by simp⟩ rfl (Nat.le_refl _)
      · exact hcredit.frame hs hi hmoves' ⟨id, by simp⟩ rfl (Nat.le_refl _)
      · exact hcredit.frame hs hi hmoves' ⟨id, by simp⟩ rfl (Nat.le_refl _)
  | @handOver th k after j rest hi hnext hwaiters =>
      rcases next_notify hnext with ⟨rfl, hcase⟩ | ⟨rfl, -⟩
      · refine hcredit.frame hs hi hmoves' ?_ rfl (Nat.le_refl _)
        rcases hcase with ⟨rfl, -⟩ | ⟨rfl, -⟩ | ⟨rfl, -⟩ | ⟨rfl, -⟩ <;> exact ⟨id, by simp⟩
      · -- The permit goes to the writer, who is the only fiber that waits on `_sem`.
        obtain ⟨th', hj, hwaiting⟩ := hs.first_waiter hwaiters
        obtain ⟨hget, hmodify⟩ :=
          Program.woken_entry after (Program.not_waiting hi hnext) hj hwaiting
        obtain ⟨hlt, -⟩ := List.getElem?_eq_some_iff.mp hget
        have hwriter : th' = .doWrite .blocked := by
          change th'.waiting = some .sem at hwaiting
          unfold Thread.waiting at hwaiting
          split at hwaiting <;> first | rfl | cases hwaiting
        have hwoken : Thread.inHand (.doWrite .woken) := trivial
        refine credit_of_inHand j ?_ hwoken
        show ((s.threads.set i after).modify j program.wake)[j]? = _
        rw [hmodify, List.getElem?_set_self hlt, hwriter]
        rfl
  | @release th k after hi hnext hwaiters =>
      rcases next_notify hnext with ⟨rfl, hcase⟩ | ⟨rfl, -⟩
      · refine hcredit.frame hs hi hmoves' ?_ rfl (Nat.le_refl _)
        rcases hcase with ⟨rfl, -⟩ | ⟨rfl, -⟩ | ⟨rfl, -⟩ | ⟨rfl, -⟩ <;> exact ⟨id, by simp⟩
      · exact fun _ _ _ => .inl (Nat.succ_pos _)
  | @tau th shared after spawned hi hnext =>
      obtain ⟨hlt, -⟩ := List.getElem?_eq_some_iff.mp hi
      have hget : (s.threads.set i after ++ spawned)[i]? = some after := by
        rw [List.getElem?_append_left (by simpa using hlt), List.getElem?_set_self hlt]
      cases queueStep_of_next hnext with
      | keep hqueue _ _ _ hinHand =>
          by_cases hhas : th.inHand
          · exact credit_of_inHand i hget (hinHand hhas)
          · refine hcredit.frame hs hi hmoves' ⟨hhas, ?_⟩ (congrArg List.head? hqueue)
              (Nat.le_refl _)
            rintro ctx rfl
            cases hnext
      | push hqueue _ _ _ hempty =>
          cases hold : s.shared.queue with
          | nil =>
              -- This call fills the queue, and its notify is still to come.
              intro ctx rest hctx
              change shared.queue = ctx :: rest at hctx
              rw [hqueue, hold, List.nil_append] at hctx
              obtain ⟨rfl, -⟩ := List.cons.inj hctx
              exact .inr (.inr ⟨i, hempty hold ▸ hget⟩)
          | cons ctx rest =>
              refine hcredit.frame hs hi hmoves' ⟨id, by simp⟩ ?_ (Nat.le_refl _)
              show shared.queue.head? = _
              rw [hqueue, hold]
              rfl
      | swap hqueue =>
          intro ctx rest hctx
          change shared.queue = ctx :: rest at hctx
          rw [hqueue] at hctx
          cases hctx
      | send hqueue =>
          exact hcredit.frame hs hi hmoves' ⟨id, by simp⟩ (congrArg List.head? hqueue)
            (Nat.le_refl _)
      | clear hqueue =>
          intro ctx rest hctx
          change shared.queue = ctx :: rest at hctx
          rw [hqueue] at hctx
          cases hctx

theorem credit_step (hs : program.WellFormed s) (hcredit : Credit s) (h : step s a = some s') :
    Credit s' := by
  rcases step_cases h with ⟨sh, th, rfl, -, hqueue, -⟩ | ⟨sh, rfl, hqueue, -⟩ | ⟨i, ch, -, hmoves⟩
  · intro ctx rest hctx
    change sh.queue = ctx :: rest at hctx
    rw [hqueue] at hctx
    have happend : ∀ {j : Nat} {th' : Thread}, s.threads[j]? = some th' →
        (s.threads ++ [th])[j]? = some th' := fun hj => by
      obtain ⟨hlt, -⟩ := List.getElem?_eq_some_iff.mp hj
      rw [List.getElem?_append_left hlt, hj]
    rcases hcredit ctx rest hctx with hfree | ⟨j, th', hj, hinHand⟩ | ⟨j, hj⟩
    · exact .inl hfree
    · exact .inr (.inl ⟨j, th', happend hj, hinHand⟩)
    · exact .inr (.inr ⟨j, happend hj⟩)
  · intro ctx rest hctx
    exact hcredit ctx rest (hqueue ▸ hctx)
  · exact credit_moves hs hcredit hmoves

end Credit

section Order

variable {s s' : State} {a : Action} {connected autoConnect : Bool}

theorem Ordered.nil (h : Ordered s) :
    (s.shared.sent ++ [] ++ s.shared.queue ++ [s.shared.enqueued]).Pairwise (· < ·) :=
  h .done List.mem_cons_self

/-- The queue is unchanged, and no fiber has contexts in hand that it did not have before. -/
theorem Ordered.frame (h : Ordered s) (hqueue : s'.shared.queue = s.shared.queue)
    (hsent : s'.shared.sent = s.shared.sent) (henqueued : s'.shared.enqueued = s.shared.enqueued)
    (hhands : ∀ th ∈ s'.threads, th.hand = [] ∨ ∃ th' ∈ s.threads, th.hand = th'.hand) :
    Ordered s' := by
  intro th hth
  rw [hqueue, hsent, henqueued]
  rcases List.mem_cons.mp hth with rfl | hth
  · exact h.nil
  · rcases hhands th hth with hnil | ⟨th', hmem, hsame⟩
    · rw [hnil]
      exact h.nil
    · rw [hsame]
      exact h th' (List.mem_cons_of_mem _ hmem)

theorem hand_of_spawned {sh sh' : Shared} {ch : Choice} {th after : Thread} {spawned : List Thread}
    (h : next sh ch th = some (.tau sh' after spawned)) : ∀ th' ∈ spawned, th'.hand = [] := by
  rcases role_tau h with ⟨-, rfl⟩ | ⟨-, -, rfl⟩ | ⟨-, -, rfl⟩ <;> simp [Thread.hand]

/-- The other fibers have nothing in hand while the writer is sending. -/
theorem Accounted.only_hand (hs : Accounted s) {i j : Nat} {ctxs : List Nat} {th : Thread}
    (hi : s.threads[i]? = some (.doWrite (.sending ctxs))) (hj : s.threads[j]? = some th)
    (hne : i ≠ j) : th.hand = [] := by
  by_contra hhand
  have hrole : th.role = .writer := by
    unfold Thread.hand at hhand
    split at hhand
    · rfl
    · exact absurd rfl hhand
  have hle := add_le_total (f := weigh Role.isWriter) hi hj hne
  have hone : weigh Role.isWriter th = 1 := by rw [weigh, hrole]; rfl
  have hone' : weigh Role.isWriter (.doWrite (.sending ctxs)) = 1 := rfl
  have hwriters := hs.writers_le
  rw [writers] at hwriters
  omega

theorem pairwise_push {l : List Nat} {n : Nat} (h : (l ++ [n]).Pairwise (· < ·)) :
    (l ++ [n] ++ [n + 1]).Pairwise (· < ·) := by
  rw [List.pairwise_append]
  refine ⟨h, List.pairwise_singleton _ _, fun x hx y hy => ?_⟩
  obtain rfl := List.mem_singleton.mp hy
  rcases List.mem_append.mp hx with hx | hx
  · exact Nat.lt_succ_of_lt ((List.pairwise_append.mp h).2.2 x hx n (List.mem_singleton_self n))
  · rw [List.mem_singleton.mp hx]
    exact Nat.lt_succ_self n

/-- A fiber that has called `notify` has no contexts in hand. -/
theorem hand_of_notify {sh : Shared} {ch : Choice} {th after : Thread} {k : Semaphore}
    (h : next sh ch th = some (.notify k after)) : after.hand = [] := by
  rcases next_notify h with ⟨-, hcase⟩ | ⟨-, hcase⟩
  · rcases hcase with ⟨-, rfl⟩ | ⟨-, rfl⟩ | ⟨-, rfl⟩ | ⟨-, rfl⟩ <;> rfl
  · rcases hcase with ⟨ctx, -, rfl⟩ | ⟨caller, -, rfl⟩ <;> rfl

theorem hand_of_wake {th : Thread} {k : Semaphore} (h : program.waiting th = some k) :
    (program.wake th).hand = [] := by
  change th.waiting = some k at h
  unfold Thread.waiting at h
  split at h <;> first | rfl | cases h

/-- A section without semaphores keeps the order. -/
theorem ordered_section (hs : Accounted s) (hordered : Ordered s) {i : Nat} {th after : Thread}
    {shared : Shared} {spawned : List Thread} (hi : s.threads[i]? = some th)
    (hstep : QueueStep s.shared shared th after) (hspawned : ∀ th' ∈ spawned, th'.hand = []) :
    Ordered { s with shared := shared, threads := s.threads.set i after ++ spawned } := by
  have hhands : ∀ th' ∈ Thread.done :: (s.threads.set i after ++ spawned),
      th'.hand = [] ∨ th' = after ∨ ∃ j : Nat, i ≠ j ∧ s.threads[j]? = some th' := by
    intro th' hth'
    rcases List.mem_cons.mp hth' with rfl | hth'
    · exact .inl rfl
    · rcases List.mem_append.mp hth' with hmem | hmem
      · obtain ⟨j, hj⟩ := List.mem_iff_getElem?.mp hmem
        rcases Foundation.getElem?_of_set hj with ⟨-, rfl⟩ | ⟨hne, hj⟩
        · exact .inr (.inl rfl)
        · exact .inr (.inr ⟨j, hne.symm, hj⟩)
      · exact .inl (hspawned th' hmem)
  have hself := hordered th (List.mem_cons_of_mem _ (List.mem_of_getElem? hi))
  cases hstep with
  | keep hqueue hsent henqueued hhand _ =>
      refine hordered.frame hqueue hsent henqueued fun th' hth' => ?_
      rcases hhands th' (List.mem_cons_of_mem _ hth') with hnil | rfl | ⟨j, -, hj⟩
      · exact .inl hnil
      · exact .inr ⟨th, List.mem_of_getElem? hi, hhand⟩
      · exact .inr ⟨th', List.mem_of_getElem? hj, rfl⟩
  | push hqueue hsent henqueued hhand _ =>
      intro th' hth'
      show (shared.sent ++ th'.hand ++ shared.queue ++ [shared.enqueued]).Pairwise (· < ·)
      rw [hqueue, hsent, henqueued, ← List.append_assoc]
      refine pairwise_push ?_
      rcases hhands th' hth' with hnil | rfl | ⟨j, -, hj⟩
      · rw [hnil]
        exact hordered.nil
      · rw [hhand]
        exact hordered.nil
      · exact hordered th' (List.mem_cons_of_mem _ (List.mem_of_getElem? hj))
  | swap hqueue hsent henqueued =>
      intro th' hth'
      show (shared.sent ++ th'.hand ++ shared.queue ++ [shared.enqueued]).Pairwise (· < ·)
      rw [hqueue, hsent, henqueued]
      rcases hhands th' hth' with hnil | rfl | ⟨j, -, hj⟩
      · rw [hnil]
        exact hordered.nil.sublist (by simp)
      · -- The queue moves into the hand of the writer.
        have hnil := hordered.nil
        rw [List.append_nil] at hnil
        rw [List.append_nil]
        exact hnil
      · exact (hordered th' (List.mem_cons_of_mem _ (List.mem_of_getElem? hj))).sublist (by simp)
  | @send ctx rest _ hqueue hsent henqueued hhand =>
      intro th' hth'
      show (shared.sent ++ th'.hand ++ shared.queue ++ [shared.enqueued]).Pairwise (· < ·)
      rw [hqueue, hsent, henqueued]
      have hrest : th'.hand = rest ∨ th'.hand = [] := by
        rcases hhands th' hth' with hnil | rfl | ⟨j, hne, hj⟩
        · exact .inr hnil
        · exact hhand
        · exact .inr (hs.only_hand hi hj hne)
      refine hself.sublist ?_
      rcases hrest with hrest | hnil
      · rw [hrest]
        simp [Thread.hand]
      · rw [hnil]
        simp [Thread.hand]
  | clear hqueue hsent henqueued hhand =>
      intro th' hth'
      show (shared.sent ++ th'.hand ++ shared.queue ++ [shared.enqueued]).Pairwise (· < ·)
      rw [hqueue, hsent, henqueued]
      rcases hhands th' hth' with hnil | rfl | ⟨j, -, hj⟩
      · rw [hnil]
        exact hordered.nil.sublist (by simp)
      · rw [hhand.2]
        exact hordered.nil.sublist (by simp)
      · exact (hordered th' (List.mem_cons_of_mem _ (List.mem_of_getElem? hj))).sublist (by simp)

theorem ordered_moves (hs : Accounted s) (hordered : Ordered s) {i : Nat} {ch : Choice}
    (hmoves : program.Moves s i ch s') : Ordered s' := by
  have hset : ∀ {after : Thread}, after.hand = [] → ∀ th ∈ s.threads.set i after,
      th.hand = [] ∨ ∃ th' ∈ s.threads, th.hand = th'.hand := by
    intro after hafter th hth
    rcases List.mem_or_eq_of_mem_set hth with hmem | rfl
    · exact .inr ⟨th, hmem, rfl⟩
    · exact .inl hafter
  cases hmoves with
  | acquire hi hnext hfree =>
      refine hordered.frame rfl rfl rfl (hset ?_)
      rcases next_wait hnext with ⟨-, -, -, rfl⟩ | ⟨-, -, -, rfl⟩ | ⟨-, -, -, rfl⟩ <;> rfl
  | block hi hnext hfree =>
      refine hordered.frame rfl rfl rfl (hset ?_)
      rcases next_wait hnext with ⟨-, -, rfl, -⟩ | ⟨-, -, rfl, -⟩ | ⟨-, -, rfl, -⟩ <;> rfl
  | @handOver th k after j rest hi hnext hwaiters =>
      obtain ⟨th', hj, hwaiting⟩ := hs.wellFormed.first_waiter hwaiters
      obtain ⟨-, hmodify⟩ := Program.woken_entry after (Program.not_waiting hi hnext) hj hwaiting
      refine hordered.frame rfl rfl rfl fun th₁ hth₁ => ?_
      change th₁ ∈ (s.threads.set i after).modify j program.wake at hth₁
      rw [hmodify] at hth₁
      rcases List.mem_or_eq_of_mem_set hth₁ with hmem | rfl
      · exact hset (hand_of_notify hnext) th₁ hmem
      · exact .inl (hand_of_wake hwaiting)
  | release hi hnext hwaiters =>
      exact hordered.frame rfl rfl rfl (hset (hand_of_notify hnext))
  | tau hi hnext =>
      exact ordered_section hs hordered hi (queueStep_of_next hnext) (hand_of_spawned hnext)

theorem ordered_step (hs : Accounted s) (hordered : Ordered s) (h : step s a = some s') :
    Ordered s' := by
  rcases step_cases h with ⟨sh, th, rfl, hth, hqueue, henqueued, hsent⟩ |
    ⟨sh, rfl, hqueue, henqueued, hsent⟩ | ⟨i, ch, -, hmoves⟩
  · refine hordered.frame hqueue hsent henqueued fun th' hth' => ?_
    rcases List.mem_append.mp hth' with hmem | hmem
    · exact .inr ⟨th', hmem, rfl⟩
    · rw [List.mem_singleton.mp hmem]
      fin_cases hth <;> exact .inl rfl
  · exact hordered.frame hqueue hsent henqueued fun th' hth' => .inr ⟨th', hth', rfl⟩
  · exact ordered_moves hs hordered hmoves

theorem reachable_queue (h : Reachable connected autoConnect s) :
    Accounted s ∧ Credit s ∧ Ordered s := by
  refine Reach.invariant (P := fun s => Accounted s ∧ Credit s ∧ Ordered s) ?_ ?_ h
  · refine ⟨init_accounted, ?_, ?_⟩
    · intro ctx rest hqueue
      cases hqueue
    · intro th hth
      obtain rfl : th = .done := by simpa [init] using hth
      exact List.pairwise_singleton _ _
  · intro s s' a _ hs _ hstep
    exact ⟨step_accounted hs.1 hstep, credit_step hs.1.wellFormed hs.2.1 hstep,
      ordered_step hs.1 hs.2.2 hstep⟩

/-- **No wake-up is lost, and contexts are sent in order.**  While the writer is inside the `wait`
of `_sem` and the queue is not empty, a permit is free, or the writer has been woken, or the
`enqueue` that filled the queue has still to notify.  The contexts are sent in the order in which
they were enqueued, each at most once. -/
theorem queue_served (h : Reachable connected autoConnect s) :
    (∀ (i : Nat) (pc : WritePc), s.threads[i]? = some (.doWrite pc) → pc = .blocked ∨ pc = .woken →
      ∀ ctx rest, s.shared.queue = ctx :: rest →
        0 < (s.sems .sem).concurrency ∨ pc = .woken ∨
          ∃ j : Nat, s.threads[j]? = some (.enqueue (.notify ctx))) ∧
      s.shared.sent.Pairwise (· < ·) ∧ ∀ ctx ∈ s.shared.sent, ctx < s.shared.enqueued := by
  obtain ⟨hs, hcredit, hordered⟩ := reachable_queue h
  have hsorted := hordered.nil
  rw [List.append_nil, List.append_assoc, List.pairwise_append] at hsorted
  refine ⟨fun i pc hi hpc ctx rest hqueue => ?_, hsorted.1,
    fun ctx hctx => hsorted.2.2 ctx hctx _ (by simp)⟩
  rcases hcredit ctx rest hqueue with hfree | ⟨j, th, hj, hinHand⟩ | hnotify
  · exact .inl hfree
  · rcases hpc with rfl | rfl
    · -- The fiber with the permit in hand is a writer, and there is only one.
      have hne : i ≠ j := by
        rintro rfl
        obtain rfl := Option.some.inj (hi.symm.trans hj)
        exact hinHand
      have hrole : weigh Role.isWriter th = 1 := by
        unfold Thread.inHand at hinHand
        split at hinHand <;> first | rfl | exact hinHand.elim
      have hle := add_le_total (f := weigh Role.isWriter) hi hj hne
      have hone : weigh Role.isWriter (.doWrite .blocked) = 1 := rfl
      have hwriters := hs.writers_le
      rw [writers] at hwriters
      omega
    · exact .inr (.inl rfl)
  · exact .inr (.inr hnotify)

end Order

/-- The writer is blocked, and an `enqueue` has filled the queue and not yet notified. -/
def beforeNotify : List Action :=
  [.start, .run 0 .success, .run 0 .success, .run 0 .success, .run 0 .success, .run 0 .success,
    .run 0 .success, .run 0 .success, .run 2 .success, .run 2 .success, .enqueue, .run 3 .success]

theorem queue_served_beforeNotify :
    ∃ s, runActions step beforeNotify (init true false) = some s ∧
      (∀ (i : Nat) (pc : WritePc), s.threads[i]? = some (.doWrite pc) →
        pc = .blocked ∨ pc = .woken → ∀ ctx rest, s.shared.queue = ctx :: rest →
          0 < (s.sems .sem).concurrency ∨ pc = .woken ∨
            ∃ j : Nat, s.threads[j]? = some (.enqueue (.notify ctx))) ∧
        s.shared.sent.Pairwise (· < ·) ∧ ∀ ctx ∈ s.shared.sent, ctx < s.shared.enqueued := by
  have hsome : (runActions step beforeNotify (init true false)).isSome := by decide
  obtain ⟨s, hs⟩ := Option.isSome_iff_exists.mp hsome
  exact ⟨s, hs, queue_served (reach_of_runActions beforeNotify hs (by decide))⟩

end AsyncSocketStream
end Routn
