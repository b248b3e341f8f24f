import Mathlib.Tactic
import Routn.Foundation.Table
import Routn.Ns.ClientSections

/-!
# The view of an `NSClient`

Nothing keeps a snapshot from being swapped in behind a notification that was sent after it, and a
notification may go on with a domain that has been swapped out.  The view is the registry in the end
as long as each section is in order with what is left of the messages (`current_of_orderly`).
-/

namespace Routn
namespace Ns
namespace NSClient

open Foundation Write

/-! ## Runs -/

section Run

variable (hasQueryDomain : String → Bool)

/-- What is left of all messages. -/
def left (s : State) : List (Write Key (Option NSNode)) :=
  s.fibers.flatMap (Fiber.writes hasQueryDomain s.client) ++
    s.wire.flatMap (Message.writes hasQueryDomain)

/-- **The invariant**: what is left of the messages makes the view the registry. -/
structure Inv (s : State) : Prop where
  sound : s.client.Sound
  knows : ∀ fiber ∈ s.fibers, fiber.Knows s.client
  told : s.subscribed = true → replay (left hasQueryDomain s) s.client.view = s.registry

variable {hasQueryDomain} {s s' : State} {a : Act}

theorem Inv.current (h : Inv hasQueryDomain s) : Current s := by
  intro hsubscribed hsettled
  have hdone : ∀ fiber ∈ s.fibers, fiber.writes hasQueryDomain s.client = [] := by
    intro fiber hfiber
    simp [hsettled.2 fiber hfiber, Fiber.writes, Fiber.inHand, Fiber.waiting]
  have hleft : left hasQueryDomain s = [] := by
    simpa [left, hsettled.1] using hdone
  simpa [hleft] using h.told hsubscribed

/-- What is left in front of and behind a fiber. -/
theorem left_eq {i : Nat} {fiber : Fiber} (hi : s.fibers[i]? = some fiber) :
    left hasQueryDomain s = earlier (Fiber.writes hasQueryDomain s.client) s i ++
      (fiber.writes hasQueryDomain s.client ++
        later hasQueryDomain (Fiber.writes hasQueryDomain s.client) s i) := by
  simp [left, earlier, later, flatMap_of_getElem? _ hi]

theorem left_set {i : Nat} {fiber fiber' : Fiber} {client : Client}
    (hi : s.fibers[i]? = some fiber) :
    left hasQueryDomain { s with client, fibers := s.fibers.set i fiber' } =
      earlier (Fiber.writes hasQueryDomain client) s i ++
        (fiber'.writes hasQueryDomain client ++
          later hasQueryDomain (Fiber.writes hasQueryDomain client) s i) := by
  simp [left, earlier, later, flatMap_set _ hi]

/-- The other fibers have this left. -/
theorem earlier_congr {left left' : Fiber → List (Write Key (Option NSNode))} {i : Nat}
    (h : ∀ fiber ∈ s.fibers, left fiber = left' fiber) : earlier left s i = earlier left' s i := by
  unfold earlier
  exact List.flatMap_congr fun fiber hfiber => h fiber (List.mem_of_mem_take hfiber)

theorem later_congr {left left' : Fiber → List (Write Key (Option NSNode))} {i : Nat}
    (h : ∀ fiber ∈ s.fibers, left fiber = left' fiber) :
    later hasQueryDomain left s i = later hasQueryDomain left' s i := by
  unfold later
  rw [List.flatMap_congr fun fiber hfiber => h fiber (List.mem_of_mem_drop hfiber)]

/-- A snapshot is swapped in. -/
theorem told_swap {i : Nat} {infos : List NodeInfo} (h : Inv hasQueryDomain s)
    (hi : s.fibers[i]? = some (.swapping infos)) (horder : OrderlySwap hasQueryDomain s i infos) :
    replay (left hasQueryDomain { s with
        client := swap hasQueryDomain s.client infos
        fibers := s.fibers.set i .returned }) (swap hasQueryDomain s.client infos).view =
      replay (left hasQueryDomain s) s.client.view := by
  have hwrites : ∀ fiber ∈ s.fibers,
      fiber.writes hasQueryDomain (swap hasQueryDomain s.client infos) =
        fiber.waiting hasQueryDomain :=
    fun fiber hfiber => writes_swap (h.knows fiber hfiber) infos
  ext k : 1
  obtain ⟨hlater, hk⟩ := horder k
  rw [left_set hi, left_eq hi, earlier_congr hwrites, later_congr hwrites,
    (swap_builds hasQueryDomain h.sound infos).view, replay_eq, replay_eq, replay_eq]
  simp only [last_append, hlater, Fiber.writes, Fiber.inHand, Fiber.waiting]
  cases hlast : last (later hasQueryDomain (Fiber.waiting hasQueryDomain) s i) k with
  | some a => simp
  | none =>
      have hfront : (last (earlier (Fiber.waiting hasQueryDomain) s i) k).getD
          (snapshot hasQueryDomain infos k) = snapshot hasQueryDomain infos k := by
        simpa [hlast] using hk
      simpa [value] using hfront

/-- A section of another fiber. -/
theorem told_section {i : Nat} {fiber fiber' : Fiber} {client : Client}
    (h : Inv hasQueryDomain s) (hi : s.fibers[i]? = some fiber)
    (hswap : ∀ infos, fiber ≠ .swapping infos) (horder : OrderlySection hasQueryDomain s i fiber)
    (hnext : next hasQueryDomain s.client fiber = some (client, fiber')) :
    replay (left hasQueryDomain { s with client, fibers := s.fibers.set i fiber' }) client.view =
      replay (left hasQueryDomain s) s.client.view := by
  have hknows := h.knows fiber (List.mem_of_getElem? hi)
  have hwrites : ∀ other ∈ s.fibers,
      other.writes hasQueryDomain client = other.writes hasQueryDomain s.client :=
    fun other hother => writes_other (h.knows other hother) hswap hnext
  have hown := writes_next h.sound hnext
  have hbehind : behind hasQueryDomain s i fiber = fiber'.writes hasQueryDomain client ++
      later hasQueryDomain (Fiber.writes hasQueryDomain s.client) s i := by
    simp [behind, hown]
  ext k : 1
  have hk := horder k
  rw [left_set hi, left_eq hi, earlier_congr hwrites, later_congr hwrites, hown, List.append_assoc,
    ← hbehind, replay_eq, replay_eq]
  simp only [last_append]
  cases hlast : last (behind hasQueryDomain s i fiber) k with
  | some a => simp
  | none =>
      simp only [hlast, Option.isSome_none, Bool.false_eq_true, false_or] at hk
      cases hfront : last (earlier (Fiber.writes hasQueryDomain s.client) s i) k with
      | none =>
          rw [hfront] at hk
          simp [view_next h.sound hknows hk hnext, replay_eq]
      | some a =>
          rw [hfront] at hk
          cases hdue : last (fiber.due hasQueryDomain s.client) k with
          | none => simp
          | some b => simp [hk b hdue]

/-- A fiber runs its next section. -/
theorem Inv.run {i : Nat} {fiber fiber' : Fiber} {client : Client} (h : Inv hasQueryDomain s)
    (hi : s.fibers[i]? = some fiber) (horder : Orderly hasQueryDomain s (.run i))
    (hnext : next hasQueryDomain s.client fiber = some (client, fiber')) :
    Inv hasQueryDomain { s with client, fibers := s.fibers.set i fiber' } := by
  have hmem := List.mem_of_getElem? hi
  obtain ⟨hsound, hgrows, hknows⟩ := next_sound h.sound (h.knows fiber hmem) hnext
  constructor
  · exact hsound
  · intro other hother
    rcases List.mem_or_eq_of_mem_set hother with hold | rfl
    · exact (h.knows other hold).mono hgrows
    · exact hknows
  · intro hsubscribed
    have hfiber := horder fiber hi
    refine Eq.trans ?_ (h.told hsubscribed)
    cases fiber with
    | swapping infos =>
        cases hnext
        exact told_swap h hi hfiber
    | notify tasks => exact told_section h hi (by simp) hfiber hnext
    | working domain obj th calls tasks => exact told_section h hi (by simp) hfiber hnext
    | returned => cases hnext

theorem Inv.step (h : Inv hasQueryDomain s) (hhonest : Honest hasQueryDomain s a)
    (horder : Orderly hasQueryDomain s a) (hstep : step hasQueryDomain s a = some s') :
    Inv hasQueryDomain s' := by
  cases a with
  | change nm =>
      cases hstep
      refine ⟨h.sound, h.knows, fun hsubscribed => ?_⟩
      have htold := h.told hsubscribed
      have hsent : s.subscribed = true := hsubscribed
      simp only [left, hsent, if_true, List.flatMap_append, replay_append] at htold ⊢
      rw [htold]
      simp [Message.writes]
  | query =>
      cases hstep
      exact ⟨h.sound, h.knows, h.told⟩
  | serve infos =>
      simp only [NSClient.step] at hstep
      split at hstep
      · cases hstep
      · cases hstep
        refine ⟨h.sound, h.knows, fun _ => ?_⟩
        have hsame : snapshot hasQueryDomain infos = s.registry := hhonest
        simp [left, Message.writes, apply, hsame]
  | doRecv =>
      simp only [NSClient.step] at hstep
      split at hstep
      · cases hstep
      · next infos wire hwire =>
          cases hstep
          refine ⟨h.sound, ?_, fun hsubscribed => ?_⟩
          · simpa [or_imp, forall_and] using ⟨h.knows, trivial⟩
          · have htold := h.told hsubscribed
            simpa [left, hwire, Fiber.writes, Fiber.inHand, Fiber.waiting, Message.writes]
              using htold
      · next nm wire hwire =>
          cases hstep
          refine ⟨h.sound, ?_, fun hsubscribed => ?_⟩
          · simpa [or_imp, forall_and] using ⟨h.knows, trivial⟩
          · have htold := h.told hsubscribed
            simpa [left, hwire, Fiber.writes, Fiber.inHand, Fiber.waiting, Message.writes,
              NotifyMessage.writes] using htold
  | run i =>
      simp only [NSClient.step] at hstep
      split at hstep
      · cases hstep
      · next fiber hi =>
          split at hstep
          · cases hstep
          · next client fiber' hnext =>
              cases hstep
              exact h.run hi horder hnext

theorem inv_start : Inv hasQueryDomain {} := by
  constructor
  · exact Client.sound_empty
  · simp
  · simp

end Run

/-- A node at `127.0.0.1:80`. -/
def oneNode : NSNode := NSNode.new (fun _ => 0x0100007F) "127.0.0.1" 80 1

/-- The query is answered when the registry is empty, and then it gets a node.  The notification of
it is dealt with before the response is. -/
def overtaken : List Act := [
  .query, .serve [], .change ⟨[], [⟨"a", 7, [oneNode]⟩]⟩, .doRecv, .doRecv, .run 1, .run 1, .run 1,
  .run 1, .run 1, .run 1, .run 1, .run 0]

end NSClient
end Ns
end Routn
