import Mathlib.Tactic
import Routn.Http.WSReceive

/-!
# A message in fragments

The frames of one message as the peer sends them, with control frames between the fragments, and
what `WSRecvMessage` makes of them.  Of a control frame it reads the two bytes of the head only:
a mask or a payload behind them is taken for further heads.  `Inert` bytes are passed over all the
same.
-/

namespace Routn
namespace Http

open Foundation Duplex

/-! ## The frames of a message -/

/-- A frame as the peer sends it; the mask is used towards a server. -/
structure WSFrame where
  opcode : BitVec 4
  fin : Bool
  data : List UInt8
  mask : List UInt8
  length_mask : mask.length = 4

namespace WSFrame

variable (frame : WSFrame) (client : Bool)

def IsControl : Prop := frame.opcode = WSFrameHead.PING ∨ frame.opcode = WSFrameHead.PONG

instance : Decidable frame.IsControl := inferInstanceAs (Decidable (_ ∨ _))

/-- A PING or a PONG of a legal form. -/
structure Control : Prop where
  opcode : frame.IsControl
  fin : frame.fin = true
  length : frame.data.length ≤ 125

/-- The head of the frame, sent to a receiver of the given role. -/
def head : WSFrameHead where
  fin := frame.fin
  opcode := frame.opcode
  mask := !client
  payload := payloadField frame.data.length

/-- The mask and the payload as they are sent. -/
def trail : List UInt8 :=
  maskBytes (!client) frame.mask ++ if client then frame.data else xorMask frame.mask 0 frame.data

def bytes : List UInt8 :=
  (frame.head client).bytes ++
    (lengthBytes (payloadField frame.data.length) frame.data.length ++ frame.trail client)

/-- What the frame adds to the message. -/
def content : List UInt8 :=
  if frame.IsControl then [] else frame.data

/-- What the receiver answers. -/
def answer : List UInt8 :=
  if frame.opcode = WSFrameHead.PING then (controlHead WSFrameHead.PONG).bytes else []

end WSFrame

/-- The frames that are still to come of a message whose next fragment has this opcode: control
frames anywhere in front of a fragment, and `fin` on the last fragment only. -/
inductive Forms : BitVec 4 → List WSFrame → Prop
  | control {opcode : BitVec 4} {frame : WSFrame} {frames : List WSFrame} (hcontrol : frame.Control)
      (h : Forms opcode frames) : Forms opcode (frame :: frames)
  | more {frame : WSFrame} {frames : List WSFrame} (hfin : frame.fin = false)
      (h : Forms WSFrameHead.CONTINUE frames) : Forms frame.opcode (frame :: frames)
  | last {frame : WSFrame} (hfin : frame.fin = true) : Forms frame.opcode [frame]

def messageBytes (client : Bool) (frames : List WSFrame) : List UInt8 :=
  frames.flatMap fun frame => frame.bytes client

/-- The payload of the message. -/
def content (frames : List WSFrame) : List UInt8 := frames.flatMap WSFrame.content

/-- One PONG for each PING. -/
def answers (frames : List WSFrame) : List UInt8 := frames.flatMap WSFrame.answer

/-- Bytes that the receiver passes over, two at a time, as heads of no interest. -/
inductive Inert : List UInt8 → Prop
  | nil : Inert []
  | pair {head : WSFrameHead} {rest : List UInt8} (hop : Passed head.opcode) (h : Inert rest) :
      Inert (head.bytes ++ rest)

def FragmentsNonempty (frames : List WSFrame) : Prop :=
  ∀ frame ∈ frames, ¬ frame.IsControl → frame.data ≠ []

/-- The bytes behind the head of a control frame, its mask and its payload, are inert. -/
def TrailsInert (client : Bool) (frames : List WSFrame) : Prop :=
  ∀ frame ∈ frames, frame.IsControl → Inert (frame.trail client)

/-! ## One frame -/

section Receive

variable (chunk : Nat → Nat) (maxSize : UInt32) {client : Bool} {recv : Received} {d : Duplex}
  {frame : WSFrame} {rest outbound : List UInt8} {closed : Bool}

theorem WSFrame.isControl_or_passed (hcontrol : frame.IsControl) :
    frame.opcode = WSFrameHead.PING ∨ Passed frame.opcode := by
  rcases hcontrol with h | h
  · exact .inl h
  · exact .inr (by rw [h, Passed]; decide)

/-- A data frame is what the receiver takes up to its payload. -/
theorem WSFrame.frameStart (client : Bool) (rest : List UInt8)
    (hop : frame.opcode = WSFrameHead.CONTINUE ∨ frame.opcode = WSFrameHead.TEXT_FRAME ∨
      frame.opcode = WSFrameHead.BIN_FRAME) (hsize : frame.data.length < 2 ^ 64) :
    FrameStart client (frame.head client) frame.data.length
      (if client then List.replicate 4 0 else frame.mask)
      ((if client then frame.data else xorMask frame.mask 0 frame.data) ++ rest)
      (frame.bytes client ++ rest) where
  opcode := hop
  masked := by cases client <;> simp [WSFrame.head]
  announces := announces_payloadField hsize
  maskFor := by cases client <;> simp [MaskFor, WSFrame.head, frame.length_mask]
  inbound := by
    simp only [WSFrame.bytes, WSFrame.trail, WSFrame.head, List.append_assoc]
    cases client <;> rfl

theorem WSFrame.decoded_body (frame : WSFrame) (client : Bool) :
    decoded (frame.head client) (if client then List.replicate 4 0 else frame.mask)
      (if client then frame.data else xorMask frame.mask 0 frame.data) = frame.data := by
  cases client with
  | true => rfl
  | false => exact xorMask_xorMask _ _ _

/-- **A fragment** is taken exactly when it is not empty and the sum is below the maximum. -/
theorem turn_fragment (h : recv.Inv)
    (hop : frame.opcode = WSFrameHead.CONTINUE ∨ frame.opcode = WSFrameHead.TEXT_FRAME ∨
      frame.opcode = WSFrameHead.BIN_FRAME)
    (hsum : recv.data.length + frame.data.length < 2 ^ 31)
    (hat : d.At (frame.bytes client ++ rest) outbound closed) :
    if frame.data ≠ [] ∧ recv.data.length + frame.data.length < maxSize.toNat then
      ∃ d', d'.At rest outbound closed ∧ turn chunk maxSize client recv d =
        .ok (if frame.fin then
            .message ⟨(recv.add (frame.head client) frame.data).opcode, recv.data ++ frame.data⟩
          else .again (recv.add (frame.head client) frame.data)) d'
    else ∃ d', turn chunk maxSize client recv d = .ok .leave d' := by
  have hstart := WSFrame.frameStart client rest hop (by omega)
  have hbody := frame.decoded_body client
  split
  · next hgood =>
    have hpos : 0 < frame.data.length := List.length_pos_iff.mpr hgood.1
    have hlen : (if client then frame.data else xorMask frame.mask 0 frame.data).length =
        frame.data.length := by
      split <;> simp
    obtain ⟨d', hat', hturn⟩ := turn_data chunk h hstart hlen hat hpos hgood.2 hsum
    rw [hbody] at hturn
    exact ⟨d', hat', hturn⟩
  · next hbad =>
    rcases Nat.lt_or_ge (recv.data.length + frame.data.length) maxSize.toNat with hmax | hmax
    · -- The sum is fine, so the fragment is empty.
      have hempty : frame.data = [] := by
        by_contra hne
        exact hbad ⟨hne, hmax⟩
      have hzero : frame.data.length = 0 := by rw [hempty, List.length_nil]
      refine turn_break chunk h hstart hat hmax ?_
      intro d₁ hat₁
      rw [hzero]
      exact readPayload_empty chunk _ _ d₁
    · exact turn_tooLong chunk h hstart hat (by omega) hmax

/-- Inert bytes are passed over. -/
theorem recvLoop_inert {trail : List UInt8} (hinert : Inert trail) {fuel : Nat}
    (hat : d.At (trail ++ rest) outbound closed) (hfuel : (trail ++ rest).length < fuel) :
    ∃ fuel' d', recvLoop chunk maxSize client fuel recv d =
        recvLoop chunk maxSize client fuel' recv d' ∧
      d'.At rest outbound closed ∧ rest.length < fuel' := by
  induction hinert generalizing fuel d with
  | nil => exact ⟨fuel, d, rfl, hat, hfuel⟩
  | @pair head trail hop _ ih =>
      obtain ⟨fuel, rfl⟩ : ∃ n, fuel = n + 1 := ⟨fuel - 1, by omega⟩
      rw [List.append_assoc] at hat hfuel
      obtain ⟨d', hturn, hat'⟩ := turn_passed chunk maxSize client recv hat hop
      obtain ⟨fuel', d'', hloop, hat'', hfuel'⟩ := ih hat' (show _ < fuel by
        rw [List.length_append, WSFrameHead.length_bytes] at hfuel
        omega)
      exact ⟨fuel', d'', (recvLoop_again hturn).trans hloop, hat'', hfuel'⟩

/-- **A control frame** with an inert trail: a PING is answered once, and the next frame comes. -/
theorem recvLoop_control (hcontrol : frame.Control) (hinert : Inert (frame.trail client))
    {fuel : Nat} (hat : d.At (frame.bytes client ++ rest) outbound closed)
    (hfuel : (frame.bytes client ++ rest).length < fuel) :
    ∃ fuel' d', recvLoop chunk maxSize client fuel recv d =
        recvLoop chunk maxSize client fuel' recv d' ∧
      d'.At rest (outbound ++ frame.answer) closed ∧ rest.length < fuel' := by
  obtain ⟨fuel, rfl⟩ : ∃ n, fuel = n + 1 := ⟨fuel - 1, by omega⟩
  have hlength : lengthBytes (payloadField frame.data.length) frame.data.length = [] := by
    rcases payloadField_cases frame.data.length with ⟨-, -, h126, h127⟩ | ⟨h, -⟩ | ⟨h, -⟩
    · rw [lengthBytes, if_neg h126, if_neg h127]
    · exact absurd hcontrol.length (by omega)
    · exact absurd hcontrol.length (by omega)
  rw [WSFrame.bytes, hlength, List.nil_append, List.append_assoc] at hat hfuel
  rw [List.length_append, WSFrameHead.length_bytes] at hfuel
  have hturn : ∃ d', turn chunk maxSize client recv d = .ok (.again recv) d' ∧
      d'.At (frame.trail client ++ rest) (outbound ++ frame.answer) closed := by
    rcases frame.isControl_or_passed hcontrol.opcode with hping | hpassed
    · rw [WSFrame.answer, if_pos hping]
      exact turn_ping chunk maxSize client recv hat hping
    · rw [WSFrame.answer, if_neg hpassed.2.2.2, List.append_nil]
      exact turn_passed chunk maxSize client recv hat hpassed
  obtain ⟨d', hturn, hat'⟩ := hturn
  obtain ⟨fuel', d'', hloop, hat'', hfuel'⟩ := recvLoop_inert chunk
    maxSize hinert hat' (show _ < fuel by omega)
  exact ⟨fuel', d'', (recvLoop_again hturn).trans hloop, hat'', hfuel'⟩

/-! ## All frames -/

theorem content_control {frames : List WSFrame} (hcontrol : frame.IsControl) :
    content (frame :: frames) = content frames := by
  rw [content, List.flatMap_cons, WSFrame.content, if_pos hcontrol, List.nil_append]
  rfl

theorem content_fragment {frames : List WSFrame} (hnot : ¬ frame.IsControl) :
    content (frame :: frames) = frame.data ++ content frames := by
  rw [content, List.flatMap_cons, WSFrame.content, if_neg hnot]
  rfl

theorem answers_fragment {frames : List WSFrame} (hnot : ¬ frame.IsControl) :
    answers (frame :: frames) = answers frames := by
  rw [answers, List.flatMap_cons, WSFrame.answer, if_neg (fun h => hnot (.inl h)), List.nil_append]
  rfl

theorem fragmentsNonempty_control {frames : List WSFrame} (hcontrol : frame.IsControl) :
    FragmentsNonempty (frame :: frames) ↔ FragmentsNonempty frames := by
  rw [FragmentsNonempty, List.forall_mem_cons]
  exact and_iff_right fun hnot => absurd hcontrol hnot

theorem fragmentsNonempty_fragment {frames : List WSFrame} (hnot : ¬ frame.IsControl) :
    FragmentsNonempty (frame :: frames) ↔ frame.data ≠ [] ∧ FragmentsNonempty frames := by
  rw [FragmentsNonempty, List.forall_mem_cons]
  exact and_congr_left fun _ => forall_prop_of_true hnot

theorem not_isControl
    (hop : frame.opcode = WSFrameHead.CONTINUE ∨ frame.opcode = WSFrameHead.TEXT_FRAME ∨
      frame.opcode = WSFrameHead.BIN_FRAME) : ¬ frame.IsControl := by
  rw [WSFrame.IsControl]
  rcases hop with h | h | h <;> rw [h] <;> decide

/-- The opcode of the message once a fragment with this opcode is taken. -/
def Received.opcodeWith (recv : Received) (opcode : BitVec 4) : Int :=
  if recv.opcode = 0 ∧ opcode ≠ WSFrameHead.CONTINUE then opcode.toNat else recv.opcode

/-- Later fragments leave the opcode alone. -/
theorem opcodeWith_add (data : List UInt8) :
    (recv.add (frame.head client) data).opcodeWith WSFrameHead.CONTINUE =
      recv.opcodeWith frame.opcode := if_neg fun h => h.2 rfl

/-- **The frames of a message**, by induction on them: they are received up to the first fragment
that is empty or too long, at which the loop is left. -/
theorem recvLoop_forms {opcode : BitVec 4} {frames : List WSFrame} (hforms : Forms opcode frames)
    (hop : opcode = WSFrameHead.CONTINUE ∨ opcode = WSFrameHead.TEXT_FRAME ∨
      opcode = WSFrameHead.BIN_FRAME)
    (hinert : TrailsInert client frames) (h : recv.Inv)
    (hsum : recv.data.length + (content frames).length < 2 ^ 31)
    (hat : d.At (messageBytes client frames ++ rest) outbound closed) {fuel : Nat}
    (hfuel : (messageBytes client frames ++ rest).length < fuel) :
    (FragmentsNonempty frames ∧ recv.data.length + (content frames).length < maxSize.toNat →
      ∃ d', recvLoop chunk maxSize client fuel recv d =
          .ok (some ⟨recv.opcodeWith opcode, recv.data ++ content frames⟩) d' ∧
        d'.At rest (outbound ++ answers frames) closed) ∧
    (¬ (FragmentsNonempty frames ∧
        recv.data.length + (content frames).length < maxSize.toNat) →
      ∃ d', recvLoop chunk maxSize client fuel recv d = .ok none d') := by
  induction hforms generalizing recv d outbound fuel with
  | @control opcode frame frames hcontrol _ ih =>
      obtain ⟨hinert₁, hinert₂⟩ := List.forall_mem_cons.mp hinert
      rw [messageBytes, List.flatMap_cons, List.append_assoc] at hat hfuel
      obtain ⟨fuel', d', hloop, hat', hfuel'⟩ := recvLoop_control chunk
        maxSize hcontrol (hinert₁ hcontrol.opcode) hat hfuel
      rw [content_control hcontrol.opcode] at hsum ⊢
      rw [fragmentsNonempty_control hcontrol.opcode, hloop, answers, List.flatMap_cons,
        ← List.append_assoc]
      exact ih hop hinert₂ h hsum hat' hfuel'
  | @more frame frames hfin _ ih =>
      have hnot := not_isControl hop
      obtain ⟨-, hinert₂⟩ := List.forall_mem_cons.mp hinert
      obtain ⟨fuel, rfl⟩ : ∃ n, fuel = n + 1 := ⟨fuel - 1, by omega⟩
      rw [messageBytes, List.flatMap_cons, List.append_assoc] at hat hfuel
      rw [content_fragment hnot] at hsum ⊢
      rw [fragmentsNonempty_fragment hnot, answers_fragment hnot]
      simp only [List.length_append] at hsum ⊢
      have hturn := turn_fragment chunk maxSize h hop (by omega) hat
      split at hturn
      · next hgood =>
        obtain ⟨d', hat', hturn⟩ := hturn
        rw [if_neg (by rw [hfin]; decide)] at hturn
        have hinv : (recv.add (frame.head client) frame.data).Inv :=
          h.add _ (by omega)
        have hlen : (recv.add (frame.head client) frame.data).data.length =
            recv.data.length + frame.data.length := List.length_append
        have hless : (messageBytes client frames ++ rest).length < fuel := by
          rw [List.length_append, WSFrame.bytes, List.length_append, WSFrameHead.length_bytes]
            at hfuel
          rw [messageBytes]
          omega
        obtain ⟨hgo, hstop⟩ := ih (.inl rfl) hinert₂ hinv (by omega) hat' hless
        rw [recvLoop_again hturn]
        constructor
        · rintro ⟨⟨-, hrest⟩, hmax⟩
          obtain ⟨d'', hrun, hat''⟩ := hgo ⟨hrest, by omega⟩
          refine ⟨d'', hrun.trans ?_, hat''⟩
          rw [opcodeWith_add, ← List.append_assoc]
          rfl
        · intro hbad
          exact hstop fun hgood' => hbad ⟨⟨hgood.1, hgood'.1⟩, by omega⟩
      · next hbad =>
        obtain ⟨d', hturn⟩ := hturn
        rw [recvLoop_leave hturn]
        refine ⟨fun hgood => absurd ⟨hgood.1.1, by omega⟩ hbad, fun _ => ⟨_, rfl⟩⟩
  | @last frame hfin =>
      have hnot := not_isControl hop
      obtain ⟨fuel, rfl⟩ : ∃ n, fuel = n + 1 := ⟨fuel - 1, by omega⟩
      rw [messageBytes, List.flatMap_cons, List.append_assoc] at hat
      rw [content_fragment hnot] at hsum ⊢
      rw [fragmentsNonempty_fragment hnot, answers_fragment hnot]
      simp only [List.length_append] at hsum ⊢
      have hnil : (content []).length = 0 := rfl
      have hturn := turn_fragment chunk maxSize h hop (by omega) hat
      split at hturn
      · next hgood =>
        obtain ⟨d', hat', hturn⟩ := hturn
        rw [recvLoop_message hturn]
        refine ⟨fun _ => ⟨d', ?_, ?_⟩, fun hbad => ?_⟩
        · simp only [content, List.flatMap_nil, List.append_nil]
          rfl
        · simpa [answers, messageBytes] using hat'
        · exact absurd ⟨⟨hgood.1, List.forall_mem_nil _⟩, by omega⟩ hbad
      · next hbad =>
        obtain ⟨d', hturn⟩ := hturn
        rw [recvLoop_leave hturn]
        exact ⟨fun hgood => absurd ⟨hgood.1.1, by omega⟩ hbad, fun _ => ⟨_, rfl⟩⟩

end Receive

/-! ## The message -/

/-- `WSRecvMessage` on the frames of a message returns the opcode of the first fragment and the
payload, has taken the bytes of these frames and no others, and has answered each PING once. -/
def ReceivesMessage (chunk : Nat → Nat) (maxSize : UInt32) (client : Bool) (opcode : BitVec 4)
    (frames : List WSFrame) (rest : List UInt8) : Prop :=
  ∃ d, WSRecvMessage chunk maxSize client { inbound := messageBytes client frames ++ rest } =
      .ok (some ⟨opcode.toNat, content frames⟩) d ∧
    d.At rest (answers frames) false

/-- **Fragments and control frames.**  Where the bytes behind the heads of the control frames are
inert, and the payload is an `int`, a message is received exactly when no fragment is empty and
the payload is below the maximum. -/
theorem receivesMessage_iff (chunk : Nat → Nat) (maxSize : UInt32) (client : Bool)
    {opcode : BitVec 4} {frames : List WSFrame} (rest : List UInt8) (hforms : Forms opcode frames)
    (hop : opcode = WSFrameHead.TEXT_FRAME ∨ opcode = WSFrameHead.BIN_FRAME)
    (hinert : TrailsInert client frames) (hsmall : (content frames).length < 2 ^ 31) :
    ReceivesMessage chunk maxSize client opcode frames rest ↔
      FragmentsNonempty frames ∧ (content frames).length < maxSize.toNat := by
  have hsum : ({} : Received).data.length + (content frames).length = (content frames).length :=
    Nat.zero_add _
  have hat : ({ inbound := messageBytes client frames ++ rest } : Duplex).At
      (messageBytes client frames ++ rest) [] false := ⟨rfl, rfl, rfl⟩
  obtain ⟨hgo, hstop⟩ := recvLoop_forms chunk maxSize hforms (.inr hop)
    hinert .init (hsum.trans_lt hsmall) hat (Nat.lt_succ_self _)
  rw [hsum] at hgo hstop
  have hopcode : ({} : Received).opcodeWith opcode = opcode.toNat := by
    refine if_pos ⟨rfl, ?_⟩
    rcases hop with h | h <;> rw [h] <;> decide
  constructor
  · rintro ⟨d, hrun, -⟩
    by_contra hbad
    obtain ⟨d', hnone⟩ := hstop hbad
    have hboth := hrun.symm.trans hnone
    cases hboth
  · intro hgood
    obtain ⟨d, hrun, hat'⟩ := hgo hgood
    rw [hopcode, List.nil_append] at hrun
    exact ⟨d, hrun, hat'⟩

/-- A text in two fragments with a control frame between them. -/
def fragmented (control : WSFrame) : List WSFrame :=
  [⟨1, false, [0x61], [0, 0, 0, 0], rfl⟩, control, ⟨0, true, [0x62], [0, 0, 0, 0], rfl⟩]

def emptyPing : WSFrame := ⟨9, true, [], [0, 0, 0, 0], rfl⟩

theorem fragmented_forms {control : WSFrame} (hcontrol : control.Control) :
    Forms WSFrameHead.TEXT_FRAME (fragmented control) :=
  have hlast : Forms WSFrameHead.CONTINUE [⟨0, true, [0x62], [0, 0, 0, 0], rfl⟩] :=
    @Forms.last ⟨0, true, [0x62], [0, 0, 0, 0], rfl⟩ rfl
  @Forms.more ⟨1, false, [0x61], [0, 0, 0, 0], rfl⟩ _ rfl (.control hcontrol hlast)

/-- A client gets past an empty PING, which has no mask. -/
theorem receivesMessage_emptyPing :
    ReceivesMessage (fun _ => 4) 33554432 true 1 (fragmented emptyPing) [] ↔
      FragmentsNonempty (fragmented emptyPing) ∧
        (content (fragmented emptyPing)).length < 33554432 := by
  have hinert : TrailsInert true (fragmented emptyPing) := by
    intro frame hframe hcontrol
    simp only [fragmented, List.mem_cons, List.not_mem_nil, or_false] at hframe
    rcases hframe with rfl | rfl | rfl
    · exact absurd hcontrol (by decide)
    · exact .nil
    · exact absurd hcontrol (by decide)
  exact receivesMessage_iff (fun _ => 4) 33554432 true []
    (fragmented_forms ⟨.inl rfl, rfl, by decide⟩) (.inl rfl) hinert (by decide)

/-- Whether a message was returned. -/
def returned : EStateM.Result StreamFault Duplex (Option WSFrameMessage) → Bool
  | .ok msg _ => msg.isSome
  | .error _ _ => false

/-- The four bytes of the mask of an empty PING are two heads to a server, and the first is a data
frame without a mask. -/
theorem not_receivesMessage_maskedPing :
    Forms WSFrameHead.TEXT_FRAME (fragmented emptyPing) ∧
      ¬ ReceivesMessage (fun _ => 4) 33554432 false 1 (fragmented emptyPing) [] := by
  refine ⟨fragmented_forms ⟨.inl rfl, rfl, by decide⟩, ?_⟩
  rintro ⟨d, hrun, -⟩
  have hnone : returned (WSRecvMessage (fun _ => 4) 33554432 false
      { inbound := messageBytes false (fragmented emptyPing) ++ [] }) = false := by decide +kernel
  rw [hrun] at hnone
  cases hnone

end Http
end Routn
