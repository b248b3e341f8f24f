import Mathlib.Tactic
import Routn.Http.WSReceive

/-!
# A message from `WSSendMessage` to `WSRecvMessage`

The bytes that `WSSendMessage` writes, and what the other end makes of them.  They are one frame;
the length it announces is the size of the payload below `65536` and, from there on, what an
uninitialised variable holds.
-/

namespace Routn
namespace Http

open Foundation Duplex

/-! ## The bytes that are sent -/

/-- The head that `WSSendMessage` writes. -/
def sentHead (msg : WSFrameMessage) (client fin : Bool) : WSFrameHead where
  fin := fin
  opcode := BitVec.ofNat 4 (msg.opcode % 16).toNat
  mask := client
  payload := payloadField msg.data.length

/-- The length that the frame announces. -/
def announced (garbage : UInt64) (size : Nat) : Nat :=
  if size < 65536 then size else garbage.toNat

def sentMask (rand_val : UInt32) : List UInt8 := wordBytes .littleEndian 4 rand_val.toNat

/-- The payload as it is sent. -/
def sentBody (rand_val : UInt32) (msg : WSFrameMessage) (client : Bool) : List UInt8 :=
  if client then xorMask (sentMask rand_val) 0 msg.data else msg.data

def sentBytes (rand_val : UInt32) (garbage : UInt64) (msg : WSFrameMessage)
    (client fin : Bool) : List UInt8 :=
  (sentHead msg client fin).bytes ++
    (lengthBytes (payloadField msg.data.length) (announced garbage msg.data.length) ++
      (maskBytes client (sentMask rand_val) ++ sentBody rand_val msg client))

@[simp] theorem length_sentBody (rand_val : UInt32) (msg : WSFrameMessage) (client : Bool) :
    (sentBody rand_val msg client).length = msg.data.length := by
  rw [sentBody]
  split <;> simp

/-- The payload field can say the length that is announced. -/
theorem announces_announced (garbage : UInt64) (size : Nat) :
    Announces (payloadField size) (announced garbage size) := by
  have hgarbage := garbage.toNat_lt
  rw [Announces, announced]
  rcases payloadField_cases size with ⟨h, hfield, h126, h127⟩ | ⟨-, h, hfield⟩ | ⟨h, hfield⟩
  · rw [if_neg h126, if_neg h127, if_pos (by omega), hfield]
    exact (Nat.mod_eq_of_lt (by omega)).symm
  · rw [if_pos hfield, if_pos h]
    omega
  · rw [if_neg (by rw [hfield]; decide), if_pos hfield, if_neg (by omega)]
    omega

section Send

variable (chunk : Nat → Nat) {d : Duplex} {inbound outbound : List UInt8} {closed : Bool}

/-- The length bytes on the wire are in network byte order. -/
theorem writeLength_ok (garbage : UInt64) (size : Nat) (hat : d.At inbound outbound closed) :
    ∃ rt d', writeLength chunk (payloadField size) size garbage d = .ok rt d' ∧ 0 < rt ∧
      d'.At inbound (outbound ++ lengthBytes (payloadField size) (announced garbage size))
        closed := by
  have hwrite : ∀ k v, 0 < k → k < 2 ^ 31 → ∃ d', writeFixSize chunk
      (wordBytes .littleEndian k (byteswapOnLittleEndian .littleEndian k v)) d =
        .ok k d' ∧ d'.At inbound (outbound ++ wordBytes .bigEndian k v) closed := by
    intro k v hk hbound
    obtain ⟨d', hrun, hat'⟩ := writeFixSize_ok chunk d
      (show (wordBytes .littleEndian k (byteswapOnLittleEndian .littleEndian k v)).length <
        2 ^ 64 by rw [length_wordBytes]; omega)
    rw [length_wordBytes, toInt_natCast hbound] at hrun
    refine ⟨d', hrun, hat'.inbound.trans hat.inbound, ?_, hat'.closed.trans hat.closed⟩
    rw [hat'.outbound, hat.outbound, wordBytes_byteswapOnLittleEndian]
  rw [writeLength, lengthBytes, announced]
  rcases payloadField_cases size with ⟨h, -, h126, h127⟩ | ⟨-, h, hfield⟩ | ⟨h, hfield⟩
  · rw [if_neg h126, if_neg h127, if_neg h126, if_neg h127, List.append_nil]
    exact ⟨1, d, rfl, by decide, hat⟩
  · rw [if_pos hfield, if_pos hfield, if_pos h, Nat.mod_eq_of_lt (by omega)]
    obtain ⟨d', hrun, hat'⟩ := hwrite 2 size (by decide) (by norm_num)
    exact ⟨2, d', hrun, by decide, hat'⟩
  · have hne : payloadField size ≠ 126 := by rw [hfield]; decide
    rw [if_neg hne, if_pos hfield, if_neg hne, if_pos hfield, if_neg (by omega)]
    obtain ⟨d', hrun, hat'⟩ := hwrite 8 garbage.toNat (by decide) (by norm_num)
    exact ⟨8, d', hrun, by decide, hat'⟩

theorem writeMask_ok (client : Bool) (rand_val : UInt32) (hat : d.At inbound outbound closed) :
    ∃ rt d', writeMask chunk client (sentMask rand_val) d = .ok rt d' ∧ 0 < rt ∧
      d'.At inbound (outbound ++ maskBytes client (sentMask rand_val)) closed := by
  cases client with
  | true =>
      obtain ⟨d', hrun, hat'⟩ := writeFixSize_ok chunk d
        (show (sentMask rand_val).length < 2 ^ 64 by simp [sentMask])
      refine ⟨4, d', ?_, by decide, hat'.inbound.trans hat.inbound, ?_,
        hat'.closed.trans hat.closed⟩
      · rw [sentMask, length_wordBytes] at hrun
        exact hrun
      · rw [hat'.outbound, hat.outbound]
        rfl
  | false => exact ⟨1, d, rfl, by decide, by rw [maskBytes]; simpa using hat⟩

/-- **What is sent.**  All of it is written whatever the calls return; a payload that is not empty
and whose size is an `int` leaves the stream open. -/
theorem WSSendMessage_ok (rand_val : UInt32) (garbage : UInt64) (msg : WSFrameMessage)
    (client fin : Bool) (hsize : msg.data.length < 2 ^ 64) (hat : d.At inbound outbound closed) :
    ∃ rt msg' d', WSSendMessage chunk rand_val garbage msg client fin d = .ok (rt, msg') d' ∧
      d'.inbound = inbound ∧
      d'.outbound = outbound ++ sentBytes rand_val garbage msg client fin ∧
      (0 < msg.data.length → msg.data.length < 2 ^ 31 → d'.closed = closed) := by
  obtain ⟨d₁, hhead, hat₁⟩ := writeFixSize_ok chunk d
    (show (sentHead msg client fin).bytes.length < 2 ^ 64 by simp)
  rw [hat.inbound, hat.outbound, hat.closed] at hat₁
  rw [WSFrameHead.length_bytes] at hhead
  obtain ⟨rt₂, d₂, hlength, hpos₂, hat₂⟩ := writeLength_ok chunk garbage
    msg.data.length hat₁
  obtain ⟨rt₃, d₃, hmask, hpos₃, hat₃⟩ := writeMask_ok chunk client rand_val hat₂
  obtain ⟨d₄, hbody, hat₄⟩ := writeFixSize_ok chunk d₃
    (show (sentBody rand_val msg client).length < 2 ^ 64 by rw [length_sentBody]; exact hsize)
  rw [length_sentBody] at hbody
  have hout : d₄.outbound = outbound ++ sentBytes rand_val garbage msg client fin := by
    rw [hat₄.outbound, hat₃.outbound]
    simp only [sentBytes, List.append_assoc]
  have hin : d₄.inbound = inbound := hat₄.inbound.trans hat₃.inbound
  -- Only the last write can return a value that is not positive.
  let sent : WSFrameMessage := { msg with data := sentBody rand_val msg client }
  have hrun : WSSendMessage chunk rand_val garbage msg client fin d =
      (if toInt msg.data.length ≤ 0 then do
        close
        return (-1, sent)
      else return (toInt (msg.data.length + 2), sent)) d₄ := by
    refine (bind_ok hhead).trans ?_
    rw [if_neg (by decide)]
    refine (bind_ok hlength).trans ?_
    rw [if_neg (by omega)]
    refine (bind_ok hmask).trans ?_
    rw [if_neg (by omega)]
    exact bind_ok hbody
  rw [hrun]
  split
  · next hle =>
    refine ⟨-1, sent, { d₄ with closed := true }, rfl, hin, hout, ?_⟩
    intro hpos hsmall
    rw [toInt_natCast hsmall] at hle
    omega
  · exact ⟨_, sent, d₄, rfl, hin, hout, fun _ _ => hat₄.closed.trans hat₃.closed⟩

end Send

/-! ## The bytes that are received -/

section Receive

variable (chunk : Nat → Nat) (maxSize : UInt32) {client : Bool} {head : WSFrameHead} {size : Nat}
  {mask body inbound outbound : List UInt8} {closed : Bool} {d : Duplex}

/-- **A single frame.**  The receiver takes as many bytes as the frame announces, or gives up. -/
theorem WSRecvMessage_single (hstart : FrameStart client head size mask body inbound)
    (hfin : head.fin = true) (hop : head.opcode ≠ WSFrameHead.CONTINUE)
    (hat : d.At inbound outbound closed) :
    (∃ d', WSRecvMessage chunk maxSize client d = .ok none d' ∧
        (size = 0 ∨ 2 ^ 31 ≤ size ∨ body.length < size ∨ maxSize.toNat ≤ size)) ∨
      0 < size ∧ size < 2 ^ 31 ∧ size ≤ body.length ∧
      ∃ d', WSRecvMessage chunk maxSize client d =
          .ok (some ⟨head.opcode.toNat, decoded head mask (body.take size)⟩) d' ∧
        d'.At (body.drop size) outbound closed := by
  have hsize := hstart.size_lt
  have hmaxSize := maxSize.toNat_lt
  have hinv : ({} : Received).Inv := .init
  have hsum : ({} : Received).data.length + size = size := Nat.zero_add size
  have hbreak : (∀ d₁ : Duplex, d₁.At body outbound closed →
      ∃ d', readPayload chunk {} head size mask d₁ = .ok none d') → size < maxSize.toNat →
      ∃ d', WSRecvMessage chunk maxSize client d = .ok none d' := fun hnone hlt =>
    WSRecvMessage_leave (turn_break chunk hinv hstart hat (hsum.trans_lt hlt) hnone)
  rcases Nat.lt_or_ge size maxSize.toNat with hmax | hmax
  · rcases Nat.eq_zero_or_pos size with hnone | hpos
    · obtain ⟨d', hrun⟩ := hbreak (fun d₁ _ => by
        rw [hnone]
        exact readPayload_empty chunk head mask d₁) hmax
      exact .inl ⟨d', hrun, .inl hnone⟩
    · rcases Nat.lt_or_ge body.length size with hshort | henough
      · obtain ⟨d', hrun⟩ := hbreak
          (fun d₁ hat₁ => readPayload_short chunk head mask hinv (by omega)
            (by rwa [hat₁.inbound])) hmax
        exact .inl ⟨d', hrun, .inr (.inr (.inl hshort))⟩
      · have hlen : (body.take size).length = size := List.length_take_of_le henough
        rw [← List.take_append_drop size body] at hstart
        rcases Nat.lt_or_ge size (2 ^ 31) with hsmall | hlarge
        · obtain ⟨d', hat', hturn⟩ := turn_data chunk hinv
            hstart hlen hat hpos (hsum.trans_lt hmax) (hsum.trans_lt hsmall)
          rw [if_pos hfin] at hturn
          refine .inr ⟨hpos, hsmall, henough, d', ?_, hat'⟩
          refine (recvLoop_message hturn).trans ?_
          rw [Received.add, if_pos ⟨rfl, hop⟩, List.nil_append]
        · obtain ⟨d', hrun⟩ := hbreak (fun d₁ hat₁ => readPayload_negative chunk head mask hinv
            hlarge (by omega) hlen (by rwa [List.take_append_drop])) hmax
          exact .inl ⟨d', hrun, .inr (.inl hlarge)⟩
  · obtain ⟨d', hrun⟩ := WSRecvMessage_leave
      (turn_tooLong chunk hinv hstart hat (hsum.trans_lt hsize) (hmax.trans_eq hsum.symm))
    exact .inl ⟨d', hrun, .inr (.inr (.inr hmax))⟩

end Receive

/-! ## The round trip -/

section RoundTrip

variable {rand_val : UInt32} {garbage : UInt64} {msg : WSFrameMessage} {client : Bool}

/-- The opcode of a data message fits the four bits of the field. -/
theorem sentHead_opcode (client : Bool) (hop : msg.opcode = WSFrameHead.TEXT_FRAME.toNat ∨
    msg.opcode = WSFrameHead.BIN_FRAME.toNat) (fin : Bool) :
    ((sentHead msg client fin).opcode = WSFrameHead.TEXT_FRAME ∨
        (sentHead msg client fin).opcode = WSFrameHead.BIN_FRAME) ∧
      ((sentHead msg client fin).opcode.toNat : Int) = msg.opcode := by
  have hfield : (sentHead msg client fin).opcode = BitVec.ofNat 4 (msg.opcode % 16).toNat := rfl
  rw [hfield]
  rcases hop with h | h <;> rw [h] <;> decide

/-- What `WSSendMessage` sends is a data frame to the other role. -/
theorem sentBytes_frameStart (rand_val : UInt32) (garbage : UInt64) (client : Bool)
    (hop : msg.opcode = WSFrameHead.TEXT_FRAME.toNat ∨
    msg.opcode = WSFrameHead.BIN_FRAME.toNat) (fin : Bool) :
    FrameStart (!client) (sentHead msg client fin) (announced garbage msg.data.length)
      (if client then sentMask rand_val else List.replicate 4 0) (sentBody rand_val msg client)
      (sentBytes rand_val garbage msg client fin) where
  opcode := .inr (sentHead_opcode _ hop fin).1
  masked := by cases client <;> simp [sentHead]
  announces := announces_announced garbage _
  maskFor := by cases client <;> simp [MaskFor, sentHead, sentMask]
  inbound := by cases client <;> rfl

/-- The receiver undoes the mask. -/
theorem decoded_sentBody (fin : Bool) :
    decoded (sentHead msg client fin)
      (if client then sentMask rand_val else List.replicate 4 0)
      (sentBody rand_val msg client) = msg.data := by
  cases client with
  | true => exact xorMask_xorMask _ _ _
  | false => rfl

/-- The bytes that one end writes for `msg` are read by the other as `msg`, to the last byte, and
the stream stays open. -/
def RoundTrips (chunk chunk' : Nat → Nat) (maxSize rand_val : UInt32) (garbage : UInt64)
    (msg : WSFrameMessage) (client : Bool) : Prop :=
  ∃ rt msg' sent, WSSendMessage chunk rand_val garbage msg client true { inbound := [] } =
      .ok (rt, msg') sent ∧
    ∃ d, WSRecvMessage chunk' maxSize (!client) { inbound := sent.outbound } = .ok (some msg) d ∧
      d.At [] [] false

/-- The message comes back exactly when the frame announces its size, which is positive and an
`int`. -/
theorem roundTrips_iff_announced {chunk chunk' : Nat → Nat} {maxSize : UInt32}
    (hop : msg.opcode = WSFrameHead.TEXT_FRAME.toNat ∨
      msg.opcode = WSFrameHead.BIN_FRAME.toNat)
    (hsize : msg.data.length < maxSize.toNat) :
    RoundTrips chunk chunk' maxSize rand_val garbage msg client ↔
      announced garbage msg.data.length = msg.data.length ∧
        0 < msg.data.length ∧ msg.data.length < 2 ^ 31 := by
  have hmaxSize := maxSize.toNat_lt
  obtain ⟨rt, msg', sent, hsend, -, hout, -⟩ := WSSendMessage_ok chunk rand_val garbage
    msg client true (by omega) (show Duplex.At { inbound := [] } [] [] false from ⟨rfl, rfl, rfl⟩)
  rw [List.nil_append] at hout
  have hstart := sentBytes_frameStart rand_val garbage client hop true
  rw [← hout] at hstart
  obtain ⟨hdata, hopcode⟩ := sentHead_opcode client hop true
  have hcontinue : (sentHead msg client true).opcode ≠ WSFrameHead.CONTINUE := by
    rcases hdata with h | h <;> rw [h] <;> decide
  have hcases := WSRecvMessage_single chunk' maxSize hstart rfl hcontinue
    (show Duplex.At { inbound := sent.outbound } _ [] false from ⟨rfl, rfl, rfl⟩)
  rw [length_sentBody] at hcases
  constructor
  · rintro ⟨rt₁, msg₁, sent₁, hsend₁, d, hrecv, -⟩
    rw [hsend] at hsend₁
    cases hsend₁
    rcases hcases with ⟨d', hnone, -⟩ | ⟨hpos, hsmall, hle, d', hsome, -⟩
    · rw [hnone] at hrecv
      cases hrecv
    · -- The payload has as many bytes as were announced.
      rw [hsome] at hrecv
      have hmsg := Option.some.inj (EStateM.Result.ok.inj hrecv).1
      have hlen := congrArg (fun m => m.data.length) hmsg
      simp only [length_decoded, List.length_take, length_sentBody] at hlen
      omega
  · rintro ⟨heq, hpos, hsmall⟩
    rw [heq] at hcases
    rcases hcases with ⟨d', -, hbad⟩ | ⟨-, -, -, d', hsome, hat⟩
    · omega
    · refine ⟨rt, msg', sent, hsend, d', ?_, ?_⟩
      · rw [hsome, List.take_of_length_le (by rw [length_sentBody]), decoded_sentBody, hopcode]
      · rwa [List.drop_of_length_le (by rw [length_sentBody])] at hat

/-- **The round trip of a message** succeeds exactly for a payload that is not empty, and from
`65536` bytes on only when the uninitialised length holds the size, and the size is an `int`. -/
theorem roundTrips_iff {chunk chunk' : Nat → Nat} {maxSize : UInt32}
    (hop : msg.opcode = WSFrameHead.TEXT_FRAME.toNat ∨
      msg.opcode = WSFrameHead.BIN_FRAME.toNat)
    (hsize : msg.data.length < maxSize.toNat) :
    RoundTrips chunk chunk' maxSize rand_val garbage msg client ↔
      0 < msg.data.length ∧
        (msg.data.length < 65536 ∨
          garbage.toNat = msg.data.length ∧ msg.data.length < 2 ^ 31) := by
  rw [roundTrips_iff_announced hop hsize, announced]
  split <;> omega

/-- A text of one byte from a client. -/
theorem roundTrips_iff_one_byte :
    RoundTrips (fun _ => 1) (fun _ => 1) 33554432 7 0 ⟨1, [0x61]⟩ true ↔
      0 < 1 ∧ (1 < 65536 ∨ (0 : UInt64).toNat = 1 ∧ 1 < 2 ^ 31) :=
  roundTrips_iff (.inl rfl) (show [(0x61 : UInt8)].length < (33554432 : UInt32).toNat by decide)

/-- An empty text does not arrive. -/
theorem not_roundTrips_empty :
    ¬ RoundTrips (fun _ => 1) (fun _ => 1) 33554432 7 0 ⟨1, []⟩ true := by
  rw [roundTrips_iff_announced (.inl rfl) (by decide)]
  decide

end RoundTrip

end Http
end Routn
