import Mathlib.Tactic
import Routn.Http.WSSession

/-!
# One iteration of `WSRecvMessage`

What the stages of an iteration do on the bytes in front of them.  `FrameStart` is what the bytes
of a data frame look like up to its payload; an iteration comes to payload exactly on such bytes,
and then only when the length check lets them pass.
-/

namespace Routn
namespace Http

open Foundation Duplex

/-! ## The bytes of a frame -/

/-- The length bytes behind a head with this payload field. -/
def lengthBytes (payload : BitVec 7) (size : Nat) : List UInt8 :=
  if payload = 126 then wordBytes .bigEndian 2 size
  else if payload = 127 then wordBytes .bigEndian 8 size
  else []

/-- The sizes that a payload field and its length bytes can say. -/
def Announces (payload : BitVec 7) (size : Nat) : Prop :=
  if payload = 126 then size < 256 ^ 2
  else if payload = 127 then size < 256 ^ 8
  else size = payload.toNat

/-- The mask behind a head, if there is one; without a mask the receiver works with zeroes. -/
def maskBytes (masked : Bool) (mask : List UInt8) : List UInt8 := if masked then mask else []

def MaskFor (masked : Bool) (mask : List UInt8) : Prop :=
  if masked then mask.length = 4 else mask = List.replicate 4 0

/-- The bytes `inbound` begin with a data frame that the receiver takes up to its payload, and
`rest` is what follows. -/
structure FrameStart (client : Bool) (head : WSFrameHead) (size : Nat)
    (mask rest inbound : List UInt8) : Prop where
  opcode : head.opcode = WSFrameHead.CONTINUE ∨ head.opcode = WSFrameHead.TEXT_FRAME ∨
    head.opcode = WSFrameHead.BIN_FRAME
  masked : client = true ∨ head.mask = true
  announces : Announces head.payload size
  maskFor : MaskFor head.mask mask
  inbound : inbound = head.bytes ++ (lengthBytes head.payload size ++
    (maskBytes head.mask mask ++ rest))

theorem Announces.lt {payload : BitVec 7} {size : Nat} (h : Announces payload size) :
    size < 2 ^ 64 := by
  have hpayload := payload.isLt
  rw [Announces] at h
  split at h
  · omega
  · split at h <;> omega

theorem payloadField_cases (size : Nat) :
    (size < 126 ∧ payloadField size = BitVec.ofNat 7 size ∧ payloadField size ≠ 126 ∧
        payloadField size ≠ 127) ∨
      (126 ≤ size ∧ size < 65536 ∧ payloadField size = 126) ∨
      (65536 ≤ size ∧ payloadField size = 127) := by
  rw [payloadField]
  split
  · next h =>
    have hne : ∀ n : Nat, 126 ≤ n → n < 128 → BitVec.ofNat 7 size ≠ BitVec.ofNat 7 n := by
      intro n hlow hhigh heq
      have hval := congrArg BitVec.toNat heq
      rw [BitVec.toNat_ofNat, BitVec.toNat_ofNat] at hval
      omega
    exact .inl ⟨h, rfl, hne 126 (by omega) (by omega), hne 127 (by omega) (by omega)⟩
  · split
    · exact .inr (.inl ⟨by omega, by assumption, rfl⟩)
    · exact .inr (.inr ⟨by omega, rfl⟩)

/-- The payload field of a sender can say the size it is made from. -/
theorem announces_payloadField {size : Nat} (hsize : size < 2 ^ 64) :
    Announces (payloadField size) size := by
  rw [Announces]
  rcases payloadField_cases size with ⟨h, hfield, h126, h127⟩ | ⟨-, h, hfield⟩ | ⟨h, hfield⟩
  · rw [if_neg h126, if_neg h127, hfield]
    exact (Nat.mod_eq_of_lt (by omega)).symm
  · rw [if_pos hfield]
    omega
  · rw [if_neg (by rw [hfield]; decide), if_pos hfield]
    omega

theorem FrameStart.size_lt {client : Bool} {head : WSFrameHead} {size : Nat}
    {mask rest inbound : List UInt8} (h : FrameStart client head size mask rest inbound) :
    size < 2 ^ 64 := h.announces.lt

theorem FrameStart.notRejected {client : Bool} {head : WSFrameHead} {size : Nat}
    {mask rest inbound : List UInt8} (h : FrameStart client head size mask rest inbound) :
    ¬ (!client && !head.mask) = true := by
  rcases h.masked with h | h <;> simp [h]

theorem toSize_add {curLen : Int} {n : Nat} (h0 : 0 ≤ curLen) (h31 : curLen < 2 ^ 31) :
    (toSize curLen + n) % 2 ^ 64 = (curLen.toNat + n) % 2 ^ 64 := by
  have hsize : toSize curLen = curLen.toNat := by
    rw [toSize]
    omega
  rw [hsize]

section Receive

variable (chunk : Nat → Nat) {d : Duplex} {inbound outbound rest : List UInt8} {closed : Bool}

/-! ## Fixed-size reads -/

/-- A block of the expected size is read as it is. -/
theorem readFixSize_block {block : List UInt8} {n : Nat}
    (hat : d.At (block ++ rest) outbound closed) (hlen : block.length = n) (hbound : n < 2 ^ 31) :
    ∃ d', readFixSize chunk (List.replicate n 0) 0 n d = .ok (n, block) d' ∧
      d'.At rest outbound closed := by
  have htake : d.inbound.take n = block := by
    rw [hat.inbound, ← hlen, List.take_left]
  have henough : n ≤ d.inbound.length := by
    rw [hat.inbound, List.length_append]
    omega
  obtain ⟨d', hrun, hat'⟩ := readFixSize_ok chunk
    (show 0 + n ≤ (List.replicate n 0).length by simp) henough (by omega)
  have hsplice : splice (List.replicate n (0 : UInt8)) 0 (d.inbound.take n) = block := by
    rw [htake, splice, List.take_zero, List.nil_append, List.drop_of_length_le (by simp [hlen]),
      List.append_nil]
  rw [hsplice, toInt_natCast hbound] at hrun
  refine ⟨d', hrun, ?_, hat'.outbound.trans hat.outbound, hat'.closed.trans hat.closed⟩
  rw [hat'.inbound, hat.inbound, ← hlen, List.drop_left]

/-- The end of the incoming bytes comes first. -/
theorem readFixSize_end {n : Nat} (hshort : d.inbound.length < n) (hbound : n < 2 ^ 31) :
    ∃ memory d', readFixSize chunk (List.replicate n 0) 0 n d = .ok (0, memory) d' :=
  let ⟨memory, d', hrun, _⟩ := readFixSize_short chunk
    (show 0 + n ≤ (List.replicate n 0).length by simp) hshort (by omega)
  ⟨memory, d', hrun⟩

/-! ## The stages in front of the payload -/

theorem readLength_ok {payload : BitVec 7} {size : Nat} (hsize : Announces payload size)
    (hat : d.At (lengthBytes payload size ++ rest) outbound closed) :
    ∃ d', readLength chunk payload d = .ok (some size) d' ∧ d'.At rest outbound closed := by
  have hword : ∀ k, size < 256 ^ k →
      byteswapOnLittleEndian .littleEndian k (wordOf .littleEndian (wordBytes .bigEndian k size)) =
        size := by
    intro k hk
    have h := byteswapOnLittleEndian_wordOf .littleEndian (wordBytes .bigEndian k size)
    rw [length_wordBytes] at h
    rw [h, wordOf_wordBytes, Nat.mod_eq_of_lt hk]
  rw [Announces] at hsize
  rw [lengthBytes] at hat
  rw [readLength]
  by_cases h126 : payload = 126
  · rw [if_pos h126] at hsize hat ⊢
    obtain ⟨d', hrun, hat'⟩ := readFixSize_block chunk hat (length_wordBytes _ _ _)
      (by norm_num)
    refine ⟨d', (bind_ok hrun).trans ?_, hat'⟩
    show EStateM.Result.ok (some _) d' = _
    rw [hword 2 hsize]
  · rw [if_neg h126] at hsize hat ⊢
    by_cases h127 : payload = 127
    · rw [if_pos h127] at hsize hat ⊢
      obtain ⟨d', hrun, hat'⟩ := readFixSize_block chunk hat (length_wordBytes _ _ _)
        (by norm_num)
      refine ⟨d', (bind_ok hrun).trans ?_, hat'⟩
      show EStateM.Result.ok (some _) d' = _
      rw [hword 8 hsize]
    · rw [if_neg h127] at hsize hat ⊢
      exact ⟨d, by rw [hsize]; rfl, hat⟩

theorem readMask_ok {masked : Bool} {mask : List UInt8}
    (hmask : MaskFor masked mask) (hat : d.At (maskBytes masked mask ++ rest) outbound closed) :
    ∃ d', readMask chunk masked d = .ok (some mask) d' ∧ d'.At rest outbound closed := by
  cases masked with
  | true =>
      obtain ⟨d', hrun, hat'⟩ := readFixSize_block chunk hat hmask (by norm_num)
      exact ⟨d', bind_ok hrun, hat'⟩
  | false => exact ⟨d, congrArg (fun mask => EStateM.Result.ok (some mask) d) hmask.symm, hat⟩

/-- Either the length bytes are there, or the stream ends in them. -/
theorem readLength_cases (payload : BitVec 7) (d : Duplex) :
    (∃ d', readLength chunk payload d = .ok none d') ∨
      ∃ size rest, Announces payload size ∧ d.inbound = lengthBytes payload size ++ rest := by
  have hcase : ∀ k, k ≤ d.inbound.length → ∃ size rest, size < 256 ^ k ∧
      d.inbound = wordBytes .bigEndian k size ++ rest := by
    intro k hk
    have hlen : (d.inbound.take k).length = k := List.length_take_of_le hk
    refine ⟨wordOf .bigEndian (d.inbound.take k), d.inbound.drop k, ?_, ?_⟩
    · have h := wordOf_lt .bigEndian (d.inbound.take k)
      rwa [hlen] at h
    · have h := wordBytes_wordOf .bigEndian (d.inbound.take k)
      rw [hlen] at h
      rw [h, List.take_append_drop]
  simp only [readLength, Announces, lengthBytes]
  by_cases h126 : payload = 126
  · simp only [if_pos h126]
    rcases Nat.lt_or_ge d.inbound.length 2 with hshort | henough
    · obtain ⟨memory, d', hrun⟩ := readFixSize_end chunk hshort (by norm_num)
      exact .inl ⟨d', bind_ok hrun⟩
    · exact .inr (hcase 2 henough)
  · simp only [if_neg h126]
    by_cases h127 : payload = 127
    · simp only [if_pos h127]
      rcases Nat.lt_or_ge d.inbound.length 8 with hshort | henough
      · obtain ⟨memory, d', hrun⟩ := readFixSize_end chunk hshort (by norm_num)
        exact .inl ⟨d', bind_ok hrun⟩
      · exact .inr (hcase 8 henough)
    · simp only [if_neg h127]
      exact .inr ⟨payload.toNat, d.inbound, rfl, rfl⟩

theorem readMask_cases (masked : Bool) (d : Duplex) :
    (∃ d', readMask chunk masked d = .ok none d') ∨
      ∃ mask rest, MaskFor masked mask ∧ d.inbound = maskBytes masked mask ++ rest := by
  cases masked with
  | true =>
      rcases Nat.lt_or_ge d.inbound.length 4 with hshort | henough
      · obtain ⟨memory, d', hrun⟩ := readFixSize_end chunk hshort (by norm_num)
        exact .inl ⟨d', bind_ok hrun⟩
      · exact .inr ⟨d.inbound.take 4, d.inbound.drop 4, List.length_take_of_le henough,
          (List.take_append_drop _ _).symm⟩
  | false => exact .inr ⟨_, d.inbound, rfl, rfl⟩

/-- A data frame whose length passes the check. -/
theorem readFrame_ok {maxSize : UInt32} {client : Bool} {curLen : Int} {head : WSFrameHead}
    {size : Nat} {mask : List UInt8} (h : FrameStart client head size mask rest inbound)
    (hat : d.At (lengthBytes head.payload size ++ (maskBytes head.mask mask ++ rest)) outbound
      closed)
    (hmax : (toSize curLen + size) % 2 ^ 64 < maxSize.toNat) :
    ∃ d', readFrame chunk maxSize client curLen head d = .ok (.frame head size mask) d' ∧
      d'.At rest outbound closed := by
  obtain ⟨d₁, hlength, hat₁⟩ := readLength_ok chunk h.announces hat
  obtain ⟨d₂, hmask, hat₂⟩ := readMask_ok chunk h.maskFor hat₁
  refine ⟨d₂, ?_, hat₂⟩
  rw [readFrame, if_neg h.notRejected]
  refine (bind_ok hlength).trans ?_
  simp only [if_neg (Nat.not_le_of_lt hmax)]
  exact bind_ok hmask

/-- A data frame whose length is refused. -/
theorem readFrame_tooLong {maxSize : UInt32} {client : Bool} {curLen : Int} {head : WSFrameHead}
    {size : Nat} {mask : List UInt8} (h : FrameStart client head size mask rest inbound)
    (hat : d.At (lengthBytes head.payload size ++ (maskBytes head.mask mask ++ rest)) outbound
      closed)
    (hmax : maxSize.toNat ≤ (toSize curLen + size) % 2 ^ 64) :
    ∃ d', readFrame chunk maxSize client curLen head d = .ok .leave d' := by
  obtain ⟨d₁, hlength, -⟩ := readLength_ok chunk h.announces hat
  refine ⟨d₁, ?_⟩
  rw [readFrame, if_neg h.notRejected]
  refine (bind_ok hlength).trans ?_
  simp only [if_pos hmax]
  rfl

/-! ## The head -/

/-- The head of `WSPing` and of `WSPong`. -/
def controlHead (opcode : BitVec 4) : WSFrameHead :=
  { fin := true, opcode := opcode, mask := false, payload := 0 }

theorem sendControl_ok (opcode : BitVec 4) (hat : d.At inbound outbound closed) :
    ∃ d', sendControl chunk opcode d = .ok 2 d' ∧
      d'.At inbound (outbound ++ (controlHead opcode).bytes) closed := by
  obtain ⟨d', hrun, hat'⟩ := writeFixSize_ok chunk d
    (show (controlHead opcode).bytes.length < 2 ^ 64 by simp)
  refine ⟨d', (bind_ok hrun).trans ?_, hat'.inbound.trans hat.inbound, ?_,
    hat'.closed.trans hat.closed⟩
  · rw [WSFrameHead.length_bytes]
    rfl
  · rw [hat'.outbound, hat.outbound]

/-- The end of the stream in front of a head. -/
theorem readHeading_end (maxSize : UInt32) (client : Bool) (curLen : Int)
    (hshort : d.inbound.length < 2) :
    ∃ d', readHeading chunk maxSize client curLen d = .ok .leave d' := by
  obtain ⟨memory, d', hrun⟩ := readFixSize_end chunk hshort (by norm_num)
  exact ⟨d', bind_ok hrun⟩

/-- A PING is answered with a PONG. -/
theorem readHeading_ping (maxSize : UInt32) (client : Bool) (curLen : Int) {head : WSFrameHead}
    (hat : d.At (head.bytes ++ rest) outbound closed) (hop : head.opcode = WSFrameHead.PING) :
    ∃ d', readHeading chunk maxSize client curLen d = .ok .skip d' ∧
      d'.At rest (outbound ++ (controlHead WSFrameHead.PONG).bytes) closed := by
  obtain ⟨d₁, hrun, hat₁⟩ := readFixSize_block chunk hat head.length_bytes (by norm_num)
  obtain ⟨d₂, hpong, hat₂⟩ := sendControl_ok chunk WSFrameHead.PONG hat₁
  refine ⟨d₂, (bind_ok hrun).trans ?_, hat₂⟩
  simp only [WSFrameHead.ofBytes_bytes, if_pos hop]
  exact bind_ok hpong

/-- A head that is passed over: a PONG, or an opcode that is not known. -/
def Passed (opcode : BitVec 4) : Prop :=
  opcode ≠ WSFrameHead.CONTINUE ∧ opcode ≠ WSFrameHead.TEXT_FRAME ∧
    opcode ≠ WSFrameHead.BIN_FRAME ∧ opcode ≠ WSFrameHead.PING

theorem readHeading_passed (maxSize : UInt32) (client : Bool) (curLen : Int) {head : WSFrameHead}
    (hat : d.At (head.bytes ++ rest) outbound closed) (hop : Passed head.opcode) :
    ∃ d', readHeading chunk maxSize client curLen d = .ok .skip d' ∧
      d'.At rest outbound closed := by
  obtain ⟨d₁, hrun, hat₁⟩ := readFixSize_block chunk hat head.length_bytes (by norm_num)
  obtain ⟨hcontinue, htext, hbin, hping⟩ := hop
  refine ⟨d₁, (bind_ok hrun).trans ?_, hat₁⟩
  simp only [WSFrameHead.ofBytes_bytes, if_neg hping, hcontinue, htext, hbin, or_self, if_false,
    ite_self]
  rfl

/-- A data frame. -/
theorem readHeading_data (maxSize : UInt32) (client : Bool) (curLen : Int) {head : WSFrameHead}
    (hat : d.At (head.bytes ++ rest) outbound closed)
    (hop : head.opcode = WSFrameHead.CONTINUE ∨ head.opcode = WSFrameHead.TEXT_FRAME ∨
      head.opcode = WSFrameHead.BIN_FRAME) :
    ∃ d', readHeading chunk maxSize client curLen d =
        readFrame chunk maxSize client curLen head d' ∧ d'.At rest outbound closed := by
  obtain ⟨d₁, hrun, hat₁⟩ := readFixSize_block chunk hat head.length_bytes (by norm_num)
  have hping : head.opcode ≠ WSFrameHead.PING := by
    rcases hop with h | h | h <;> rw [h] <;> decide
  have hpong : head.opcode ≠ WSFrameHead.PONG := by
    rcases hop with h | h | h <;> rw [h] <;> decide
  refine ⟨d₁, (bind_ok hrun).trans ?_, hat₁⟩
  simp only [WSFrameHead.ofBytes_bytes, if_neg hping, if_neg hpong, if_pos hop]
  rfl

/-- A data frame up to its payload: the loop is left, or the bytes say the frame and its length
passes the check. -/
theorem readFrame_cases (maxSize : UInt32) (client : Bool) (curLen : Int) {head : WSFrameHead}
    (hdata : head.opcode = WSFrameHead.CONTINUE ∨ head.opcode = WSFrameHead.TEXT_FRAME ∨
      head.opcode = WSFrameHead.BIN_FRAME) (d : Duplex) :
    (∃ d', readFrame chunk maxSize client curLen head d = .ok .leave d') ∨
      ∃ size mask rest d', FrameStart client head size mask rest (head.bytes ++ d.inbound) ∧
        (toSize curLen + size) % 2 ^ 64 < maxSize.toNat ∧
        readFrame chunk maxSize client curLen head d = .ok (.frame head size mask) d' ∧
        d'.At rest d.outbound d.closed := by
  by_cases hreject : (!client && !head.mask) = true
  · rw [readFrame, if_pos hreject]
    exact .inl ⟨d, rfl⟩
  have hmasked : client = true ∨ head.mask = true := by
    cases hclient : client <;> cases hmask : head.mask <;> simp_all
  rcases readLength_cases chunk head.payload d with ⟨d₁, hend⟩ | hlength
  · rw [readFrame, if_neg hreject]
    exact .inl ⟨d₁, bind_ok hend⟩
  obtain ⟨size, rest₁, hsize, hin₁⟩ := hlength
  obtain ⟨d₁, hsome, hat₁⟩ := readLength_ok chunk hsize
    (show d.At _ d.outbound d.closed from ⟨hin₁, rfl, rfl⟩)
  rcases readMask_cases chunk head.mask d₁ with ⟨d₂, hend⟩ | hmask
  · refine .inl ?_
    rw [readFrame, if_neg hreject, bind_ok hsome]
    by_cases hmax : maxSize.toNat ≤ (toSize curLen + size) % 2 ^ 64
    · exact ⟨d₁, by simp only [if_pos hmax]; rfl⟩
    · exact ⟨d₂, by simp only [if_neg hmax]; exact bind_ok hend⟩
  obtain ⟨mask, rest, hfor, hin₂⟩ := hmask
  have hin : d.inbound = lengthBytes head.payload size ++ (maskBytes head.mask mask ++ rest) := by
    rw [hin₁, ← hin₂, hat₁.inbound]
  have hstart : FrameStart client head size mask rest (head.bytes ++ d.inbound) :=
    ⟨hdata, hmasked, hsize, hfor, by rw [hin]⟩
  by_cases hmax : maxSize.toNat ≤ (toSize curLen + size) % 2 ^ 64
  · exact .inl (readFrame_tooLong chunk hstart ⟨hin, rfl, rfl⟩ hmax)
  · obtain ⟨d', hframe, hat'⟩ := readFrame_ok chunk hstart ⟨hin, rfl, rfl⟩
      (Nat.lt_of_not_le hmax)
    exact .inr ⟨size, mask, rest, d', hstart, Nat.lt_of_not_le hmax, hframe, hat'⟩

/-- **The three ways through the first stage:** the loop is left, the head is passed over, or the
bytes are a data frame whose length passes the check. -/
theorem readHeading_cases (maxSize : UInt32) (client : Bool) (curLen : Int) (d : Duplex) :
    (∃ d', readHeading chunk maxSize client curLen d = .ok .leave d') ∨
      (∃ d', readHeading chunk maxSize client curLen d = .ok .skip d' ∧
        d'.inbound.length < d.inbound.length) ∨
      ∃ head size mask rest d', FrameStart client head size mask rest d.inbound ∧
        (toSize curLen + size) % 2 ^ 64 < maxSize.toNat ∧
        readHeading chunk maxSize client curLen d = .ok (.frame head size mask) d' ∧
        d'.At rest d.outbound d.closed := by
  rcases Nat.lt_or_ge d.inbound.length 2 with hshort | henough
  · exact .inl (readHeading_end chunk maxSize client curLen hshort)
  obtain ⟨head, rest, hin⟩ : ∃ (head : WSFrameHead) (rest : List UInt8),
      d.inbound = head.bytes ++ rest := by
    refine ⟨.ofBytes (d.inbound.take 2), d.inbound.drop 2, ?_⟩
    rw [WSFrameHead.bytes_ofBytes (List.length_take_of_le henough), List.take_append_drop]
  have hat : d.At (head.bytes ++ rest) d.outbound d.closed := ⟨hin, rfl, rfl⟩
  have hless : rest.length < d.inbound.length := by
    rw [hin, List.length_append, WSFrameHead.length_bytes]
    omega
  by_cases hping : head.opcode = WSFrameHead.PING
  · obtain ⟨d', hrun, hat'⟩ := readHeading_ping chunk maxSize client curLen hat hping
    exact .inr (.inl ⟨d', hrun, by rwa [hat'.inbound]⟩)
  by_cases hdata : head.opcode = WSFrameHead.CONTINUE ∨ head.opcode = WSFrameHead.TEXT_FRAME ∨
      head.opcode = WSFrameHead.BIN_FRAME
  · obtain ⟨d₁, hrun, hat₁⟩ := readHeading_data chunk maxSize client curLen hat hdata
    rw [hrun]
    rcases readFrame_cases chunk maxSize client curLen hdata d₁ with
      hleave | ⟨size, mask, rest', d', hstart, hmax, hframe, hat'⟩
    · exact .inl hleave
    · rw [hat₁.inbound, ← hin] at hstart
      rw [hat₁.outbound, hat₁.closed] at hat'
      exact .inr (.inr ⟨head, size, mask, rest', d', hstart, hmax, hframe, hat'⟩)
  · have hpassed : Passed head.opcode := by
      push Not at hdata
      exact ⟨hdata.1, hdata.2.1, hdata.2.2, hping⟩
    obtain ⟨d', hrun, hat'⟩ := readHeading_passed chunk maxSize client curLen hat hpassed
    exact .inr (.inl ⟨d', hrun, by rwa [hat'.inbound]⟩)

/-- Bytes that begin with a data frame come to its payload when the length passes the check. -/
theorem readHeading_frame {maxSize : UInt32} {client : Bool} {curLen : Int} {head : WSFrameHead}
    {size : Nat} {mask : List UInt8} (h : FrameStart client head size mask rest inbound)
    (hat : d.At inbound outbound closed)
    (hmax : (toSize curLen + size) % 2 ^ 64 < maxSize.toNat) :
    ∃ d', readHeading chunk maxSize client curLen d = .ok (.frame head size mask) d' ∧
      d'.At rest outbound closed := by
  rw [h.inbound] at hat
  obtain ⟨d₁, hrun, hat₁⟩ := readHeading_data chunk maxSize client curLen hat h.opcode
  rw [hrun]
  exact readFrame_ok chunk h hat₁ hmax

theorem readHeading_tooLong {maxSize : UInt32} {client : Bool} {curLen : Int} {head : WSFrameHead}
    {size : Nat} {mask : List UInt8} (h : FrameStart client head size mask rest inbound)
    (hat : d.At inbound outbound closed)
    (hmax : maxSize.toNat ≤ (toSize curLen + size) % 2 ^ 64) :
    ∃ d', readHeading chunk maxSize client curLen d = .ok .leave d' := by
  rw [h.inbound] at hat
  obtain ⟨d₁, hrun, hat₁⟩ := readHeading_data chunk maxSize client curLen hat h.opcode
  rw [hrun]
  exact readFrame_tooLong chunk h hat₁ hmax

/-! ## The payload -/

theorem modify_append_cons (pre block : List UInt8) (byte : UInt8) (f : UInt8 → UInt8) :
    (pre ++ byte :: block).modify pre.length f = pre ++ [f byte] ++ block := by
  rw [List.modify_eq_take_cons_drop (by simp)]
  simp

/-- The decoding loop on a block that lies within an `int`. -/
theorem unmask_ok {curLen : Int} {mask : List UInt8} (block : List UInt8) {i : Nat}
    {pre : List UInt8} (hlen : curLen + i = pre.length)
    (hbound : pre.length + block.length < 2 ^ 31) (d : Duplex) :
    unmask curLen mask block.length i (pre ++ block) d =
      .ok (pre ++ xorMask mask i block) d := by
  induction block generalizing i pre with
  | nil => rfl
  | cons byte block ih =>
      rw [List.length_cons] at hbound
      have hindex : 0 ≤ curLen + i ∧ curLen + i < (pre ++ byte :: block).length ∧
          curLen + i < 2 ^ 31 := by
        rw [List.length_append, List.length_cons]
        omega
      rw [List.length_cons, unmask, if_pos hindex, hlen, Int.toNat_natCast, modify_append_cons,
        xorMask_cons]
      have hpre : curLen + (i + 1 : Nat) =
          (pre ++ [byte ^^^ mask.getD (i % 4) 0]).length := by
        rw [List.length_append, List.length_singleton]
        omega
      rw [ih hpre (by simp; omega), List.append_assoc, List.singleton_append]

theorem resize_append (data : List UInt8) (n : Nat) :
    resize data (data.length + n) = data ++ List.replicate n 0 := by
  rw [resize, List.take_of_length_le (by omega), Nat.add_sub_cancel_left]

/-- The variables of the receiver between two frames: `cur_len` is the length of `data`, and an
`int`. -/
structure Received.Inv (recv : Received) : Prop where
  curLen : recv.curLen = recv.data.length
  small : recv.data.length < 2 ^ 31

/-- The variables after a frame. -/
def Received.add (recv : Received) (head : WSFrameHead) (block : List UInt8) : Received where
  opcode :=
    if recv.opcode = 0 ∧ head.opcode ≠ WSFrameHead.CONTINUE then head.opcode.toNat
    else recv.opcode
  data := recv.data ++ block
  curLen := recv.data.length + block.length

/-- What the receiver makes of the payload of a frame. -/
def decoded (head : WSFrameHead) (mask payload : List UInt8) : List UInt8 :=
  if head.mask then xorMask mask 0 payload else payload

@[simp] theorem length_decoded (head : WSFrameHead) (mask payload : List UInt8) :
    (decoded head mask payload).length = payload.length := by
  rw [decoded]
  split <;> simp

theorem Received.Inv.init : ({} : Received).Inv := ⟨rfl, by norm_num⟩

theorem Received.Inv.add {recv : Received} (_ : recv.Inv) (head : WSFrameHead) {block : List UInt8}
    (hsmall : recv.data.length + block.length < 2 ^ 31) : (recv.add head block).Inv := by
  refine ⟨?_, ?_⟩
  · show (recv.data.length + block.length : Int) = (recv.data ++ block).length
    rw [List.length_append, Nat.cast_add]
  · show (recv.data ++ block).length < 2 ^ 31
    rwa [List.length_append]

section Payload

variable {recv : Received} (head : WSFrameHead) {length : Nat} (mask : List UInt8)

theorem Received.Inv.toSize_curLen (h : recv.Inv) : toSize recv.curLen = recv.data.length := by
  rw [h.curLen]
  exact toSize_natCast (by have := h.small; omega)

/-- The sum does not wrap around, and the string is resized to it. -/
theorem Received.Inv.resized (h : recv.Inv) (hsum : recv.data.length + length < 2 ^ 64) :
    resize recv.data ((toSize recv.curLen + length) % 2 ^ 64) =
      recv.data ++ List.replicate length 0 := by
  rw [h.toSize_curLen, Nat.mod_eq_of_lt hsum, resize_append]

/-- A frame without payload ends the loop: the read returns zero. -/
theorem readPayload_empty (d : Duplex) :
    ∃ d', readPayload chunk recv head 0 mask d = .ok none d' := by
  obtain ⟨d', hrun, -⟩ := readFixSize_zero chunk d
    (resize recv.data ((toSize recv.curLen + 0) % 2 ^ 64)) (toSize recv.curLen)
  exact ⟨d', bind_ok hrun⟩

/-- The stream ends in the payload. -/
theorem readPayload_short (h : recv.Inv) (hsum : recv.data.length + length < 2 ^ 64)
    (hshort : d.inbound.length < length) :
    ∃ d', readPayload chunk recv head length mask d = .ok none d' := by
  obtain ⟨memory, d', hrun, -⟩ := readFixSize_short chunk
    (show recv.data.length + length ≤ (recv.data ++ List.replicate length 0).length by simp) hshort
    (by omega)
  refine ⟨d', ?_⟩
  rw [readPayload, h.resized hsum, h.toSize_curLen]
  exact bind_ok hrun

/-- The payload is there: the read returns its length as an `int`. -/
theorem read_payload (h : recv.Inv) (hsum : recv.data.length + length < 2 ^ 64)
    {payload : List UInt8} (hlen : payload.length = length)
    (hat : d.At (payload ++ rest) outbound closed) :
    ∃ d', readFixSize chunk (resize recv.data ((toSize recv.curLen + length) % 2 ^ 64))
        (toSize recv.curLen) length d = .ok (toInt length, recv.data ++ payload) d' ∧
      d'.At rest outbound closed := by
  have htake : d.inbound.take length = payload := by
    rw [hat.inbound, ← hlen, List.take_left]
  have henough : length ≤ d.inbound.length := by
    rw [hat.inbound, List.length_append]
    omega
  obtain ⟨d', hrun, hat'⟩ := readFixSize_ok chunk
    (show recv.data.length + length ≤ (recv.data ++ List.replicate length 0).length by simp) henough
    (by omega)
  have hsplice : splice (recv.data ++ List.replicate length 0) recv.data.length
      (d.inbound.take length) = recv.data ++ payload := by
    rw [htake, splice_append_right _ _ (Nat.le_refl _), Nat.sub_self, splice, List.take_zero,
      List.nil_append, List.drop_of_length_le (by simp [hlen]), List.append_nil]
  rw [hsplice] at hrun
  refine ⟨d', ?_, ?_, hat'.outbound.trans hat.outbound, hat'.closed.trans hat.closed⟩
  · rw [h.resized hsum, h.toSize_curLen]
    exact hrun
  · rw [hat'.inbound, hat.inbound, ← hlen, List.drop_left]

/-- **A payload that is there**, and fits an `int` with what was received before. -/
theorem readPayload_ok (h : recv.Inv) (hpos : 0 < length)
    (hsmall : recv.data.length + length < 2 ^ 31) {payload : List UInt8}
    (hlen : payload.length = length) (hat : d.At (payload ++ rest) outbound closed) :
    ∃ d', readPayload chunk recv head length mask d =
        .ok (some (recv.add head (decoded head mask payload))) d' ∧
      d'.At rest outbound closed := by
  obtain ⟨d', hrun, hat'⟩ := read_payload chunk h (by omega) hlen hat
  refine ⟨d', (bind_ok hrun).trans ?_, hat'⟩
  have hint : toInt length = length := toInt_natCast (by omega)
  have hcur : toInt ((toSize recv.curLen + length) % 2 ^ 64) =
      recv.data.length + length := by
    rw [h.toSize_curLen, Nat.mod_eq_of_lt (by omega), toInt_natCast hsmall, Nat.cast_add]
  have hdecode : decode head.mask recv.curLen mask length (recv.data ++ payload) d' =
      .ok (recv.data ++ decoded head mask payload) d' := by
    rw [decode, decoded]
    split
    · rw [hint, Int.toNat_natCast, ← hlen]
      exact unmask_ok payload (by rw [h.curLen]; simp) (by omega) d'
    · rfl
  simp only [hint, if_neg (show ¬ (length : Int) ≤ 0 by omega), hcur, Received.add,
    length_decoded, hlen]
  exact bind_ok hdecode

/-- A payload of `2 ^ 31` bytes up to `2 ^ 32` is read as a failure: its length is a negative
`int`. -/
theorem readPayload_negative (h : recv.Inv) (hlarge : 2 ^ 31 ≤ length) (hbound : length < 2 ^ 32)
    {payload : List UInt8} (hlen : payload.length = length)
    (hat : d.At (payload ++ rest) outbound closed) :
    ∃ d', readPayload chunk recv head length mask d = .ok none d' := by
  have := h.small
  obtain ⟨d', hrun, -⟩ := read_payload chunk h (by omega) hlen hat
  refine ⟨d', (bind_ok hrun).trans ?_⟩
  have hint : toInt length ≤ 0 := by
    rw [toInt]
    omega
  simp only [if_pos hint]
  rfl

/-- A payload that does not fit an `int` with what was received before leaves the string, or
makes `cur_len` negative. -/
theorem readPayload_over (h : recv.Inv) (hlength : length < 2 ^ 31)
    (hsum : 2 ^ 31 ≤ recv.data.length + length) {payload : List UInt8}
    (hlen : payload.length = length) (hat : d.At (payload ++ rest) outbound closed) :
    (∃ e d', readPayload chunk recv head length mask d = .error e d') ∨
      ∃ recv' d', readPayload chunk recv head length mask d = .ok (some recv') d' ∧
        recv'.curLen < 0 := by
  have := h.small
  obtain ⟨d', hrun, -⟩ := read_payload chunk h (by omega) hlen hat
  have hint : toInt length = length := toInt_natCast hlength
  have hcur : toInt ((toSize recv.curLen + length) % 2 ^ 64) < 0 := by
    rw [h.toSize_curLen, toInt]
    omega
  rw [readPayload, bind_ok hrun]
  simp only [hint, if_neg (show ¬ (length : Int) ≤ 0 by omega)]
  cases hdecode : decode head.mask recv.curLen mask length (recv.data ++ payload) d' with
  | ok data d₂ => exact .inr ⟨_, d₂, bind_ok hdecode, hcur⟩
  | error e d₂ => exact .inl ⟨e, d₂, bind_error hdecode⟩

/-- A sum that wraps around makes the string shorter than `cur_len`, and the read starts behind
its end. -/
theorem readPayload_wraps (h : recv.Inv) (hlength : length < 2 ^ 64)
    (hsum : 2 ^ 64 ≤ recv.data.length + length) (d : Duplex) :
    ∃ d', readPayload chunk recv head length mask d = .error .outOfBounds d' := by
  have := h.small
  have hresized : (resize recv.data ((toSize recv.curLen + length) % 2 ^ 64)).length =
      recv.data.length + length - 2 ^ 64 := by
    rw [h.toSize_curLen, resize, List.length_append, List.length_take, List.length_replicate]
    omega
  have hbehind : (resize recv.data ((toSize recv.curLen + length) % 2 ^ 64)).length <
      toSize recv.curLen + length := by
    rw [hresized, h.toSize_curLen]
    omega
  obtain ⟨d', hrun⟩ := readFixSize_outOfBounds chunk (d := d) (by omega) hbehind
  exact ⟨d', bind_error hrun⟩

end Payload

/-! ## One iteration -/

section Turn

variable {maxSize : UInt32} {client : Bool} {recv : Received} {head : WSFrameHead} {size : Nat}
  {mask : List UInt8}

/-- The sum that is checked, for a total that is an `int`. -/
theorem Received.Inv.sum (h : recv.Inv) (hsize : recv.data.length + size < 2 ^ 64) :
    (toSize recv.curLen + size) % 2 ^ 64 = recv.data.length + size := by
  rw [h.toSize_curLen, Nat.mod_eq_of_lt hsize]

/-- **A data frame that is taken.** -/
theorem turn_data (h : recv.Inv) {payload : List UInt8}
    (hstart : FrameStart client head size mask (payload ++ rest) inbound)
    (hlen : payload.length = size) (hat : d.At inbound outbound closed) (hpos : 0 < size)
    (hmax : recv.data.length + size < maxSize.toNat) (hsmall : recv.data.length + size < 2 ^ 31) :
    ∃ d', d'.At rest outbound closed ∧ turn chunk maxSize client recv d =
      .ok (if head.fin then
          .message ⟨(recv.add head (decoded head mask payload)).opcode,
            recv.data ++ decoded head mask payload⟩
        else .again (recv.add head (decoded head mask payload))) d' := by
  obtain ⟨d₁, hheading, hat₁⟩ := readHeading_frame chunk hstart hat
    (by rw [h.sum (by omega)]; exact hmax)
  obtain ⟨d₂, hpayload, hat₂⟩ := readPayload_ok chunk head mask h hpos
    hsmall hlen hat₁
  refine ⟨d₂, hat₂, (bind_ok hheading).trans ((bind_ok hpayload).trans ?_)⟩
  simp only
  split <;> rfl

/-- A data frame whose length is refused ends the loop. -/
theorem turn_tooLong (h : recv.Inv) (hstart : FrameStart client head size mask rest inbound)
    (hat : d.At inbound outbound closed) (hsum : recv.data.length + size < 2 ^ 64)
    (hmax : maxSize.toNat ≤ recv.data.length + size) :
    ∃ d', turn chunk maxSize client recv d = .ok .leave d' := by
  obtain ⟨d', hheading⟩ := readHeading_tooLong chunk hstart hat
    (by rw [h.sum hsum]; exact hmax)
  exact ⟨d', bind_ok hheading⟩

/-- So does one whose payload stage breaks. -/
theorem turn_break (h : recv.Inv) (hstart : FrameStart client head size mask rest inbound)
    (hat : d.At inbound outbound closed) (hmax : recv.data.length + size < maxSize.toNat)
    (hbreak : ∀ d₁ : Duplex, d₁.At rest outbound closed →
      ∃ d', readPayload chunk recv head size mask d₁ = .ok none d') :
    ∃ d', turn chunk maxSize client recv d = .ok .leave d' := by
  have hmaxSize := maxSize.toNat_lt
  obtain ⟨d₁, hheading, hat₁⟩ := readHeading_frame chunk hstart hat
    (by rw [h.sum (by omega)]; exact hmax)
  obtain ⟨d', hnone⟩ := hbreak d₁ hat₁
  exact ⟨d', (bind_ok hheading).trans (bind_ok hnone)⟩

theorem turn_ping (maxSize : UInt32) (client : Bool) (recv : Received)
    (hat : d.At (head.bytes ++ rest) outbound closed)
    (hop : head.opcode = WSFrameHead.PING) :
    ∃ d', turn chunk maxSize client recv d = .ok (.again recv) d' ∧
      d'.At rest (outbound ++ (controlHead WSFrameHead.PONG).bytes) closed :=
  let ⟨d', hheading, hat'⟩ := readHeading_ping chunk maxSize client recv.curLen hat hop
  ⟨d', bind_ok hheading, hat'⟩

theorem turn_passed (maxSize : UInt32) (client : Bool) (recv : Received)
    (hat : d.At (head.bytes ++ rest) outbound closed) (hop : Passed head.opcode) :
    ∃ d', turn chunk maxSize client recv d = .ok (.again recv) d' ∧
      d'.At rest outbound closed :=
  let ⟨d', hheading, hat'⟩ := readHeading_passed chunk maxSize client recv.curLen hat hop
  ⟨d', bind_ok hheading, hat'⟩

/-! ## The loop -/

variable {chunk}

theorem recvLoop_again {fuel : Nat} {recv' : Received} {d' : Duplex}
    (hturn : turn chunk maxSize client recv d = .ok (.again recv') d') :
    recvLoop chunk maxSize client (fuel + 1) recv d =
      recvLoop chunk maxSize client fuel recv' d' := bind_ok hturn

theorem recvLoop_message {fuel : Nat} {msg : WSFrameMessage} {d' : Duplex}
    (hturn : turn chunk maxSize client recv d = .ok (.message msg) d') :
    recvLoop chunk maxSize client (fuel + 1) recv d = .ok (some msg) d' := bind_ok hturn

theorem recvLoop_leave {fuel : Nat} {d' : Duplex}
    (hturn : turn chunk maxSize client recv d = .ok .leave d') :
    recvLoop chunk maxSize client (fuel + 1) recv d = .ok none { d' with closed := true } :=
  bind_ok hturn

/-- `WSRecvMessage` whose first iteration leaves the loop. -/
theorem WSRecvMessage_leave
    (hturn : ∃ d', turn chunk maxSize client {} d = .ok .leave d') :
    ∃ d', WSRecvMessage chunk maxSize client d = .ok none d' :=
  let ⟨_, h⟩ := hturn
  ⟨_, recvLoop_leave h⟩

end Turn

end Receive

end Http
end Routn
