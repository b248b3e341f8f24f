import Mathlib.Tactic
import Routn.ByteArray.RoundTrip
import Routn.Rpc.RockDecoder

/-!
# The Rock wire codec

`RockMessage.frame` is what a message looks like on the wire.  `serializeTo_spec` says that
`serializeTo` appends the frame, `parseFrom_spec` that `parseFrom` takes one frame off the wire and
returns its message, for every way the network cuts the transfers into pieces.  By induction on the
list of messages the framing is never lost (`parseAll_frames`).

The length in the header is an `int32_t`: a body of `2 ^ 31` bytes or more is not parsed back, even
when the configured maximum allows it.
-/

open Routn.ByteArray

namespace Routn

open Foundation

namespace RockMessage

/-! ## The body of a message -/

/-- The values that a message consists of. -/
def vals : RockMessage → List Val
  | .request m =>
      [.fuint8 Message.REQUEST, .uint32 m.sn, .uint32 m.cmd, .stringF32 m.body]
  | .response m =>
      [.fuint8 Message.RESPONSE, .uint32 m.sn, .uint32 m.cmd, .uint32 m.result,
        .stringVint m.resStr, .stringF32 m.body]
  | .notify m => [.fuint8 Message.NOTIFY, .uint32 m.notify, .stringF32 m.body]

/-- The string that every message ends with. -/
def bodyString : RockMessage → List UInt8
  | .request m => m.body
  | .response m => m.body
  | .notify m => m.body

/-- The serialized message. -/
def bytes (m : RockMessage) : List UInt8 := encodeVals .bigEndian m.vals

theorem serializeToByteArray_eq (host : ByteOrder) (m : RockMessage) :
    m.serializeToByteArray host =
      catchAll (writeVals host m.vals >>= fun _ => pure true) false := by
  cases m with
  | request m =>
      simp only [serializeToByteArray, RockRequest.serializeToByteArray,
        Request.serializeToByteArray, RockBody.serializeToByteArray, vals, writeVals, writeVal,
        bind_assoc, pure_bind, Bool.and_self]
  | response m =>
      simp only [serializeToByteArray, RockResponse.serializeToByteArray,
        Response.serializeToByteArray, RockBody.serializeToByteArray, vals, writeVals, writeVal,
        bind_assoc, pure_bind, Bool.and_self]
  | notify m =>
      simp only [serializeToByteArray, RockNotify.serializeToByteArray,
        Notify.serializeToByteArray, RockBody.serializeToByteArray, vals, writeVals, writeVal,
        bind_assoc, pure_bind, Bool.and_self]

/-- `toByteArray` returns an array that holds the serialized message. -/
theorem toByteArray_spec (host : ByteOrder) (heap : Nat → Nat → UInt8) {m : RockMessage}
    (hbound : m.bytes.length < 2 ^ 53) :
    ∃ ba, m.toByteArray host heap = .ok (some ba) ∧ Appending ba ∧ ba.endian = .bigEndian ∧
      ba.size = m.bytes.length ∧ ba.content = m.bytes := by
  have hstart : Appending (ByteArray.new heap 4096) := ⟨new_wellFormed heap (by norm_num), rfl⟩
  have hbase : 1 ≤ 4096 := by norm_num
  have hcap := capacityOf_eq hbase .bigEndian hbound
  obtain ⟨ba, hwrite, happ, -, hsize, hendian, -, hcontent⟩ := hstart.writeChunks hcap
  -- No writer throws below `2 ^ 53` bytes, so the `catch` is not reached.
  have hvals : writeVals host m.vals (ByteArray.new heap 4096) = .ok () ba :=
    (writeVals_eq host m.vals _).trans hwrite
  have hnil : (ByteArray.new heap 4096).content = [] := List.take_zero
  rw [flatten_chunksOf] at hsize hcontent
  refine ⟨ba, ?_, happ, hendian, hsize.trans (Nat.zero_add _), ?_⟩
  · rw [toByteArray, serializeToByteArray_eq, catchAll, bind_ok hvals]
    rfl
  · rw [hcontent, hnil, List.nil_append]
    rfl

/-- The header of a frame, on the wire. -/
def headerBytes (flag : UInt8) (length : UInt32) : List UInt8 :=
  s_rock_magic ++ [1, flag] ++ wordBytes .bigEndian 4 length.toNat

/-- A message on the wire: the header and the body. -/
def frame (m : RockMessage) : List UInt8 :=
  headerBytes 0 (UInt32.ofNat m.bytes.length) ++ m.bytes

end RockMessage

namespace RockMessageDecoder

open RockMessage SocketStream

variable (d : RockMessageDecoder) (chunk : Nat → Nat) {fuel : Nat} {c : Conn}

/-! ## Sending -/

/-- Swapping the length first makes the header big-endian on every machine. -/
theorem header_bytes (host : ByteOrder) (flag : UInt8) (length : UInt32) :
    RockMsgHeader.bytes host
        { flag, length := UInt32.ofNat (byteswapOnLittleEndian host 4 length.toNat) } =
      headerBytes flag length := by
  rw [RockMsgHeader.bytes, headerBytes, UInt32.toNat_ofNat']
  have hmod : (2 : Nat) ^ 32 = 256 ^ 4 := by norm_num
  rw [hmod, wordBytes_mod, wordBytes_byteswapOnLittleEndian]

theorem length_headerBytes (flag : UInt8) (length : UInt32) :
    (headerBytes flag length).length = 8 := by
  simp [headerBytes, s_rock_magic]

/-- `sendFrame` moves the header and the rest of the array onto the wire.  A body whose length does
not fit an `int` is reported as an error although all of it was sent. -/
theorem sendFrame_spec (flag : UInt8) (length : UInt32) (h : WellFormed c.ba) (hfuel : 8 ≤ fuel)
    (hbody : c.ba.rest.length ≤ fuel) (hbound : c.ba.rest.length < 2 ^ 64) :
    ∃ c', sendFrame d chunk fuel flag length c =
        .ok (some (if toInt c.ba.rest.length ≤ 0 then -4 else toInt (8 + c.ba.size))) c' ∧
      c'.wire = c.wire ++ headerBytes flag length ++ c.ba.rest := by
  have hlen := length_headerBytes flag length
  rw [h.length_rest] at hbody hbound ⊢
  obtain ⟨calls₁, hheader⟩ := writeFixSize_spec chunk
    (c := { c with buffer := headerBytes flag length }) hfuel (by norm_num) hlen.ge
  obtain ⟨calls₂, ba', hdata, hmoved⟩ := writeFixSizeBA_spec chunk
    (c := { c with
      wire := c.wire ++ (headerBytes flag length).take 8, calls := calls₁
      buffer := headerBytes flag length }) h hbody hbound (Nat.le_refl _)
  have hall : (headerBytes flag length).take 8 = headerBytes flag length :=
    List.take_of_length_le hlen.le
  have hrest : c.ba.rest.take c.ba.getReadSize = c.ba.rest :=
    List.take_of_length_le h.length_rest.le
  have hset : (modify fun c : Conn => { c with buffer := headerBytes flag length } : ConnM Unit) c =
      .ok () { c with buffer := headerBytes flag length } := rfl
  have height : ¬ toInt 8 ≤ 0 := by decide
  refine ⟨{ c with
    wire := c.wire ++ headerBytes flag length ++ c.ba.rest, calls := calls₂
    buffer := headerBytes flag length, ba := ba' }, ?_, rfl⟩
  rw [sendFrame, header_bytes, bind_ok hset, bind_ok hheader]
  dsimp only
  rw [if_neg height]
  show ((stream chunk).writeFixSizeBA fuel c.ba.getReadSize >>= _) _ = _
  rw [bind_ok hdata, hall, hrest]
  dsimp only
  split
  · rfl
  · show EStateM.Result.ok (some (toInt (8 + ba'.size))) _ = _
    rw [hmoved.size]

/-- **`serializeTo` appends the frame of the message.** -/
theorem serializeTo_spec {m : RockMessage} (hgzip : m.bytes.length < d.gzip_min_length.toNat)
    (hfuel : 8 ≤ fuel) (hbody : m.bytes.length ≤ fuel) :
    ∃ c', serializeTo d chunk fuel m c =
        .ok (some (if toInt m.bytes.length ≤ 0 then -4 else toInt (8 + m.bytes.length))) c' ∧
      c'.wire = c.wire ++ m.frame := by
  have hlimit := d.gzip_min_length.toNat_lt
  obtain ⟨ba, hba, happ, hendian, hsize, hcontent⟩ :=
    toByteArray_spec d.host (d.heap c.calls) (m := m) (by omega)
  obtain ⟨ba', hseek, hwf, hpos, hsize', -, hmem, -, -⟩ :=
    happ.wellFormed.setPosition (Nat.zero_le ba.capacity)
  rw [Nat.max_eq_left (Nat.zero_le _), hsize] at hsize'
  have hrest : ba'.rest = m.bytes := by
    rw [rest, hpos, List.drop_zero, content, hsize', hmem, ← hsize]
    exact hcontent
  -- Below the threshold the body is sent as it is.
  have hplain : ¬ UInt32.ofNat m.bytes.length ≥ d.gzip_min_length := by
    intro hge
    have hle := UInt32.le_iff_toNat_le.mp hge
    rw [UInt32.toNat_ofNat'] at hle
    omega
  obtain ⟨c', hsend, hwire⟩ := sendFrame_spec d chunk (c := { c with ba := ba' }) 0
    (UInt32.ofNat m.bytes.length) hwf hfuel (by rw [hrest]; exact hbody)
    (by rw [hrest]; omega)
  dsimp only at hsend hwire
  rw [hrest, hsize'] at hsend
  rw [hrest] at hwire
  have hget : (get : ConnM Conn) c = .ok c c := rfl
  have hset : (modify fun c : Conn => { c with ba } : ConnM Unit) c = .ok () { c with ba } := rfl
  have hseek' : onBA (setPosition 0) { c with ba } = .ok () { c with ba := ba' } := onBA_ok hseek
  refine ⟨c', ?_, by rw [hwire, List.append_assoc]; rfl⟩
  rw [serializeTo, bind_ok hget, hba]
  dsimp only
  rw [bind_ok hset, bind_ok hseek']
  show (if UInt32.ofNat ba'.size ≥ d.gzip_min_length then _ else
    sendFrame d chunk fuel 0 (UInt32.ofNat ba'.size) : ConnM (Option Int)) { c with ba := ba' } = _
  rw [hsize', if_neg hplain]
  exact hsend

end RockMessageDecoder

/-! ## Parsing a body -/

namespace RockMessage

variable {host : ByteOrder} {ba : ByteArray}

theorem catchAll_ok {σ α : Type} {x : EStateM Fault σ α} {fallback a : α} {s s' : σ}
    (hx : x s = .ok a s') : catchAll x fallback s = .ok a s' := by
  rw [catchAll, hx]

/-- A 32-bit number in front of the bytes. -/
theorem readUint32_step (h : WellFormed ba) (v : UInt32) {tail : List UInt8}
    (hrest : ba.rest = Val.encode .bigEndian (.uint32 v) ++ tail) :
    ∃ ba', readUint32 ba = .ok v ba' ∧ Moved ba ba' ∧ ba'.rest = tail := by
  have henc : Val.encode .bigEndian (.uint32 v) = (Field.varint 32).encode ba.endian v.toNat :=
    List.flatten_singleton
  rw [henc] at hrest
  have hstep := reads_readUint32.step h (proper_varint (by norm_num)) v.toNat_lt hrest
  rw [UInt32.ofNat_toNat] at hstep
  exact hstep

theorem readStringVint_step (h : WellFormed ba) {s tail : List UInt8} (hs : s.length < 2 ^ 64)
    (hrest : ba.rest = Val.encode .bigEndian (.stringVint s) ++ tail) (hne : s ++ tail ≠ []) :
    ∃ ba', readStringVint ba = .ok s ba' ∧ Moved ba ba' ∧ ba'.rest = tail :=
  reads_readStringVint.textStep h (proper_varint (by norm_num)) hs hrest hne

theorem parseBody_step (host : ByteOrder) (h : WellFormed ba) (hendian : ba.endian = .bigEndian)
    {s : List UInt8} (hs : s.length < 2 ^ 32) (hne : s ≠ [])
    (hrest : ba.rest = Val.encode .bigEndian (.stringF32 s)) :
    ∃ ba', RockBody.parseFromByteArray host ba = .ok ⟨s⟩ ba' := by
  have hrest' : ba.rest = (textChunks ba.endian (.word 4) s).flatten ++ [] := by
    rw [hrest, hendian, List.append_nil]
    rfl
  obtain ⟨ba', hread, -, -⟩ := (reads_readStringF32 host).textStep h
    (proper_word (by norm_num)) hs hrest' (by simpa using hne)
  exact ⟨ba', bind_ok hread⟩

/-- The type byte in front of the bytes. -/
theorem readFuint8_step (h : WellFormed ba) (hendian : ba.endian = .bigEndian) (v : UInt8)
    {tail : List UInt8} (hrest : ba.rest = Val.encode .bigEndian (.fuint8 v) ++ tail) :
    ∃ ba', readFuint8 ba = .ok v ba' ∧ Moved ba ba' ∧ ba'.rest = tail := by
  have henc : Val.encode .bigEndian (.fuint8 v) = (Field.word 1).encode ba.endian v.toNat := by
    rw [hendian]
    exact List.flatten_singleton
  rw [henc] at hrest
  have hstep := reads_readFuint8.step h (proper_word (by norm_num)) v.toNat_lt hrest
  rw [UInt8.ofNat_toNat] at hstep
  exact hstep

theorem length_bodyString_le (m : RockMessage) : m.bodyString.length ≤ m.bytes.length := by
  have hmem : Val.stringF32 m.bodyString ∈ m.vals := by
    cases m <;> simp [vals, bodyString]
  exact (length_le_textChunks .bigEndian (.word 4) m.bodyString).trans
    (length_encode_le .bigEndian hmem)

/-- **The parser returns the message whose bytes it is given.** -/
theorem parseMessage_spec (host : ByteOrder) {m : RockMessage} (h : WellFormed ba)
    (hendian : ba.endian = .bigEndian) (hne : m.bodyString ≠ []) (hbound : m.bytes.length < 2 ^ 32)
    (hrest : ba.rest = m.bytes) :
    ∃ ba', RockMessageDecoder.parseMessage host ba = .ok (some m) ba' := by
  have hbody := (length_bodyString_le m).trans_lt hbound
  cases m with
  | request m =>
      obtain ⟨ba₁, htype, hm₁, hrest₁⟩ := readFuint8_step h hendian Message.REQUEST hrest
      obtain ⟨ba₂, hsn, hm₂, hrest₂⟩ := readUint32_step hm₁.wellFormed m.sn hrest₁
      obtain ⟨ba₃, hcmd, hm₃, hrest₃⟩ := readUint32_step hm₂.wellFormed m.cmd hrest₂
      have hendian₃ := hm₃.endian.trans (hm₂.endian.trans (hm₁.endian.trans hendian))
      obtain ⟨ba₄, hread⟩ := parseBody_step host hm₃.wellFormed hendian₃ hbody hne
        (hrest₃.trans (List.append_nil _))
      have hbase : Request.parseFromByteArray ba₁ = .ok ⟨m.sn, m.cmd⟩ ba₃ :=
        (bind_ok hsn).trans (bind_ok hcmd)
      have hparse : RockRequest.parseFromByteArray host ba₁ = .ok (some m) ba₄ :=
        catchAll_ok ((bind_ok hbase).trans (bind_ok hread))
      refine ⟨ba₄, (bind_ok htype).trans ?_⟩
      exact bind_ok hparse
  | response m =>
      have hmem : Val.stringVint m.resStr ∈ vals (.response m) := by simp [vals]
      have hres : m.resStr.length < 2 ^ 64 := by
        have hle := (length_le_textChunks .bigEndian (.varint 64) m.resStr).trans
          (length_encode_le .bigEndian hmem)
        have hlt : (encodeVals .bigEndian (vals (.response m))).length < 2 ^ 32 := hbound
        omega
      obtain ⟨ba₁, htype, hm₁, hrest₁⟩ := readFuint8_step h hendian Message.RESPONSE hrest
      obtain ⟨ba₂, hsn, hm₂, hrest₂⟩ := readUint32_step hm₁.wellFormed m.sn hrest₁
      obtain ⟨ba₃, hcmd, hm₃, hrest₃⟩ := readUint32_step hm₂.wellFormed m.cmd hrest₂
      obtain ⟨ba₄, hresult, hm₄, hrest₄⟩ := readUint32_step hm₃.wellFormed m.result hrest₃
      -- The string is not the last field, so reading an empty one is safe.
      have hmore : m.resStr ++ (Val.encode .bigEndian (.stringF32 m.body) ++ []) ≠ [] := by
        intro hnil
        have hlen := length_le_textChunks .bigEndian (.word 4) m.body
        rw [List.append_nil, List.append_eq_nil_iff] at hnil
        rw [show (textChunks .bigEndian (.word 4) m.body).flatten = [] from hnil.2] at hlen
        exact hne (List.eq_nil_of_length_eq_zero (Nat.le_zero.mp hlen))
      obtain ⟨ba₅, hstr, hm₅, hrest₅⟩ :=
        readStringVint_step hm₄.wellFormed hres hrest₄ hmore
      have hendian₅ := hm₅.endian.trans (hm₄.endian.trans
        (hm₃.endian.trans (hm₂.endian.trans (hm₁.endian.trans hendian))))
      obtain ⟨ba₆, hread⟩ := parseBody_step host hm₅.wellFormed hendian₅ hbody hne
        (hrest₅.trans (List.append_nil _))
      have hbase : Response.parseFromByteArray ba₁ =
          .ok ⟨m.sn, m.cmd, m.result, m.resStr⟩ ba₅ :=
        (bind_ok hsn).trans ((bind_ok hcmd).trans ((bind_ok hresult).trans (bind_ok hstr)))
      have hparse : RockResponse.parseFromByteArray host ba₁ = .ok (some m) ba₆ :=
        catchAll_ok ((bind_ok hbase).trans (bind_ok hread))
      refine ⟨ba₆, (bind_ok htype).trans ?_⟩
      exact bind_ok hparse
  | notify m =>
      obtain ⟨ba₁, htype, hm₁, hrest₁⟩ := readFuint8_step h hendian Message.NOTIFY hrest
      obtain ⟨ba₂, hnotify, hm₂, hrest₂⟩ := readUint32_step hm₁.wellFormed m.notify hrest₁
      have hendian₂ := hm₂.endian.trans (hm₁.endian.trans hendian)
      obtain ⟨ba₃, hread⟩ := parseBody_step host hm₂.wellFormed hendian₂ hbody hne
        (hrest₂.trans (List.append_nil _))
      have hbase : Notify.parseFromByteArray ba₁ = .ok ⟨m.notify⟩ ba₂ := bind_ok hnotify
      have hparse : RockNotify.parseFromByteArray host ba₁ = .ok (some m) ba₃ :=
        catchAll_ok ((bind_ok hbase).trans (bind_ok hread))
      refine ⟨ba₃, (bind_ok htype).trans ?_⟩
      exact bind_ok hparse

end RockMessage

/-! ## Receiving -/

namespace RockMessageDecoder

open RockMessage SocketStream

variable (d : RockMessageDecoder) (chunk : Nat → Nat) {fuel : Nat} {c : Conn}

/-- The header is read back on every machine, and swapping its length gives the length sent. -/
theorem header_ofBytes (host : ByteOrder) (flag : UInt8) (length : UInt32) :
    ∃ word, RockMsgHeader.ofBytes host (headerBytes flag length) =
        { magic := s_rock_magic, version := 1, flag, length := word } ∧
      UInt32.ofNat (byteswapOnLittleEndian host 4 word.toNat) = length := by
  set word := UInt32.ofNat (wordOf host (wordBytes .bigEndian 4 length.toNat)) with hword
  refine ⟨word, rfl, ?_⟩
  have hlen := length_wordBytes .bigEndian 4 length.toNat
  have hlt := wordOf_lt host (wordBytes .bigEndian 4 length.toNat)
  have hswap := byteswapOnLittleEndian_wordOf host (wordBytes .bigEndian 4 length.toNat)
  rw [hlen] at hlt hswap
  have hnat : word.toNat = wordOf host (wordBytes .bigEndian 4 length.toNat) :=
    UInt32.toNat_ofNat_of_lt hlt
  rw [hnat, hswap, wordOf_wordBytes]
  show UInt32.ofNat (length.toNat % 2 ^ 32) = length
  rw [Nat.mod_eq_of_lt length.toNat_lt, UInt32.ofNat_toNat]

/-- A length below `2 ^ 31` survives the detour over `int32_t`. -/
theorem toSize_toInt32 {n : Nat} (hn : n < 2 ^ 31) :
    toSize (UInt32.ofNat n).toInt32.toInt = n := by
  have hnat : (UInt32.ofNat n).toBitVec.toNat = n :=
    UInt32.toNat_ofNat_of_lt (hn.trans (by norm_num))
  have hint : (UInt32.ofNat n).toInt32.toInt = n := by
    show (UInt32.ofNat n).toBitVec.toInt = n
    rw [BitVec.toInt_eq_toNat_of_lt (by rw [hnat]; omega), hnat]
  rw [hint]
  exact toSize_natCast (by omega)

/-- `parseFrom` reads a header with an admissible length and goes on with the body. -/
theorem parseFrom_header {length : UInt32} {left : List UInt8} (hmax : length < d.max_length)
    (hfuel : 8 ≤ fuel) (hwire : c.wire = headerBytes 0 length ++ left) :
    ∃ c', c'.wire = left ∧
      parseFrom d chunk fuel c = catchAll (parseBody d chunk fuel 0 length) (some none) c' := by
  have hheader := length_headerBytes 0 length
  have htake : c.wire.take 8 = headerBytes 0 length := by
    rw [hwire, ← hheader, List.take_left]
  have hdrop : c.wire.drop 8 = left := by
    rw [hwire, ← hheader, List.drop_left]
  set start : Conn := { c with buffer := ({} : RockMsgHeader).bytes d.host } with hstart
  have hbuffer : start.buffer.length = 8 := by
    simp [hstart, RockMsgHeader.bytes, s_rock_magic]
  have hlong : 8 ≤ start.wire.length := by
    show 8 ≤ c.wire.length
    rw [hwire, List.length_append, hheader]
    omega
  obtain ⟨calls, hread⟩ := readFixSize_spec chunk hfuel (by norm_num) hbuffer hlong
  rw [show start.wire = c.wire from rfl, htake, hdrop] at hread
  obtain ⟨word, hof, hswap⟩ := header_ofBytes d.host 0 length
  -- Magic, version and length pass the three tests.
  have hchecks : parseFrame d chunk fuel
      { magic := s_rock_magic, version := 1, flag := 0, length := word } =
      parseBody d chunk fuel 0 length := by
    rw [parseFrame, if_neg (by simp), if_neg (by simp)]
    dsimp only
    rw [hswap, if_neg (UInt32.not_le.mpr hmax)]
  refine ⟨{ start with wire := left, calls, buffer := headerBytes 0 length }, rfl, ?_⟩
  have hset : (modify fun c : Conn => { c with buffer := ({} : RockMsgHeader).bytes d.host } :
      ConnM Unit) c = .ok () start := rfl
  have height : ¬ toInt 8 ≤ 0 := by decide
  set c₁ : Conn := { start with wire := left, calls, buffer := headerBytes 0 length } with hc₁
  have hget : (get : ConnM Conn) c₁ = .ok c₁ c₁ := rfl
  have hbuffer₁ : c₁.buffer = headerBytes 0 length := rfl
  rw [parseFrom, catchAll, catchAll, bind_ok hset, bind_ok hread]
  dsimp only
  rw [if_neg height, bind_ok hget, hbuffer₁, hof, hchecks]

/-- The body of a message is received and parsed. -/
theorem parseBody_spec {m : RockMessage} {tail : List UInt8} (hsmall : m.bytes.length < 2 ^ 31)
    (hne : m.bodyString ≠ []) (hbody : m.bytes.length ≤ fuel) (hwire : c.wire = m.bytes ++ tail) :
    ∃ c', parseBody d chunk fuel 0 (UInt32.ofNat m.bytes.length) c = .ok (some (some m)) c' ∧
      c'.wire = tail := by
  set second : Conn := { c with ba := ByteArray.new (d.heap c.calls) 4096 } with hsecond
  have happ : Appending second.ba := ⟨new_wellFormed (d.heap c.calls) (by norm_num), rfl⟩
  have hlong : m.bytes.length ≤ second.wire.length := by
    show _ ≤ c.wire.length
    rw [hwire, List.length_append]
    omega
  obtain ⟨calls, ba, hdata, happ', hendian, hcontent⟩ := readFixSizeBA_spec chunk happ hbody
    (show 0 + m.bytes.length < 2 ^ 53 by omega) hlong
  have hleft : second.wire.drop m.bytes.length = tail := by
    show c.wire.drop _ = tail
    rw [hwire, List.drop_left]
  have hcontent' : ba.content = m.bytes := by
    rw [hcontent, show second.ba.content = [] from List.take_zero, List.nil_append]
    show c.wire.take _ = _
    rw [hwire, List.take_left]
  rw [hleft] at hdata
  obtain ⟨ba', hseek, hwf, hpos, hsize, -, hmem, hendian', -⟩ :=
    happ'.wellFormed.setPosition (Nat.zero_le ba.capacity)
  rw [Nat.max_eq_left (Nat.zero_le _)] at hsize
  have hrest : ba'.rest = m.bytes := by
    rw [rest, hpos, List.drop_zero, content, hsize, hmem]
    exact hcontent'
  obtain ⟨ba'', hparse⟩ := parseMessage_spec d.host hwf (hendian'.trans hendian) hne (by omega)
    hrest
  -- A body with a string in it is not empty, so its length is not taken for an error.
  have hpos' : ¬ toInt m.bytes.length ≤ 0 := by
    have hle := length_bodyString_le m
    have hlt := List.length_pos_iff.mpr hne
    rw [toInt_natCast hsmall]
    omega
  have hset : (modify fun c : Conn => { c with ba := ByteArray.new (d.heap c.calls) 4096 } :
      ConnM Unit) c = .ok () second := rfl
  have hseek' : onBA (setPosition 0) { second with wire := tail, calls, ba } =
      .ok () { second with wire := tail, calls, ba := ba' } := onBA_ok hseek
  have hparse' : onBA (parseMessage d.host) { second with wire := tail, calls, ba := ba' } =
      .ok (some m) { second with wire := tail, calls, ba := ba'' } := onBA_ok hparse
  refine ⟨{ second with wire := tail, calls, ba := ba'' }, ?_, rfl⟩
  rw [parseBody, bind_ok hset, toSize_toInt32 hsmall, bind_ok hdata]
  dsimp only
  rw [if_neg hpos', bind_ok hseek']
  show (onBA (parseMessage d.host) >>= fun m => pure (some m)) _ = _
  rw [bind_ok hparse']
  rfl

theorem length_lt_iff {m : RockMessage} {limit : UInt32} (h : m.bytes.length < limit.toNat) :
    UInt32.ofNat m.bytes.length < limit := by
  have hlimit := limit.toNat_lt
  rw [UInt32.lt_iff_toNat_lt, UInt32.toNat_ofNat']
  omega

/-- **`parseFrom` takes one frame off the wire** and returns its message. -/
theorem parseFrom_spec {m : RockMessage} {tail : List UInt8}
    (hmax : m.bytes.length < d.max_length.toNat) (hsmall : m.bytes.length < 2 ^ 31)
    (hne : m.bodyString ≠ []) (hfuel : 8 ≤ fuel) (hbody : m.bytes.length ≤ fuel)
    (hwire : c.wire = m.frame ++ tail) :
    ∃ c', parseFrom d chunk fuel c = .ok (some (some m)) c' ∧ c'.wire = tail := by
  rw [frame, List.append_assoc] at hwire
  obtain ⟨c₁, hwire₁, hparse⟩ := parseFrom_header d chunk (length_lt_iff hmax) hfuel hwire
  obtain ⟨c₂, hrun, hwire₂⟩ := parseBody_spec d chunk hsmall hne hbody hwire₁
  exact ⟨c₂, hparse.trans (catchAll_ok hrun), hwire₂⟩

/-- A length from `2 ^ 31` on is negative as an `int32_t`, and asks for almost `2 ^ 64` bytes. -/
theorem lt_toSize_toInt32 {n : Nat} (hn : n < 2 ^ 32) (hlarge : 2 ^ 31 ≤ n) :
    n < toSize (UInt32.ofNat n).toInt32.toInt ∧ toSize (UInt32.ofNat n).toInt32.toInt < 2 ^ 64 := by
  have hnat : (UInt32.ofNat n).toBitVec.toNat = n := UInt32.toNat_ofNat_of_lt hn
  have hint : (UInt32.ofNat n).toInt32.toInt = n - 2 ^ 32 := by
    show (UInt32.ofNat n).toBitVec.toInt = _
    rw [BitVec.toInt_eq_toNat_cond, hnat, if_neg (by omega)]
    rfl
  rw [hint, toSize]
  omega

/-- A frame whose body has `2 ^ 31` bytes or more is not parsed, even when the maximum length
allows it. -/
theorem parseFrom_large {m m' : RockMessage} {c' : Conn}
    (hmax : m.bytes.length < d.max_length.toNat) (hlarge : 2 ^ 31 ≤ m.bytes.length)
    (hfuel : 8 ≤ fuel) (hwire : c.wire = m.frame) :
    parseFrom d chunk fuel c ≠ .ok (some (some m')) c' := by
  intro hrun
  have hlimit := d.max_length.toNat_lt
  obtain ⟨c₁, hwire₁, hparse⟩ := parseFrom_header d chunk (length_lt_iff hmax) hfuel hwire
  have hbody : parseBody d chunk fuel 0 (UInt32.ofNat m.bytes.length) c₁ =
      .ok (some (some m')) c' := by
    rw [hparse, catchAll] at hrun
    split at hrun
    · obtain ⟨hnone, -⟩ := EStateM.Result.ok.inj hrun
      simp at hnone
    · exact hrun
  obtain ⟨u, c₂, hset, hbody⟩ := of_bind_ok hbody
  obtain ⟨-, rfl⟩ := EStateM.Result.ok.inj hset
  obtain ⟨rt, c₃, hdata, hbody⟩ := of_bind_ok hbody
  cases rt with
  | none =>
      obtain ⟨hnone, -⟩ := EStateM.Result.ok.inj hbody
      simp at hnone
  | some rt =>
      obtain ⟨hshort, hsize⟩ := lt_toSize_toInt32 (by omega) hlarge
      have hzero : rt = 0 := fixLoop_short (fun c => c.wire.length)
        (fun _ _ _ _ _ hcall => readBA_takes chunk hcall) (by rw [hwire₁]; exact hshort)
        (by omega) hdata
      rw [hzero] at hbody
      obtain ⟨hnone, -⟩ := EStateM.Result.ok.inj hbody
      simp at hnone

/-! ## A list of messages -/

/-- Send the messages one after the other, and collect what `serializeTo` returns. -/
def serializeAll (fuel : Nat) : List RockMessage → ConnM (Option (List Int))
  | [] => return some []
  | m :: ms => do
      let rt ← serializeTo d chunk fuel m
      match rt with
      | none => return none
      | some rt => return (← serializeAll fuel ms).map (rt :: ·)

/-- Call `parseFrom` so many times. -/
def parseAll (fuel : Nat) : Nat → ConnM (Option (List (Option RockMessage)))
  | 0 => return some []
  | n + 1 => do
      let m ← parseFrom d chunk fuel
      match m with
      | none => return none
      | some m => return (← parseAll fuel n).map (m :: ·)

/-- The messages that go through the codec uncompressed. -/
structure Fits (m : RockMessage) : Prop where
  nonempty : m.bodyString ≠ []
  max_length : m.bytes.length < d.max_length.toNat
  gzip_min_length : m.bytes.length < d.gzip_min_length.toNat
  int : m.bytes.length < 2 ^ 31

theorem serializeAll_frames {ms : List RockMessage} (hfits : ∀ m ∈ ms, d.Fits m)
    (hfuel : 8 ≤ fuel) (hbody : ∀ m ∈ ms, m.bytes.length ≤ fuel) :
    ∃ c', serializeAll d chunk fuel ms c =
        .ok (some (ms.map fun m => toInt (8 + m.bytes.length))) c' ∧
      c'.wire = c.wire ++ ms.flatMap frame := by
  induction ms generalizing c with
  | nil => exact ⟨c, rfl, by simp⟩
  | cons m ms ih =>
      have hm := hfits m List.mem_cons_self
      obtain ⟨c₁, hsend, hwire₁⟩ := serializeTo_spec d chunk (c := c) hm.gzip_min_length hfuel
        (hbody m List.mem_cons_self)
      obtain ⟨c₂, hrest, hwire₂⟩ := ih (c := c₁)
        (fun m' hm' => hfits m' (List.mem_cons_of_mem m hm'))
        fun m' hm' => hbody m' (List.mem_cons_of_mem m hm')
      have hpos : ¬ toInt m.bytes.length ≤ 0 := by
        have hle := length_bodyString_le m
        have hlt := List.length_pos_iff.mpr hm.nonempty
        rw [toInt_natCast hm.int]
        omega
      rw [if_neg hpos] at hsend
      refine ⟨c₂, ?_, by rw [hwire₂, hwire₁, List.flatMap_cons, List.append_assoc]⟩
      rw [serializeAll, bind_ok hsend]
      dsimp only
      rw [bind_ok hrest]
      rfl

/-- The framing is never lost, by induction on the messages. -/
theorem parseAll_frames {ms : List RockMessage} (hfits : ∀ m ∈ ms, d.Fits m)
    (hfuel : 8 ≤ fuel) (hbody : ∀ m ∈ ms, m.bytes.length ≤ fuel) {tail : List UInt8}
    (hwire : c.wire = ms.flatMap frame ++ tail) :
    ∃ c', parseAll d chunk fuel ms.length c = .ok (some (ms.map some)) c' ∧ c'.wire = tail := by
  induction ms generalizing c with
  | nil => exact ⟨c, rfl, by simpa using hwire⟩
  | cons m ms ih =>
      have hm := hfits m List.mem_cons_self
      rw [List.flatMap_cons, List.append_assoc] at hwire
      obtain ⟨c₁, hparse, hwire₁⟩ := parseFrom_spec d chunk hm.max_length hm.int hm.nonempty hfuel
        (hbody m List.mem_cons_self) hwire
      obtain ⟨c₂, hrest, hwire₂⟩ := ih (fun m' hm' => hfits m' (List.mem_cons_of_mem m hm'))
        (fun m' hm' => hbody m' (List.mem_cons_of_mem m hm')) hwire₁
      refine ⟨c₂, ?_, hwire₂⟩
      rw [List.length_cons, parseAll, bind_ok hparse]
      dsimp only
      rw [bind_ok hrest]
      rfl

/-- The messages are sent over an empty wire and received again, with whatever follows them left on
the wire. -/
def RoundTrips (fuel : Nat) (ms : List RockMessage) (c : Conn) : Prop :=
  ∃ rts c₁, serializeAll d chunk fuel ms c = .ok (some rts) c₁ ∧ ∀ tail, ∃ c₂,
    parseAll d chunk fuel ms.length { c₁ with wire := c₁.wire ++ tail } =
      .ok (some (ms.map some)) c₂ ∧ c₂.wire = tail

/-- **Wire codec round trip.** -/
theorem roundTrips_of_fits {ms : List RockMessage} (hfits : ∀ m ∈ ms, d.Fits m)
    (hfuel : 8 ≤ fuel) (hbody : ∀ m ∈ ms, m.bytes.length ≤ fuel) (hwire : c.wire = []) :
    RoundTrips d chunk fuel ms c := by
  obtain ⟨c₁, hsend, hwire₁⟩ := serializeAll_frames d chunk (c := c) hfits hfuel hbody
  refine ⟨_, c₁, hsend, fun tail => ?_⟩
  rw [hwire, List.nil_append] at hwire₁
  exact parseAll_frames d chunk hfits hfuel hbody (by rw [hwire₁])

/-- A decoder with the default thresholds, and one that admits every length. -/
def defaultDecoder : RockMessageDecoder where
  host := .littleEndian
  gzip _ := .writeFailed
  gunzip _ := .writeFailed
  heap _ _ _ := 0

def unlimitedDecoder : RockMessageDecoder :=
  { defaultDecoder with max_length := 4294967295, gzip_min_length := 4294967295 }

/-- A request and a notification, moved byte by byte. -/
theorem roundTrips_two_messages :
    RoundTrips defaultDecoder (fun _ => 1) 64
      [.request { sn := 7, cmd := 300, body := [65, 66] }, .notify { notify := 1, body := [67] }]
      { wire := [], calls := 0, buffer := [], ba := ByteArray.new (fun _ _ => 0) 4096 } :=
  roundTrips_of_fits defaultDecoder (fun _ => 1)
    (by
      intro m hm
      simp only [List.mem_cons, List.not_mem_nil, or_false] at hm
      rcases hm with rfl | rfl
      · exact ⟨by decide, by decide +kernel, by decide +kernel, by decide +kernel⟩
      · exact ⟨by decide, by decide +kernel, by decide +kernel, by decide +kernel⟩)
    (by decide) (by decide +kernel) rfl

/-- A body of `2 ^ 31` bytes or more does not come back, whatever the thresholds. -/
theorem not_roundTrips_of_large {m : RockMessage} (hmax : m.bytes.length < d.max_length.toNat)
    (hgzip : m.bytes.length < d.gzip_min_length.toNat) (hlarge : 2 ^ 31 ≤ m.bytes.length)
    (hfuel : 8 ≤ fuel) (hbody : m.bytes.length ≤ fuel) (hwire : c.wire = []) :
    ¬ RoundTrips d chunk fuel [m] c := by
  rintro ⟨rts, c₁, hsend, hparse⟩
  obtain ⟨c₂, hrun, -⟩ := hparse []
  obtain ⟨c', hspec, hwire'⟩ := serializeTo_spec d chunk (c := c) hgzip hfuel hbody
  rw [serializeAll, bind_ok hspec] at hsend
  obtain ⟨-, rfl⟩ := EStateM.Result.ok.inj hsend
  obtain ⟨r, c₃, hfirst, hrest⟩ := of_bind_ok hrun
  cases r with
  | none =>
      obtain ⟨hnone, -⟩ := EStateM.Result.ok.inj hrest
      simp at hnone
  | some r =>
      obtain ⟨hms, -⟩ := EStateM.Result.ok.inj hrest
      have hr : r = some m := (List.cons.inj (Option.some.inj hms)).1
      rw [hr] at hfirst
      refine parseFrom_large d chunk hmax hlarge hfuel ?_ hfirst
      show c'.wire ++ [] = _
      rw [hwire', hwire, List.append_nil, List.nil_append]

/-- The fixed part of a request with small numbers takes seven bytes. -/
theorem length_request (s : List UInt8) :
    (RockMessage.request { body := s }).bytes.length = 7 + s.length := by
  have hfields : (encodeVals .bigEndian [.fuint8 Message.REQUEST, .uint32 0, .uint32 0]).length =
      3 := by decide +kernel
  have hbody : (Val.encode .bigEndian (.stringF32 s)).length = 4 + s.length := by
    simp [Val.encode, Val.chunks, textChunks, Field.encode]
  have hsplit : (RockMessage.request { body := s }).bytes =
      encodeVals .bigEndian [.fuint8 Message.REQUEST, .uint32 0, .uint32 0] ++
        Val.encode .bigEndian (.stringF32 s) := by
    simp [RockMessage.bytes, vals, encodeVals]
  rw [hsplit, List.length_append, hfields, hbody]
  omega

/-- With both thresholds at their largest value, a request with a body of `2 ^ 31` bytes. -/
theorem not_roundTrips_large :
    ¬ RoundTrips unlimitedDecoder (fun _ => 1) (2 ^ 32)
      [.request { body := List.replicate (2 ^ 31) 0 }]
      { wire := [], calls := 0, buffer := [], ba := ByteArray.new (fun _ _ => 0) 4096 } := by
  have hlen := length_request (List.replicate (2 ^ 31) 0)
  rw [List.length_replicate] at hlen
  generalize RockMessage.request { body := List.replicate (2 ^ 31) 0 } = m at hlen ⊢
  have hlimit : unlimitedDecoder.max_length.toNat = 2 ^ 32 - 1 ∧
      unlimitedDecoder.gzip_min_length.toNat = 2 ^ 32 - 1 := by decide
  exact not_roundTrips_of_large unlimitedDecoder _ (by omega) (by omega) (by omega) (by norm_num)
    (by omega) rfl

end RockMessageDecoder
end Routn
