import Mathlib.Tactic
import Routn.ByteArray.Vectors
import Routn.ByteArray.Writer
import Routn.Streams.Stream

/-!
# `SocketStream` over a connected socket

A socket moves the bytes of `send` to `recv` in order.  How many bytes one call moves is up to the
network: `chunk k` is what it would like to move in its `k`-th call, and a call moves at least one
byte when there is one.  The socket stays connected and reports no error.

`Conn` is the socket together with the two places in its user's memory that the calls read and
write: a buffer and a `ByteArray`.
-/

open Routn.ByteArray

namespace Routn

open Foundation

/-- The bytes on the wire, the number of calls so far, and the memory of the user. -/
structure Conn where
  wire : List UInt8
  calls : Nat
  buffer : List UInt8
  ba : ByteArray

/-- A call on a connection. -/
abbrev ConnM := EStateM Fault Conn

namespace SocketStream

/-- A member function of the `ByteArray`. -/
def onBA {α : Type} (x : ByteArrayM α) : ConnM α := fun c =>
  match x c.ba with
  | .ok a ba => .ok a { c with ba }
  | .error fault ba => .error fault { c with ba }

variable (chunk : Nat → Nat)

/-- How many of `n` bytes the next call moves; the count is an `int`. -/
def moved (c : Conn) (n : Nat) : Nat := min n (min (2 ^ 31 - 1) (max 1 (chunk c.calls)))

/-- `Socket::recv` for at most `n` bytes; an empty wire reads as end of file. -/
def recv (n : Nat) : ConnM (List UInt8) := fun c =>
  let k := moved chunk c (min n c.wire.length)
  .ok (c.wire.take k) { c with wire := c.wire.drop k, calls := c.calls + 1 }

/-- `Socket::send`. -/
def send (bytes : List UInt8) : ConnM Nat := fun c =>
  let k := moved chunk c bytes.length
  .ok k { c with wire := c.wire ++ bytes.take k, calls := c.calls + 1 }

def read (offset length : Nat) : ConnM Int := do
  let data ← recv chunk length
  modify fun c => { c with buffer := splice c.buffer offset data }
  return data.length

def readBA (length : Nat) : ConnM Int := do
  let iovs ← onBA (getWriteBuffers length)
  let data ← recv chunk (iovs.map Iovec.len).sum
  onBA (fill iovs data)
  -- At the end of file the cursor stays; the pages stay allocated.
  if data.length > 0 then
    let c ← get
    onBA (setPosition (c.ba.position + data.length))
  return data.length

def write (offset length : Nat) : ConnM Int := do
  let c ← get
  let rt ← send chunk ((c.buffer.drop offset).take length)
  return rt

def writeBA (length : Nat) : ConnM Int := do
  let iovs ← onBA (getReadBuffers length)
  let c ← get
  let rt ← send chunk (gather iovs c.ba.nodes)
  if rt > 0 then
    let c ← get
    onBA (setPosition (c.ba.position + rt))
  return rt

/-- The virtual calls of a `SocketStream`. -/
def stream : Stream Fault Conn where
  read := read chunk
  readBA := readBA chunk
  write := write chunk
  writeBA := writeBA chunk

/-! ## One call -/

variable {c : Conn}

theorem moved_bounds {n : Nat} (hn : 0 < n) : 0 < moved chunk c n ∧ moved chunk c n ≤ n := by
  rw [moved]
  omega

theorem onBA_ok {α : Type} {x : ByteArrayM α} {a : α} {ba : ByteArray} (h : x c.ba = .ok a ba) :
    onBA x c = .ok a { c with ba } := by
  rw [onBA, h]

/-- `read` moves the next bytes of the wire into the buffer. -/
theorem read_spec (offset : Nat) {left : Nat} (hleft : 0 < left) (hwire : left ≤ c.wire.length) :
    ∃ n, 0 < n ∧ n ≤ left ∧
      read chunk offset left c = .ok (n : Int)
        { c with
          wire := c.wire.drop n, calls := c.calls + 1
          buffer := splice c.buffer offset (c.wire.take n) } := by
  have hmin : min left c.wire.length = left := Nat.min_eq_left hwire
  have hmoved := moved_bounds chunk (c := c) hleft
  set n := moved chunk c left with hn
  have hlen : (c.wire.take n).length = n := by
    rw [List.length_take]
    omega
  refine ⟨n, hmoved.1, hmoved.2, ?_⟩
  show EStateM.Result.ok ((c.wire.take (moved chunk c (min left c.wire.length))).length : Int) _ = _
  rw [hmin, ← hn, hlen]

/-- `write` moves bytes of the buffer onto the wire. -/
theorem write_spec {offset left : Nat} (hleft : 0 < left)
    (hbuffer : offset + left ≤ c.buffer.length) :
    ∃ n, 0 < n ∧ n ≤ left ∧
      write chunk offset left c = .ok (n : Int)
        { c with
          wire := c.wire ++ (c.buffer.drop offset).take n
          calls := c.calls + 1 } := by
  have hlen : ((c.buffer.drop offset).take left).length = left := by
    rw [List.length_take, List.length_drop]
    omega
  have hmoved := moved_bounds chunk (c := c) hleft
  refine ⟨moved chunk c left, hmoved.1, hmoved.2, ?_⟩
  show EStateM.Result.ok _ _ = _
  rw [hlen, List.take_take, Nat.min_eq_left hmoved.2]

/-- `readBA` appends the next bytes of the wire to the data of the array. -/
theorem readBA_spec {left : Nat} (h : Appending c.ba) (hleft : 0 < left)
    (hwire : left ≤ c.wire.length) (hbound : c.ba.size + left < 2 ^ 53) :
    ∃ n ba', 0 < n ∧ n ≤ left ∧
      readBA chunk left c = .ok (n : Int)
        { c with wire := c.wire.drop n, calls := c.calls + 1, ba := ba' } ∧
      Appending ba' ∧ ba'.endian = c.ba.endian ∧ ba'.size = c.ba.size + n ∧
      ba'.content = c.ba.content ++ c.wire.take n := by
  have hpos := h.position_eq
  -- The scatter list covers `left` bytes from the cursor on, and the socket fills the first `n`.
  obtain ⟨ba₁, iovs, fresh, hiovs, hwf₁, hmem₁, hbase₁, hpos₁, hsize₁, hendian₁, hcap₁, hspans⟩ :=
    h.wellFormed.getWriteBuffers hleft (h.wellFormed.room (by omega))
  have hroom := h.wellFormed.room (n := left) (by omega)
  have hmoved := moved_bounds chunk (c := c) hleft
  set n := moved chunk c left with hn
  have hlen : (c.wire.take n).length = n := by
    rw [List.length_take]
    omega
  rw [← hbase₁, ← hpos₁] at hspans
  have hdata : (c.wire.take n).length ≤ left := by omega
  obtain ⟨ba₂, hfill, hwf₂, hbase₂, hpos₂, hsize₂, hendian₂, hcap₂, hmem₂⟩ :=
    hwf₁.fill hspans (by omega) hdata
  obtain ⟨ba₃, hseek, hwf₃, hpos₃, hsize₃, hcap₃, hmem₃, hendian₃, hbase₃⟩ :=
    hwf₂.setPosition (v := ba₂.position + n) (by omega)
  have hsize : ba₃.size = c.ba.size + n := by omega
  have hrecv : recv chunk (iovs.map Iovec.len).sum { c with ba := ba₁ } =
      .ok (c.wire.take n) { c with wire := c.wire.drop n, calls := c.calls + 1, ba := ba₁ } := by
    rw [recv, hspans.sum_len]
    have hmin : min left c.wire.length = left := Nat.min_eq_left hwire
    simp only [hmin]
    rfl
  refine ⟨n, ba₃, hmoved.1, hmoved.2, ?_, ⟨hwf₃, by omega⟩,
    hendian₃.trans (hendian₂.trans hendian₁), hsize, ?_⟩
  · rw [readBA, bind_ok (onBA_ok hiovs), bind_ok hrecv, bind_ok (onBA_ok hfill), hlen,
      if_pos hmoved.1]
    show (onBA (setPosition (ba₂.position + n)) >>= fun _ => pure (n : Int)) _ = _
    rw [bind_ok (onBA_ok hseek)]
    rfl
  · have hmemlen := h.wellFormed.length_mem
    have hle := h.wellFormed.size_le
    have hoffset : ba₁.position ≤ (c.ba.mem ++ fresh).length := by
      rw [List.length_append]
      omega
    rw [content, content, hsize, hmem₃, hmem₂, hmem₁]
    have hend := take_splice_end (c.wire.take n) hoffset
    rw [hlen, hpos₁, hpos] at hend
    rw [hpos₁, hpos, hend, List.take_append_of_le_length (by omega)]

/-- `writeBA` moves the next bytes of the data onto the wire. -/
theorem writeBA_spec {left : Nat} (h : WellFormed c.ba) (hleft : 0 < left)
    (hdata : left ≤ c.ba.getReadSize) :
    ∃ n ba', 0 < n ∧ n ≤ left ∧
      writeBA chunk left c = .ok (n : Int)
        { c with wire := c.wire ++ c.ba.rest.take n, calls := c.calls + 1, ba := ba' } ∧
      Moved c.ba ba' ∧ ba'.rest = c.ba.rest.drop n := by
  obtain ⟨iovs, hiovs, hspans⟩ := h.getReadBuffers hleft hdata
  have hsize := h.size_le
  rw [getReadSize] at hdata
  have hmoved := moved_bounds chunk (c := c) hleft
  set n := moved chunk c left with hn
  have hgather : gather iovs c.ba.nodes = c.ba.rest.take left := by
    rw [gather_eq h.uniform hspans (by rw [← h.capacity_eq]; omega), rest, content,
      List.drop_take, List.take_take, Nat.min_eq_left (by omega)]
    rfl
  have hlen : (c.ba.rest.take left).length = left := by
    rw [List.length_take, h.length_rest, getReadSize]
    omega
  obtain ⟨ba', hseek, hwf', hpos', hsize', hcap', hmem', hendian', -⟩ :=
    h.setPosition (v := c.ba.position + n) (by omega)
  have hsize'' : ba'.size = c.ba.size := by omega
  have hsend : send chunk (gather iovs c.ba.nodes) c =
      .ok n { c with wire := c.wire ++ c.ba.rest.take n, calls := c.calls + 1 } := by
    rw [send, hgather]
    simp only [hlen]
    rw [← hn, List.take_take, Nat.min_eq_left hmoved.2]
  refine ⟨n, ba', hmoved.1, hmoved.2, ?_, ⟨hwf', hsize'', hcap', hmem', hendian'⟩, ?_⟩
  · have hiovs' : onBA (getReadBuffers left) c = .ok iovs c := onBA_ok hiovs
    have hget : (get : ConnM Conn) c = .ok c c := rfl
    have hseek' : onBA (setPosition (c.ba.position + n))
        { c with wire := c.wire ++ c.ba.rest.take n, calls := c.calls + 1 } =
        .ok () { c with wire := c.wire ++ c.ba.rest.take n, calls := c.calls + 1, ba := ba' } :=
      onBA_ok hseek
    rw [writeBA, bind_ok hiovs', bind_ok hget, bind_ok hsend, if_pos hmoved.1]
    show (onBA (setPosition (c.ba.position + n)) >>= fun _ => pure (n : Int)) _ = _
    rw [bind_ok hseek']
    rfl
  · rw [rest, content, hsize'', hmem', hpos', rest, content, List.drop_drop]

/-- Whatever the array, `readBA` takes as many bytes off the wire as it reports. -/
theorem readBA_takes {left : Nat} {r : Int} {c' : Conn} (h : readBA chunk left c = .ok r c') :
    ∃ k : Nat, r = k ∧ k ≤ c.wire.length ∧ c'.wire.length = c.wire.length - k := by
  have hkeep : ∀ {α : Type} {x : ByteArrayM α} {a : α} {c c' : Conn}, onBA x c = .ok a c' →
      c'.wire = c.wire := by
    intro α x a c c' hx
    rw [onBA] at hx
    split at hx
    · obtain ⟨-, rfl⟩ := EStateM.Result.ok.inj hx
      rfl
    · cases hx
  -- Only `recv` touches the wire; the three calls on the array leave it alone.
  obtain ⟨iovs, c₁, hiovs, h⟩ := of_bind_ok h
  obtain ⟨data, c₂, hrecv, h⟩ := of_bind_ok h
  obtain ⟨u, c₃, hfill, h⟩ := of_bind_ok h
  have hlen : data.length ≤ c.wire.length ∧ c₃.wire.length = c.wire.length - data.length := by
    obtain ⟨rfl, rfl⟩ := EStateM.Result.ok.inj hrecv
    rw [hkeep hfill, ← hkeep hiovs, List.length_take, List.length_drop]
    omega
  split at h
  · obtain ⟨c₄, c₅, hget, h⟩ := of_bind_ok h
    obtain ⟨-, rfl⟩ := EStateM.Result.ok.inj hget
    obtain ⟨u', c₆, hseek, h⟩ := of_bind_ok h
    obtain ⟨rfl, rfl⟩ := EStateM.Result.ok.inj h
    exact ⟨data.length, rfl, hlen.1, by rw [hkeep hseek, hlen.2]⟩
  · obtain ⟨rfl, rfl⟩ := EStateM.Result.ok.inj h
    exact ⟨data.length, rfl, hlen.1, hlen.2⟩

/-! ## A fixed number of bytes -/

variable {fuel length : Nat}

/-- `readFixSize` fills the buffer with the next bytes of the wire. -/
theorem readFixSize_spec (hfuel : length ≤ fuel) (hlength : length < 2 ^ 64)
    (hbuffer : c.buffer.length = length) (hwire : length ≤ c.wire.length) :
    ∃ calls, (stream chunk).readFixSize fuel length c = .ok (some (toInt length))
      { c with wire := c.wire.drop length, calls, buffer := c.wire.take length } := by
  -- After `offset` bytes the buffer starts with them.
  let I : Nat → Nat → Conn → Prop := fun offset left s => offset + left = length ∧
    ∃ calls, s = { c with
      wire := c.wire.drop offset, calls, buffer := splice c.buffer 0 (c.wire.take offset) }
  have hstart : I 0 length c := ⟨Nat.zero_add length, c.calls, by simp⟩
  have hstep : ∀ offset left s, 0 < left → I offset left s → ∃ (n : Nat) (s' : Conn),
      read chunk offset left s = .ok n s' ∧ 0 < n ∧ n ≤ left ∧ I (offset + n) (left - n) s' := by
    rintro offset left s hleft ⟨hsum, calls, rfl⟩
    have hwire' : left ≤ (c.wire.drop offset).length := by
      rw [List.length_drop]
      omega
    obtain ⟨n, hpos, hle, hcall⟩ := read_spec chunk offset (c := { c with
      wire := c.wire.drop offset, calls, buffer := splice c.buffer 0 (c.wire.take offset) })
      hleft hwire'
    refine ⟨n, _, hcall, hpos, hle, by omega, calls + 1, ?_⟩
    have hlen : (c.wire.take offset).length = offset := by
      rw [List.length_take]
      omega
    have hsplice := splice_splice (c.wire.take offset) ((c.wire.drop offset).take n)
      (Nat.zero_le c.buffer.length)
    rw [Nat.zero_add, hlen, ← List.take_add] at hsplice
    simp only [List.drop_drop, hsplice]
  obtain ⟨s', hrun, -, calls, rfl⟩ := fixLoop_run length hstep hstart hfuel (by omega)
  refine ⟨calls, ?_⟩
  have hfull : splice c.buffer 0 (c.wire.take (0 + length)) = c.wire.take length := by
    have hlen : (c.wire.take length).length = c.buffer.length := by
      rw [List.length_take]
      omega
    rw [Nat.zero_add, splice, hlen]
    simp
  rw [hfull, Nat.zero_add] at hrun
  exact hrun

/-- `writeFixSize` moves the buffer onto the wire. -/
theorem writeFixSize_spec (hfuel : length ≤ fuel) (hlength : length < 2 ^ 64)
    (hbuffer : length ≤ c.buffer.length) :
    ∃ calls, (stream chunk).writeFixSize fuel length c = .ok (some (toInt length))
      { c with wire := c.wire ++ c.buffer.take length, calls } := by
  let I : Nat → Nat → Conn → Prop := fun offset left s => offset + left = length ∧
    ∃ calls, s = { c with wire := c.wire ++ c.buffer.take offset, calls }
  have hstart : I 0 length c := ⟨Nat.zero_add length, c.calls, by simp⟩
  have hstep : ∀ offset left s, 0 < left → I offset left s → ∃ (n : Nat) (s' : Conn),
      write chunk offset left s = .ok n s' ∧ 0 < n ∧ n ≤ left ∧ I (offset + n) (left - n) s' := by
    rintro offset left s hleft ⟨hsum, calls, rfl⟩
    have hbuffer' : offset + left ≤ c.buffer.length := by omega
    obtain ⟨n, hpos, hle, hcall⟩ := write_spec chunk
      (c := { c with wire := c.wire ++ c.buffer.take offset, calls }) hleft hbuffer'
    refine ⟨n, _, hcall, hpos, hle, by omega, calls + 1, ?_⟩
    simp only [List.append_assoc, List.take_add]
  obtain ⟨s', hrun, -, calls, rfl⟩ := fixLoop_run length hstep hstart hfuel (by omega)
  rw [Nat.zero_add] at hrun
  exact ⟨calls, hrun⟩

/-- `readFixSize` appends the next bytes of the wire to the data of the array. -/
theorem readFixSizeBA_spec (h : Appending c.ba) (hfuel : length ≤ fuel)
    (hbound : c.ba.size + length < 2 ^ 53) (hwire : length ≤ c.wire.length) :
    ∃ calls ba', (stream chunk).readFixSizeBA fuel length c = .ok (some (toInt length))
        { c with wire := c.wire.drop length, calls, ba := ba' } ∧
      Appending ba' ∧ ba'.endian = c.ba.endian ∧
      ba'.content = c.ba.content ++ c.wire.take length := by
  -- After `offset` bytes the data has grown by them, and the cursor is at its end again.
  let I : Nat → Nat → Conn → Prop := fun offset left s => offset + left = length ∧
    ∃ calls ba', s = { c with wire := c.wire.drop offset, calls, ba := ba' } ∧
      Appending ba' ∧ ba'.endian = c.ba.endian ∧ ba'.size = c.ba.size + offset ∧
      ba'.content = c.ba.content ++ c.wire.take offset
  have hstart : I 0 length c :=
    ⟨Nat.zero_add length, c.calls, c.ba, by simp, h, rfl, rfl, by simp⟩
  have hstep : ∀ offset left s, 0 < left → I offset left s → ∃ (n : Nat) (s' : Conn),
      readBA chunk left s = .ok n s' ∧ 0 < n ∧ n ≤ left ∧ I (offset + n) (left - n) s' := by
    rintro offset left s hleft ⟨hsum, calls, ba₁, rfl, happ, hendian, hsize, hcontent⟩
    have hwire' : left ≤ (c.wire.drop offset).length := by
      rw [List.length_drop]
      omega
    obtain ⟨n, ba₂, hpos, hle, hcall, happ₂, hendian₂, hsize₂, hcontent₂⟩ := readBA_spec chunk
      (c := { c with wire := c.wire.drop offset, calls, ba := ba₁ }) happ hleft hwire'
      (show ba₁.size + left < 2 ^ 53 by omega)
    dsimp only at hcall hendian₂ hsize₂ hcontent₂
    refine ⟨n, _, hcall, hpos, hle, by omega, calls + 1, ba₂, by rw [List.drop_drop], happ₂,
      hendian₂.trans hendian, by omega, ?_⟩
    rw [hcontent₂, hcontent, List.take_add, List.append_assoc]
  obtain ⟨s', hrun, -, calls, ba', rfl, happ, hendian, -, hcontent⟩ :=
    fixLoop_run length hstep hstart hfuel (by omega)
  rw [Nat.zero_add] at hrun hcontent
  exact ⟨calls, ba', hrun, happ, hendian, hcontent⟩

/-- `writeFixSize` moves the next bytes of the data onto the wire. -/
theorem writeFixSizeBA_spec (h : WellFormed c.ba) (hfuel : length ≤ fuel)
    (hlength : length < 2 ^ 64) (hdata : length ≤ c.ba.getReadSize) :
    ∃ calls ba', (stream chunk).writeFixSizeBA fuel length c = .ok (some (toInt length))
        { c with wire := c.wire ++ c.ba.rest.take length, calls, ba := ba' } ∧
      Moved c.ba ba' := by
  -- After `offset` bytes the wire has them, and the array is left with the rest.
  let I : Nat → Nat → Conn → Prop := fun offset left s => offset + left = length ∧
    ∃ calls ba', s = { c with wire := c.wire ++ c.ba.rest.take offset, calls, ba := ba' } ∧
      Moved c.ba ba' ∧ ba'.rest = c.ba.rest.drop offset
  have hstart : I 0 length c :=
    ⟨Nat.zero_add length, c.calls, c.ba, by simp, Moved.refl h, by simp⟩
  have hrest := h.length_rest
  have hstep : ∀ offset left s, 0 < left → I offset left s → ∃ (n : Nat) (s' : Conn),
      writeBA chunk left s = .ok n s' ∧ 0 < n ∧ n ≤ left ∧ I (offset + n) (left - n) s' := by
    rintro offset left s hleft ⟨hsum, calls, ba₁, rfl, hmoved, hrest₁⟩
    have hlen := hmoved.wellFormed.length_rest
    rw [hrest₁, List.length_drop] at hlen
    obtain ⟨n, ba₂, hpos, hle, hcall, hmoved₂, hrest₂⟩ := writeBA_spec chunk
      (c := { c with wire := c.wire ++ c.ba.rest.take offset, calls, ba := ba₁ })
      hmoved.wellFormed hleft (show left ≤ ba₁.getReadSize by omega)
    dsimp only at hcall hrest₂
    refine ⟨n, _, hcall, hpos, hle, by omega, calls + 1, ba₂, ?_, hmoved.trans hmoved₂, ?_⟩
    · rw [hrest₁, List.append_assoc, ← List.take_add]
    · rw [hrest₂, hrest₁, List.drop_drop]
  obtain ⟨s', hrun, -, calls, ba', rfl, hmoved, -⟩ :=
    fixLoop_run length hstep hstart hfuel (by omega)
  rw [Nat.zero_add] at hrun
  exact ⟨calls, ba', hrun, hmoved⟩

end SocketStream
end Routn
