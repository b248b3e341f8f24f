import Mathlib.Tactic
import Routn.ByteArray.Flat
import Routn.ByteArray.Reader
import Routn.ByteArray.RoundTrip
import Routn.ByteArray.Vectors

/-!
# Receiving into the buffers

A stream receives into the buffers of `getWriteBuffers` and moves the cursor behind what has come
in.  The data, the size and the position are then what `write` of the same bytes makes of them,
wherever in a page the cursor stands and however little has come in.  Only the capacity may differ:
`getWriteBuffers` makes room for what was asked for.

Both need the pages that `addCapacity` adds to suffice, and beyond `2 ^ 53` bytes they may not.
-/

namespace Routn

open Foundation

namespace ByteArray

/-- Receive `data` into the buffers for `len` bytes, and move the cursor. -/
def scatterWrite (len : Nat) (data : List UInt8) : ByteArrayM (List Iovec) := do
  let iovs ← getWriteBuffers len
  fill iovs data
  setPosition ((← get).position + data.length)
  return iovs

/-- Two buffers have no byte in common. -/
def Iovec.Apart (iov iov' : Iovec) : Prop :=
  iov.node ≠ iov'.node ∨ iov.base + iov.len ≤ iov'.base ∨ iov'.base + iov'.len ≤ iov.base

/-- Receiving leaves what `write` leaves, and the buffers are apart and have room for `len`
bytes. -/
def EqualsWrite (ba : ByteArray) (len : Nat) (data : List UInt8) : Prop :=
  ∃ iovs received written, scatterWrite len data ba = .ok iovs received ∧
    write data ba = .ok () written ∧
      (received.content = written.content ∧ received.size = written.size ∧
        received.position = written.position) ∧
      iovs.Pairwise Iovec.Apart ∧ (iovs.map Iovec.len).sum = len

/-! ## The buffers -/

theorem Spans.start_le {b start total : Nat} {iovs : List Iovec} (h : Spans b start total iovs) :
    ∀ iov ∈ iovs, start ≤ iov.node * b + iov.base := by
  induction iovs generalizing start total with
  | nil =>
      intro iov hiov
      cases hiov
  | cons first iovs ih =>
      obtain ⟨hstart, -, -, hrest⟩ := h
      intro iov hiov
      rcases List.mem_cons.mp hiov with rfl | hlater
      · omega
      · have hle := ih hrest iov hlater
        omega

/-- Buffers that span an interval stand one behind the other. -/
theorem Spans.pairwise {b start total : Nat} {iovs : List Iovec} (h : Spans b start total iovs) :
    iovs.Pairwise Iovec.Apart := by
  induction iovs generalizing start total with
  | nil => exact .nil
  | cons first iovs ih =>
      obtain ⟨hstart, -, -, hrest⟩ := h
      refine .cons (fun iov hiov => ?_) (ih hrest)
      have hle := hrest.start_le iov hiov
      by_cases hnode : first.node = iov.node
      · rw [hnode] at hstart
        exact .inr (.inl (by omega))
      · exact .inl hnode

/-! ## The data -/

/-- What is stored at the cursor is stored in the data. -/
theorem WellFormed.content_splice {ba ba' : ByteArray} (h : WellFormed ba)
    {data fresh : List UInt8} (hmem : ba'.mem = splice (ba.mem ++ fresh) ba.position data)
    (hsize : ba'.size = max ba.size (ba.position + data.length)) :
    ba'.content = splice ba.content ba.position data := by
  have hpos := h.position_le
  have hcap := h.size_le
  have hlen := h.length_mem
  rw [content, hmem, hsize, content, take_splice data hpos (by rw [List.length_append]; omega),
    List.take_append_of_le_length (by omega)]

/-- **Receiving into the buffers is writing**, for every part of the buffers that is filled. -/
theorem equalsWrite_of_room {ba : ByteArray} (h : WellFormed ba) {len : Nat} (hlen : 1 ≤ len)
    (hbound : ba.position + len < 2 ^ 53) {data : List UInt8} (hdata : data.length ≤ len) :
    EqualsWrite ba len data := by
  have hroom := h.room hbound
  obtain ⟨ba₁, iovs, fresh, hbuffers, hwf₁, hmem₁, hbase₁, hpos₁, hsize₁, -, hcap₁, hspans⟩ :=
    h.getWriteBuffers hlen hroom
  have hspans₁ := hspans
  rw [← hbase₁, ← hpos₁] at hspans₁
  obtain ⟨ba₂, hfill, hwf₂, -, hpos₂, hsize₂, -, hcap₂, hmem₂⟩ :=
    hwf₁.fill hspans₁ (by omega) hdata
  obtain ⟨ba₃, hset, -, hpos₃, hsize₃, -, hmem₃, -, -⟩ :=
    hwf₂.setPosition (v := ba₂.position + data.length) (by omega)
  obtain ⟨ba', fresh', hwrite, -, -, -, hpos', hsize', -, hmem'⟩ :=
    h.write (h.room (n := data.length) (by omega))
  refine ⟨iovs, ba₃, ba', ?_, hwrite, ⟨?_, ?_, ?_⟩, hspans.pairwise, hspans.sum_len⟩
  · unfold scatterWrite
    rw [bind_ok hbuffers, bind_ok hfill]
    exact bind_ok hset
  · rw [h.content_splice (by rw [hmem₃, hmem₂, hmem₁, hpos₁]) (by omega),
      h.content_splice hmem' hsize']
  · omega
  · omega

theorem equalsWrite_of_room_pages :
    EqualsWrite (new (fun _ _ => 0) 2) 5 [1, 2, 3] :=
  equalsWrite_of_room (new_wellFormed _ (by norm_num)) (by norm_num) (by norm_num [new])
    (by norm_num)

/-! ## Past the limit -/

theorem iovLoop_eq_none {b index npos len : Nat} {nodes : List Node} (hu : Uniform b nodes)
    (hnpos : npos ≤ b) (hroom : b * nodes.length < npos + len) :
    iovLoop index npos len nodes = none := by
  induction nodes generalizing index npos len with
  | nil => rfl
  | cons node rest ih =>
      obtain ⟨hnode, hrest⟩ := uniform_cons.mp hu
      rw [List.length_cons, Nat.mul_succ] at hroom
      simp only [iovLoop, Node.size, hnode]
      rw [if_neg (by omega), ih hrest (Nat.zero_le b) (by omega)]
      rfl

/-- When the pages do not suffice, the loop runs off the list. -/
theorem WellFormed.getWriteBuffers_null {ba : ByteArray} (h : WellFormed ba) {n : Nat}
    (hroom : ba.grownCapacity n < ba.position + n) :
    ∃ ba', ByteArray.getWriteBuffers n ba = .error .nullNode ba' := by
  have hpos := h.position_le
  have hsize := h.size_le
  have hn : n ≠ 0 := by
    rintro rfl
    rw [grownCapacity, nextCapacity, if_pos (Nat.zero_le _)] at hroom
    omega
  obtain ⟨hgrown, -⟩ := h.addCapacity n
  obtain ⟨-, hpos', -, -⟩ := addCapacity_frame n ba
  have hcap := capacity_addCapacity n ba
  refine ⟨ba.addCapacity n, ?_⟩
  rw [ByteArray.getWriteBuffers, if_neg hn]
  dsimp only
  set grown := ba.addCapacity n
  by_cases hlt : grown.position < grown.capacity
  · have hdrop := hgrown.length_drop
    rw [hgrown.cur_of_lt hlt]
    dsimp only
    rw [iovLoop_eq_none (hgrown.uniform.drop _) hgrown.mod_lt.le (by omega)]
  · have hle' := hgrown.position_le
    have hsize' := hgrown.size_le
    rw [hgrown.cur_of_eq (by omega)]

theorem grownCapacity_new (heap : Nat → Nat → UInt8) (base_size n : Nat) :
    (new heap base_size).grownCapacity n = nextCapacity base_size base_size 0 n := rfl

/-- With pages of one byte, buffers for `2 ^ 53 + 2` bytes get one page too few. -/
theorem not_equalsWrite_rounded : ¬ EqualsWrite (new (fun _ _ => 0) 1) (2 ^ 53 + 2) [] := by
  rintro ⟨iovs, received, written, hreceive, -⟩
  have hleft : 2 ^ 53 + 2 - (1 - 0) = 2 ^ 53 + 1 := by norm_num
  have hgrown : (new (fun _ _ => 0) 1).grownCapacity (2 ^ 53 + 2) = 1 + 2 ^ 53 := by
    rw [grownCapacity_new, nextCapacity, if_neg (by norm_num), hleft, pageCount_rounds_down,
      Nat.mul_one]
  have hshort : (new (fun _ _ => 0) 1).grownCapacity (2 ^ 53 + 2) <
      (new (fun _ _ => 0) 1).position + (2 ^ 53 + 2) := by
    have hstart : (new (fun _ _ => 0) 1).position = 0 := rfl
    rw [hgrown, hstart]
    norm_num
  obtain ⟨ba', hnull⟩ := (new_wellFormed (fun _ _ => 0) (Nat.le_refl 1)).getWriteBuffers_null hshort
  unfold scatterWrite at hreceive
  rw [bind_error hnull] at hreceive
  cases hreceive

end ByteArray
end Routn
