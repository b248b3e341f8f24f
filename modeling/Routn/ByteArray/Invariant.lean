import Mathlib.Tactic
import Routn.ByteArray.Basic

/-!
# The representation invariant of `ByteArray`

`WellFormed` relates cursor, capacity and page list: the capacity is the page size times the number
of nodes, `position ≤ size ≤ capacity`, and `_cur` points to node `position / baseSize`, so it is
null exactly when the cursor stands at the end of the last page.

The section on loops says what each copy loop computes in terms of the memory `mem` seen as one
list of bytes.  From it every operation gets one specification lemma; later modules use these and
never look at a page again.
-/

namespace Routn
namespace ByteArray

open Foundation

/-! ## The pages as one stretch of memory -/

/-- The bytes of the pages, in list order. -/
def memOf (nodes : List Node) : List UInt8 := nodes.flatMap Node.ptr

/-- Every page has `b` bytes. -/
def Uniform (b : Nat) (nodes : List Node) : Prop := ∀ node ∈ nodes, node.size = b

@[simp] theorem memOf_nil : memOf [] = [] := rfl

@[simp] theorem memOf_cons (node : Node) (rest : List Node) :
    memOf (node :: rest) = node.ptr ++ memOf rest := by
  simp [memOf]

@[simp] theorem memOf_append (nodes more : List Node) :
    memOf (nodes ++ more) = memOf nodes ++ memOf more := by
  simp [memOf]

theorem uniform_cons {b : Nat} {node : Node} {rest : List Node} :
    Uniform b (node :: rest) ↔ node.ptr.length = b ∧ Uniform b rest := by
  simp [Uniform, Node.size]

theorem uniform_append {b : Nat} {nodes more : List Node} :
    Uniform b (nodes ++ more) ↔ Uniform b nodes ∧ Uniform b more := by
  simp only [Uniform, List.mem_append]
  exact ⟨fun h => ⟨fun n hn => h n (.inl hn), fun n hn => h n (.inr hn)⟩,
    fun h n hn => hn.elim (h.1 n) (h.2 n)⟩

theorem Uniform.take {b : Nat} {nodes : List Node} (h : Uniform b nodes) (k : Nat) :
    Uniform b (nodes.take k) := fun n hn => h n (List.mem_of_mem_take hn)

theorem Uniform.drop {b : Nat} {nodes : List Node} (h : Uniform b nodes) (k : Nat) :
    Uniform b (nodes.drop k) := fun n hn => h n (List.mem_of_mem_drop hn)

theorem Uniform.length_memOf {b : Nat} {nodes : List Node} (h : Uniform b nodes) :
    (memOf nodes).length = b * nodes.length := by
  induction nodes with
  | nil => simp
  | cons node rest ih =>
      obtain ⟨hnode, hrest⟩ := uniform_cons.mp h
      rw [memOf_cons, List.length_append, hnode, ih hrest, List.length_cons]
      ring

theorem Uniform.memOf_drop {b : Nat} {nodes : List Node} (h : Uniform b nodes) (k : Nat) :
    memOf (nodes.drop k) = (memOf nodes).drop (b * k) := by
  induction nodes generalizing k with
  | nil => simp
  | cons node rest ih =>
      obtain ⟨hnode, hrest⟩ := uniform_cons.mp h
      cases k with
      | zero => simp
      | succ k =>
          have hpast : node.ptr.length ≤ b * (k + 1) := by
            rw [hnode]
            exact Nat.le_mul_of_pos_right b (by omega)
          rw [List.drop_succ_cons, ih hrest, memOf_cons, List.drop_append,
            List.drop_of_length_le hpast, List.nil_append, hnode, Nat.mul_succ,
            Nat.add_sub_cancel]

/-! ## The loops -/

/-- Crossing into the next page costs exactly one `_cur = _cur->next`. -/
theorem div_of_crossing {b npos n : Nat} (hb : 0 < b) (hnpos : npos ≤ b) (hcross : b - npos ≤ n) :
    (npos + n) / b = (0 + (n - (b - npos))) / b + 1 := by
  have hshift : npos + n = 0 + (n - (b - npos)) + b := by omega
  rw [hshift, Nat.add_div_right _ hb]

theorem div_of_inside {b npos n : Nat} (hb : 0 < b) (hnpos : npos < b) (hin : n ≤ b - npos) :
    (if b = npos + n then 1 else 0) = (npos + n) / b := by
  split
  · next h => rw [← h, Nat.div_self hb]
  · next h => rw [Nat.div_eq_of_lt (by omega)]

/-- The write loop stores the buffer at the cursor, provided the pages from the cursor on have
room for it. -/
theorem writeLoop_eq {b npos : Nat} {buf : List UInt8} {nodes : List Node} (hb : 0 < b)
    (hu : Uniform b nodes) (hnpos : npos < b) (hbuf : 0 < buf.length)
    (hroom : npos + buf.length ≤ b * nodes.length) :
    ∃ written, writeLoop npos buf nodes = some (written, (npos + buf.length) / b) ∧
      Uniform b written ∧ written.length = nodes.length ∧
      memOf written = splice (memOf nodes) npos buf := by
  -- Along the pages from the cursor on: behind the first one the offset is zero.
  induction nodes generalizing npos buf with
  | nil =>
      rw [List.length_nil, Nat.mul_zero] at hroom
      omega
  | cons node rest ih =>
      obtain ⟨hnode, hrest⟩ := uniform_cons.mp hu
      by_cases hin : b - npos ≥ buf.length
      · -- The buffer ends in this page.
        refine ⟨node.memcpy npos buf :: rest, ?_, ?_, rfl, ?_⟩
        · simp only [writeLoop, Node.size, hnode]
          rw [if_pos hin, div_of_inside hb hnpos hin]
        · refine uniform_cons.mpr ⟨?_, hrest⟩
          rw [Node.memcpy, length_splice_of_fits (by omega), hnode]
        · rw [memOf_cons, memOf_cons, splice_append_left _ (by omega)]
          rfl
      · -- It straddles the end of this page; the rest of it goes to the later pages.
        have hrestRoom : 0 + (buf.drop (b - npos)).length ≤ b * rest.length := by
          rw [List.length_cons, Nat.mul_succ] at hroom
          rw [List.length_drop]
          omega
        obtain ⟨written, hloop, hwu, hwlen, hwmem⟩ :=
          ih hrest hb (by rw [List.length_drop]; omega) hrestRoom
        have htake : (buf.take (b - npos)).length = b - npos := by
          rw [List.length_take]
          omega
        refine ⟨node.memcpy npos (buf.take (b - npos)) :: written, ?_, ?_, ?_, ?_⟩
        · simp only [writeLoop, Node.size, hnode]
          rw [if_neg hin, hloop, List.length_drop,
            div_of_crossing hb (by omega) (by omega : b - npos ≤ buf.length)]
          rfl
        · refine uniform_cons.mpr ⟨?_, hwu⟩
          rw [Node.memcpy, length_splice_of_fits (by omega), hnode]
        · rw [List.length_cons, List.length_cons, hwlen]
        · rw [memOf_cons, memOf_cons, hwmem, splice_append_straddle _ (by omega) (by omega), hnode]
          rfl

/-- Without the room the loop runs off the end of the list. -/
theorem writeLoop_eq_none {b npos : Nat} {buf : List UInt8} {nodes : List Node}
    (hu : Uniform b nodes) (hnpos : npos ≤ b) (hroom : b * nodes.length < npos + buf.length) :
    writeLoop npos buf nodes = none := by
  induction nodes generalizing npos buf with
  | nil => rfl
  | cons node rest ih =>
      obtain ⟨hnode, hrest⟩ := uniform_cons.mp hu
      rw [List.length_cons, Nat.mul_succ] at hroom
      simp only [writeLoop, Node.size, hnode]
      have hcross : ¬ b - npos ≥ buf.length := by omega
      rw [if_neg hcross, ih hrest (Nat.zero_le b) (by rw [List.length_drop]; omega)]
      rfl

/-- The read loop copies out the bytes at the cursor. -/
theorem readLoop_eq {b npos n : Nat} {nodes : List Node} (hb : 0 < b) (hu : Uniform b nodes)
    (hnpos : npos < b) (hn : 0 < n) (hroom : npos + n ≤ b * nodes.length) :
    readLoop npos n nodes = some (((memOf nodes).drop npos).take n, (npos + n) / b) := by
  induction nodes generalizing npos n with
  | nil =>
      rw [List.length_nil, Nat.mul_zero] at hroom
      omega
  | cons node rest ih =>
      obtain ⟨hnode, hrest⟩ := uniform_cons.mp hu
      have hdrop : (memOf (node :: rest)).drop npos = node.ptr.drop npos ++ memOf rest := by
        rw [memOf_cons, List.drop_append_of_le_length (by omega)]
      have hlen : (node.ptr.drop npos).length = b - npos := by rw [List.length_drop, hnode]
      simp only [readLoop, Node.size, hnode]
      by_cases hin : b - npos ≥ n
      · -- The bytes asked for end in this page.
        rw [if_pos hin, div_of_inside hb hnpos hin, hdrop,
          List.take_append_of_le_length (by omega)]
      · rw [List.length_cons, Nat.mul_succ] at hroom
        -- This page is read to its end, so cutting at `n` cuts nothing off.
        have hwhole : (node.ptr.drop npos).take n = (node.ptr.drop npos).take (b - npos) := by
          rw [List.take_of_length_le (by omega), List.take_of_length_le (by omega)]
        rw [if_neg hin, ih hrest hb (by omega) (by omega),
          div_of_crossing hb (by omega) (by omega : b - npos ≤ n), hdrop, List.take_append, hlen,
          hwhole]
        rfl

/-- The position loop finds the page of `v`. -/
theorem seek_eq {b v : Nat} {nodes : List Node} (hb : 0 < b) (hu : Uniform b nodes)
    (hnodes : 0 < nodes.length) (hv : v ≤ b * nodes.length) : seek v nodes = some (v / b) := by
  induction nodes generalizing v with
  | nil => simp at hnodes
  | cons node rest ih =>
      obtain ⟨hnode, hrest⟩ := uniform_cons.mp hu
      rw [List.length_cons, Nat.mul_succ] at hv
      simp only [seek, Node.size, hnode]
      by_cases hpast : v > b
      · -- The loop leaves this page, which the capacity allows only if there is another one.
        have hpos : 0 < rest.length := by
          rcases Nat.eq_zero_or_pos rest.length with hzero | hpos
          · rw [hzero] at hv
            omega
          · exact hpos
        have hdiv : v / b = (v - b) / b + 1 := by
          rw [← Nat.add_div_right _ hb]
          congr 1
          omega
        rw [if_pos hpast, ih hrest hpos (by omega), hdiv]
        rfl
      · rw [if_neg hpast]
        by_cases hend : v = b
        · rw [if_pos hend, hend, Nat.div_self hb]
        · rw [if_neg hend, Nat.div_eq_of_lt (by omega)]

/-! ## The invariant -/

/-- The whole memory of the array. -/
def mem (ba : ByteArray) : List UInt8 := memOf ba.nodes

/-- The representation invariant. -/
structure WellFormed (ba : ByteArray) : Prop where
  baseSize_pos : 0 < ba.baseSize
  uniform : Uniform ba.baseSize ba.nodes
  root : 0 < ba.nodes.length
  capacity_eq : ba.capacity = ba.baseSize * ba.nodes.length
  position_le : ba.position ≤ ba.size
  size_le : ba.size ≤ ba.capacity
  cur_eq : ba.cur = link ba.nodes (ba.position / ba.baseSize)

theorem link_eq_some {nodes : List Node} {index : Nat} (h : index < nodes.length) :
    link nodes index = some index := if_pos h

theorem link_eq_none {nodes : List Node} {index : Nat} (h : nodes.length ≤ index) :
    link nodes index = none := if_neg (by omega)

namespace WellFormed

variable {ba : ByteArray}

theorem length_mem (h : WellFormed ba) : ba.mem.length = ba.capacity := by
  rw [mem, h.uniform.length_memOf, h.capacity_eq]

/-- Below the capacity `_cur` is the node that holds the cursor. -/
theorem cur_of_lt (h : WellFormed ba) (hlt : ba.position < ba.capacity) :
    ba.cur = some (ba.position / ba.baseSize) := by
  have hindex : ba.position / ba.baseSize < ba.nodes.length := by
    rw [Nat.div_lt_iff_lt_mul h.baseSize_pos, Nat.mul_comm, ← h.capacity_eq]
    exact hlt
  rw [h.cur_eq, link_eq_some hindex]

/-- At the capacity `_cur` is null. -/
theorem cur_of_eq (h : WellFormed ba) (heq : ba.position = ba.capacity) : ba.cur = none := by
  rw [h.cur_eq]
  apply link_eq_none
  rw [heq, h.capacity_eq, Nat.mul_div_cancel_left _ h.baseSize_pos]

/-- The nodes from `_cur` on hold the memory from the page of the cursor on. -/
theorem length_drop (h : WellFormed ba) :
    ba.position % ba.baseSize + (ba.capacity - ba.position) =
      ba.baseSize * (ba.nodes.drop (ba.position / ba.baseSize)).length := by
  have hdiv := Nat.div_add_mod ba.position ba.baseSize
  have hle := h.position_le
  have hsize := h.size_le
  have hcap := h.capacity_eq
  rw [List.length_drop, Nat.mul_sub]
  omega

theorem mod_lt (h : WellFormed ba) : ba.position % ba.baseSize < ba.baseSize :=
  Nat.mod_lt _ h.baseSize_pos

end WellFormed

/-- Advancing the cursor by `n` moves `_cur` by the number of page ends it passes. -/
theorem cursor_div (position b n : Nat) (hb : 0 < b) :
    position / b + (position % b + n) / b = (position + n) / b := by
  have hdiv := Nat.div_add_mod position b
  calc
    position / b + (position % b + n) / b = (position % b + n + b * (position / b)) / b := by
      rw [Nat.add_mul_div_left _ _ hb, Nat.add_comm]
    _ = (position + n) / b := by
      congr 1
      omega

/-! ## The constructor and `clear` -/

theorem uniform_alloc (b : Nat) (contents : Nat → Nat → UInt8) (indices : List Nat) :
    Uniform b (indices.map fun i => Node.alloc (contents i) b) := by
  intro node hnode
  obtain ⟨i, -, rfl⟩ := List.mem_map.mp hnode
  simp [Node.alloc, Node.size]

theorem new_wellFormed (heap : Nat → Nat → UInt8) {base_size : Nat} (hbase : 1 ≤ base_size) :
    WellFormed (new heap base_size) where
  baseSize_pos := hbase
  uniform := uniform_alloc base_size heap [0]
  root := Nat.one_pos
  capacity_eq := (Nat.mul_one base_size).symm
  position_le := Nat.le_refl 0
  size_le := Nat.zero_le _
  cur_eq := by simp [new, link]

theorem clear_eq (ba : ByteArray) : clear ba =
    .ok () { ba with
      position := 0
      size := 0
      capacity := ba.baseSize
      nodes := ba.nodes.take 1
      cur := some 0 } := rfl

theorem WellFormed.clear {ba : ByteArray} (h : WellFormed ba) :
    ∃ ba', clear ba = .ok () ba' ∧ WellFormed ba' ∧ ba'.baseSize = ba.baseSize ∧
      ba'.position = 0 ∧ ba'.size = 0 ∧ ba'.capacity = ba.baseSize ∧ ba'.endian = ba.endian := by
  have hroot := h.root
  have htake : (ba.nodes.take 1).length = 1 := by
    rw [List.length_take]
    omega
  refine ⟨_, clear_eq ba, ?_, rfl, rfl, rfl, rfl, rfl⟩
  exact
    { baseSize_pos := h.baseSize_pos
      uniform := h.uniform.take 1
      root := by dsimp only; omega
      capacity_eq := by dsimp only; rw [htake, Nat.mul_one]
      position_le := Nat.le_refl 0
      size_le := Nat.zero_le _
      cur_eq := by dsimp only; rw [Nat.zero_div, link_eq_some (by omega)] }

/-! ## `addCapacity` -/

/-- The two tests of `addCapacity` together: it grows exactly when the room is short. -/
theorem addCapacity_of_room {ba : ByteArray} {n : Nat} (hroom : n ≤ ba.getCapcity) :
    ba.addCapacity n = ba := by
  unfold addCapacity
  dsimp only
  split_ifs <;> rfl

/-- The capacity after `addCapacity(n)`, from the page size, the capacity and the position. -/
def nextCapacity (b cap position n : Nat) : Nat :=
  if n ≤ cap - position then cap else cap + pageCount (n - (cap - position)) b * b

/-- The capacity that `addCapacity` leaves. -/
def grownCapacity (n : Nat) (ba : ByteArray) : Nat :=
  nextCapacity ba.baseSize ba.capacity ba.position n

/-- The frame of `addCapacity`. -/
@[simp] theorem addCapacity_frame (n : Nat) (ba : ByteArray) :
    (ba.addCapacity n).baseSize = ba.baseSize ∧ (ba.addCapacity n).position = ba.position ∧
      (ba.addCapacity n).size = ba.size ∧ (ba.addCapacity n).endian = ba.endian := by
  unfold addCapacity
  dsimp only
  split_ifs <;> exact ⟨rfl, rfl, rfl, rfl⟩

theorem capacity_addCapacity (n : Nat) (ba : ByteArray) :
    (ba.addCapacity n).capacity = ba.grownCapacity n := by
  unfold addCapacity grownCapacity nextCapacity getCapcity
  dsimp only
  split_ifs <;> first | rfl | omega

/-- `addCapacity` keeps the invariant, whatever number of pages it computed, and only appends to
the memory. -/
theorem WellFormed.addCapacity {ba : ByteArray} (h : WellFormed ba) (n : Nat) :
    WellFormed (ba.addCapacity n) ∧ ∃ fresh, (ba.addCapacity n).mem = ba.mem ++ fresh := by
  by_cases hroom : n ≤ ba.getCapcity
  · rw [addCapacity_of_room hroom]
    exact ⟨h, [], (List.append_nil _).symm⟩
  have hle := h.position_le
  have hsize := h.size_le
  unfold ByteArray.addCapacity
  dsimp only
  rw [if_neg (by omega), if_neg (by omega), if_neg (by omega)]
  have hfresh := uniform_alloc ba.baseSize ba.heap
    (List.range (pageCount (n - ba.getCapcity) ba.baseSize))
  refine ⟨?_, memOf _, memOf_append _ _⟩
  exact
    { baseSize_pos := h.baseSize_pos
      uniform := uniform_append.mpr ⟨h.uniform, hfresh⟩
      root := by
        have hroot := h.root
        simp only [List.length_append]
        omega
      capacity_eq := by
        simp only [List.length_append, List.length_map, List.length_range]
        rw [h.capacity_eq]
        ring
      position_le := hle
      size_le := by dsimp only; omega
      cur_eq := by
        simp only [link, List.length_append, List.length_map, List.length_range]
        by_cases hfull : ba.position = ba.capacity
        · -- The cursor was null; it becomes the first new page, if there is one.
          have hindex : ba.position / ba.baseSize = ba.nodes.length := by
            rw [hfull, h.capacity_eq, Nat.mul_div_cancel_left _ h.baseSize_pos]
          rw [if_pos (by rw [getCapcity]; omega), hindex]
          by_cases hcount : pageCount (n - ba.getCapcity) ba.baseSize = 0
          · rw [if_pos hcount, if_neg (by omega)]
          · rw [if_neg hcount, if_pos (by omega)]
        · have hlt : ba.position < ba.capacity := by omega
          have hindex : ba.position / ba.baseSize < ba.nodes.length := by
            rw [Nat.div_lt_iff_lt_mul h.baseSize_pos, Nat.mul_comm, ← h.capacity_eq]
            exact hlt
          rw [if_neg (by rw [getCapcity]; omega), h.cur_of_lt hlt, if_pos (by omega)] }

/-! ## `write` -/

/-- Writing into a roomy array stores the buffer at the cursor. -/
theorem WellFormed.write {ba : ByteArray} (h : WellFormed ba) {buf : List UInt8}
    (hroom : ba.position + buf.length ≤ ba.grownCapacity buf.length) :
    ∃ ba' fresh, write buf ba = .ok () ba' ∧ WellFormed ba' ∧ ba'.baseSize = ba.baseSize ∧
      ba'.endian = ba.endian ∧ ba'.position = ba.position + buf.length ∧
      ba'.size = max ba.size (ba.position + buf.length) ∧
      ba'.capacity = (if buf.length = 0 then ba.capacity else ba.grownCapacity buf.length) ∧
      ba'.mem = splice (ba.mem ++ fresh) ba.position buf := by
  have hle := h.position_le
  have hsize := h.size_le
  by_cases hempty : buf.length = 0
  · have hnil : buf = [] := List.eq_nil_of_length_eq_zero hempty
    subst hnil
    refine ⟨ba, [], ?_, h, rfl, rfl, rfl, ?_, rfl, ?_⟩
    · simp [ByteArray.write]
    · simp only [List.length_nil]
      omega
    · simp
  -- From here on the array has its new pages; the loop runs on those from `_cur` on.
  obtain ⟨hgrown, fresh, hmem⟩ := h.addCapacity buf.length
  obtain ⟨hbase, hpos, hsz, hend⟩ := addCapacity_frame buf.length ba
  have hcap := capacity_addCapacity buf.length ba
  set grown := ba.addCapacity buf.length with hgrownDef
  have hlt : grown.position < grown.capacity := by omega
  have hk : grown.position / grown.baseSize < grown.nodes.length := by
    rw [Nat.div_lt_iff_lt_mul hgrown.baseSize_pos, Nat.mul_comm, ← hgrown.capacity_eq]
    exact hlt
  have hdrop := hgrown.length_drop
  obtain ⟨written, hloop, hwu, hwlen, hwmem⟩ :=
    writeLoop_eq hgrown.baseSize_pos (hgrown.uniform.drop (grown.position / grown.baseSize))
      hgrown.mod_lt (show 0 < buf.length by omega) (by omega)
  have hnodes : (grown.nodes.take (grown.position / grown.baseSize) ++ written).length =
      grown.nodes.length := by
    rw [List.length_append, hwlen, List.length_take, List.length_drop]
    omega
  have hdivmod := Nat.div_add_mod grown.position grown.baseSize
  have hsize' := hgrown.size_le
  refine ⟨{ grown with
      nodes := grown.nodes.take (grown.position / grown.baseSize) ++ written
      cur := link grown.nodes (grown.position / grown.baseSize +
        (grown.position % grown.baseSize + buf.length) / grown.baseSize)
      position := grown.position + buf.length
      size := if grown.position + buf.length > grown.size then grown.position + buf.length
        else grown.size }, fresh, ?_, ?_, hbase, hend, ?_, ?_, ?_, ?_⟩
  · rw [ByteArray.write]
    dsimp only
    rw [if_neg hempty, ← hgrownDef, hgrown.cur_of_lt hlt]
    dsimp only
    rw [hloop]
  · exact
      { baseSize_pos := hgrown.baseSize_pos
        uniform := uniform_append.mpr ⟨hgrown.uniform.take _, hwu⟩
        root := by dsimp only; rw [hnodes]; exact hgrown.root
        capacity_eq := by dsimp only; rw [hnodes]; exact hgrown.capacity_eq
        position_le := by dsimp only; split_ifs <;> omega
        size_le := by dsimp only; split_ifs <;> omega
        cur_eq := by
          dsimp only
          rw [cursor_div _ _ _ hgrown.baseSize_pos]
          simp only [link, hnodes] }
  · dsimp only
    rw [hpos]
  · dsimp only
    rw [hpos, hsz]
    split_ifs <;> omega
  · dsimp only
    rw [if_neg hempty, hcap]
  · -- The pages in front of `_cur` are untouched, so the splice moves into the pages behind them.
    have htake : (memOf (grown.nodes.take (grown.position / grown.baseSize))).length =
        grown.baseSize * (grown.position / grown.baseSize) := by
      rw [(hgrown.uniform.take _).length_memOf, List.length_take, Nat.min_eq_left hk.le]
    have hsplit : grown.mem = memOf (grown.nodes.take (grown.position / grown.baseSize)) ++
        memOf (grown.nodes.drop (grown.position / grown.baseSize)) := by
      rw [← memOf_append, List.take_append_drop, mem]
    rw [← hmem, hsplit, mem]
    dsimp only
    rw [memOf_append, hwmem, ← hpos, splice_append_right _ _ (by omega), htake]
    congr 2
    omega

/-- When the pages `addCapacity` added do not suffice, `write` runs into a null node. -/
theorem WellFormed.write_null {ba : ByteArray} (h : WellFormed ba) {buf : List UInt8}
    (hroom : ba.grownCapacity buf.length < ba.position + buf.length) :
    ∃ ba', ByteArray.write buf ba = .error .nullNode ba' := by
  have hle := h.position_le
  have hsize := h.size_le
  have hempty : buf.length ≠ 0 := by
    intro hzero
    rw [grownCapacity, nextCapacity, if_pos (by omega)] at hroom
    omega
  obtain ⟨hgrown, -⟩ := h.addCapacity buf.length
  obtain ⟨-, hpos, -, -⟩ := addCapacity_frame buf.length ba
  have hcap := capacity_addCapacity buf.length ba
  refine ⟨ba.addCapacity buf.length, ?_⟩
  rw [ByteArray.write]
  dsimp only
  rw [if_neg hempty]
  set grown := ba.addCapacity buf.length
  -- Either the loop runs off the list, or there was no page to start in.
  by_cases hlt : grown.position < grown.capacity
  · have hdrop := hgrown.length_drop
    rw [hgrown.cur_of_lt hlt]
    dsimp only
    rw [writeLoop_eq_none (hgrown.uniform.drop _) hgrown.mod_lt.le (by omega)]
  · have hle' := hgrown.position_le
    have hsize' := hgrown.size_le
    rw [hgrown.cur_of_eq (by omega)]

/-! ## `read` and `setPosition` -/

theorem read_short {ba : ByteArray} {n : Nat} (hn : ba.getReadSize < n) :
    read n ba = .error (.outOfRange "not enouth length") ba := by
  rw [read]
  exact if_pos hn

/-- A zero-length read with a null `_cur` dereferences it. -/
theorem WellFormed.read_null {ba : ByteArray} (h : WellFormed ba)
    (hfull : ba.position = ba.capacity) : read 0 ba = .error .nullNode ba := by
  rw [ByteArray.read, if_neg (by omega), h.cur_of_eq hfull]

theorem WellFormed.read {ba : ByteArray} (h : WellFormed ba) {n : Nat} (hn : n ≤ ba.getReadSize)
    (hcur : 0 < n ∨ ba.position < ba.capacity) :
    ∃ ba', read n ba = .ok ((ba.mem.drop ba.position).take n) ba' ∧ WellFormed ba' ∧
      ba'.position = ba.position + n ∧ ba'.size = ba.size ∧ ba'.capacity = ba.capacity ∧
      ba'.mem = ba.mem ∧ ba'.endian = ba.endian ∧ ba'.baseSize = ba.baseSize := by
  have hle := h.position_le
  have hsize := h.size_le
  rw [getReadSize] at hn
  have hlt : ba.position < ba.capacity := by omega
  have hdrop := h.length_drop
  -- A read of nothing only touches `_cur->size`.
  rcases Nat.eq_zero_or_pos n with rfl | hpos
  · refine ⟨ba, ?_, h, rfl, rfl, rfl, rfl, rfl, rfl⟩
    rw [ByteArray.read, if_neg (by omega), h.cur_of_lt hlt]
    simp
  have hloop := readLoop_eq h.baseSize_pos (h.uniform.drop (ba.position / ba.baseSize)) h.mod_lt
    hpos (by omega)
  have hbytes : ((memOf (ba.nodes.drop (ba.position / ba.baseSize))).drop
      (ba.position % ba.baseSize)) = ba.mem.drop ba.position := by
    rw [h.uniform.memOf_drop, List.drop_drop, Nat.div_add_mod, mem]
  rw [hbytes] at hloop
  refine ⟨{ ba with
      position := ba.position + n
      cur := link ba.nodes (ba.position / ba.baseSize + (ba.position % ba.baseSize + n) /
        ba.baseSize) }, ?_, ?_, rfl, rfl, rfl, rfl, rfl, rfl⟩
  · rw [ByteArray.read, if_neg (by rw [getReadSize]; omega), h.cur_of_lt hlt]
    dsimp only
    rw [if_neg (by omega), hloop]
  · exact
      { baseSize_pos := h.baseSize_pos
        uniform := h.uniform
        root := h.root
        capacity_eq := h.capacity_eq
        position_le := by dsimp only; omega
        size_le := hsize
        cur_eq := by dsimp only; rw [cursor_div _ _ _ h.baseSize_pos] }

theorem setPosition_past {ba : ByteArray} {v : Nat} (hv : ba.capacity < v) :
    setPosition v ba = .error (.outOfRange "set position out of range") ba := by
  rw [setPosition]
  exact if_pos hv

theorem WellFormed.setPosition {ba : ByteArray} (h : WellFormed ba) {v : Nat}
    (hv : v ≤ ba.capacity) :
    ∃ ba', setPosition v ba = .ok () ba' ∧ WellFormed ba' ∧ ba'.position = v ∧
      ba'.size = max ba.size v ∧ ba'.capacity = ba.capacity ∧ ba'.mem = ba.mem ∧
      ba'.endian = ba.endian ∧ ba'.baseSize = ba.baseSize := by
  have hsize := h.size_le
  have hseek := seek_eq h.baseSize_pos h.uniform h.root (h.capacity_eq ▸ hv)
  refine ⟨{ ba with
      position := v
      size := if v > ba.size then v else ba.size
      cur := link ba.nodes (v / ba.baseSize) }, ?_, ?_, rfl, ?_, rfl, rfl, rfl, rfl⟩
  · rw [ByteArray.setPosition, if_neg (by omega), hseek]
  · exact
      { baseSize_pos := h.baseSize_pos
        uniform := h.uniform
        root := h.root
        capacity_eq := h.capacity_eq
        position_le := by dsimp only; split_ifs <;> omega
        size_le := by dsimp only; split_ifs <;> omega
        cur_eq := rfl }
  · dsimp only
    split_ifs <;> omega

end ByteArray
end Routn
