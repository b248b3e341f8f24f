import Mathlib.Tactic
import Routn.ByteArray.Flat
import Routn.ByteArray.Peek
import Routn.ByteArray.Vectors
import Routn.ByteArray.Writer

/-!
# Saving an array in a file

`writeToFile` writes one piece of each page.  It takes the smaller one of the remaining bytes and
the page size as the length of a page, and subtracts the offset in the page: this is the rest of the
page when a whole page is left, and otherwise it is too short by the offset.  The loop then goes on
with the next page and an offset that belongs to this one, until it runs off the list.

`readFrom` writes the file in buffers of one page each.  A page always has room in the pages that
`addCapacity` adds for it, also where the page count is rounded.

The files can be opened, and give back what was written.  The sizes fit the `int64_t` of the loop.
-/

namespace Routn

open Foundation

namespace ByteArray

/-! ## Writing -/

/-- The arguments of one `ofs.write`: `len` bytes from `node->ptr + base` on. -/
structure Piece where
  node : Nat
  base : Int
  len : Int
deriving DecidableEq, Repr

/-- The loop of `writeToFile` over the nodes from `_cur` on. -/
def fileLoop (b : Nat) : Nat → Int → Int → List Node → Option (List Piece)
  | _, _, read_size, [] => if read_size > 0 then none else some []
  | index, pos, read_size, _ :: rest =>
      if read_size > 0 then
        -- `diff` is an `int`.
        let diff := (pos % b).bmod (2 ^ 32)
        let len := (if read_size > b then (b : Int) else read_size) - diff
        (fileLoop b (index + 1) (pos + len) (read_size - len) rest).map fun pieces =>
          ⟨index, diff, len⟩ :: pieces
      else some []

def writeToFile : ByteArrayM (List Piece) := fun ba =>
  match fileLoop ba.baseSize (ba.position / ba.baseSize) ba.position ba.getReadSize
      (match ba.cur with
        | none => []
        | some k => ba.nodes.drop k) with
  | none => .error .nullNode ba
  | some pieces => .ok pieces ba

def Piece.bytes (nodes : List Node) (piece : Piece) : List UInt8 :=
  match nodes[piece.node]? with
  | none => []
  | some node => (node.ptr.drop piece.base.toNat).take piece.len.toNat

/-- What the file has in the end.  A write of a negative length fails, and so do all later ones. -/
def fileOf (nodes : List Node) : List Piece → List UInt8
  | [] => []
  | piece :: pieces => if piece.len < 0 then [] else piece.bytes nodes ++ fileOf nodes pieces

/-! ## Reading -/

/-- The buffers that the loop of `readFrom` passes to `write`: the end of the file is seen in a read
that comes back short. -/
def fileChunks (b : Nat) (file : List UInt8) : List (List UInt8) :=
  if 0 < b ∧ b ≤ file.length then file.take b :: fileChunks b (file.drop b) else [file]
termination_by file.length
decreasing_by
  rw [List.length_drop]
  omega

def readFrom (file : List UInt8) : ByteArrayM Bool := do
  writeChunks (fileChunks (← get).baseSize file)
  return true

/-! ## The round trip -/

def Piece.ofIovec (iov : Iovec) : Piece := ⟨iov.node, iov.base, iov.len⟩

/-- The pieces that are written cover the bytes behind the cursor, each inside of a page, and an
array that is read from the file has these bytes. -/
def FileRoundTrips (heap : Nat → Nat → UInt8) (base_size : Nat) (ba : ByteArray) : Prop :=
  ∃ iovs, writeToFile ba = .ok (iovs.map Piece.ofIovec) ba ∧
    Spans ba.baseSize ba.position ba.getReadSize iovs ∧
      ∃ ba', readFrom (fileOf ba.nodes (iovs.map Piece.ofIovec)) (new heap base_size) =
        .ok true ba' ∧ ba'.content = ba.rest

/-- At the start of a page, or with at least a page left. -/
def PageLeft (ba : ByteArray) : Prop :=
  ba.getReadSize = 0 ∨ ba.position % ba.baseSize < 2 ^ 31 ∧
    (ba.position % ba.baseSize = 0 ∨ ba.baseSize ≤ ba.getReadSize)

/-! ## The pieces -/

section Pieces

variable {b index n : Nat} {nodes : List Node}

theorem fileLoop_done (hn : n = 0) (pos : Int) : fileLoop b index pos n nodes = some [] := by
  subst hn
  cases nodes <;> simp [fileLoop]

/-- The offset in the page. -/
theorem mod_eq {d : Nat} (hd : d < b) : ((index * b + d : Nat) : Int) % b = d := by
  rw [← Int.natCast_mod, Nat.add_comm, Nat.add_mul_mod_self_right, Nat.mod_eq_of_lt hd]

/-- An `int` holds it below `2 ^ 31`. -/
theorem bmod_eq_iff {d : Nat} : (d : Int).bmod (2 ^ 32) = d ↔ d < 2 ^ 31 := by
  rw [Int.bmod_def]
  push_cast
  split_ifs <;> omega

/-- From the start of a page on, the loop covers what is left. -/
theorem fileLoop_aligned (hroom : n ≤ b * nodes.length) :
    ∃ iovs, fileLoop b index ((index * b : Nat) : Int) n nodes =
      some (iovs.map Piece.ofIovec) ∧ Spans b (index * b) n iovs := by
  induction nodes generalizing index n with
  | nil =>
      rw [List.length_nil, Nat.mul_zero] at hroom
      exact ⟨[], fileLoop_done (by omega) _, show n = 0 by omega⟩
  | cons node rest ih =>
      rw [List.length_cons, Nat.mul_succ] at hroom
      rcases Nat.eq_zero_or_pos n with hzero | hpos
      · exact ⟨[], fileLoop_done hzero _, hzero⟩
      have hdiff : (((index * b : Nat) : Int) % b).bmod (2 ^ 32) = 0 := by
        have hmod : ((index * b : Nat) : Int) % b = 0 := by
          rw [Nat.cast_mul]
          exact Int.mul_emod_left _ _
        rw [hmod]
        rfl
      rw [fileLoop, if_pos (by omega)]
      simp only [hdiff, sub_zero]
      by_cases hlast : n ≤ b
      · -- The last piece is what is left.
        refine ⟨[⟨index, 0, n⟩], ?_, ?_, ?_, ?_, ?_⟩
        · rw [if_neg (by omega)]
          have hdone : fileLoop b (index + 1) (((index * b : Nat) : Int) + n) ((n - n : Nat) : Int)
              rest = some [] := fileLoop_done (Nat.sub_self n) _
          rw [Nat.cast_sub (Nat.le_refl n)] at hdone
          rw [hdone]
          rfl
        · rfl
        · show 0 + n ≤ b
          omega
        · exact Nat.le_refl n
        · exact Nat.sub_self n
      · obtain ⟨iovs, hloop, hspans⟩ := @ih (index + 1) (n - b) (by omega)
        refine ⟨⟨index, 0, b⟩ :: iovs, ?_, rfl, ?_, ?_, ?_⟩
        · rw [if_pos (by omega)]
          have hnext : ((index * b : Nat) : Int) + b = (((index + 1) * b : Nat) : Int) := by
            push_cast
            ring
          rw [hnext, ← Nat.cast_sub (by omega), hloop]
          rfl
        · show 0 + b ≤ b
          omega
        · show b ≤ n
          omega
        · show Spans b (index * b + b) (n - b) iovs
          rw [Nat.add_mul, Nat.one_mul] at hspans
          exact hspans

/-- The first piece takes the page from the offset on, when a page is left or the offset is
zero. -/
theorem fileLoop_spans {node : Node} {d : Nat} (hd : d < b) (hint : d < 2 ^ 31)
    (hleft : d = 0 ∨ b ≤ n) (hroom : d + n ≤ b * (nodes.length + 1)) :
    ∃ iovs, fileLoop b index ((index * b + d : Nat) : Int) n (node :: nodes) =
      some (iovs.map Piece.ofIovec) ∧ Spans b (index * b + d) n iovs := by
  by_cases hzero : d = 0
  · subst hzero
    exact fileLoop_aligned (by rw [List.length_cons]; omega)
  have hle : b ≤ n := hleft.resolve_left hzero
  have hdiff : (((index * b + d : Nat) : Int) % b).bmod (2 ^ 32) = d := by
    rw [mod_eq hd]
    exact bmod_eq_iff.mpr hint
  rw [Nat.mul_succ] at hroom
  obtain ⟨iovs, hloop, hspans⟩ : ∃ iovs, fileLoop b (index + 1) (((index + 1) * b : Nat) : Int)
      ((n - (b - d) : Nat) : Int) nodes = some (iovs.map Piece.ofIovec) ∧
        Spans b ((index + 1) * b) (n - (b - d)) iovs := fileLoop_aligned (by omega)
  refine ⟨⟨index, d, b - d⟩ :: iovs, ?_, rfl, ?_, ?_, ?_⟩
  · rw [fileLoop, if_pos (by omega)]
    simp only [hdiff]
    -- A whole page, or exactly one page: the length is the rest of the page.
    have hlen : (if (n : Int) > b then (b : Int) else n) - d = ((b - d : Nat) : Int) := by
      split <;> omega
    have hnext : ((index * b + d : Nat) : Int) + ((b - d : Nat) : Int) =
        (((index + 1) * b : Nat) : Int) := by
      rw [Nat.add_mul]
      omega
    rw [hlen, hnext, ← Nat.cast_sub (by omega), hloop]
    rfl
  · show d + (b - d) ≤ b
    omega
  · show b - d ≤ n
    omega
  · show Spans b (index * b + d + (b - d)) (n - (b - d)) iovs
    have hstart : index * b + d + (b - d) = (index + 1) * b := by
      rw [Nat.add_mul]
      omega
    rw [hstart]
    exact hspans

/-- **What covers the bytes** starts at the offset, and has a whole page left behind it or starts at
a page. -/
theorem pageLeft_of_spans {node : Node} {d : Nat} (hd : d < b) (hn : 0 < n) {iovs : List Iovec}
    (hloop : fileLoop b index ((index * b + d : Nat) : Int) n (node :: nodes) =
      some (iovs.map Piece.ofIovec)) (hspans : Spans b (index * b + d) n iovs) :
    d < 2 ^ 31 ∧ (d = 0 ∨ b ≤ n) := by
  rw [fileLoop, if_pos (by omega)] at hloop
  simp only [mod_eq hd] at hloop
  obtain ⟨pieces, hrest, hpieces⟩ := Option.map_eq_some_iff.mp hloop
  cases iovs with
  | nil => cases hpieces
  | cons iov iovs =>
      obtain ⟨hfirst, htail⟩ := List.cons.inj hpieces
      obtain ⟨hnode, hbase, hlen⟩ := Piece.mk.inj hfirst
      obtain ⟨hstart, hfits, hle, hspans'⟩ := hspans
      subst hnode
      -- The piece starts at the offset, so the offset is not cut off.
      have hbaseEq : iov.base = d := by omega
      rw [hbaseEq] at hbase
      refine ⟨bmod_eq_iff.mp hbase, ?_⟩
      by_contra hnot
      obtain ⟨hzero, hshort⟩ := not_or.mp hnot
      rw [hbase, if_neg (by omega)] at hlen hrest
      subst htail
      -- It is too short by the offset, and the next one, if there is one, starts a page.
      cases nodes with
      | nil =>
          rw [fileLoop, if_pos (by omega)] at hrest
          cases hrest
      | cons next nodes =>
          rw [fileLoop, if_pos (by omega)] at hrest
          obtain ⟨later, -, hlater⟩ := Option.map_eq_some_iff.mp hrest
          cases iovs with
          | nil => cases hlater
          | cons iov' iovs =>
              obtain ⟨hsecond, -⟩ := List.cons.inj hlater
              obtain ⟨hnode', -, -⟩ := Piece.mk.inj hsecond
              obtain ⟨hstart', -, -, -⟩ := hspans'
              rw [← hnode', Nat.add_mul] at hstart'
              omega

end Pieces

/-! ## The file -/

/-- The file has what is collected from the pieces. -/
theorem fileOf_eq (iovs : List Iovec) (nodes : List Node) :
    fileOf nodes (iovs.map Piece.ofIovec) = gather iovs nodes := by
  induction iovs with
  | nil => rfl
  | cons iov iovs ih =>
      have hbytes : (Piece.ofIovec iov).bytes nodes = iov.bytes nodes := by
        unfold Piece.bytes Iovec.bytes Piece.ofIovec
        dsimp only
        cases nodes[iov.node]? <;> rfl
      have hlen : ¬ (Piece.ofIovec iov).len < 0 := by
        show ¬ (iov.len : Int) < 0
        omega
      rw [List.map_cons, fileOf, if_neg hlen, hbytes, ih]
      rfl

theorem flatten_fileChunks (b : Nat) (file : List UInt8) : (fileChunks b file).flatten = file := by
  induction file using fileChunks.induct b with
  | case1 file hfull ih =>
      rw [fileChunks, if_pos hfull, List.flatten_cons, ih, List.take_append_drop]
  | case2 file hshort => rw [fileChunks, if_neg hshort, List.flatten_singleton]

theorem length_fileChunks {b : Nat} (hb : 0 < b) (file : List UInt8) :
    ∀ chunk ∈ fileChunks b file, chunk.length ≤ b := by
  induction file using fileChunks.induct b with
  | case1 file hfull ih =>
      rw [fileChunks, if_pos hfull]
      intro chunk hchunk
      rcases List.mem_cons.mp hchunk with rfl | hrest
      · rw [List.length_take]
        exact Nat.min_le_left _ _
      · exact ih chunk hrest
  | case2 file hshort =>
      rw [fileChunks, if_neg hshort]
      intro chunk hchunk
      rw [List.mem_singleton.mp hchunk]
      omega

/-- For at most a page there always is a page, however the count is rounded. -/
theorem nextCapacity_page {b cap size n : Nat} (hb : 0 < b) (hsize : size ≤ cap) (hn : n ≤ b) :
    size + n ≤ nextCapacity b cap size n := by
  unfold nextCapacity
  split
  · omega
  · next hshort =>
      have hcount : 1 ≤ pageCount (n - (cap - size)) b := by
        have hnum : (0 : ℚ) < roundTo 53 ((n - (cap - size) : Nat) : ℚ) :=
          roundTo_pos (by norm_num) (by exact_mod_cast (by omega : 0 < n - (cap - size)))
        have hden : (0 : ℚ) < roundTo 53 (b : ℚ) :=
          roundTo_pos (by norm_num) (by exact_mod_cast hb)
        have hceil := Int.ceil_pos.mpr (roundTo_pos (p := 53) (by norm_num) (div_pos hnum hden))
        unfold pageCount
        omega
      have hpage := Nat.mul_le_mul_right b hcount
      omega

theorem capacityAfter_pages {b cap size : Nat} (hb : 0 < b) (hsize : size ≤ cap) {ns : List Nat}
    (hns : ∀ n ∈ ns, n ≤ b) : ∃ c, capacityAfter b cap size ns = some c := by
  induction ns generalizing cap size with
  | nil => exact ⟨cap, rfl⟩
  | cons n ns ih =>
      have hroom := nextCapacity_page hb hsize (hns n List.mem_cons_self)
      rw [capacityAfter, if_pos hroom]
      exact ih hroom fun m hm => hns m (List.mem_cons_of_mem n hm)

/-- **Reading a file** into a fresh array makes it the content. -/
theorem readFrom_new (heap : Nat → Nat → UInt8) {base_size : Nat} (hbase : 1 ≤ base_size)
    (file : List UInt8) :
    ∃ ba', readFrom file (new heap base_size) = .ok true ba' ∧ ba'.content = file := by
  have hfresh : Appending (new heap base_size) := ⟨new_wellFormed heap hbase, rfl⟩
  have hlen : ∀ n ∈ (fileChunks base_size file).map List.length, n ≤ base_size := by
    intro n hn
    obtain ⟨chunk, hchunk, rfl⟩ := List.mem_map.mp hn
    exact length_fileChunks hbase file chunk hchunk
  obtain ⟨c, hcap⟩ := capacityAfter_pages hbase (Nat.zero_le base_size) hlen
  obtain ⟨ba', hwrite, -, -, -, -, -, hcontent⟩ := hfresh.writeChunks hcap
  refine ⟨ba', ?_, ?_⟩
  · exact bind_ok hwrite
  · rw [hcontent, flatten_fileChunks]
    rfl

/-! ## When the file has the data -/

/-- What the loop of `writeToFile` starts from. -/
theorem WellFormed.writeToFile_eq {ba : ByteArray} (h : WellFormed ba)
    (hlt : ba.position < ba.capacity) :
    ∃ first rest, ba.nodes.length = ba.position / ba.baseSize + (rest.length + 1) ∧
      writeToFile ba =
        match fileLoop ba.baseSize (ba.position / ba.baseSize)
          ((ba.position / ba.baseSize * ba.baseSize + ba.position % ba.baseSize : Nat) : Int)
          ba.getReadSize (first :: rest) with
        | none => .error .nullNode ba
        | some pieces => .ok pieces ba := by
  obtain ⟨first, rest, hdrop, -, -⟩ := h.drop_cur hlt
  have hlen := congrArg List.length hdrop
  rw [List.length_drop, List.length_cons] at hlen
  refine ⟨first, rest, by omega, ?_⟩
  rw [writeToFile, h.cur_of_lt hlt, Nat.div_add_mod']
  dsimp only
  rw [hdrop]

/-- What has been written is read back. -/
theorem WellFormed.fileRoundTrips {ba : ByteArray} (h : WellFormed ba)
    (heap : Nat → Nat → UInt8) {base_size : Nat} (hbase : 1 ≤ base_size) {iovs : List Iovec}
    (hwrite : writeToFile ba = .ok (iovs.map Piece.ofIovec) ba)
    (hspans : Spans ba.baseSize ba.position ba.getReadSize iovs) :
    FileRoundTrips heap base_size ba := by
  have hpos := h.position_le
  have hsize := h.size_le
  obtain ⟨ba', hread, hcontent⟩ := readFrom_new heap hbase
    (fileOf ba.nodes (iovs.map Piece.ofIovec))
  refine ⟨iovs, hwrite, hspans, ba', hread, ?_⟩
  have hroom : ba.position + ba.getReadSize ≤ ba.baseSize * ba.nodes.length := by
    rw [← h.capacity_eq, getReadSize]
    omega
  rw [hcontent, fileOf_eq, gather_eq h.uniform hspans hroom, rest, content, List.drop_take,
    getReadSize]
  rfl

/-- One page of four bytes, of which three are written, and the cursor at the second of them. -/
def midPage : ByteArray :=
  (trace apply [.write [1, 2, 3], .setPosition 1] (new (fun _ _ => 0) 4)).2

theorem midPage_eq : midPage =
    { baseSize := 4, capacity := 4, position := 1, size := 3, endian := .bigEndian,
      nodes := [⟨[1, 2, 3, 0]⟩], cur := some 0, heap := fun _ _ => 0 } := by
  simp [midPage, apply, Op.call, ByteArray.write, addCapacity, new, getCapcity, bind,
    EStateM.bind, pure, EStateM.pure, Node.alloc, writeLoop, Node.size, Node.memcpy, splice,
    ByteArray.setPosition, seek, link]

end ByteArray
end Routn
