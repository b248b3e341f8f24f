import Mathlib.Tactic
import Routn.ByteArray.Flat
import Routn.ByteArray.Reader

/-!
# Reading without moving the cursor

`Read` copies bytes out like `read` does, but walks with a pointer of its own.  In the branch for a
page that is copied to its end it takes the bytes from `_cur` instead of from that pointer, so every
page between the first and the last one is replaced by the page of the cursor.  It takes three pages
to see it.  And like `read` it looks at `_cur` before it looks at the number of bytes.

`toString` is a `Read` of everything that is left.
-/

namespace Routn

open Foundation

namespace ByteArray

/-- The loop of `Read`, entered with `size > 0`: `first` is the node of `_cur`, and the list starts
at `cur`. -/
def copyLoop (first : Node) : Nat → Nat → List Node → Option (List UInt8)
  | _, _, [] => none
  | npos, size, node :: rest =>
      let ncap := node.size - npos
      if ncap ≥ size then some ((node.ptr.drop npos).take size)
      else
        -- `_cur->ptr`, where `cur->ptr` was meant.
        (copyLoop first 0 (size - ncap) rest).map fun bytes =>
          (first.ptr.drop npos).take ncap ++ bytes

def Read (size position : Nat) : ByteArrayM (List UInt8) := fun ba =>
  if size > ba.getReadSize then .error (.outOfRange "not enouth length") ba
  else
    match ba.cur with
    | none => .error .nullNode ba
    | some k =>
        match ba.nodes.drop k with
        | [] => .error .nullNode ba
        | first :: rest =>
            if size = 0 then .ok [] ba
            else
              match copyLoop first (position % ba.baseSize) size (first :: rest) with
              | none => .error .nullNode ba
              | some bytes => .ok bytes ba

def toString : ByteArrayM (List UInt8) := fun ba =>
  if ba.getReadSize = 0 then .ok [] ba else Read ba.getReadSize ba.position ba

/-- Both calls return the bytes behind the cursor, and change nothing. -/
structure Peeks (ba : ByteArray) (n : Nat) : Prop where
  toString : toString ba = .ok ba.rest ba
  Read : Read n ba.position ba = .ok (ba.rest.take n) ba

/-- Every page that lies behind the page of the cursor, and is left before the `n` bytes end, has
the bytes of the page of the cursor. -/
def SamePages (ba : ByteArray) (n : Nat) : Prop :=
  ∀ i node, ba.position / ba.baseSize < i → ba.nodes[i]? = some node →
    (i + 1) * ba.baseSize < ba.position + n → ba.nodes[ba.position / ba.baseSize]? = some node

/-! ## The loop -/

theorem Node.eq_of_ptr {node node' : Node} (h : node.ptr = node'.ptr) : node = node' := by
  obtain ⟨ptr⟩ := node
  obtain ⟨ptr'⟩ := node'
  exact congrArg Node.mk h

/-- From the start of a page on, the pages that are copied to their ends have to be the first
one. -/
theorem copyLoop_zero {b n : Nat} {first : Node} {nodes : List Node} (hfirst : first.size = b)
    (hu : Uniform b nodes) (hn : 0 < n) (hroom : n ≤ b * nodes.length) :
    ∃ bytes, copyLoop first 0 n nodes = some bytes ∧
      (bytes = (memOf nodes).take n ↔
        ∀ i node, nodes[i]? = some node → (i + 1) * b < n → node = first) := by
  induction nodes generalizing n with
  | nil =>
      rw [List.length_nil, Nat.mul_zero] at hroom
      omega
  | cons node rest ih =>
      obtain ⟨hnode, hrest⟩ := uniform_cons.mp hu
      have hlenFirst : first.ptr.length = b := hfirst
      rw [List.length_cons, Nat.mul_succ] at hroom
      simp only [copyLoop, Node.size, hnode, Nat.sub_zero, List.drop_zero]
      by_cases hin : b ≥ n
      · -- The bytes end in this page, and no page is copied to its end.
        refine ⟨node.ptr.take n, if_pos hin, iff_of_true ?_ ?_⟩
        · rw [memOf_cons, List.take_append_of_le_length (by omega)]
        · intro i node' _ hlt
          have hle : 1 * b ≤ (i + 1) * b := Nat.mul_le_mul_right b (by omega)
          omega
      · obtain ⟨bytes, hloop, hbytes⟩ := ih hrest (by omega : 0 < n - b) (by omega)
        have hexpected : (memOf (node :: rest)).take n = node.ptr ++ (memOf rest).take (n - b) := by
          rw [memOf_cons, List.take_append, List.take_of_length_le (by omega), hnode]
        refine ⟨first.ptr ++ bytes, ?_, ?_⟩
        · rw [if_neg hin, hloop, Option.map_some, List.take_of_length_le (by omega)]
        rw [hexpected]
        constructor
        · intro heq
          obtain ⟨hptr, hrestEq⟩ := List.append_inj heq (by omega)
          intro i node' hi hlt
          cases i with
          | zero =>
              obtain rfl := Option.some.inj hi
              exact Node.eq_of_ptr hptr.symm
          | succ i =>
              rw [Nat.add_mul (i + 1) 1 b] at hlt
              exact hbytes.mp hrestEq i node' hi (by omega)
        · intro hsame
          have hhead : node = first := hsame 0 node rfl (by omega)
          have htail : bytes = (memOf rest).take (n - b) := by
            refine hbytes.mpr fun i node' hi hlt => hsame (i + 1) node' hi ?_
            rw [Nat.add_mul (i + 1) 1 b]
            omega
          rw [hhead, htail]

/-! ## The calls -/

/-- The node of `_cur`, and those behind it. -/
theorem WellFormed.drop_cur {ba : ByteArray} (h : WellFormed ba)
    (hlt : ba.position < ba.capacity) :
    ∃ first rest, ba.nodes.drop (ba.position / ba.baseSize) = first :: rest ∧
      ba.nodes[ba.position / ba.baseSize]? = some first ∧
      ∀ j, rest[j]? = ba.nodes[ba.position / ba.baseSize + (j + 1)]? := by
  have hindex : ba.position / ba.baseSize < ba.nodes.length := by
    rw [Nat.div_lt_iff_lt_mul h.baseSize_pos, Nat.mul_comm, ← h.capacity_eq]
    exact hlt
  refine ⟨_, _, List.drop_eq_getElem_cons hindex, List.getElem?_eq_getElem hindex, fun j => ?_⟩
  rw [List.getElem?_drop]
  congr 1
  omega

/-- The bytes behind the cursor, from its page on. -/
theorem WellFormed.rest_take {ba : ByteArray} (h : WellFormed ba) {n : Nat}
    (hn : n ≤ ba.getReadSize) :
    ba.rest.take n = ((memOf (ba.nodes.drop (ba.position / ba.baseSize))).drop
      (ba.position % ba.baseSize)).take n := by
  rw [h.uniform.memOf_drop, List.drop_drop, Nat.div_add_mod, rest, content, List.drop_take,
    List.take_take, getReadSize] at *
  rw [Nat.min_eq_left hn]
  rfl

/-- Inside of the page of the cursor no other page is passed. -/
theorem WellFormed.samePages {ba : ByteArray} (h : WellFormed ba) {n : Nat}
    (hin : n ≤ ba.baseSize - ba.position % ba.baseSize) : SamePages ba n := by
  intro i node hi _ hend
  have hdiv := Nat.div_add_mod' ba.position ba.baseSize
  have hmod := h.mod_lt
  have hmul : (ba.position / ba.baseSize + 2) * ba.baseSize ≤ (i + 1) * ba.baseSize :=
    Nat.mul_le_mul_right _ (by omega)
  rw [Nat.add_mul] at hmul
  omega

/-- **`Read` of at least one byte** returns the bytes behind the cursor exactly if the pages that it
passes have the bytes of the first one. -/
theorem WellFormed.Read {ba : ByteArray} (h : WellFormed ba) {n : Nat} (hn : 0 < n)
    (hle : n ≤ ba.getReadSize) :
    ∃ bytes, Read n ba.position ba = .ok bytes ba ∧ (bytes = ba.rest.take n ↔ SamePages ba n) := by
  have hpos := h.position_le
  have hsize := h.size_le
  have hread : n ≤ ba.size - ba.position := hle
  have hlt : ba.position < ba.capacity := by omega
  obtain ⟨first, later, hdrop, hfirst, hlater⟩ := h.drop_cur hlt
  have huniform := h.uniform.drop (ba.position / ba.baseSize)
  have hroom := h.length_drop
  rw [hdrop] at huniform hroom
  obtain ⟨hfirstSize, hlaterUniform⟩ := uniform_cons.mp huniform
  rw [List.length_cons, Nat.mul_succ] at hroom
  have hmod := h.mod_lt
  have hdiv := Nat.div_add_mod' ba.position ba.baseSize
  have hcall : ∀ bytes, copyLoop first (ba.position % ba.baseSize) n (first :: later) = some bytes →
      ByteArray.Read n ba.position ba = .ok bytes ba := by
    intro bytes hloop
    rw [ByteArray.Read, if_neg (by omega), h.cur_of_lt hlt]
    dsimp only
    rw [hdrop]
    dsimp only
    rw [if_neg (by omega), hloop]
  rw [h.rest_take hle, hdrop, memOf_cons, List.drop_append_of_le_length (by omega)]
  have hfirstLen : (first.ptr.drop (ba.position % ba.baseSize)).length =
      ba.baseSize - ba.position % ba.baseSize := by
    rw [List.length_drop, hfirstSize]
  by_cases hin : ba.baseSize - ba.position % ba.baseSize ≥ n
  · -- All of the bytes are in the page of the cursor.
    refine ⟨(first.ptr.drop (ba.position % ba.baseSize)).take n, hcall _ ?_,
      iff_of_true ?_ (h.samePages hin)⟩
    · simp only [copyLoop, Node.size, hfirstSize]
      exact if_pos hin
    · rw [List.take_append_of_le_length (by omega)]
  · obtain ⟨bytes, hloop, hbytes⟩ := copyLoop_zero
      (show first.size = _ from hfirstSize) hlaterUniform
      (by omega : 0 < n - (ba.baseSize - ba.position % ba.baseSize)) (by omega)
    refine ⟨first.ptr.drop (ba.position % ba.baseSize) ++ bytes, hcall _ ?_, ?_⟩
    · simp only [copyLoop, Node.size, hfirstSize]
      rw [if_neg hin, hloop, Option.map_some, List.take_of_length_le (by omega)]
    rw [List.take_append, List.take_of_length_le (by omega), hfirstLen,
      List.append_cancel_left_eq, hbytes]
    -- Page `j` of those behind the first one is page `position / baseSize + j + 1` of the array.
    have hindex : ∀ j, (ba.position / ba.baseSize + (j + 1) + 1) * ba.baseSize <
        ba.position + n ↔
          (j + 1) * ba.baseSize < n - (ba.baseSize - ba.position % ba.baseSize) := by
      intro j
      rw [Nat.add_mul, Nat.add_mul (ba.position / ba.baseSize)]
      omega
    constructor
    · intro hsame i node hi hnode hend
      obtain ⟨j, rfl⟩ : ∃ j, i = ba.position / ba.baseSize + (j + 1) :=
        ⟨i - ba.position / ba.baseSize - 1, by omega⟩
      rw [hfirst, hsame j node (by rw [hlater, hnode]) ((hindex j).mp hend)]
    · intro hsame j node hnode hend
      have hpage := hsame _ node (by omega) (by rw [← hlater, hnode]) ((hindex j).mpr hend)
      rw [hfirst] at hpage
      exact (Option.some.inj hpage).symm

theorem WellFormed.Read_zero {ba : ByteArray} (h : WellFormed ba) :
    ByteArray.Read 0 ba.position ba = .ok [] ba ↔ ba.position ≠ ba.capacity := by
  by_cases hfull : ba.position = ba.capacity
  · refine iff_of_false ?_ fun hne => hne hfull
    rw [ByteArray.Read, if_neg (by omega), h.cur_of_eq hfull]
    simp
  · have hpos := h.position_le
    have hsize := h.size_le
    have hlt : ba.position < ba.capacity := by omega
    obtain ⟨first, later, hdrop, -, -⟩ := h.drop_cur hlt
    refine iff_of_true ?_ hfull
    rw [ByteArray.Read, if_neg (by omega), h.cur_of_lt hlt]
    dsimp only
    rw [hdrop]
    rfl

/-- Fewer bytes pass fewer pages. -/
theorem SamePages.mono {ba : ByteArray} {n n' : Nat} (h : SamePages ba n) (hle : n' ≤ n) :
    SamePages ba n' :=
  fun i node hi hnode hend => h i node hi hnode (by omega)

theorem WellFormed.toString_iff {ba : ByteArray} (h : WellFormed ba) :
    ByteArray.toString ba = .ok ba.rest ba ↔ SamePages ba ba.getReadSize := by
  have hlen := h.length_rest
  rcases Nat.eq_zero_or_pos ba.getReadSize with hzero | hpos
  · have hnil : ba.rest = [] := List.eq_nil_of_length_eq_zero (by omega)
    refine iff_of_true ?_ (h.samePages (by omega))
    rw [ByteArray.toString, if_pos hzero, hnil]
  · obtain ⟨bytes, hread, hiff⟩ := h.Read hpos (Nat.le_refl _)
    rw [List.take_of_length_le (by omega)] at hiff
    rw [ByteArray.toString, if_neg (by omega), hread, ← hiff]
    constructor
    · intro heq
      exact (EStateM.Result.ok.inj heq).1
    · rintro rfl
      rfl

/-- `Read` returns the bytes behind the cursor exactly if the pages that it passes have the bytes of
the first one, and it does not read nothing at the end of the last page. -/
theorem WellFormed.Read_iff {ba : ByteArray} (h : WellFormed ba) {n : Nat}
    (hn : n ≤ ba.getReadSize) :
    ByteArray.Read n ba.position ba = .ok (ba.rest.take n) ba ↔
      SamePages ba n ∧ ¬ (n = 0 ∧ ba.position = ba.capacity) := by
  rcases Nat.eq_zero_or_pos n with rfl | hpos
  · rw [List.take_zero, h.Read_zero]
    constructor
    · intro hne
      exact ⟨h.samePages (Nat.zero_le _), fun hnull => hne hnull.2⟩
    · rintro ⟨-, hnot⟩ hfull
      exact hnot ⟨rfl, hfull⟩
  · obtain ⟨bytes, hread, hiff⟩ := h.Read hpos hn
    rw [hread, ← hiff]
    constructor
    · intro heq
      exact ⟨(EStateM.Result.ok.inj heq).1, fun hnull => by omega⟩
    · rintro ⟨rfl, -⟩
      rfl

/-- Five bytes on three pages of two, with the cursor back at the first of them. -/
def threePages : ByteArray :=
  (trace apply [.write [1, 2, 3, 4, 5], .setPosition 0] (new (fun _ _ => 0) 2)).2

theorem threePages_eq : threePages =
    { baseSize := 2, capacity := 6, position := 0, size := 5, endian := .bigEndian,
      nodes := [⟨[1, 2]⟩, ⟨[3, 4]⟩, ⟨[5, 0]⟩], cur := some 0, heap := fun _ _ => 0 } := by
  have hcount : pageCount 3 2 = 2 := pageCount_eq (by norm_num) (by norm_num)
  simp [threePages, apply, Op.call, ByteArray.write, addCapacity, new, hcount, getCapcity, bind,
    EStateM.bind, pure, EStateM.pure, Node.alloc, writeLoop, Node.size, Node.memcpy, splice,
    ByteArray.setPosition, seek, link]

end ByteArray
end Routn
