import Mathlib.Tactic
import Routn.ByteArray.Invariant

/-!
# The memory behind a scatter list

`getReadBuffers` and `getWriteBuffers` hand out pieces of pages.  `Spans` says that such a list
covers one interval of the flat memory, in order and without gaps; then collecting the bytes of the
pieces is reading the interval (`gather_eq`), and filling the pieces is a splice (`memOf_scatter`).
-/

namespace Routn

open Foundation

namespace ByteArray

/-! ## Reading and filling the pieces -/

/-- The bytes that a `Node` index and a range name. -/
def Iovec.bytes (nodes : List Node) (iov : Iovec) : List UInt8 :=
  match nodes[iov.node]? with
  | some node => (node.ptr.drop iov.base).take iov.len
  | none => []

/-- What `sendmsg` collects from the pieces. -/
def gather (iovs : List Iovec) (nodes : List Node) : List UInt8 :=
  iovs.flatMap (Iovec.bytes nodes)

/-- What `recvmsg` does with the bytes it received: it fills one piece after the other. -/
def scatter : List Iovec → List UInt8 → List Node → List Node
  | [], _, nodes => nodes
  | iov :: iovs, data, nodes =>
      scatter iovs (data.drop iov.len)
        (nodes.modify iov.node fun node => node.memcpy iov.base (data.take iov.len))

/-- The pieces cover the interval of `total` bytes from `start` on. -/
def Spans (b : Nat) : Nat → Nat → List Iovec → Prop
  | _, total, [] => total = 0
  | start, total, iov :: iovs =>
      iov.node * b + iov.base = start ∧ iov.base + iov.len ≤ b ∧ iov.len ≤ total ∧
        Spans b (start + iov.len) (total - iov.len) iovs

theorem Spans.sum_len {b start total : Nat} {iovs : List Iovec} (h : Spans b start total iovs) :
    (iovs.map Iovec.len).sum = total := by
  induction iovs generalizing start total with
  | nil => exact h.symm
  | cons iov iovs ih =>
      obtain ⟨-, -, hle, hrest⟩ := h
      rw [List.map_cons, List.sum_cons, ih hrest]
      omega

/-- The loop of `getReadBuffers` and `getWriteBuffers` covers the interval it was asked for. -/
theorem iovLoop_spans {b index npos len : Nat} {nodes : List Node} (hu : Uniform b nodes)
    (hnpos : npos ≤ b) (hroom : npos + len ≤ b * nodes.length) (hlen : 0 < len) :
    ∃ iovs, iovLoop index npos len nodes = some iovs ∧ Spans b (index * b + npos) len iovs := by
  induction nodes generalizing index npos len with
  | nil =>
      rw [List.length_nil, Nat.mul_zero] at hroom
      omega
  | cons node rest ih =>
      rw [uniform_cons] at hu
      have hsize : node.size = b := hu.1
      rw [List.length_cons, Nat.mul_add, Nat.mul_one] at hroom
      by_cases hfit : b - npos ≥ len
      · -- The last piece ends inside this page.
        refine ⟨[⟨index, npos, len⟩], ?_, rfl, by show npos + len ≤ b; omega, Nat.le_refl _, ?_⟩
        · rw [iovLoop]
          simp only [hsize, if_pos hfit]
        · show len - len = 0
          omega
      · -- This piece takes the page to its end, and the next one starts a page.
        obtain ⟨iovs, hloop, hspans⟩ : ∃ iovs,
            iovLoop (index + 1) 0 (len - (b - npos)) rest = some iovs ∧
              Spans b ((index + 1) * b + 0) (len - (b - npos)) iovs :=
          ih hu.2 (Nat.zero_le b) (by omega) (by omega)
        refine ⟨⟨index, npos, b - npos⟩ :: iovs, ?_, rfl, ?_, ?_, ?_⟩
        · rw [iovLoop]
          simp only [hsize, if_neg hfit, hloop, Option.map_some]
        · show npos + (b - npos) ≤ b
          omega
        · show b - npos ≤ len
          omega
        · have hstart : index * b + npos + (b - npos) = (index + 1) * b + 0 := by
            rw [Nat.add_mul]
            omega
          show Spans b (index * b + npos + (b - npos)) (len - (b - npos)) iovs
          rw [hstart]
          exact hspans

/-! ## One page in the flat memory -/

/-- A range of a page is a range of the flat memory. -/
theorem bytes_eq {b : Nat} {nodes : List Node} (hu : Uniform b nodes) {iov : Iovec}
    (hnode : iov.node < nodes.length) (hfits : iov.base + iov.len ≤ b) :
    iov.bytes nodes = ((memOf nodes).drop (iov.node * b + iov.base)).take iov.len := by
  obtain ⟨k, base, len⟩ := iov
  simp only at hnode hfits
  show (match nodes[k]? with
    | some node => (node.ptr.drop base).take len
    | none => []) = ((memOf nodes).drop (k * b + base)).take len
  induction nodes generalizing k with
  | nil => simp at hnode
  | cons node rest ih =>
      rw [uniform_cons] at hu
      rw [memOf_cons]
      cases k with
      | zero =>
          show (node.ptr.drop base).take len = _
          rw [Nat.zero_mul, Nat.zero_add, List.drop_append_of_le_length (by omega),
            List.take_append_of_le_length (by rw [List.length_drop]; omega)]
      | succ k =>
          have hoffset : (k + 1) * b + base = node.ptr.length + (k * b + base) := by
            rw [hu.1, Nat.add_mul]
            omega
          have hdrop : (node.ptr ++ memOf rest).drop (node.ptr.length + (k * b + base)) =
              (memOf rest).drop (k * b + base) := by
            rw [← List.drop_drop, List.drop_left]
          rw [List.getElem?_cons_succ, ih hu.2 k (by simpa using hnode), hoffset, hdrop]

/-- Copying into a range of a page is a splice of the flat memory. -/
theorem memOf_modify {b : Nat} {nodes : List Node} (hu : Uniform b nodes) {k base : Nat}
    {data : List UInt8} (hnode : k < nodes.length) (hfits : base + data.length ≤ b) :
    memOf (nodes.modify k fun node => node.memcpy base data) =
        splice (memOf nodes) (k * b + base) data ∧
      Uniform b (nodes.modify k fun node => node.memcpy base data) := by
  induction nodes generalizing k with
  | nil => simp at hnode
  | cons node rest ih =>
      rw [uniform_cons] at hu
      cases k with
      | zero =>
          rw [List.modify_zero_cons, memOf_cons, memOf_cons, uniform_cons, Nat.zero_mul,
            Nat.zero_add, splice_append_left _ (by omega)]
          refine ⟨rfl, ?_, hu.2⟩
          show (splice node.ptr base data).length = b
          rw [length_splice_of_fits (by omega), hu.1]
      | succ k =>
          obtain ⟨hmem, huniform⟩ := ih hu.2 (by simpa using hnode)
          have hoffset : (k + 1) * b + base - node.ptr.length = k * b + base := by
            rw [hu.1, Nat.add_mul]
            omega
          rw [List.modify_succ_cons, memOf_cons, memOf_cons, uniform_cons, hmem,
            splice_append_right _ _ (by rw [hu.1, Nat.add_mul]; omega), hoffset]
          exact ⟨rfl, hu.1, huniform⟩

/-! ## The whole list -/

/-- A piece that lies inside the memory belongs to a page. -/
theorem node_lt {b k base start total pages : Nat} (hstart : k * b + base = start)
    (htotal : 0 < total) (hroom : start + total ≤ b * pages) : k < pages := by
  by_contra hge
  have hmul := Nat.mul_le_mul_right b (Nat.le_of_not_lt hge)
  rw [Nat.mul_comm pages] at hmul
  omega

theorem gather_eq {b start total : Nat} {iovs : List Iovec} {nodes : List Node}
    (hu : Uniform b nodes) (h : Spans b start total iovs)
    (hroom : start + total ≤ b * nodes.length) :
    gather iovs nodes = ((memOf nodes).drop start).take total := by
  induction iovs generalizing start total with
  | nil =>
      have hzero : total = 0 := h
      rw [hzero, List.take_zero]
      rfl
  | cons iov iovs ih =>
      obtain ⟨hstart, hfits, hle, hrest⟩ := h
      show iov.bytes nodes ++ gather iovs nodes = _
      -- The pieces behind the first one collect the rest of the interval.
      rw [ih hrest (by omega)]
      rcases Nat.eq_zero_or_pos iov.len with hempty | hpos
      · have hnil : iov.bytes nodes = [] := by
          rw [Iovec.bytes]
          split
          · rw [hempty, List.take_zero]
          · rfl
        rw [hnil, hempty, Nat.add_zero, Nat.sub_zero, List.nil_append]
      · rw [bytes_eq hu (node_lt hstart (by omega) hroom) hfits, hstart]
        have hsplit := List.take_add (l := (memOf nodes).drop start) (i := iov.len)
          (j := total - iov.len)
        rw [Nat.add_sub_cancel' hle, List.drop_drop] at hsplit
        exact hsplit.symm

theorem memOf_scatter {b start total : Nat} {iovs : List Iovec} {nodes : List Node}
    {data : List UInt8} (hu : Uniform b nodes) (h : Spans b start total iovs)
    (hdata : data.length ≤ total) (hroom : start + total ≤ b * nodes.length) :
    memOf (scatter iovs data nodes) = splice (memOf nodes) start data ∧
      Uniform b (scatter iovs data nodes) ∧ (scatter iovs data nodes).length = nodes.length := by
  induction iovs generalizing start total data nodes with
  | nil =>
      have hzero : total = 0 := h
      have hnil : data = [] := List.eq_nil_of_length_eq_zero (by omega)
      rw [hnil, splice_nil]
      exact ⟨rfl, hu, rfl⟩
  | cons iov iovs ih =>
      obtain ⟨hstart, hfits, hle, hrest⟩ := h
      rw [scatter]
      set nodes' := nodes.modify iov.node fun node => node.memcpy iov.base (data.take iov.len)
        with hnodes'
      have hlength : nodes'.length = nodes.length := by
        rw [hnodes', List.length_modify]
      have hpage : memOf nodes' = splice (memOf nodes) start (data.take iov.len) ∧
          Uniform b nodes' := by
        have htake : iov.base + (data.take iov.len).length ≤ b := by
          rw [List.length_take]
          omega
        -- An empty piece may name a page past the end, but it stores nothing.
        rcases Nat.eq_zero_or_pos iov.len with hempty | hpos
        · have hself : nodes' = nodes := by
            rw [hnodes', hempty, List.take_zero]
            have hid : (fun node : Node => node.memcpy iov.base []) = id := by
              funext node
              rw [Node.memcpy, splice_nil]
              rfl
            rw [hid, List.modify_id]
          rw [hself, hempty, List.take_zero, splice_nil]
          exact ⟨rfl, hu⟩
        · rw [← hstart]
          exact memOf_modify hu (node_lt hstart (by omega) hroom) htake
      have hdata' : (data.drop iov.len).length ≤ total - iov.len := by
        rw [List.length_drop]
        omega
      obtain ⟨hmem, huniform, hlen⟩ := ih hpage.2 hrest hdata' (by rw [hlength]; omega)
      refine ⟨?_, huniform, hlen.trans hlength⟩
      rw [hmem, hpage.1]
      -- What this piece does not take goes to the pieces behind it.
      by_cases hshort : data.length ≤ iov.len
      · rw [List.drop_of_length_le hshort, splice_nil, List.take_of_length_le hshort]
      · have hcut : (data.take iov.len).length = iov.len := by
          rw [List.length_take]
          omega
        have hstart_le : start ≤ (memOf nodes).length := by
          rw [hu.length_memOf]
          omega
        nth_rewrite 2 [← hcut]
        rw [splice_splice _ _ hstart_le, List.take_append_drop]

/-! ## The buffers of an array -/

/-- From `_cur` on, the loop covers the `n` bytes behind the cursor. -/
theorem WellFormed.iovLoop_cur {ba : ByteArray} (h : WellFormed ba) {n : Nat} (hn : 0 < n)
    (hroom : ba.position + n ≤ ba.capacity) :
    ∃ k iovs, ba.cur = some k ∧
      iovLoop k (ba.position % ba.baseSize) n (ba.nodes.drop k) = some iovs ∧
      Spans ba.baseSize ba.position n iovs := by
  have hlen := h.length_drop
  set k := ba.position / ba.baseSize with hk
  have hrest : ba.position % ba.baseSize + n ≤ ba.baseSize * (ba.nodes.drop k).length := by omega
  obtain ⟨iovs, hloop, hspans⟩ := iovLoop_spans (h.uniform.drop k) h.mod_lt.le hrest hn
  refine ⟨k, iovs, h.cur_of_lt (by omega), hloop, ?_⟩
  rw [hk, Nat.div_add_mod'] at hspans
  exact hspans

/-- `getReadBuffers` covers the next `n` bytes of the data. -/
theorem WellFormed.getReadBuffers {ba : ByteArray} (h : WellFormed ba) {n : Nat} (hn : 0 < n)
    (hle : n ≤ ba.getReadSize) :
    ∃ iovs, getReadBuffers n ba = .ok iovs ba ∧ Spans ba.baseSize ba.position n iovs := by
  have hsize := h.size_le
  rw [getReadSize] at hle
  obtain ⟨k, iovs, hcur, hloop, hspans⟩ := h.iovLoop_cur hn (by omega)
  refine ⟨iovs, ?_, hspans⟩
  rw [ByteArray.getReadBuffers, getReadSize]
  simp only [if_neg (by omega : ¬ n > ba.size - ba.position), if_neg (by omega : ¬ n = 0), hcur,
    hloop]

/-- `getWriteBuffers` makes room for `n` bytes and covers them. -/
theorem WellFormed.getWriteBuffers {ba : ByteArray} (h : WellFormed ba) {n : Nat} (hn : 0 < n)
    (hroom : ba.position + n ≤ ba.grownCapacity n) :
    ∃ ba' iovs fresh, getWriteBuffers n ba = .ok iovs ba' ∧ WellFormed ba' ∧
      ba'.mem = ba.mem ++ fresh ∧ ba'.baseSize = ba.baseSize ∧ ba'.position = ba.position ∧
      ba'.size = ba.size ∧ ba'.endian = ba.endian ∧ ba'.capacity = ba.grownCapacity n ∧
      Spans ba.baseSize ba.position n iovs := by
  obtain ⟨hgrown, fresh, hmem⟩ := h.addCapacity n
  obtain ⟨hbase, hpos, hsize, hendian⟩ := addCapacity_frame n ba
  have hcap := capacity_addCapacity n ba
  obtain ⟨k, iovs, hcur, hloop, hspans⟩ := hgrown.iovLoop_cur hn (by omega)
  rw [hbase, hpos] at hspans
  refine ⟨ba.addCapacity n, iovs, fresh, ?_, hgrown, hmem, hbase, hpos, hsize, hendian, hcap,
    hspans⟩
  rw [ByteArray.getWriteBuffers]
  simp only [if_neg (by omega : ¬ n = 0), hcur, hloop]

/-- Storing `data` in the pieces that cover the interval behind the cursor. -/
def fill (iovs : List Iovec) (data : List UInt8) : ByteArrayM Unit := fun ba =>
  .ok () { ba with nodes := scatter iovs data ba.nodes }

theorem WellFormed.fill {ba : ByteArray} (h : WellFormed ba) {n : Nat} {iovs : List Iovec}
    (hspans : Spans ba.baseSize ba.position n iovs) (hroom : ba.position + n ≤ ba.capacity)
    {data : List UInt8} (hdata : data.length ≤ n) :
    ∃ ba', fill iovs data ba = .ok () ba' ∧ WellFormed ba' ∧ ba'.baseSize = ba.baseSize ∧
      ba'.position = ba.position ∧ ba'.size = ba.size ∧ ba'.endian = ba.endian ∧
      ba'.capacity = ba.capacity ∧ ba'.mem = splice ba.mem ba.position data := by
  obtain ⟨hmem, huniform, hlength⟩ :=
    memOf_scatter h.uniform hspans hdata (by rw [← h.capacity_eq]; exact hroom)
  refine ⟨_, rfl, ?_, rfl, rfl, rfl, rfl, rfl, hmem⟩
  exact
    { baseSize_pos := h.baseSize_pos
      uniform := huniform
      root := by rw [hlength]; exact h.root
      capacity_eq := by rw [hlength]; exact h.capacity_eq
      position_le := h.position_le
      size_le := h.size_le
      cur_eq := by rw [h.cur_eq, link, link, hlength] }

end ByteArray
end Routn
