import Mathlib.Tactic
import Routn.ByteArray.Flat
import Routn.ByteArray.Reader
import Routn.ByteArray.Vectors

/-!
# The buffers that are sent

`getReadBuffers` describes the next `len` bytes, from the cursor or from a given position.  The
overload with a position starts there, but cuts `len` to the bytes that are left behind the cursor:
behind the cursor it takes too many bytes, which may lie behind the data, and in front of it too
few.
-/

namespace Routn

open Foundation

namespace ByteArray

/-- `getReadBuffers(buffers, len)`: the number it returns, and the buffers. -/
def getReadBuffersInto (buffers : List Iovec) (len : Nat) : ByteArrayM (Nat × List Iovec) :=
  fun ba =>
    match getReadBuffers len ba with
    | .ok iovs ba' =>
        .ok (if len > ba.getReadSize then ba.getReadSize else len, buffers ++ iovs) ba'
    | .error fault ba' => .error fault ba'

/-- `getReadBuffers(buffers, len, position)`. -/
def getReadBuffersAt (buffers : List Iovec) (len position : Nat) :
    ByteArrayM (Nat × List Iovec) := fun ba =>
  -- The bytes behind the cursor, also here.
  let len := if len > ba.getReadSize then ba.getReadSize else len
  if len = 0 then .ok (0, buffers) ba
  else
    let count := position / ba.baseSize
    match iovLoop count (position % ba.baseSize) len (ba.nodes.drop count) with
    | none => .error .nullNode ba
    | some iovs => .ok (len, buffers ++ iovs) ba

/-- The call appends buffers that cover the next bytes from `q` on, as many as there are of `len`,
each inside of a page, returns their total length, and changes nothing. -/
def Covers (ba : ByteArray) (buffers : List Iovec) (len q : Nat)
    (result : EStateM.Result Fault ByteArray (Nat × List Iovec)) : Prop :=
  ∃ iovs, result = .ok ((iovs.map Iovec.len).sum, buffers ++ iovs) ba ∧
    gather iovs ba.nodes = (ba.content.drop q).take (min len (ba.size - q)) ∧
      (iovs.map Iovec.len).sum = min len (ba.size - q) ∧
        ∀ iov ∈ iovs, ∃ node, ba.nodes[iov.node]? = some node ∧ iov.base + iov.len ≤ node.size

/-- Both overloads do what they are for. -/
structure ReadBuffers (ba : ByteArray) (buffers : List Iovec) (len p : Nat) : Prop where
  cursor : Covers ba buffers len ba.position (getReadBuffersInto buffers len ba)
  position : Covers ba buffers len p (getReadBuffersAt buffers len p ba)

/-- The `len` bytes are left both behind the cursor and behind `p`, or the two are the same. -/
def SameRest (ba : ByteArray) (len p : Nat) : Prop :=
  p = ba.position ∨ len ≤ ba.size - ba.position ∧ len ≤ ba.size - p

/-! ## The buffers -/

/-- The buffers name nodes of the list. -/
theorem node_lt_of_mem_iovLoop {index npos len : Nat} {nodes : List Node} {iovs : List Iovec}
    (h : iovLoop index npos len nodes = some iovs) :
    ∀ iov ∈ iovs, index ≤ iov.node ∧ iov.node < index + nodes.length := by
  induction nodes generalizing index npos len iovs with
  | nil => cases h
  | cons node rest ih =>
      rw [iovLoop] at h
      rw [List.length_cons]
      split at h
      · obtain rfl := Option.some.inj h
        intro iov hiov
        rw [List.mem_singleton.mp hiov]
        dsimp only
        omega
      · obtain ⟨later, hloop, rfl⟩ := Option.map_eq_some_iff.mp h
        intro iov hiov
        rcases List.mem_cons.mp hiov with rfl | hlater
        · dsimp only
          omega
        · have hrange := ih hloop iov hlater
          omega

theorem Spans.fits {b start total : Nat} {iovs : List Iovec} (h : Spans b start total iovs) :
    ∀ iov ∈ iovs, iov.base + iov.len ≤ b := by
  induction iovs generalizing start total with
  | nil =>
      intro iov hiov
      cases hiov
  | cons first iovs ih =>
      obtain ⟨-, hfits, -, hrest⟩ := h
      intro iov hiov
      rcases List.mem_cons.mp hiov with rfl | hlater
      · exact hfits
      · exact ih hrest iov hlater

/-- From the page of `q` on, the loop covers the `n` bytes behind `q`. -/
theorem WellFormed.iovLoop_at {ba : ByteArray} (h : WellFormed ba) {q n : Nat} (hn : 0 < n)
    (hroom : q + n ≤ ba.capacity) :
    ∃ iovs, iovLoop (q / ba.baseSize) (q % ba.baseSize) n (ba.nodes.drop (q / ba.baseSize)) =
      some iovs ∧ Spans ba.baseSize q n iovs ∧ ∀ iov ∈ iovs, iov.node < ba.nodes.length := by
  have hdiv := Nat.div_add_mod' q ba.baseSize
  have hmod := Nat.mod_lt q h.baseSize_pos
  have hindex : q / ba.baseSize < ba.nodes.length := by
    rw [Nat.div_lt_iff_lt_mul h.baseSize_pos, Nat.mul_comm, ← h.capacity_eq]
    omega
  have hrest : q % ba.baseSize + n ≤
      ba.baseSize * (ba.nodes.drop (q / ba.baseSize)).length := by
    have hcap := h.capacity_eq
    rw [List.length_drop, Nat.mul_sub, ← hcap, Nat.mul_comm ba.baseSize]
    omega
  obtain ⟨iovs, hloop, hspans⟩ := @iovLoop_spans _ (q / ba.baseSize) _ _ _
    (h.uniform.drop (q / ba.baseSize)) hmod.le hrest hn
  rw [hdiv] at hspans
  refine ⟨iovs, hloop, hspans, fun iov hiov => ?_⟩
  have hrange := node_lt_of_mem_iovLoop hloop iov hiov
  rw [List.length_drop] at hrange
  omega

/-- Buffers that span the bytes behind `q` cover them. -/
theorem WellFormed.covers {ba : ByteArray} (h : WellFormed ba) {buffers iovs : List Iovec}
    {len q : Nat} (hq : q ≤ ba.size)
    (hspans : Spans ba.baseSize q (min len (ba.size - q)) iovs)
    (hnodes : ∀ iov ∈ iovs, iov.node < ba.nodes.length) :
    Covers ba buffers len q (.ok (min len (ba.size - q), buffers ++ iovs) ba) := by
  have hsize := h.size_le
  have hroom : q + min len (ba.size - q) ≤ ba.baseSize * ba.nodes.length := by
    rw [← h.capacity_eq]
    omega
  refine ⟨iovs, by rw [hspans.sum_len], ?_, hspans.sum_len, fun iov hiov => ?_⟩
  · rw [gather_eq h.uniform hspans hroom, content, List.drop_take, List.take_take,
      Nat.min_assoc, Nat.min_self]
    rfl
  · have hlt := hnodes iov hiov
    refine ⟨ba.nodes[iov.node], List.getElem?_eq_getElem hlt, ?_⟩
    rw [h.uniform _ (List.getElem_mem hlt)]
    exact hspans.fits iov hiov

/-- **From the cursor** the buffers always cover the next bytes. -/
theorem WellFormed.getReadBuffersInto {ba : ByteArray} (h : WellFormed ba) (buffers : List Iovec)
    (len : Nat) :
    Covers ba buffers len ba.position (ByteArray.getReadBuffersInto buffers len ba) := by
  have hpos := h.position_le
  have hsize := h.size_le
  have hclamp : (if len > ba.getReadSize then ba.getReadSize else len) =
      min len (ba.size - ba.position) := by
    rw [getReadSize]
    split <;> omega
  unfold ByteArray.getReadBuffersInto ByteArray.getReadBuffers
  dsimp only
  rw [hclamp]
  by_cases hzero : min len (ba.size - ba.position) = 0
  · rw [if_pos hzero]
    exact h.covers hpos hzero fun iov hiov => by cases hiov
  · obtain ⟨iovs, hloop, hspans, hnodes⟩ := h.iovLoop_at (q := ba.position)
      (Nat.pos_of_ne_zero hzero) (by omega)
    rw [if_neg hzero, h.cur_of_lt (by omega)]
    dsimp only
    rw [hloop]
    exact h.covers hpos hspans hnodes

/-- **From a position** they do exactly if the bytes are left behind the cursor as well. -/
theorem WellFormed.getReadBuffersAt_iff {ba : ByteArray} (h : WellFormed ba)
    (buffers : List Iovec) {len p : Nat} (hp : p ≤ ba.size) :
    Covers ba buffers len p (getReadBuffersAt buffers len p ba) ↔ SameRest ba len p := by
  have hpos := h.position_le
  have hsize := h.size_le
  have hclamp : (if len > ba.getReadSize then ba.getReadSize else len) =
      min len (ba.size - ba.position) := by
    rw [getReadSize]
    split <;> omega
  have hsame : SameRest ba len p ↔ min len (ba.size - ba.position) = min len (ba.size - p) := by
    unfold SameRest
    omega
  rw [hsame]
  unfold getReadBuffersAt
  dsimp only
  rw [hclamp]
  constructor
  · -- The number that is returned is the one that `len` was cut to.
    rintro ⟨iovs, hresult, -, hsum, -⟩
    rw [hsum] at hresult
    split at hresult
    · next hzero => rw [hzero, (Prod.mk.inj (EStateM.Result.ok.inj hresult).1).1]
    · split at hresult
      · cases hresult
      · exact (Prod.mk.inj (EStateM.Result.ok.inj hresult).1).1
  · intro heq
    rw [heq]
    by_cases hzero : min len (ba.size - p) = 0
    · rw [if_pos hzero]
      have hcovers : Covers ba buffers len p (.ok (min len (ba.size - p), buffers ++ []) ba) :=
        h.covers hp hzero fun iov hiov => by cases hiov
      rw [hzero, List.append_nil] at hcovers
      exact hcovers
    · obtain ⟨iovs, hloop, hspans, hnodes⟩ := h.iovLoop_at (q := p)
        (Nat.pos_of_ne_zero hzero) (by omega)
      rw [if_neg hzero, hloop]
      exact h.covers hp hspans hnodes

/-- Three bytes, with the cursor behind all of them. -/
def written : ByteArray := (trace apply [.write [1, 2, 3]] (new (fun _ _ => 0) 4)).2

end ByteArray
end Routn
