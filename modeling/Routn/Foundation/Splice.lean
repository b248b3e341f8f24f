import Mathlib.Data.List.Basic
import Mathlib.Tactic

/-!
# Overwriting a block of a list

`splice l offset block` is what a block copy leaves in memory: the elements of `l` below `offset`,
then `block`, then whatever of `l` lies past the block.  The lemmas say how the operation behaves
on a concatenation of two pieces (the block falls into the first, into the second, or straddles
the seam) and what can be read back afterwards.
-/

namespace Routn
namespace Foundation

variable {α : Type*}

/-- Overwrite `block` at `offset`; the list grows when the block reaches past its end. -/
def splice (l : List α) (offset : Nat) (block : List α) : List α :=
  l.take offset ++ block ++ l.drop (offset + block.length)

@[simp] theorem splice_nil (l : List α) (offset : Nat) : splice l offset [] = l := by
  simp [splice]

theorem length_splice {l : List α} {offset : Nat} (block : List α)
    (hoffset : offset ≤ l.length) :
    (splice l offset block).length = max l.length (offset + block.length) := by
  simp only [splice, List.length_append, List.length_take, List.length_drop]
  omega

/-- A block that fits leaves the length alone. -/
theorem length_splice_of_fits {l : List α} {offset : Nat} {block : List α}
    (hfits : offset + block.length ≤ l.length) :
    (splice l offset block).length = l.length := by
  rw [length_splice block (by omega)]
  omega

/-- A block that fits into the first piece leaves the second alone. -/
theorem splice_append_left {l : List α} {offset : Nat} {block : List α} (m : List α)
    (hfits : offset + block.length ≤ l.length) :
    splice (l ++ m) offset block = splice l offset block ++ m := by
  have htake : (l ++ m).take offset = l.take offset :=
    List.take_append_of_le_length (by omega)
  have hdrop : (l ++ m).drop (offset + block.length) = l.drop (offset + block.length) ++ m :=
    List.drop_append_of_le_length hfits
  simp only [splice, htake, hdrop, List.append_assoc]

/-- A block that starts in the second piece leaves the first alone. -/
theorem splice_append_right {l : List α} {offset : Nat} (block m : List α)
    (hpast : l.length ≤ offset) :
    splice (l ++ m) offset block = l ++ splice m (offset - l.length) block := by
  have htake : (l ++ m).take offset = l ++ m.take (offset - l.length) := by
    rw [List.take_append, List.take_of_length_le hpast]
  have hdrop : (l ++ m).drop (offset + block.length) =
      m.drop (offset - l.length + block.length) := by
    rw [List.drop_append, List.drop_of_length_le (by omega), List.nil_append]
    congr 1
    omega
  simp only [splice, htake, hdrop, List.append_assoc]

/-- A block that straddles the seam is cut there: its head fills the first piece to the end, its
tail overwrites the beginning of the second. -/
theorem splice_append_straddle {l : List α} {offset : Nat} {block : List α} (m : List α)
    (hin : offset ≤ l.length) (hout : l.length ≤ offset + block.length) :
    splice (l ++ m) offset block =
      splice l offset (block.take (l.length - offset)) ++
        splice m 0 (block.drop (l.length - offset)) := by
  have htake : (l ++ m).take offset = l.take offset := List.take_append_of_le_length hin
  have hdrop : (l ++ m).drop (offset + block.length) =
      m.drop (offset + block.length - l.length) := by
    rw [List.drop_append, List.drop_of_length_le hout, List.nil_append]
  have hlen : offset + (block.take (l.length - offset)).length = l.length := by
    rw [List.length_take]
    omega
  have hrest : 0 + (block.drop (l.length - offset)).length =
      offset + block.length - l.length := by
    rw [List.length_drop]
    omega
  have hblock : block = block.take (l.length - offset) ++ block.drop (l.length - offset) :=
    (List.take_append_drop _ _).symm
  simp only [splice, htake, hdrop, hlen, hrest, List.drop_length, List.append_nil,
    List.take_zero, List.nil_append, List.append_assoc]
  rw [← List.append_assoc (block.take _), ← hblock]

/-- Two adjacent blocks written one after the other are one block. -/
theorem splice_splice {l : List α} {offset : Nat} (first second : List α)
    (hoffset : offset ≤ l.length) :
    splice (splice l offset first) (offset + first.length) second =
      splice l offset (first ++ second) := by
  have hlen : (l.take offset ++ first).length = offset + first.length := by
    rw [List.length_append, List.length_take]
    omega
  rw [splice, splice, ← hlen, List.take_left, List.drop_append, List.drop_of_length_le (by omega)]
  simp only [splice, List.nil_append, List.append_assoc, List.length_append, List.drop_drop, hlen]
  congr 4
  omega

/-- Below the block nothing changes. -/
theorem getElem?_splice_lt {l : List α} {offset i : Nat} (block : List α) (hi : i < offset)
    (hoffset : offset ≤ l.length) :
    (splice l offset block)[i]? = l[i]? := by
  have hlen : i < (l.take offset).length := by
    rw [List.length_take]
    omega
  rw [splice, List.append_assoc, List.getElem?_append_left hlen, List.getElem?_take_of_lt hi]

/-- Inside the block the block is read. -/
theorem getElem?_splice_mid {l : List α} {offset i : Nat} {block : List α}
    (hi : i < block.length) (hoffset : offset ≤ l.length) :
    (splice l offset block)[offset + i]? = block[i]? := by
  have hlen : (l.take offset).length = offset := by
    rw [List.length_take]
    omega
  rw [splice, List.append_assoc, List.getElem?_append_right (by omega), hlen,
    Nat.add_sub_cancel_left, List.getElem?_append_left hi]

/-- Past the block nothing changes. -/
theorem getElem?_splice_ge {l : List α} {offset i : Nat} {block : List α}
    (hi : offset + block.length ≤ i) (hoffset : offset ≤ l.length) :
    (splice l offset block)[i]? = l[i]? := by
  have hlen : (l.take offset ++ block).length = offset + block.length := by
    rw [List.length_append, List.length_take]
    omega
  rw [splice, List.getElem?_append_right (by omega), hlen, List.getElem?_drop]
  congr 1
  omega

/-- Up to the end of the block the list is what was below it followed by the block. -/
theorem take_splice_end {l : List α} {offset : Nat} (block : List α)
    (hoffset : offset ≤ l.length) :
    (splice l offset block).take (offset + block.length) = l.take offset ++ block := by
  have hlen : (l.take offset ++ block).length = offset + block.length := by
    rw [List.length_append, List.length_take]
    omega
  rw [splice, ← hlen, List.take_left]

/-- Cutting the list behind the block, or behind what is kept of it. -/
theorem take_splice {l : List α} {offset n : Nat} (block : List α) (hoffset : offset ≤ n)
    (hn : n ≤ l.length) : (splice l offset block).take (max n (offset + block.length)) =
      splice (l.take n) offset block := by
  have hhead : (l.take offset ++ block).length = offset + block.length := by
    rw [List.length_append, List.length_take]
    omega
  have hdrop : max n (offset + block.length) - (offset + block.length) =
      n - (offset + block.length) := by
    omega
  rw [splice, List.take_append, List.take_of_length_le (by omega), hhead, hdrop, splice,
    List.take_take, Nat.min_eq_left hoffset, List.drop_take]

end Foundation
end Routn
