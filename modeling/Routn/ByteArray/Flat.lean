import Mathlib.Tactic
import Routn.Foundation.Transition
import Routn.ByteArray.Invariant

/-!
# `ByteArray` refines a flat growable array

`Flat` says what the component is for: one growable list of bytes with a position.  A cell is
`none` when it lies in a gap that `setPosition` opened and nothing wrote yet; the content of such a
cell is unspecified.  The capacity is part of the picture because `setPosition` may move as far as
the capacity, and because the array grows by whole pages.

`apply_refines` is the one-step simulation, `trace_refines` the result for every sequence of
operations.  Sizes stay below `2 ^ 53`: that is how far the page count computed in `double` is
exact (`pageCount_eq`).
-/

namespace Routn
namespace ByteArray

open Foundation

/-! ## The page count in `double` -/

/-- The number of pages that hold `n` bytes. -/
def pagesFor (n b : Nat) : Nat := (n + (b - 1)) / b

theorem ceil_natCast_div (n : Nat) {b : Nat} (hb : 0 < b) :
    ⌈(n : ℚ) / b⌉ = (pagesFor n b : Nat) := by
  have hb' : (0 : ℚ) < b := by exact_mod_cast hb
  have hdiv := Nat.div_add_mod (n + (b - 1)) b
  have hmod := Nat.mod_lt (n + (b - 1)) hb
  have hlow : b * pagesFor n b ≤ n + (b - 1) := by
    unfold pagesFor
    omega
  have hhigh : n ≤ b * pagesFor n b := by
    unfold pagesFor
    omega
  rw [Int.ceil_eq_iff]
  constructor
  · rw [lt_div_iff₀ hb']
    have hlt : b * pagesFor n b < n + b := by omega
    have hlt' : (b : ℚ) * pagesFor n b < n + b := by exact_mod_cast hlt
    push_cast
    linarith
  · rw [div_le_iff₀ hb']
    have hle : (n : ℚ) ≤ b * pagesFor n b := by exact_mod_cast hhigh
    push_cast
    linarith

/-- Below `2 ^ 53` the page count is exact, for every page size. -/
theorem pageCount_eq {n b : Nat} (hn : n < 2 ^ 53) (hb : 0 < b) :
    pageCount n b = pagesFor n b := by
  unfold pageCount
  rw [roundTo_natCast hn]
  by_cases hsmall : b < 2 ^ 53
  · rw [roundTo_natCast hsmall, ceil_roundTo_div hn hb, ceil_natCast_div n hb, Int.toNat_natCast]
  · -- A page of at least `2 ^ 53` bytes holds all the data, whatever its size is rounded to.
    obtain ⟨d, hd, hge⟩ := exists_nat_roundTo_of_ge (p := 53) (n := b) (by norm_num) (by omega)
    have hd0 : 0 < d := lt_of_lt_of_le (by norm_num) hge
    rw [hd, ceil_roundTo_div hn hd0, ceil_natCast_div n hd0, Int.toNat_natCast]
    unfold pagesFor
    rcases Nat.eq_zero_or_pos n with rfl | hpos
    · rw [Nat.div_eq_of_lt (by omega), Nat.div_eq_of_lt (by omega)]
    · rw [Nat.div_eq_of_lt_le (k := 1) (by omega) (by omega),
        Nat.div_eq_of_lt_le (k := 1) (by omega) (by omega)]

theorem pagesFor_le_iff {n b k : Nat} (hb : 0 < b) : pagesFor n b ≤ k ↔ n ≤ k * b := by
  have hdiv := Nat.div_lt_iff_lt_mul (x := n + (b - 1)) (y := k + 1) hb
  rw [pagesFor, ← Nat.lt_succ_iff, Nat.succ_eq_add_one, hdiv, Nat.add_mul]
  omega

/-- Growing by the missing pages is rounding the end up to a page boundary. -/
theorem nextCapacity_eq {b cap position n : Nat} (hb : 0 < b) (hcap : b ∣ cap)
    (hpos : position ≤ cap) (hbound : position + n < 2 ^ 53) :
    nextCapacity b cap position n =
      if position + n ≤ cap then cap else pagesFor (position + n) b * b := by
  obtain ⟨pages, rfl⟩ := hcap
  unfold nextCapacity
  by_cases hroom : n ≤ b * pages - position
  · rw [if_pos hroom, if_pos (by omega)]
  · have hsplit : position + n + (b - 1) = n - (b * pages - position) + (b - 1) + b * pages := by
      omega
    rw [if_neg hroom, if_neg (by omega), pageCount_eq (by omega) hb]
    unfold pagesFor
    rw [hsplit, Nat.add_mul_div_left _ _ hb]
    ring

theorem nextCapacity_room {b cap position n : Nat} (hb : 0 < b) (hcap : b ∣ cap)
    (hpos : position ≤ cap) (hbound : position + n < 2 ^ 53) :
    position + n ≤ nextCapacity b cap position n := by
  rw [nextCapacity_eq hb hcap hpos hbound]
  split
  · assumption
  · exact (pagesFor_le_iff hb).mp (Nat.le_refl _)

theorem WellFormed.dvd_capacity {ba : ByteArray} (h : WellFormed ba) : ba.baseSize ∣ ba.capacity :=
  ⟨ba.nodes.length, h.capacity_eq⟩

theorem WellFormed.room {ba : ByteArray} (h : WellFormed ba) {n : Nat}
    (hbound : ba.position + n < 2 ^ 53) : ba.position + n ≤ ba.grownCapacity n :=
  nextCapacity_room h.baseSize_pos h.dvd_capacity (h.position_le.trans h.size_le) hbound

/-! ## The flat array -/

/-- A growable array of bytes with a position.  `none` is a byte nobody wrote. -/
structure Flat where
  baseSize : Nat
  capacity : Nat
  position : Nat
  cells : List (Option UInt8)

def Flat.size (f : Flat) : Nat := f.cells.length

def Flat.fresh (base_size : Nat) : Flat := ⟨base_size, base_size, 0, []⟩

/-- The operations of a client. -/
inductive Op
  | write (buf : List UInt8)
  | read (n : Nat)
  | setPosition (v : Nat)
  | clear
deriving DecidableEq, Repr

/-- What an operation does to the flat array. -/
def Flat.apply : Op → Flat → Except Fault (List (Option UInt8)) × Flat
  | .write buf, f =>
      let stop := f.position + buf.length
      (.ok [], { f with
        cells := splice f.cells f.position (buf.map some)
        position := stop
        capacity :=
          if stop ≤ f.capacity then f.capacity else pagesFor stop f.baseSize * f.baseSize })
  | .read n, f =>
      if n > f.size - f.position then (.error (.outOfRange "not enouth length"), f)
      else (.ok ((f.cells.drop f.position).take n), { f with position := f.position + n })
  | .setPosition v, f =>
      if v > f.capacity then (.error (.outOfRange "set position out of range"), f)
      else (.ok [], { f with
        position := v
        -- Jumping past the end of the data leaves a gap that nobody wrote.
        cells := f.cells ++ List.replicate (v - f.size) none })
  | .clear, f => (.ok [], Flat.fresh f.baseSize)

/-- A write sets the size to the larger of the old size and the new position. -/
theorem Flat.size_write {f : Flat} (buf : List UInt8) (hpos : f.position ≤ f.size) :
    (f.apply (.write buf)).2.size = max f.size (f.position + buf.length) := by
  simp only [Flat.apply, Flat.size] at hpos ⊢
  rw [length_splice _ hpos, List.length_map]

/-- The same operation on the pages. -/
def Op.call : Op → ByteArrayM (List UInt8)
  | .write buf => do
      ByteArray.write buf
      return []
  | .read n => ByteArray.read n
  | .setPosition v => do
      ByteArray.setPosition v
      return []
  | .clear => do
      ByteArray.clear
      return []

/-- The result of an operation and the state it leaves, also when it throws. -/
def apply (op : Op) (ba : ByteArray) : Except Fault (List UInt8) × ByteArray :=
  match op.call ba with
  | .ok bytes ba' => (.ok bytes, ba')
  | .error fault ba' => (.error fault, ba')

/-! ## The refinement -/

/-- Bytes agree with cells where the cells are specified. -/
def CellAgrees (byte : UInt8) (cell : Option UInt8) : Prop := ∀ x ∈ cell, byte = x

/-- Both operations fail in the same way, or both succeed and return the same bytes. -/
def OutcomeAgrees : Except Fault (List UInt8) → Except Fault (List (Option UInt8)) → Prop
  | .ok bytes, .ok cells => List.Forall₂ CellAgrees bytes cells
  | .error fault, .error fault' => fault = fault'
  | _, _ => False

/-- The memory holds every written cell at its place. -/
def Holds (memory : List UInt8) (cells : List (Option UInt8)) : Prop :=
  ∀ (i : Nat) (x : UInt8), cells[i]? = some (some x) → memory[i]? = some x

/-- The pages represent the flat array. -/
structure Refines (ba : ByteArray) (f : Flat) : Prop where
  wellFormed : WellFormed ba
  baseSize_eq : ba.baseSize = f.baseSize
  capacity_eq : ba.capacity = f.capacity
  position_eq : ba.position = f.position
  size_eq : ba.size = f.size
  holds : Holds ba.mem f.cells

theorem holds_nil (memory : List UInt8) : Holds memory [] := by
  intro i x hcell
  simp at hcell

theorem Holds.append {memory : List UInt8} {cells : List (Option UInt8)}
    (h : Holds memory cells) (fresh : List UInt8) : Holds (memory ++ fresh) cells := by
  intro i x hcell
  have hi := h i x hcell
  have hlt : i < memory.length := (List.getElem?_eq_some_iff.mp hi).1
  rw [List.getElem?_append_left hlt, hi]

theorem Holds.append_gap {memory : List UInt8} {cells : List (Option UInt8)}
    (h : Holds memory cells) (n : Nat) : Holds memory (cells ++ List.replicate n none) := by
  intro i x hcell
  by_cases hlt : i < cells.length
  · rw [List.getElem?_append_left hlt] at hcell
    exact h i x hcell
  · rw [List.getElem?_append_right (by omega), List.getElem?_replicate] at hcell
    split at hcell <;> simp at hcell

/-- Writing the same bytes at the same place on both sides keeps the agreement. -/
theorem Holds.splice {memory : List UInt8} {cells : List (Option UInt8)} {position : Nat}
    (h : Holds memory cells) (buf : List UInt8) (hcells : position ≤ cells.length)
    (hmem : position ≤ memory.length) :
    Holds (splice memory position buf) (splice cells position (buf.map some)) := by
  intro i x hcell
  -- Before the buffer, inside it, or behind it.
  by_cases hbelow : i < position
  · rw [getElem?_splice_lt _ hbelow hcells] at hcell
    rw [getElem?_splice_lt _ hbelow hmem]
    exact h i x hcell
  · obtain ⟨j, rfl⟩ : ∃ j, i = position + j := ⟨i - position, by omega⟩
    by_cases hin : j < buf.length
    · rw [getElem?_splice_mid (by simpa using hin) hcells, List.getElem?_map] at hcell
      rw [getElem?_splice_mid hin hmem]
      obtain ⟨y, hy, hxy⟩ := Option.map_eq_some_iff.mp hcell
      rw [hy, Option.some.inj hxy]
    · rw [getElem?_splice_ge (by rw [List.length_map]; omega) hcells] at hcell
      rw [getElem?_splice_ge (by omega) hmem]
      exact h _ x hcell

/-- A slice of the memory agrees with the same slice of the cells. -/
theorem Holds.slice {memory : List UInt8} {cells : List (Option UInt8)} {position n : Nat}
    (h : Holds memory cells) (hcells : position + n ≤ cells.length)
    (hmem : position + n ≤ memory.length) :
    List.Forall₂ CellAgrees ((memory.drop position).take n) ((cells.drop position).take n) := by
  rw [List.forall₂_iff_get]
  constructor
  · simp only [List.length_take, List.length_drop]
    omega
  · intro i hi hi' x hx
    simp only [List.length_take, List.length_drop] at hi hi'
    simp only [List.get_eq_getElem, List.getElem_take, List.getElem_drop] at hx ⊢
    have hcell : cells[position + i]? = some (some x) := by
      rw [List.getElem?_eq_getElem (by omega)]
      exact congrArg some hx
    have hbyte := h _ x hcell
    rw [List.getElem?_eq_getElem (by omega)] at hbyte
    exact Option.some.inj hbyte

theorem new_refines (heap : Nat → Nat → UInt8) {base_size : Nat} (hbase : 1 ≤ base_size) :
    Refines (new heap base_size) (Flat.fresh base_size) where
  wellFormed := new_wellFormed heap hbase
  baseSize_eq := rfl
  capacity_eq := rfl
  position_eq := rfl
  size_eq := rfl
  holds := holds_nil _

/-- What the source leaves to its callers: a read asks for at least one byte, and no operation
takes the size to `2 ^ 53`. -/
def Admissible (f : Flat) : Op → Prop
  | .read n => 1 ≤ n
  | op => (f.apply op).2.size < 2 ^ 53

instance (f : Flat) (op : Op) : Decidable (Admissible f op) := by
  cases op <;> unfold Admissible <;> infer_instance

section Simulation

variable {ba : ByteArray} {f : Flat} (h : Refines ba f)
include h

/-- A write fills the cells from the position on, and the pages have room for them. -/
theorem write_refines {buf : List UInt8} (hop : Admissible f (.write buf)) :
    OutcomeAgrees (ba.apply (.write buf)).1 (f.apply (.write buf)).1 ∧
      Refines (ba.apply (.write buf)).2 (f.apply (.write buf)).2 := by
  have hwf := h.wellFormed
  have hpos : ba.position ≤ f.size := h.size_eq ▸ hwf.position_le
  have hposition := h.position_eq
  have hsizes := h.size_eq
  have hcap := h.capacity_eq
  have hsize := hwf.size_le
  have hbound : ba.position + buf.length < 2 ^ 53 := by
    have hnext : (f.apply (.write buf)).2.size < 2 ^ 53 := hop
    rw [Flat.size_write buf (by omega)] at hnext
    omega
  obtain ⟨ba', fresh, hcall, hwf', hbase', -, hpos', hsize', hcap', hmem'⟩ :=
    hwf.write (hwf.room hbound)
  have happly : ba.apply (.write buf) = (.ok [], ba') := by
    simp only [apply, Op.call, bind, EStateM.bind, hcall]
    rfl
  rw [happly]
  refine ⟨.nil, hwf', hbase'.trans h.baseSize_eq, ?_, ?_, ?_, ?_⟩
  · rw [hcap', grownCapacity, nextCapacity_eq hwf.baseSize_pos hwf.dvd_capacity
      (hwf.position_le.trans hwf.size_le) hbound]
    simp only [Flat.apply, ← hposition, ← hcap, ← h.baseSize_eq]
    split_ifs <;> first | rfl | omega
  · rw [hpos', hposition]
    rfl
  · rw [hsize', Flat.size_write buf (by omega), hsizes, hposition]
  · rw [hmem', hposition]
    apply (h.holds.append fresh).splice buf
    · rw [Flat.size] at hpos
      omega
    · rw [List.length_append, hwf.length_mem]
      omega

/-- A read fails on both sides when there is too little left. -/
theorem read_refines {n : Nat} (hop : Admissible f (.read n)) :
    OutcomeAgrees (ba.apply (.read n)).1 (f.apply (.read n)).1 ∧
      Refines (ba.apply (.read n)).2 (f.apply (.read n)).2 := by
  have hwf := h.wellFormed
  have hle := hwf.position_le
  have hposition := h.position_eq
  have hsizes := h.size_eq
  have hcap := h.capacity_eq
  have hsize := hwf.size_le
  -- Both sides test the same two numbers, so they fail together.
  by_cases hshort : ba.getReadSize < n
  · have happly : ba.apply (.read n) = (.error (.outOfRange "not enouth length"), ba) := by
      simp only [apply, Op.call, read_short hshort]
    have hflat : f.apply (.read n) = (.error (.outOfRange "not enouth length"), f) := by
      rw [getReadSize] at hshort
      exact if_pos (by omega)
    rw [happly, hflat]
    exact ⟨rfl, h⟩
  · obtain ⟨ba', hcall, hwf', hpos', hsize', hcap', hmem', -, hbase'⟩ :=
      hwf.read (n := n) (by omega) (.inl hop)
    have happly : ba.apply (.read n) = (.ok ((ba.mem.drop ba.position).take n), ba') := by
      simp only [apply, Op.call, hcall]
    rw [getReadSize] at hshort
    have hflat : f.apply (.read n) =
        (.ok ((f.cells.drop f.position).take n), { f with position := f.position + n }) :=
      if_neg (by omega)
    rw [happly, hflat]
    refine ⟨?_, hwf', hbase'.trans h.baseSize_eq, hcap'.trans hcap, ?_, hsize'.trans hsizes, ?_⟩
    · rw [hposition]
      rw [Flat.size] at hsizes
      apply h.holds.slice
      · omega
      · rw [hwf.length_mem]
        omega
    · rw [hpos', hposition]
    · rw [hmem']
      exact h.holds

/-- A position behind the size leaves a gap whose bytes are not known. -/
theorem setPosition_refines (v : Nat) :
    OutcomeAgrees (ba.apply (.setPosition v)).1 (f.apply (.setPosition v)).1 ∧
      Refines (ba.apply (.setPosition v)).2 (f.apply (.setPosition v)).2 := by
  have hwf := h.wellFormed
  have hposition := h.position_eq
  have hsizes := h.size_eq
  have hcap := h.capacity_eq
  by_cases hpast : ba.capacity < v
  · have happly :
        ba.apply (.setPosition v) = (.error (.outOfRange "set position out of range"), ba) := by
      simp only [apply, Op.call, bind, EStateM.bind, setPosition_past hpast]
    have hflat :
        f.apply (.setPosition v) = (.error (.outOfRange "set position out of range"), f) :=
      if_pos (by omega)
    rw [happly, hflat]
    exact ⟨rfl, h⟩
  · obtain ⟨ba', hcall, hwf', hpos', hsize', hcap', hmem', -, hbase'⟩ :=
      hwf.setPosition (v := v) (by omega)
    have happly : ba.apply (.setPosition v) = (.ok [], ba') := by
      simp only [apply, Op.call, bind, EStateM.bind, hcall]
      rfl
    have hflat : f.apply (.setPosition v) = (.ok [], { f with
        position := v
        cells := f.cells ++ List.replicate (v - f.size) none }) := if_neg (by omega)
    rw [happly, hflat]
    refine ⟨.nil, hwf', hbase'.trans h.baseSize_eq, hcap'.trans hcap, hpos', ?_, ?_⟩
    · rw [hsize', hsizes]
      simp only [Flat.size, List.length_append, List.length_replicate]
      omega
    · rw [hmem']
      exact h.holds.append_gap _

theorem clear_refines :
    OutcomeAgrees (ba.apply .clear).1 (f.apply .clear).1 ∧
      Refines (ba.apply .clear).2 (f.apply .clear).2 := by
  have hwf := h.wellFormed
  obtain ⟨ba', hcall, hwf', hbase', hpos', hsize', hcap', -⟩ := hwf.clear
  have happly : ba.apply .clear = (.ok [], ba') := by
    simp only [apply, Op.call, bind, EStateM.bind, hcall]
    rfl
  rw [happly]
  exact ⟨.nil, hwf', hbase'.trans h.baseSize_eq, hcap'.trans h.baseSize_eq, hpos', hsize',
    holds_nil _⟩

end Simulation

/-- **One operation on the pages simulates the same operation on the flat array.** -/
theorem apply_refines {ba : ByteArray} {f : Flat} {op : Op} (h : Refines ba f)
    (hop : Admissible f op) :
    OutcomeAgrees (ba.apply op).1 (f.apply op).1 ∧ Refines (ba.apply op).2 (f.apply op).2 := by
  cases op with
  | write buf => exact write_refines h hop
  | read n => exact read_refines h hop
  | setPosition v => exact setPosition_refines h v
  | clear => exact clear_refines h

/-- No operation changes the page size. -/
theorem Flat.baseSize_apply (op : Op) (f : Flat) : (f.apply op).2.baseSize = f.baseSize := by
  cases op <;> simp only [Flat.apply, Flat.fresh] <;> split <;> rfl

theorem baseSize_trace (ops : List Op) (f : Flat) :
    (trace Flat.apply ops f).2.baseSize = f.baseSize := by
  induction ops generalizing f with
  | nil => rfl
  | cons op ops ih => rw [trace_cons, ih, Flat.baseSize_apply]

/-- **Every sequence of operations on a fresh `ByteArray` behaves like the same sequence on a flat
array**, and the invariant that ties the cursor to the pages holds after it. -/
theorem trace_refines (heap : Nat → Nat → UInt8) {base_size : Nat} (hbase : 1 ≤ base_size)
    (ops : List Op) (hops : traceMeets Flat.apply Admissible ops (Flat.fresh base_size)) :
    let ba := (trace apply ops (new heap base_size)).2
    let f := (trace Flat.apply ops (Flat.fresh base_size)).2
    List.Forall₂ OutcomeAgrees (trace apply ops (new heap base_size)).1
        (trace Flat.apply ops (Flat.fresh base_size)).1 ∧
      (ba.position = f.position ∧ ba.size = f.size ∧ Holds ba.mem f.cells) ∧
      (ba.position ≤ ba.size ∧ ba.size ≤ ba.capacity ∧ ba.baseSize = base_size ∧
        ba.capacity = ba.baseSize * ba.nodes.length ∧
        ba.cur = (if ba.position = ba.capacity then none
          else some (ba.position / ba.baseSize))) ∧
      (∀ buf, ba.position + buf.length < 2 ^ 53 →
        ∃ ba', write buf ba = .ok () ba' ∧ ba'.position = ba.position + buf.length ∧
          ba'.size = max ba.size ba'.position) ∧
      (∀ n, ba.getReadSize < n →
        read n ba = .error (.outOfRange "not enouth length") ba) ∧
      (∀ v, ba.capacity < v →
        setPosition v ba = .error (.outOfRange "set position out of range") ba) := by
  intro ba f
  obtain ⟨houts, h⟩ := trace_simulation apply_refines ops (new_refines heap hbase) hops
  have hwf := h.wellFormed
  have hbase_eq : ba.baseSize = base_size := h.baseSize_eq.trans (baseSize_trace ops _)
  refine ⟨houts, ⟨h.position_eq, h.size_eq, h.holds⟩,
    ⟨hwf.position_le, hwf.size_le, hbase_eq, hwf.capacity_eq, ?_⟩, ?_,
    fun n hn => read_short hn, fun v hv => setPosition_past hv⟩
  · split_ifs with hfull
    · exact hwf.cur_of_eq hfull
    · exact hwf.cur_of_lt (lt_of_le_of_ne (hwf.position_le.trans hwf.size_le) hfull)
  · intro buf hbound
    obtain ⟨ba', -, hcall, -, -, -, hpos, hsize, -, -⟩ := hwf.write (hwf.room hbound)
    exact ⟨ba', hcall, hpos, hpos ▸ hsize⟩

/-- Two-byte pages: a write over three pages, a jump back, a read across a page boundary, a jump
into the tail of the last page, and a write that grows the array. -/
theorem trace_refines_three_pages :
    (trace apply [.write [1, 2, 3, 4, 5], .setPosition 1, .read 3, .setPosition 6, .write [7]]
      (new (fun _ _ => 0) 2)).2.size = 7 := by
  have h := trace_refines (fun _ _ => 0) (by norm_num : 1 ≤ 2)
    [.write [1, 2, 3, 4, 5], .setPosition 1, .read 3, .setPosition 6, .write [7]] (by decide)
  exact h.2.1.2.1

end ByteArray
end Routn
