import Mathlib.Tactic
import Routn.Foundation.Sequencing
import Routn.Foundation.Splice
import Routn.Streams.Stream

/-!
# A stream that carries bytes and never fails

One end of a connection as the code above `Stream` sees it: the bytes the peer has sent and that
were not read, and the bytes written so far.  A call moves some of the bytes it is asked for, at
least one while there is one; how many is the parameter `chunk`.  At the end of the incoming bytes
a call returns zero.  What a call reads goes into the memory of the caller, and a call whose range
leaves that memory is a fault.
-/

namespace Routn

open Foundation

inductive StreamFault
  | outOfBounds
  /-- The bound on the number of iterations is used up. -/
  | noReturn
deriving DecidableEq, Repr

/-- One end of a connection, with the memory that the current call reads or writes. -/
structure Duplex where
  inbound : List UInt8
  outbound : List UInt8 := []
  memory : List UInt8 := []
  calls : Nat := 0
  closed : Bool := false
deriving DecidableEq, Repr

namespace Duplex

/-- What the code above the stream can tell: the incoming bytes, the outgoing bytes, and whether
the stream is closed. -/
structure At (d : Duplex) (inbound outbound : List UInt8) (closed : Bool) : Prop where
  inbound : d.inbound = inbound
  outbound : d.outbound = outbound
  closed : d.closed = closed

/-- How many of `asked` bytes one call moves.  A call returns an `int`. -/
def moved (chunk : Nat → Nat) (calls asked : Nat) : Nat :=
  min asked (min (2 ^ 31 - 1) (max 1 (chunk calls)))

/-- `read(memory + base + offset, length)`. -/
def read (chunk : Nat → Nat) (base offset length : Nat) : EStateM StreamFault Duplex Int := fun d =>
  if d.memory.length < base + offset + length then .error .outOfBounds d
  else
    let n := min d.inbound.length (moved chunk d.calls length)
    .ok n { d with
      inbound := d.inbound.drop n
      memory := splice d.memory (base + offset) (d.inbound.take n)
      calls := d.calls + 1 }

/-- `write(memory + offset, length)`. -/
def write (chunk : Nat → Nat) (offset length : Nat) : EStateM StreamFault Duplex Int := fun d =>
  if d.memory.length < offset + length then .error .outOfBounds d
  else
    let n := moved chunk d.calls length
    .ok n { d with
      outbound := d.outbound ++ (d.memory.drop offset).take n
      calls := d.calls + 1 }

/-- `readFixSize(memory + base, length)`: what it returns, and the memory after it. -/
def readFixSize (chunk : Nat → Nat) (memory : List UInt8) (base length : Nat) :
    EStateM StreamFault Duplex (Int × List UInt8) := do
  modify fun d => { d with memory := memory }
  -- The loop makes a call for each byte that is there at most, and one that finds none.
  let fuel := (← get).inbound.length + 1
  match ← fixLoop (read chunk base) length fuel 0 length with
  | none => throw .noReturn
  | some rt => return (rt, (← get).memory)

/-- `writeFixSize(memory, sizeof memory)`. -/
def writeFixSize (chunk : Nat → Nat) (memory : List UInt8) : EStateM StreamFault Duplex Int := do
  modify fun d => { d with memory := memory }
  match ← fixLoop (write chunk) memory.length memory.length 0 memory.length with
  | none => throw .noReturn
  | some rt => return rt

def close : EStateM StreamFault Duplex Unit := modify fun d => { d with closed := true }

/-! ## One call -/

section Calls

variable (chunk : Nat → Nat)

theorem moved_le (calls asked : Nat) : moved chunk calls asked ≤ asked := by
  rw [moved]
  omega

theorem moved_pos {asked : Nat} (calls : Nat) (hasked : 0 < asked) :
    0 < moved chunk calls asked := by
  rw [moved]
  omega

theorem read_outOfBounds {d : Duplex} {base offset length : Nat}
    (hout : d.memory.length < base + offset + length) :
    read chunk base offset length d = .error .outOfBounds d := if_pos hout

theorem read_ok {d : Duplex} {base offset length : Nat}
    (hin : base + offset + length ≤ d.memory.length) :
    read chunk base offset length d =
      .ok (min d.inbound.length (moved chunk d.calls length) : Nat) { d with
        inbound := d.inbound.drop (min d.inbound.length (moved chunk d.calls length))
        memory := splice d.memory (base + offset)
          (d.inbound.take (min d.inbound.length (moved chunk d.calls length)))
        calls := d.calls + 1 } :=
  if_neg (by omega)

theorem write_ok {d : Duplex} {offset length : Nat} (hin : offset + length ≤ d.memory.length) :
    write chunk offset length d =
      .ok (moved chunk d.calls length : Nat) { d with
        outbound := d.outbound ++ (d.memory.drop offset).take (moved chunk d.calls length)
        calls := d.calls + 1 } :=
  if_neg (by omega)

/-! ## The loops -/

/-- What the read loop keeps: the bytes taken so far lie behind `base`, and the rest is still
there. -/
structure Filling (d₀ : Duplex) (base : Nat) (offset : Nat) (d : Duplex) : Prop where
  inbound : d.inbound = d₀.inbound.drop offset
  memory : d.memory = splice d₀.memory base (d₀.inbound.take offset)
  enough : offset ≤ d₀.inbound.length
  outbound : d.outbound = d₀.outbound
  closed : d.closed = d₀.closed

theorem Filling.init (d : Duplex) (base : Nat) : Filling d base 0 d :=
  ⟨rfl, (splice_nil _ _).symm, Nat.zero_le _, rfl, rfl⟩

theorem Filling.length_memory {d₀ d : Duplex} {base offset length : Nat}
    (h : Filling d₀ base offset d) (hfits : base + length ≤ d₀.memory.length)
    (hoffset : offset ≤ length) : d.memory.length = d₀.memory.length := by
  have hblock : (d₀.inbound.take offset).length = offset := by
    rw [List.length_take]
    exact Nat.min_eq_left h.enough
  rw [h.memory]
  exact length_splice_of_fits (by rw [hblock]; omega)

/-- A call in the loop takes the next bytes, if there are any. -/
theorem Filling.call {d₀ d : Duplex} {base offset length left : Nat}
    (h : Filling d₀ base offset d) (hfits : base + length ≤ d₀.memory.length)
    (hsum : offset + left = length) :
    ∃ d', read chunk base offset left d =
        .ok (min d.inbound.length (moved chunk d.calls left) : Nat) d' ∧
      Filling d₀ base (offset + min d.inbound.length (moved chunk d.calls left)) d' := by
  have hlength := h.length_memory hfits (by omega)
  refine ⟨_, read_ok chunk (by omega), ?_⟩
  have htaken : d₀.inbound.take offset ++ d.inbound.take
      (min d.inbound.length (moved chunk d.calls left)) =
      d₀.inbound.take (offset + min d.inbound.length (moved chunk d.calls left)) := by
    rw [List.take_add, h.inbound]
  have hoffset : (d₀.inbound.take offset).length = offset := by
    rw [List.length_take]
    exact Nat.min_eq_left h.enough
  have hblock := splice_splice (d₀.inbound.take offset)
    (d.inbound.take (min d.inbound.length (moved chunk d.calls left)))
    (show base ≤ d₀.memory.length by omega)
  rw [hoffset, htaken] at hblock
  have hrest : d.inbound.length = d₀.inbound.length - offset := by
    rw [h.inbound, List.length_drop]
  have hmore := h.enough
  exact {
    inbound := by
      rw [h.inbound, List.drop_drop]
    memory := by
      rw [h.memory]
      exact hblock
    enough := by omega
    outbound := h.outbound
    closed := h.closed }

/-- **The read loop with enough bytes.** -/
theorem fixLoop_read {d : Duplex} {base length : Nat} (hfits : base + length ≤ d.memory.length)
    (henough : length ≤ d.inbound.length) (hbound : length < 2 ^ 64) :
    ∃ d', fixLoop (read chunk base) length (d.inbound.length + 1) 0 length d =
        .ok (some (toInt length)) d' ∧ Filling d base length d' := by
  let inv := fun (offset left : Nat) (d' : Duplex) =>
    offset + left = length ∧ Filling d base offset d'
  have hstep : ∀ offset left d', 0 < left → inv offset left d' →
      ∃ (n : Nat) (d'' : Duplex), read chunk base offset left d' = .ok n d'' ∧ 0 < n ∧
        n ≤ left ∧ inv (offset + n) (left - n) d'' := by
    rintro offset left d' hleft ⟨hsum, hfill⟩
    obtain ⟨d'', hcall, hfill'⟩ := hfill.call chunk hfits hsum
    have hpos := moved_pos chunk d'.calls hleft
    have hle := moved_le chunk d'.calls left
    have hrest : d'.inbound.length = d.inbound.length - offset := by
      rw [hfill.inbound, List.length_drop]
    exact ⟨_, d'', hcall, by omega, by omega, by omega, hfill'⟩
  have hinit : inv 0 length d := ⟨Nat.zero_add length, .init d base⟩
  have hfuel : length ≤ d.inbound.length + 1 := by omega
  obtain ⟨d', hrun, -, hfill⟩ := fixLoop_run length hstep hinit hfuel (by omega)
  rw [Nat.zero_add] at hfill
  exact ⟨d', hrun, hfill⟩

/-- The read loop on too few bytes returns zero, and has taken what was there. -/
theorem fixLoop_read_short {d₀ : Duplex} {base length : Nat}
    (hfits : base + length ≤ d₀.memory.length) (hshort : d₀.inbound.length < length)
    (hbound : length < 2 ^ 64) {fuel offset left : Nat} {d : Duplex}
    (hfill : Filling d₀ base offset d) (hsum : offset + left = length)
    (hfuel : d.inbound.length < fuel) :
    ∃ d', fixLoop (read chunk base) length fuel offset left d = .ok (some 0) d' ∧
      d'.At [] d₀.outbound d₀.closed := by
  induction fuel generalizing offset left d with
  | zero => exact absurd hfuel (Nat.not_lt_zero _)
  | succ fuel ih =>
      have hmore := hfill.enough
      have hleft : 0 < left := by omega
      have hrest : d.inbound.length = d₀.inbound.length - offset := by
        rw [hfill.inbound, List.length_drop]
      obtain ⟨d', hcall, hfill'⟩ := hfill.call chunk hfits hsum
      have hpos := moved_pos chunk d.calls hleft
      have hle := moved_le chunk d.calls left
      rcases Nat.eq_zero_or_pos d.inbound.length with hnone | hsome
      · -- Nothing is left, and the call returns zero.
        rw [hnone, Nat.zero_min] at hcall hfill'
        refine ⟨d', fixLoop_eof hcall hleft, ?_, hfill'.outbound, hfill'.closed⟩
        rw [hfill'.inbound]
        exact List.drop_of_length_le (by omega)
      · rw [fixLoop_transfer hcall (by omega) (by omega) (by omega)]
        refine ih hfill' (by omega) ?_
        have := hfill'.enough
        rw [hfill'.inbound, List.length_drop]
        omega

/-- What the write loop keeps. -/
structure Sending (d₀ : Duplex) (offset : Nat) (d : Duplex) : Prop where
  inbound : d.inbound = d₀.inbound
  memory : d.memory = d₀.memory
  outbound : d.outbound = d₀.outbound ++ d₀.memory.take offset
  closed : d.closed = d₀.closed

/-- **The write loop.** -/
theorem fixLoop_write (d : Duplex) (hbound : d.memory.length < 2 ^ 64) :
    ∃ d', fixLoop (write chunk) d.memory.length d.memory.length 0 d.memory.length d =
        .ok (some (toInt d.memory.length)) d' ∧ Sending d d.memory.length d' := by
  let inv := fun (offset left : Nat) (d' : Duplex) =>
    offset + left = d.memory.length ∧ Sending d offset d'
  have hstep : ∀ offset left d', 0 < left → inv offset left d' →
      ∃ (n : Nat) (d'' : Duplex), write chunk offset left d' = .ok n d'' ∧ 0 < n ∧
        n ≤ left ∧ inv (offset + n) (left - n) d'' := by
    rintro offset left d' hleft ⟨hsum, hsend⟩
    have hle := moved_le chunk d'.calls left
    refine ⟨_, _, write_ok chunk ?_, moved_pos chunk d'.calls hleft, hle, by omega, ?_⟩
    · rw [hsend.memory]
      exact hsum.le
    · exact {
        inbound := hsend.inbound
        memory := hsend.memory
        outbound := by
          show d'.outbound ++ _ = _
          rw [hsend.outbound, hsend.memory, List.append_assoc, ← List.take_add]
        closed := hsend.closed }
  have hinit : inv 0 d.memory.length d :=
    ⟨Nat.zero_add _, rfl, rfl, (List.append_nil _).symm, rfl⟩
  obtain ⟨d', hrun, -, hsend⟩ := fixLoop_run d.memory.length hstep hinit (Nat.le_refl _) (by omega)
  rw [Nat.zero_add] at hsend
  exact ⟨d', hrun, hsend⟩

/-! ## The two members -/

/-- A read of no bytes returns zero and changes nothing. -/
theorem readFixSize_zero (d : Duplex) (memory : List UInt8) (base : Nat) :
    ∃ d', readFixSize chunk memory base 0 d = .ok (0, memory) d' ∧
      d'.At d.inbound d.outbound d.closed :=
  ⟨{ d with memory := memory }, rfl, rfl, rfl, rfl⟩

/-- **A read with enough bytes** takes them, and returns `length` as an `int`. -/
theorem readFixSize_ok {d : Duplex} {memory : List UInt8} {base length : Nat}
    (hfits : base + length ≤ memory.length) (henough : length ≤ d.inbound.length)
    (hbound : length < 2 ^ 64) :
    ∃ d', readFixSize chunk memory base length d =
        .ok (toInt length, splice memory base (d.inbound.take length)) d' ∧
      d'.At (d.inbound.drop length) d.outbound d.closed := by
  obtain ⟨d', hrun, hfill⟩ := fixLoop_read chunk
    (d := { d with memory := memory }) hfits henough hbound
  refine ⟨d', ?_, hfill.inbound, hfill.outbound, hfill.closed⟩
  rw [← hfill.memory]
  exact bind_ok hrun

/-- **A read with too few bytes** returns zero. -/
theorem readFixSize_short {d : Duplex} {memory : List UInt8} {base length : Nat}
    (hfits : base + length ≤ memory.length) (hshort : d.inbound.length < length)
    (hbound : length < 2 ^ 64) :
    ∃ memory' d', readFixSize chunk memory base length d = .ok (0, memory') d' ∧
      d'.At [] d.outbound d.closed := by
  obtain ⟨d', hrun, hat⟩ := fixLoop_read_short chunk
    (show base + length ≤ ({ d with memory := memory } : Duplex).memory.length from hfits)
    hshort hbound (.init _ base)
    (Nat.zero_add length) (Nat.lt_succ_self _)
  exact ⟨d'.memory, d', bind_ok hrun, hat⟩

/-- A read whose range leaves the memory. -/
theorem readFixSize_outOfBounds {d : Duplex} {memory : List UInt8} {base length : Nat}
    (hpos : 0 < length) (hout : memory.length < base + length) :
    ∃ d', readFixSize chunk memory base length d = .error .outOfBounds d' := by
  have hcall : read chunk base 0 length { d with memory := memory } =
      .error .outOfBounds { d with memory := memory } := read_outOfBounds chunk hout
  have hrun : fixLoop (read chunk base) length (d.inbound.length + 1) 0 length
      { d with memory := memory } = .error .outOfBounds { d with memory := memory } := by
    rw [fixLoop, if_pos hpos]
    exact bind_error hcall
  exact ⟨_, (bind_ok rfl).trans ((bind_ok rfl).trans (bind_error hrun))⟩

/-- **A write** appends the memory, and returns its length as an `int`. -/
theorem writeFixSize_ok (d : Duplex) {memory : List UInt8} (hbound : memory.length < 2 ^ 64) :
    ∃ d', writeFixSize chunk memory d = .ok (toInt memory.length) d' ∧
      d'.At d.inbound (d.outbound ++ memory) d.closed := by
  obtain ⟨d', hrun, hsend⟩ := fixLoop_write chunk { d with memory := memory } hbound
  refine ⟨d', bind_ok hrun, hsend.inbound, ?_, hsend.closed⟩
  rw [hsend.outbound]
  exact congrArg _ (List.take_length)

end Calls

end Duplex
end Routn
