import Mathlib.Tactic
import Routn.Http.WSReceive

/-!
# The lengths that a peer announces

Whether the running total of `WSRecvMessage`, a signed `int`, stays right when it meets 64-bit
lengths that the peer chooses.  The check against the maximum is made on the sum modulo `2 ^ 64`,
and the total is kept as an `int` while the maximum is a `uint32_t`; `Contained` is exactly what
the check leaves open.
-/

namespace Routn
namespace Http

open Foundation Duplex

variable (chunk : Nat → Nat) (maxSize : UInt32) (client : Bool)

/-- The iterations of a run on the stream `d₀`: the local variables and the stream at the top of
the loop. -/
inductive Iteration (d₀ : Duplex) : Received → Duplex → Prop
  | first : Iteration d₀ {} d₀
  | next {recv recv' : Received} {d d' : Duplex} (h : Iteration d₀ recv d)
      (hturn : turn chunk maxSize client recv d = .ok (.again recv') d') : Iteration d₀ recv' d'

/-- What an iteration has to guarantee when it reads payload: the sum of `cur_len` and the length
of the frame is exact and below the maximum, the read and the decoding stay in the string, and
`cur_len` is not negative before and after. -/
def LengthSafe (recv : Received) (d : Duplex) : Prop :=
  0 ≤ recv.curLen ∧ ∀ head length mask d₁,
    readHeading chunk maxSize client recv.curLen d = .ok (.frame head length mask) d₁ →
    recv.curLen + length < 2 ^ 64 ∧ recv.curLen + length < maxSize.toNat ∧
    ∃ payload d₂, readPayload chunk recv head length mask d₁ = .ok payload d₂ ∧
      ∀ recv' ∈ payload, 0 ≤ recv'.curLen

/-- The bytes in front of an iteration do not announce a length whose sum with `cur_len` wraps
around to a value below the maximum; and a payload that passes the check and is there in full
fits an `int` together with `cur_len`. -/
def Contained (recv : Received) (inbound : List UInt8) : Prop :=
  ∀ head size mask rest, FrameStart client head size mask rest inbound →
    (recv.curLen + size < 2 ^ 64 ∨ 2 ^ 64 + maxSize.toNat ≤ recv.curLen + size) ∧
    (recv.curLen + size < 2 ^ 31 ∨ maxSize.toNat ≤ recv.curLen + size ∨ 2 ^ 31 ≤ size ∨
      rest.length < size)

section Iterations

variable {chunk maxSize client} {recv recv' : Received} {d d' : Duplex} {head : WSFrameHead}
  {size : Nat} {mask rest outbound : List UInt8} {closed : Bool}

/-- The bytes of a payload that is there. -/
theorem exists_payload (hat : d.At rest outbound closed) (hsize : size ≤ rest.length) :
    ∃ payload, payload.length = size ∧ d.At (payload ++ rest.drop size) outbound closed :=
  ⟨rest.take size, List.length_take_of_le hsize, by rwa [List.take_append_drop]⟩

/-- The payload stage keeps `cur_len` the length of the string, unless it becomes negative. -/
theorem readPayload_inv (h : recv.Inv) (hsize : size < 2 ^ 32) (hat : d.At rest outbound closed)
    (hrun : readPayload chunk recv head size mask d = .ok (some recv') d')
    (hpos : 0 ≤ recv'.curLen) : recv'.Inv := by
  have := h.small
  rcases Nat.eq_zero_or_pos size with rfl | hsome
  · obtain ⟨d₁, hnone⟩ := readPayload_empty chunk head mask d
    rw [hnone] at hrun
    cases hrun
  rcases Nat.lt_or_ge rest.length size with hshort | henough
  · obtain ⟨d₁, hnone⟩ := readPayload_short chunk head mask
      (d := d) h (show recv.data.length + size < 2 ^ 64 by omega) (by rwa [hat.inbound])
    rw [hnone] at hrun
    cases hrun
  obtain ⟨payload, hlen, hat'⟩ := exists_payload hat henough
  rcases Nat.lt_or_ge size (2 ^ 31) with hsmall | hlarge
  · rcases Nat.lt_or_ge (recv.data.length + size) (2 ^ 31) with hsum | hsum
    · obtain ⟨d₁, hsome, -⟩ := readPayload_ok chunk head mask h
        hsome hsum hlen hat'
      rw [hsome] at hrun
      cases hrun
      exact h.add head (by rw [length_decoded, hlen]; exact hsum)
    · rcases readPayload_over chunk head mask h hsmall hsum hlen
        hat' with ⟨e, d₁, herror⟩ | ⟨recv₁, d₁, hover, hneg⟩
      · rw [herror] at hrun
        cases hrun
      · rw [hover] at hrun
        cases hrun
        omega
  · obtain ⟨d₁, hnone⟩ := readPayload_negative chunk head mask h
      hlarge hsize hlen hat'
    rw [hnone] at hrun
    cases hrun

/-- **The payload stage under the condition:** it stays in the string and `cur_len` in an
`int`. -/
theorem readPayload_safe (h : recv.Inv) (hsize : size < 2 ^ 32) (hat : d.At rest outbound closed)
    (hfits : recv.data.length + size < 2 ^ 31 ∨ 2 ^ 31 ≤ size ∨ rest.length < size) :
    ∃ payload d', readPayload chunk recv head size mask d = .ok payload d' ∧
      ∀ recv' ∈ payload, 0 ≤ recv'.curLen := by
  have := h.small
  have hleave : (∃ d', readPayload chunk recv head size mask d = .ok none d') →
      ∃ payload d', readPayload chunk recv head size mask d = .ok payload d' ∧
        ∀ recv' ∈ payload, 0 ≤ recv'.curLen := by
    rintro ⟨d', hnone⟩
    exact ⟨none, d', hnone, fun recv' hmem => (Option.not_mem_none recv' hmem).elim⟩
  rcases Nat.eq_zero_or_pos size with rfl | hsome
  · exact hleave (readPayload_empty chunk head mask d)
  rcases Nat.lt_or_ge rest.length size with hshort | henough
  · exact hleave (readPayload_short chunk head mask h (by omega) (by rwa [hat.inbound]))
  obtain ⟨payload, hlen, hat'⟩ := exists_payload hat henough
  rcases Nat.lt_or_ge size (2 ^ 31) with hsmall | hlarge
  · obtain ⟨d', hrun, -⟩ := readPayload_ok chunk head mask h hsome
      (by omega) hlen hat'
    refine ⟨_, d', hrun, ?_⟩
    rintro recv' ⟨⟩
    show (0 : Int) ≤ recv.data.length + _
    omega
  · exact hleave (readPayload_negative chunk head mask h hlarge hsize hlen hat')

/-- **One iteration** is safe exactly under the condition. -/
theorem lengthSafe_iff_contained (h : recv.Inv) :
    LengthSafe chunk maxSize client recv d ↔ Contained maxSize client recv d.inbound := by
  have hcur := h.curLen
  have := h.small
  have hmaxSize := maxSize.toNat_lt
  have hself : d.At d.inbound d.outbound d.closed := ⟨rfl, rfl, rfl⟩
  constructor
  · rintro ⟨-, hsafe⟩ head size mask rest hstart
    have hsize := hstart.size_lt
    have hmod := toSize_add (show 0 ≤ recv.curLen by omega) (by omega) (n := size)
    by_contra hnot
    -- The length passes the check, and the payload stage goes wrong.
    have hpasses : (toSize recv.curLen + size) % 2 ^ 64 < maxSize.toNat := by
      rw [hmod]
      omega
    obtain ⟨d₁, hrun, hat₁⟩ := readHeading_frame chunk hstart hself hpasses
    obtain ⟨hnowrap, hbelow, payload, d₂, hpayload, hpos⟩ := hsafe head size mask d₁ hrun
    obtain ⟨block, hlen, hat'⟩ := exists_payload hat₁ (show size ≤ rest.length by omega)
    rcases readPayload_over chunk head mask h (by omega)
      (by omega) hlen hat' with ⟨e, d₃, herror⟩ | ⟨recv₁, d₃, hover, hneg⟩
    · rw [herror] at hpayload
      cases hpayload
    · rw [hover] at hpayload
      cases hpayload
      have := hpos recv₁ rfl
      omega
  · intro hcontained
    refine ⟨by omega, ?_⟩
    intro head length mask d₁ hrun
    rcases readHeading_cases chunk maxSize client recv.curLen d with
      ⟨d', hleave⟩ | ⟨d', hskip, -⟩ | ⟨head', size, mask', rest, d', hstart, hmax, hframe, hat⟩
    · rw [hleave] at hrun
      cases hrun
    · rw [hskip] at hrun
      cases hrun
    · rw [hframe] at hrun
      cases hrun
      obtain ⟨hwrap, hfits⟩ := hcontained _ _ _ _ hstart
      have hsize := hstart.size_lt
      have hmod := toSize_add (show 0 ≤ recv.curLen by omega) (by omega) (n := length)
      rw [hmod] at hmax
      exact ⟨by omega, by omega, readPayload_safe h (by omega) hat (by omega)⟩

/-- A safe iteration that goes on keeps `cur_len` the length of the string. -/
theorem inv_of_again (h : recv.Inv) (hsafe : LengthSafe chunk maxSize client recv d)
    (hturn : turn chunk maxSize client recv d = .ok (.again recv') d') : recv'.Inv := by
  have hmaxSize := maxSize.toNat_lt
  have hcur := h.curLen
  rw [turn] at hturn
  obtain ⟨heading, d₁, hrun, hrest⟩ := of_bind_ok hturn
  rcases readHeading_cases chunk maxSize client recv.curLen d with
    ⟨d₂, hleave⟩ | ⟨d₂, hskip, -⟩ | ⟨head, size, mask, rest, d₂, hstart, hmax, hframe, hat⟩
  · rw [hleave] at hrun
    cases hrun
    cases hrest
  · rw [hskip] at hrun
    cases hrun
    cases hrest
    exact h
  · rw [hframe] at hrun
    cases hrun
    obtain ⟨-, hbelow, payload, d₃, hpayload, hpos⟩ := hsafe.2 head size mask d₁ hframe
    simp only [bind_ok hpayload] at hrest
    cases payload with
    | none => cases hrest
    | some recv₁ =>
        have hinv := readPayload_inv h (by omega) hat hpayload (hpos recv₁ rfl)
        simp only at hrest
        split at hrest
        · cases hrest
        · cases hrest
          exact hinv

end Iterations

/-- **Length safety of a run.**  Every iteration on a stream is safe exactly when the bytes in
front of every iteration are contained. -/
theorem lengthSafe_iff (d₀ : Duplex) :
    (∀ recv d, Iteration chunk maxSize client d₀ recv d →
      LengthSafe chunk maxSize client recv d) ↔
    ∀ recv d, Iteration chunk maxSize client d₀ recv d →
      Contained maxSize client recv d.inbound := by
  constructor
  · intro hsafe recv d hiter
    have hinv : recv.Inv := by
      induction hiter with
      | first => exact .init
      | next h hturn ih => exact inv_of_again ih (hsafe _ _ h) hturn
    exact (lengthSafe_iff_contained hinv).mp (hsafe recv d hiter)
  · intro hcontained recv d hiter
    have hinv : recv.Inv := by
      induction hiter with
      | first => exact .init
      | next h hturn ih =>
          exact inv_of_again ih ((lengthSafe_iff_contained ih).mpr (hcontained _ _ h)) hturn
    exact (lengthSafe_iff_contained hinv).mpr (hcontained recv d hiter)

/-- A frame that announces `2 ^ 64 - 1` bytes. -/
def hugeFrame : List UInt8 :=
  [0x80, 0xFF, 0xFF, 0xFF, 0xFF, 0xFF, 0xFF, 0xFF, 0xFF, 0xFF, 0, 0, 0, 0, 0x62, 0x62]

/-- A fragment of one byte in front of it. -/
def wrappingStream : List UInt8 := [0x01, 0x81, 0, 0, 0, 0, 0x61] ++ hugeFrame

/-- With the default maximum a server resizes the string to no bytes and reads behind it. -/
theorem not_lengthSafe_wrapping :
    ¬ ∀ recv d, Iteration (fun _ => 4) 33554432 false { inbound := wrappingStream } recv d →
      LengthSafe (fun _ => 4) 33554432 false recv d := by
  intro hsafe
  have hfirst : FrameStart false { opcode := 1, fin := false, payload := 1, mask := true } 1
      [0, 0, 0, 0] ([0x61] ++ hugeFrame) wrappingStream :=
    ⟨.inr (.inl rfl), .inr rfl, rfl, rfl, by decide +kernel⟩
  have hhuge : FrameStart false { opcode := 0, fin := true, payload := 127, mask := true }
      (2 ^ 64 - 1) [0, 0, 0, 0] [0x62, 0x62] hugeFrame :=
    ⟨.inl rfl, .inr rfl, by rw [Announces]; decide, rfl, by decide +kernel⟩
  have hat : ({ inbound := wrappingStream } : Duplex).At wrappingStream [] false := ⟨rfl, rfl, rfl⟩
  obtain ⟨d, hat', hturn⟩ := turn_data (fun _ => 4) .init hfirst rfl hat (by decide)
    (show 1 < (33554432 : UInt32).toNat by decide) (by decide)
  have hinv := Received.Inv.init.add { opcode := 1, fin := false, payload := 1, mask := true }
    (show 0 + [(0x61 : UInt8)].length < 2 ^ 31 by decide)
  have hcontained := (lengthSafe_iff_contained hinv).mp (hsafe _ d (.next .first hturn))
  rw [hat'.inbound] at hcontained
  exact absurd (hcontained _ _ _ _ hhuge).1 (by decide)

end Http
end Routn
