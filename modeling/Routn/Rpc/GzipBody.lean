import Mathlib.Tactic
import Routn.ByteArray.ReadBuffers
import Routn.Rpc.RockDecoder
import Routn.Streams.InflateCodes

/-!
# Compressed bodies

`parseFrom` gives the body of a compressed frame to a decoding `ZLIBStream`, asks `write` and
`flush` for an error, and parses what `getByteArray` returns.  A damaged or truncated body has no
error for it, and is parsed as far as it could be inflated: exactly the bodies that begin with a
complete stream are dealt with as they should be (`damageRejected_iff`).
-/

open Routn.ByteArray

namespace Routn

open Foundation

/-- `write(ba, -1)`, `flush()` and `getByteArray()` on a new stream with the state `z`; `none` when
the bound on the calls is used up or an array is damaged. -/
def ZLIBStream.unzip {ζ : Type} (zlib : Zlib ζ) (z : ζ) (fuel : Nat) (heap : Nat → Nat → UInt8)
    (ba : ByteArray) : Option GzipResult :=
  match getReadBuffers (2 ^ 64 - 1) ba with
  | .error _ _ => none
  | .ok iovs _ => do
      let zstream : ZLIBStream ζ := { zstream := z, buffsize := 4096, isEncode := false }
      let (ret, _, zstream) ← zstream.write zlib fuel (iovs.map (Iovec.bytes ba.nodes))
      if ret ≠ Z_OK then return .writeFailed
      else
        let (ret, _, zstream) ← zstream.flush zlib fuel
        if ret ≠ Z_OK then return .flushFailed
        else
          match zstream.getByteArray heap with
          | .ok ba => return .done ba
          | .error _ => none

namespace RockMessageDecoder

/-- The end of `parseFrom`, from the test of the flag on. -/
def parsePayload (d : RockMessageDecoder) (flag : UInt8) : ConnM (Option RockMessage) := do
  if flag &&& 0x1 ≠ 0 then
    let c ← get
    match d.gunzip c.ba with
    | .done zba =>
        modify fun c => { c with ba := zba }
        SocketStream.onBA (parseMessage d.host)
    | _ => return none
  else SocketStream.onBA (parseMessage d.host)

theorem parseBody_eq (d : RockMessageDecoder) (chunk : Nat → Nat) (fuel : Nat) (flag : UInt8)
    (length : UInt32) :
    parseBody d chunk fuel flag length = (do
      modify fun c => { c with ba := ByteArray.new (d.heap c.calls) 4096 }
      let rt ← (SocketStream.stream chunk).readFixSizeBA fuel (toSize length.toInt32.toInt)
      match rt with
      | none => return none
      | some rt =>
          if rt ≤ 0 then return some none
          else
            SocketStream.onBA (setPosition 0)
            return some (← parsePayload d flag)) := by
  unfold parseBody parsePayload
  refine bind_congr fun _ => bind_congr fun rt => ?_
  rcases rt with _ | rt
  · rfl
  · dsimp only
    split
    · rfl
    · refine bind_congr fun _ => ?_
      split
      · rw [bind_assoc]
        refine bind_congr fun c => ?_
        cases d.gunzip c.ba with
        | writeFailed => rfl
        | flushFailed => rfl
        | done zba => rw [bind_assoc]
      · rfl

end RockMessageDecoder

/-! ## Damaged and truncated bodies -/

namespace ZLIBStream

variable {ζ : Type} {zlib : Zlib ζ} {s : ZLIBStream ζ} {fuel : Nat}

/-- What is wanted of an input on which the calls of `write` and `flush` return `rets` and those of
`inflate` return `codes`: when it is accepted, and when a message is built from a body with these
bytes, `codes` are those of a complete stream. -/
structure DamageRejected (zlib : Zlib ζ) (fuel : Nat) (s : ZLIBStream ζ)
    (writes : List (List (List UInt8))) (rets codes : List Int) : Prop where
  stream : (∀ ret ∈ rets, ret = Z_OK) → Clean codes
  message : ∀ (d : RockMessageDecoder) heap flag c iovs ba msg c',
    getReadBuffers (2 ^ 64 - 1) c.ba = .ok iovs ba →
      writes = [iovs.map (Iovec.bytes c.ba.nodes)] → s = ⟨s.zstream, 4096, false, []⟩ →
        flag &&& 0x1 ≠ 0 → unzip zlib s.zstream fuel heap c.ba = some (d.gunzip c.ba) →
          d.parsePayload flag c = .ok (some msg) c' → Clean codes

/-- **Nothing is rejected**, so what is wanted holds exactly for complete streams. -/
theorem damageRejected_iff {output : List UInt8 → List UInt8}
    {At : Bool → ζ → List UInt8 → List UInt8 → Prop} {Done Broken Starved : ζ → Prop}
    {Complete : List UInt8 → Prop}
    (contract : InflateContract (s.coder zlib) output At Done Broken Starved Complete)
    (hnew : s.buffs = []) (hsize : 1 ≤ s.buffsize) (hat : At false s.zstream [] [])
    (writes : List (List (List UInt8))) (hfuel : (output (seenAll writes)).length < fuel) :
    ∃ rets calls s₁ ret calls' s₂, s.writeAll zlib fuel writes = some (rets, calls, s₁) ∧
      s₁.flush zlib fuel = some (ret, calls', s₂) ∧
      (DamageRejected zlib fuel s writes (rets ++ [ret]) (calls.rets ++ calls'.rets) ↔
        Complete (seenAll writes) ∧ Z_MEM_ERROR ∉ calls.rets ++ calls'.rets) := by
  obtain ⟨rets, calls, s₁, codes, s₂, hwrites, hflush, hrets, hclean⟩ :=
    clean_iff_complete contract hnew hsize hat writes hfuel
  have haccepted : ∀ ret ∈ rets ++ [Z_OK], ret = Z_OK := by
    simpa [or_imp, forall_and] using hrets
  refine ⟨rets, calls, s₁, Z_OK, _, s₂, hwrites, hflush, ?_⟩
  rw [← hclean]
  constructor
  · intro h
    exact h.stream haccepted
  · intro h
    exact ⟨fun _ => h, fun _ _ _ _ _ _ _ _ _ _ _ _ _ _ => h⟩

/-- A notification in a stored block. -/
def zippedNotify : List UInt8 :=
  [0x1f, 0x8b, 0x08, 0x00, 0x00, 0x00, 0x00, 0x00, 0x00, 0x03, 0x01, 0x07, 0x00, 0xf8, 0xff,
    0x03, 0x00, 0x00, 0x00, 0x00, 0x01, 0x61, 0x6c, 0xa5, 0x2a, 0x8f, 0x07, 0x00, 0x00, 0x00]

theorem damageRejected_zippedNotify :
    ∃ rets calls s₁ ret calls' s₂,
      (⟨0, 4096, false, []⟩ : ZLIBStream Nat).writeAll (storedZlib 15 7 8) 8 [[zippedNotify]] =
        some (rets, calls, s₁) ∧
      s₁.flush (storedZlib 15 7 8) 8 = some (ret, calls', s₂) ∧
      (DamageRejected (storedZlib 15 7 8) 8 ⟨0, 4096, false, []⟩ [[zippedNotify]] (rets ++ [ret])
          (calls.rets ++ calls'.rets) ↔
        15 + 7 + 8 ≤ (seenAll [[zippedNotify]]).length ∧
          Z_MEM_ERROR ∉ calls.rets ++ calls'.rets) :=
  damageRejected_iff (stored_inflateContract 15 7 8 rfl) rfl (by decide) ⟨rfl, by decide, rfl⟩
    [[zippedNotify]] (by decide)

/-- Without its last eight bytes it is accepted as well, and is inflated to the same message. -/
theorem not_damageRejected_truncated :
    ∃ rets calls s₁ ret calls' s₂,
      (⟨0, 4096, false, []⟩ : ZLIBStream Nat).writeAll (storedZlib 15 7 8) 8
        [[zippedNotify.take 22]] = some (rets, calls, s₁) ∧
      s₁.flush (storedZlib 15 7 8) 8 = some (ret, calls', s₂) ∧
      s₂.getResult = (zippedNotify.drop 15).take 7 ∧
      ¬ DamageRejected (storedZlib 15 7 8) 8 ⟨0, 4096, false, []⟩ [[zippedNotify.take 22]]
        (rets ++ [ret]) (calls.rets ++ calls'.rets) :=
  ⟨_, _, _, _, _, _, rfl, rfl, rfl, fun h => absurd (h.stream (by decide)).ended (by decide)⟩

end ZLIBStream
end Routn
