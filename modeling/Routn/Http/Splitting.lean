import Mathlib.Tactic
import Routn.Http.MethodToken

/-!
# Splitting a request into reads

A request that is split between its tokens is read as if it came in one read, whatever the buffer
held before; one that is split behind its first byte is refused.
-/

namespace Routn
namespace Http
namespace HttpSession

open Foundation Machine Duplex

/-- What a call returns for a stream; `none` is a fault. -/
def received (chunk : Nat → Nat) (lexicalCast : List UInt8 → Option UInt64) (buffSize : Nat)
    (mem : Uninit) (bytes : List UInt8) : Option Received :=
  match recvRequest chunk lexicalCast buffSize mem { inbound := bytes } with
  | .ok r _ => some r
  | .error _ _ => none

/-- Any memory of the right size. -/
structure Uninit.Fits (mem : Uninit) (buffSize : Nat) (relaxed : Bool) : Prop where
  size : mem.buffer.length = buffSize
  relaxed : mem.uriRelaxed = relaxed

/-- `bytes` is one request: a complete head `h`, and the body that it announces. -/
structure IsRequest (lexicalCast : List UInt8 → Option UInt64) (relaxed : Bool)
    (bytes body : List UInt8) (h : Head) : Prop where
  reads : Reads relaxed bytes body (stateAfter relaxed bytes) h
  final : final (stateAfter relaxed bytes)
  length : body.length = (bodyLength lexicalCast h).toNat

/-- Split by `chunk`, the request is read as if it came in one read. -/
def SameAsOneRead (lexicalCast : List UInt8 → Option UInt64) (buffSize : Nat) (relaxed : Bool)
    (bytes : List UInt8) (chunk : Nat → Nat) : Prop :=
  ∀ mem mem' : Uninit, mem.Fits buffSize relaxed → mem'.Fits buffSize relaxed →
    received chunk lexicalCast buffSize mem bytes =
      received (fun _ => bytes.length) lexicalCast buffSize mem' bytes

section Peeked

/-- No name is the beginning of another. -/
theorem names_prefix_free : ∀ name ∈ httpMethodMap, ∀ other ∈ httpMethodMap,
    name.2.isPrefixOf other.2 = true → name.2 = other.2 := by
  decide +kernel

/-- A method with which a name agrees up to the blank is none. -/
theorem peeks_invalid {w : List UInt8} (hpeeks : peeks w = true) :
    charsToHttpMethod w = .INVALID_METHOD := by
  obtain ⟨other, hother, hblank⟩ := List.any_eq_true.mp hpeeks
  have hlong := List.isPrefixOf_iff_prefix.mp hblank
  by_contra hvalid
  obtain ⟨name, hname, hprefix⟩ := charsToHttpMethod_valid_iff.mp hvalid
  have hboth := hprefix.trans ((List.prefix_append w [32]).trans hlong)
  have hsame := names_prefix_free name hname other hother (List.isPrefixOf_iff_prefix.mpr hboth)
  have hle := hprefix.length_le
  have hlt := hlong.length_le
  rw [hsame] at hle
  rw [List.length_append, List.length_singleton] at hlt
  omega

/-- A head without an error compares no method past its blank. -/
theorem peeked_of_error {relaxed : Bool} {bytes rest : List UInt8} {cs : Nat} {h : Head}
    (hreads : Reads relaxed bytes rest cs h) (herror : h.error = 0) : h.peeked = false := by
  have hkept : h.peeked = true → h.error ≠ 0 := by
    refine Control.run_invariant (P := fun h : Head => h.peeked = true → h.error ≠ 0) ?_
      (fun hP => hP) bytes (fun hyes => absurd hyes Bool.false_ne_true) hreads
    rintro action g g' hP hact
    cases hact
    cases action with
    | requestMethod =>
        intro hpeeked
        show (g.setMethod g.mark).error ≠ 0
        rw [Head.setMethod]
        rcases Bool.or_eq_true_iff.mp hpeeked with hbefore | hnow
        · split
          · exact Nat.succ_ne_zero _
          · exact hP hbefore
        · rw [if_pos (peeks_invalid hnow)]
          exact Nat.succ_ne_zero _
    | httpVersion =>
        intro hpeeked
        simp only [Head.act, Head.setVersion] at hpeeked ⊢
        split at hpeeked
        · rw [if_pos ‹_›]
          exact hP hpeeked
        · rw [if_neg ‹_›]
          split at hpeeked
          · rw [if_pos ‹_›]
            exact hP hpeeked
          · rw [if_neg ‹_›]
            exact Nat.succ_ne_zero _
    | writeValue =>
        intro hpeeked
        simp only [Head.act, Head.setField] at hpeeked ⊢
        split at hpeeked
        · rw [if_pos ‹_›]
          exact hP hpeeked
        · rw [if_neg ‹_›]
          exact hP hpeeked
    | _ => exact hP
  by_contra hpeeked
  exact hkept (Bool.not_eq_false _ ▸ hpeeked) herror

end Peeked

section Requests

variable {lexicalCast : List UInt8 → Option UInt64} {relaxed : Bool} {buffSize : Nat}
  {bytes body : List UInt8} {h : Head}

/-- Behind the head the machine has stopped. -/
theorem halted_behind {rest : List UInt8} {cs : Nat} (hreads : Reads relaxed bytes rest cs h)
    (hfinal : final cs) {n : Nat} (hn : bytes.length ≤ n + rest.length) :
    halted (stateAfter relaxed (bytes.take n)) := by
  by_contra hgo
  obtain ⟨rest', h', hfirst, -, hall⟩ := exists_reads relaxed (bytes.take n)
  obtain rfl : rest' = [] := hall hgo
  have hsecond := hfirst.append hgo (bytes.drop n)
  rw [List.take_append_drop] at hsecond
  have hrun := hsecond.symm.trans hreads
  cases hdrop : bytes.drop n with
  | nil =>
      rw [hdrop] at hrun
      have hcs : stateAfter relaxed (bytes.take n) = cs :=
        congrArg (·.2.1) (Option.some.inj hrun)
      exact hgo (halted_iff.mpr (.inr (hcs ▸ hfinal)))
  | cons c more =>
      have hnot : cs ≠ (control relaxed).refused := by
        rintro rfl
        exact absurd hfinal (show ¬ final httpParserError by decide)
      have hcount := congrArg List.length hdrop
      rw [hdrop] at hrun
      have hle := Control.run_consumes hrun Head.store_total hnot
      rw [List.length_drop, List.length_cons] at hcount
      omega

/-- One read leaves no token open. -/
theorem cutsBetween_oneRead (hrequest : IsRequest lexicalCast relaxed bytes body h)
    (hbound : buffSize < 2 ^ 31) (hfits : bytes.length ≤ buffSize + body.length) :
    CutsBetween (fun _ => bytes.length) buffSize relaxed 0 bytes := by
  intro k hgo
  cases k with
  | zero => exact (by decide : httpParserStart ∈ betweenTokens)
  | succ k =>
      refine absurd (halted_behind hrequest.reads hrequest.final ?_) hgo
      have hmoved : ∀ calls, min buffSize (min (2 ^ 31 - 1) bytes.length) ≤
          moved (fun _ => bytes.length) calls buffSize := by
        intro calls
        rw [moved]
        omega
      have hle := hmoved (0 + k)
      rw [cut]
      omega

/-- **What a call returns for a request** that is split between its tokens. -/
theorem received_answer (hrequest : IsRequest lexicalCast relaxed bytes body h)
    (hpos : 0 < buffSize) (hbound : buffSize < 2 ^ 31) (hpeeked : h.peeked = false)
    (hlength : bodyLength lexicalCast h < 2 ^ 31) {chunk : Nat → Nat}
    (hcuts : CutsBetween chunk buffSize relaxed 0 bytes) {mem : Uninit}
    (hmem : mem.Fits buffSize relaxed) :
    received chunk lexicalCast buffSize mem bytes = some (answer lexicalCast h body) := by
  have henough : bodyLength lexicalCast h ≤ body.length := by
    rw [hrequest.length]
    exact Int.self_le_toNat _
  obtain ⟨d', hcall, -⟩ := recvRequest_reads { inbound := bytes } hmem.size hmem.relaxed
    hpos hbound hcuts hrequest.reads hpeeked hrequest.final hlength henough
  rw [received, hcall]

end Requests

/-! ## A request -/

/-- `GET / HTTP/1.1`, without headers. -/
def getRequest : List UInt8 :=
  chars ['G', 'E', 'T', ' ', '/', ' ', 'H', 'T', 'T', 'P', '/', '1', '.', '1', '\r', '\n', '\r',
    '\n']

/-- What the machine makes of it. -/
def getHead : Head :=
  (((control false).run Head.store getRequest httpParserStart {}).map (·.2.2)).getD {}

theorem isRequest_getRequest : IsRequest (fun _ => none) false getRequest [] getHead where
  reads := by
    rw [Reads]
    decide +kernel
  final := by decide +kernel
  length := by decide +kernel

/-- Some bytes first, and then all that is there. -/
def someFirst (count : Nat) : Nat → Nat := fun call => if call = 0 then count else 18

theorem cutsBetween_getRequest : CutsBetween (someFirst 4) 4096 false 0 getRequest := by
  intro k hgo
  match k with
  | 0 => exact (by decide : httpParserStart ∈ betweenTokens)
  | 1 => exact (by decide +kernel :
      stateAfter false (getRequest.take (cut (someFirst 4) 4096 0 1)) ∈ betweenTokens)
  | k + 2 =>
      refine absurd (halted_behind isRequest_getRequest.reads isRequest_getRequest.final ?_) hgo
      have hlater : moved (someFirst 4) (0 + (k + 1)) 4096 = 18 := by
        rw [moved, someFirst, if_neg (by omega)]
        rfl
      rw [cut, hlater]
      exact (show getRequest.length = 18 by decide +kernel) ▸ (by omega)

end HttpSession
end Http
end Routn
