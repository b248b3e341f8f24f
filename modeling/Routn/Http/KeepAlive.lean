import Mathlib.Tactic
import Routn.Http.Splitting

/-!
# Requests one after the other on a connection

Successive calls of `recvRequest` return the requests of a stream in order as long as no read goes
past the end of the request it belongs to.  The buffer is local to a call, and what it holds behind
the body is gone when the call returns.
-/

namespace Routn
namespace Http
namespace HttpSession

open Foundation Machine Duplex

/-- A request that is accepted on its own. -/
structure WellFormed (lexicalCast : List UInt8 → Option UInt64) (relaxed : Bool) where
  bytes : List UInt8
  body : List UInt8
  head : Head
  isRequest : IsRequest lexicalCast relaxed bytes body head
  accepted : head.error = 0

section Calls

variable (chunk : Nat → Nat) (lexicalCast : List UInt8 → Option UInt64) (buffSize : Nat)

/-- Successive calls; each has memory of its own. -/
def recvRequests : List Uninit → EStateM StreamFault Duplex (List Received)
  | [] => return []
  | mem :: mems => do
      let r ← recvRequest chunk lexicalCast buffSize mem
      let rs ← recvRequests mems
      return r :: rs

/-- What the calls return for a stream, and what they leave of it. -/
def answers (mems : List Uninit) (bytes : List UInt8) : Option (List Received × List UInt8) :=
  match recvRequests chunk lexicalCast buffSize mems { inbound := bytes } with
  | .ok rs d => some (rs, d.inbound)
  | .error _ _ => none

end Calls

section Streams

variable (chunk : Nat → Nat) (buffSize : Nat) {lexicalCast : List UInt8 → Option UInt64}
  {relaxed : Bool}

def WellFormed.answer (w : WellFormed lexicalCast relaxed) : Received :=
  HttpSession.answer lexicalCast w.head w.body

/-- The requests written back to back. -/
def stream (ws : List (WellFormed lexicalCast relaxed)) : List UInt8 := ws.flatMap (·.bytes)

/-- A call reads between tokens, and not past the end of a request with `behind` behind it. -/
structure GoodCall (w : WellFormed lexicalCast relaxed) (behind : List UInt8) (d : Duplex) :
    Prop where
  between : CutsBetween chunk buffSize relaxed d.calls d.inbound
  inside : ∀ k, ¬ halted (stateAfter relaxed (d.inbound.take (cut chunk buffSize d.calls k))) →
    behind.length ≤ (d.inbound.drop (cut chunk buffSize d.calls (k + 1))).length
  short : bodyLength lexicalCast w.head < 2 ^ 31

/-- Each call is good in the state that it is made in. -/
def GoodCalls : List (WellFormed lexicalCast relaxed) → List Uninit → Duplex → Prop
  | w :: ws, mem :: mems, d =>
      GoodCall chunk buffSize w (stream ws) d ∧
        ∀ r d', recvRequest chunk lexicalCast buffSize mem d = .ok r d' → GoodCalls ws mems d'
  | _, _, _ => True

/-- The calls return the requests in order, and nothing is left of the stream or lost. -/
def InOrder (ws : List (WellFormed lexicalCast relaxed)) (mems : List Uninit) : Prop :=
  answers chunk lexicalCast buffSize mems (stream ws) = some (ws.map (·.answer), [])

end Streams

section KeepAlive

variable {chunk : Nat → Nat} {buffSize : Nat} {lexicalCast : List UInt8 → Option UInt64}
  {relaxed : Bool}

/-- Behind a request other bytes may follow. -/
theorem WellFormed.reads (w : WellFormed lexicalCast relaxed) (more : List UInt8) :
    Reads relaxed (w.bytes ++ more) (w.body ++ more) (stateAfter relaxed w.bytes) w.head := by
  have hhalts : (control relaxed).halts (stateAfter relaxed w.bytes) = true :=
    halted_iff.mpr (.inr w.isRequest.final)
  rw [Reads, Control.run_append Head.store_total w.bytes more rfl, w.isRequest.reads]
  exact if_pos hhalts

theorem WellFormed.answer_append (w : WellFormed lexicalCast relaxed) (more : List UInt8) :
    HttpSession.answer lexicalCast w.head (w.body ++ more) = w.answer := by
  have htake : (w.body ++ more).take (bodyLength lexicalCast w.head).toNat =
      w.body.take (bodyLength lexicalCast w.head).toNat := by
    rw [← w.isRequest.length, List.take_left, List.take_length]
  rw [WellFormed.answer, HttpSession.answer, HttpSession.answer, htake]

/-- **One call** whose reads end between tokens, on a stream that begins with a request. -/
theorem WellFormed.recv (w : WellFormed lexicalCast relaxed) {more : List UInt8} {mem : Uninit}
    {d : Duplex} (hmem : mem.Fits buffSize relaxed) (hpos : 0 < buffSize)
    (hbound : buffSize < 2 ^ 31) (hinbound : d.inbound = w.bytes ++ more)
    (hcuts : CutsBetween chunk buffSize relaxed d.calls d.inbound)
    (hshort : bodyLength lexicalCast w.head < 2 ^ 31) :
    ∃ d', recvRequest chunk lexicalCast buffSize mem d = .ok w.answer d' ∧
      LeftBehind chunk buffSize relaxed d more d' := by
  have hreads := w.reads more
  rw [← hinbound] at hreads
  have henough : bodyLength lexicalCast w.head ≤ (w.body ++ more).length := by
    rw [List.length_append, w.isRequest.length]
    omega
  obtain ⟨d', hcall, hleft⟩ := recvRequest_reads d hmem.size hmem.relaxed hpos hbound hcuts hreads
    (peeked_of_error w.isRequest.reads w.accepted) w.isRequest.final hshort henough
  have hbehind : (w.body ++ more).drop (bodyLength lexicalCast w.head).toNat = more := by
    rw [← w.isRequest.length, List.drop_left]
  rw [w.answer_append] at hcall
  rw [hbehind] at hleft
  exact ⟨d', hcall, hleft w.accepted⟩

/-- **Good calls return the requests in order.** -/
theorem recvRequests_inOrder (hpos : 0 < buffSize) (hbound : buffSize < 2 ^ 31)
    (ws : List (WellFormed lexicalCast relaxed)) {mems : List Uninit}
    (hcount : mems.length = ws.length) (hmems : ∀ mem ∈ mems, mem.Fits buffSize relaxed)
    {d : Duplex} (hinbound : d.inbound = stream ws)
    (hgood : GoodCalls chunk buffSize ws mems d) :
    ∃ d', recvRequests chunk lexicalCast buffSize mems d = .ok (ws.map (·.answer)) d' ∧
      d'.inbound = [] := by
  -- On the requests; a call hands on the stream behind its request.
  induction ws generalizing mems d with
  | nil =>
      obtain rfl : mems = [] := List.length_eq_zero_iff.mp hcount
      exact ⟨d, rfl, hinbound⟩
  | cons w ws ih =>
      cases mems with
      | nil => cases hcount
      | cons mem mems =>
          obtain ⟨hcall, hlater⟩ := hgood
          have hsplit : d.inbound = w.bytes ++ stream ws := hinbound
          obtain ⟨d', hrecv, hleft⟩ := w.recv (hmems mem List.mem_cons_self) hpos hbound hsplit
            hcall.between hcall.short
          obtain ⟨k, hk, -, hbehind⟩ := hleft.last
          obtain ⟨d'', hrest, hempty⟩ := ih (Nat.succ.inj hcount)
            (fun m hm => hmems m (List.mem_cons_of_mem mem hm)) (hbehind (hcall.inside k hk))
            (hlater _ _ hrecv)
          exact ⟨d'', (bind_ok hrecv).trans ((bind_ok hrest).trans rfl), hempty⟩

/-- A call that finds the stream empty fails. -/
theorem recvRequest_empty (chunk : Nat → Nat) (lexicalCast : List UInt8 → Option UInt64)
    {mem : Uninit} {d : Duplex} (hmem : mem.Fits buffSize relaxed)
    (hempty : d.inbound = []) :
    ∃ d', recvRequest chunk lexicalCast buffSize mem d = .ok .nullptr d' := by
  have hnone : taken chunk buffSize d = 0 := by
    rw [taken, hempty, List.length_nil, Nat.zero_min]
  exact ⟨_, (bind_ok rfl).trans ((bind_ok (recvHead_eof hmem.size hnone)).trans rfl)⟩

/-- **Two requests in one read**: the first call takes what belongs to the second. -/
theorem answers_oneRead (hpos : 0 < buffSize) (hbound : buffSize < 2 ^ 31)
    {first second : WellFormed lexicalCast relaxed} {ws : List (WellFormed lexicalCast relaxed)}
    {bytes : List UInt8} (hbytes : bytes = stream (first :: second :: ws))
    (hfits : bytes.length ≤ buffSize) {mem mem' : Uninit} {mems : List Uninit}
    (hmem : mem.Fits buffSize relaxed) (hmem' : mem'.Fits buffSize relaxed)
    {rs : List Received} {d : Duplex}
    (hrun : recvRequests (fun _ => bytes.length) lexicalCast buffSize (mem :: mem' :: mems)
      { inbound := bytes } = .ok rs d) :
    rs[1]? = some .nullptr := by
  have hsplit : bytes = first.bytes ++ stream (second :: ws) := hbytes
  have hreads := first.reads (stream (second :: ws))
  rw [← hsplit] at hreads
  have hmoved : ∀ calls, bytes.length ≤ moved (fun _ => bytes.length) calls buffSize := by
    intro calls
    rw [moved]
    omega
  have hcuts : CutsBetween (fun _ => bytes.length) buffSize relaxed 0 bytes := by
    intro k hgo
    cases k with
    | zero => exact (by decide : httpParserStart ∈ betweenTokens)
    | succ k =>
        refine absurd (halted_behind hreads first.isRequest.final ?_) hgo
        have hle := hmoved (0 + k)
        rw [cut]
        omega
  have hshort : bodyLength lexicalCast first.head < 2 ^ 31 := by
    have hlength := first.isRequest.length
    have hsuffix := (Control.run_end Head.store_total rfl first.isRequest.reads).2.1.length_le
    have hcount := congrArg List.length hsplit
    rw [List.length_append] at hcount
    omega
  obtain ⟨d₁, hcall, hleft⟩ := first.recv (d := { inbound := bytes }) hmem hpos hbound hsplit
    hcuts hshort
  have hempty : d₁.inbound = [] := by
    obtain ⟨k, -, hsuffix, -⟩ := hleft.last
    have hle := hmoved (0 + k)
    have hall : bytes.drop (cut (fun _ => bytes.length) buffSize 0 (k + 1)) = [] := by
      refine List.drop_of_length_le ?_
      rw [cut]
      omega
    rw [hall] at hsuffix
    exact List.suffix_nil.mp hsuffix
  obtain ⟨d₂, hcall'⟩ := recvRequest_empty (fun _ => bytes.length) lexicalCast hmem' hempty
  obtain ⟨r₁, s₁, hfirst, hrun⟩ := of_bind_ok hrun
  rw [hcall] at hfirst
  cases hfirst
  obtain ⟨rs₁, s₂, hrest, hrun⟩ := of_bind_ok hrun
  obtain ⟨r₂, s₃, hsecond, hrest⟩ := of_bind_ok hrest
  rw [hcall'] at hsecond
  cases hsecond
  obtain ⟨rs₂, s₄, -, hrest⟩ := of_bind_ok hrest
  cases hrest
  cases hrun
  rfl

end KeepAlive

/-! ## Two requests -/

def getWellFormed : WellFormed (fun _ => none) false where
  bytes := getRequest
  body := []
  head := getHead
  isRequest := isRequest_getRequest
  accepted := by decide +kernel

def zeroed : Uninit := ⟨List.replicate 4096 0, 0, false⟩

theorem zeroed_fits : zeroed.Fits 4096 false := ⟨List.length_replicate, rfl⟩

/-- Reads of 18 bytes take this request and no more. -/
theorem goodCall_getRequest {more : List UInt8} {d : Duplex}
    (hinbound : d.inbound = getRequest ++ more) :
    GoodCall (fun _ => 18) 4096 getWellFormed more d := by
  have hlength : getRequest.length = 18 := by decide +kernel
  have hcut : ∀ k, cut (fun _ => 18) 4096 d.calls k = 18 * k := by
    intro k
    induction k with
    | zero => rfl
    | succ k ih =>
        rw [cut, ih, Nat.mul_succ]
        rfl
  have hreads := getWellFormed.reads more
  have hbehind : ∀ k, halted (stateAfter false (d.inbound.take (18 * (k + 1)))) := by
    intro k
    rw [hinbound]
    refine halted_behind hreads getWellFormed.isRequest.final ?_
    show (getRequest ++ more).length ≤ 18 * (k + 1) + ([] ++ more).length
    rw [List.length_append, List.length_append, hlength, List.length_nil]
    omega
  refine ⟨fun k hgo => ?_, fun k hgo => ?_, by decide +kernel⟩
  · rw [hcut] at hgo ⊢
    cases k with
    | zero => exact (by decide : httpParserStart ∈ betweenTokens)
    | succ k => exact absurd (hbehind k) hgo
  · rw [hcut] at hgo ⊢
    cases k with
    | zero =>
        rw [hinbound, Nat.zero_add, Nat.mul_one, ← hlength, List.drop_left]
    | succ k => exact absurd (hbehind k) hgo

end HttpSession
end Http
end Routn
