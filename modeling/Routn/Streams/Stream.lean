import Mathlib.Tactic

/-!
# `Stream`: reading and writing a fixed number of bytes

`Stream::readFixSize` and `Stream::writeFixSize`, for a buffer and for a `ByteArray`, are one loop
(`fixLoop`) around one of the four virtual calls of a stream.  A call returns an `int`; the loop
keeps it in a `size_t`, and returns a `size_t` as an `int`.  Both conversions are modelled.

The calls may change a state and throw.  The loop takes a bound on the number of calls and returns
`none` when it is used up, so that returning is part of what is proved.
-/

namespace Routn

variable {ε σ : Type}

/-- Conversion of an `int` to `size_t`. -/
def toSize (r : Int) : Nat := (r % 2 ^ 64).toNat

/-- Conversion of a `size_t` to `int`: the low 32 bits, in two's complement. -/
def toInt (n : Nat) : Int := ((n : Int) + 2 ^ 31) % 2 ^ 32 - 2 ^ 31

/-- The virtual calls of `Stream`.  `read offset length` stands for
`read((char*)buffer + offset, length)`. -/
structure Stream (ε σ : Type) where
  read : Nat → Nat → EStateM ε σ Int
  readBA : Nat → EStateM ε σ Int
  write : Nat → Nat → EStateM ε σ Int
  writeBA : Nat → EStateM ε σ Int

/-- The loop of the four members below. -/
def fixLoop (call : Nat → Nat → EStateM ε σ Int) (length : Nat) :
    Nat → Nat → Nat → EStateM ε σ (Option Int)
  | 0, _, left => if left > 0 then return none else return some (toInt length)
  | fuel + 1, offset, left =>
      if left > 0 then do
        -- The `int` goes into a `size_t`, so `-1` is the largest value and not `≤ 0`.
        let len := toSize (← call offset left)
        if len ≤ 0 then return some (toInt len)
        -- `offset += len` and `left -= len`, both modulo `2 ^ 64`.
        fixLoop call length fuel ((offset + len) % 2 ^ 64) ((left + (2 ^ 64 - len)) % 2 ^ 64)
      else return some (toInt length)

namespace Stream

def readFixSize (stream : Stream ε σ) (fuel length : Nat) : EStateM ε σ (Option Int) :=
  fixLoop stream.read length fuel 0 length

/-- The overload for a `ByteArray` keeps no offset: the cursor of the array moves instead. -/
def readFixSizeBA (stream : Stream ε σ) (fuel length : Nat) : EStateM ε σ (Option Int) :=
  fixLoop (fun _ left => stream.readBA left) length fuel 0 length

def writeFixSize (stream : Stream ε σ) (fuel length : Nat) : EStateM ε σ (Option Int) :=
  fixLoop stream.write length fuel 0 length

def writeFixSizeBA (stream : Stream ε σ) (fuel length : Nat) : EStateM ε σ (Option Int) :=
  fixLoop (fun _ left => stream.writeBA left) length fuel 0 length

end Stream

/-! ## One iteration -/

section Loop

variable {call : Nat → Nat → EStateM ε σ Int} {length : Nat}

theorem toSize_natCast {n : Nat} (hn : n < 2 ^ 64) : toSize n = n := by
  rw [toSize]
  omega

theorem toInt_natCast {n : Nat} (hn : n < 2 ^ 31) : toInt n = n := by
  rw [toInt]
  omega

theorem toInt_ne {n : Nat} (hn : 2 ^ 31 ≤ n) : toInt n ≠ n := by
  rw [toInt]
  omega

theorem fixLoop_done (fuel offset : Nat) :
    fixLoop call length fuel offset 0 = return some (toInt length) := by
  cases fuel <;> rfl

theorem fixLoop_zero {offset left : Nat} (hleft : 0 < left) :
    fixLoop call length 0 offset left = return none := if_pos hleft

/-- A call that transfers some of the bytes asked for. -/
theorem fixLoop_transfer {fuel offset left n : Nat} {s s' : σ}
    (hcall : call offset left s = .ok n s') (hpos : 0 < n) (hle : n ≤ left)
    (hbound : offset + left < 2 ^ 64) :
    fixLoop call length (fuel + 1) offset left s =
      fixLoop call length fuel (offset + n) (left - n) s' := by
  have hlen : toSize n = n := toSize_natCast (by omega)
  rw [fixLoop, if_pos (by omega)]
  simp only [bind, EStateM.bind, hcall, hlen]
  rw [if_neg (by omega), Nat.mod_eq_of_lt (by omega),
    show left + (2 ^ 64 - n) = left - n + 2 ^ 64 by omega, Nat.add_mod_right,
    Nat.mod_eq_of_lt (by omega)]

/-- A call that returns zero ends the loop. -/
theorem fixLoop_eof {fuel offset left : Nat} {s s' : σ} (hcall : call offset left s = .ok 0 s')
    (hleft : 0 < left) : fixLoop call length (fuel + 1) offset left s = .ok (some 0) s' := by
  rw [fixLoop, if_pos hleft]
  simp only [bind, EStateM.bind, hcall]
  rfl

/-- A call that returns `-1` does not end the loop: `len` is `2 ^ 64 - 1`, which is not `≤ 0`. -/
theorem fixLoop_error {fuel offset left : Nat} {s s' : σ} (hcall : call offset left s = .ok (-1) s')
    (hleft : 0 < left) :
    fixLoop call length (fuel + 1) offset left s =
      fixLoop call length fuel ((offset + (2 ^ 64 - 1)) % 2 ^ 64) ((left + 1) % 2 ^ 64) s' := by
  rw [fixLoop, if_pos hleft]
  simp only [bind, EStateM.bind, hcall]
  rfl

/-- A longer bound on the number of calls changes nothing once the loop has returned. -/
theorem fixLoop_mono {fuel offset left : Nat} {s s' : σ} {rt : Int}
    (h : fixLoop call length fuel offset left s = .ok (some rt) s') (more : Nat) :
    fixLoop call length (fuel + more) offset left s = .ok (some rt) s' := by
  induction fuel generalizing offset left s with
  | zero =>
      rcases Nat.eq_zero_or_pos left with rfl | hleft
      · rw [fixLoop_done] at h ⊢
        exact h
      · rw [fixLoop_zero hleft] at h
        cases h
  | succ fuel ih =>
      rw [show fuel + 1 + more = fuel + more + 1 by omega]
      rw [fixLoop] at h ⊢
      split at h
      · next hleft =>
        rw [if_pos hleft]
        cases hcall : call offset left s with
        | error e s₁ =>
            simp only [bind, EStateM.bind, hcall] at h
            cases h
        | ok r s₁ =>
            simp only [bind, EStateM.bind, hcall] at h ⊢
            split at h
            · next hlen =>
              rw [if_pos hlen]
              exact h
            · next hlen =>
              rw [if_neg hlen]
              exact ih h
      · next hleft =>
        rw [if_neg hleft]
        exact h

/-- **The loop without failures:** an invariant `I offset left` that every call keeps while it
transfers at least one byte holds at the end, and the loop returns `length`. -/
theorem fixLoop_run (length : Nat) {I : Nat → Nat → σ → Prop}
    (hstep : ∀ offset left s, 0 < left → I offset left s →
      ∃ (n : Nat) (s' : σ), call offset left s = .ok n s' ∧ 0 < n ∧ n ≤ left ∧
        I (offset + n) (left - n) s')
    {fuel offset left : Nat} {s : σ} (hinv : I offset left s) (hfuel : left ≤ fuel)
    (hbound : offset + left < 2 ^ 64) :
    ∃ s', fixLoop call length fuel offset left s = .ok (some (toInt length)) s' ∧
      I (offset + left) 0 s' := by
  -- Every call transfers a byte, so a bound of `left` calls is enough.
  induction fuel generalizing offset left s with
  | zero =>
      have hzero : left = 0 := by omega
      subst hzero
      exact ⟨s, by rw [fixLoop_done]; rfl, hinv⟩
  | succ fuel ih =>
      rcases Nat.eq_zero_or_pos left with rfl | hleft
      · exact ⟨s, by rw [fixLoop_done]; rfl, hinv⟩
      · obtain ⟨n, s₁, hcall, hpos, hle, hinv₁⟩ := hstep offset left s hleft hinv
        obtain ⟨s', hrun, hend⟩ := ih hinv₁ (by omega) (by omega)
        refine ⟨s', by rw [fixLoop_transfer hcall hpos hle hbound, hrun], ?_⟩
        rw [show offset + left = offset + n + (left - n) by omega]
        exact hend

/-- **The loop on a stream that ends too early** returns zero, if it returns: the stream never
transfers more than `avail`, and less than `left` is available. -/
theorem fixLoop_short (avail : σ → Nat)
    (hcall : ∀ offset n s r s', call offset n s = .ok r s' →
      ∃ k : Nat, r = k ∧ k ≤ avail s ∧ avail s' = avail s - k)
    {fuel offset left : Nat} {s s' : σ} {rt : Int} (hshort : avail s < left)
    (hbound : offset + left < 2 ^ 64)
    (h : fixLoop call length fuel offset left s = .ok (some rt) s') : rt = 0 := by
  induction fuel generalizing offset left s with
  | zero =>
      rw [fixLoop_zero (by omega)] at h
      cases h
  | succ fuel ih =>
      cases hr : call offset left s with
      | error e s₁ =>
          rw [fixLoop, if_pos (by omega)] at h
          simp only [bind, EStateM.bind, hr] at h
          cases h
      | ok r s₁ =>
          obtain ⟨k, rfl, hk, havail⟩ := hcall _ _ _ _ _ hr
          rcases Nat.eq_zero_or_pos k with rfl | hpos
          · rw [fixLoop_eof hr (by omega)] at h
            obtain ⟨hrt, -⟩ := EStateM.Result.ok.inj h
            exact (Option.some.inj hrt).symm
          · -- Less than `left` was there before the call, and less than what is left after it.
            rw [fixLoop_transfer hr hpos (by omega) hbound] at h
            exact ih (by omega) (by omega) h

end Loop

/-! ## The calls of a run -/

/-- One call: where in the buffer, how many bytes were asked for, and what it returned. -/
structure Call where
  offset : Nat
  asked : Nat
  result : Int
deriving DecidableEq, Repr

/-- The number of bytes that the calls transferred. -/
def transferred (log : List Call) : Nat := (log.map fun c => c.result.toNat).sum

theorem transferred_append (log more : List Call) :
    transferred (log ++ more) = transferred log + transferred more := by
  simp [transferred]

/-- The stream keeps a log.  `place` says where in the buffer a call takes place. -/
def logged (place : List Call → Nat → Nat) (call : Nat → Nat → EStateM ε σ Int)
    (offset asked : Nat) : EStateM ε (σ × List Call) Int := fun (s, log) =>
  match call offset asked s with
  | .ok r s' => .ok r (s', log ++ [⟨place log offset, asked, r⟩])
  | .error e s' => .error e (s', log)

/-- A buffer call takes place at the offset it is given. -/
def atOffset (_ : List Call) (offset : Nat) : Nat := offset

/-- A call on a `ByteArray` takes place at its cursor, which the earlier calls moved. -/
def atCursor (log : List Call) (_ : Nat) : Nat := transferred log

/-- The stream with a log of its calls. -/
def Stream.logged (stream : Stream ε σ) : Stream ε (σ × List Call) where
  read := Routn.logged atOffset stream.read
  readBA := Routn.logged atCursor (fun _ left => stream.readBA left) 0
  write := Routn.logged atOffset stream.write
  writeBA := Routn.logged atCursor (fun _ left => stream.writeBA left) 0

/-- What a call may return: `-1`, `0`, or a positive number of bytes, no more than asked for. -/
def ValidCall (call : Nat → Nat → EStateM ε σ Int) : Prop :=
  ∀ offset asked s, 0 < asked → ∃ r s', call offset asked s = .ok r s' ∧
    (r = -1 ∨ r = 0 ∨ 1 ≤ r ∧ r ≤ asked ∧ r < 2 ^ 31)

/-- The first call that returns `r ≤ 0` when the calls before it are answered by asking for the
rest: how many bytes were transferred before it, and `r`. -/
def firstFailure (call : Nat → Nat → EStateM ε σ Int) (offset left : Nat) (s : σ) :
    Option (Nat × Int) :=
  if left = 0 then none
  else match call offset left s with
    | .error _ _ => none
    | .ok r s' =>
        if r ≤ 0 then some (offset, r)
        else firstFailure call (offset + r.toNat) (left - r.toNat) s'
termination_by left
decreasing_by omega

/-- What the protocol layers rely on: the loop returns, it stops at the first call that returns
`r ≤ 0` and returns `r`, it returns `length` exactly when that many bytes were transferred, and
no call leaves the buffer. -/
def Contract (run : Nat → EStateM ε (σ × List Call) (Option Int)) (s : σ) (length : Nat) : Prop :=
  ∃ fuel rt s' log, run fuel (s, []) = .ok (some rt) (s', log) ∧
    (∀ pre c post, log = pre ++ c :: post → c.result ≤ 0 → post = [] ∧ rt = c.result) ∧
    (rt = length ↔ transferred log = length) ∧
    ∀ c ∈ log, c.offset + c.asked ≤ length

/-- The runs in which no error is lost: every call succeeds and `length` fits the `int` that is
returned, or the first failure is an end of file.  (An error of the very first call is returned
when `length + 1` wraps to zero.) -/
def NoErrorLost (call : Nat → Nat → EStateM ε σ Int) (s : σ) (length : Nat) : Prop :=
  match firstFailure call 0 length s with
  | none => length < 2 ^ 31
  | some (offset, r) => r = 0 ∨ offset = 0 ∧ length = 2 ^ 64 - 1

section Calls

variable {call : Nat → Nat → EStateM ε σ Int} {place : List Call → Nat → Nat}

/-- The log only grows. -/
theorem logged_grows {length fuel offset left : Nat} {s s' : σ} {log log' : List Call}
    {x : Option Int}
    (h : fixLoop (logged place call) length fuel offset left (s, log) = .ok x (s', log')) :
    ∃ more, log' = log ++ more := by
  induction fuel generalizing offset left s log with
  | zero =>
      rcases Nat.eq_zero_or_pos left with rfl | hleft
      · rw [fixLoop_done] at h
        cases h
        exact ⟨[], (List.append_nil _).symm⟩
      · rw [fixLoop_zero hleft] at h
        cases h
        exact ⟨[], (List.append_nil _).symm⟩
  | succ fuel ih =>
      rw [fixLoop] at h
      split at h
      · next hleft =>
        cases hcall : call offset left s with
        | error e s₁ =>
            simp only [bind, EStateM.bind, logged, hcall] at h
            cases h
        | ok r s₁ =>
            simp only [bind, EStateM.bind, logged, hcall] at h
            split at h
            · cases h
              exact ⟨_, rfl⟩
            · obtain ⟨more, hmore⟩ := ih h
              exact ⟨_, hmore.trans (List.append_assoc _ _ _)⟩
      · cases h
        exact ⟨[], (List.append_nil _).symm⟩

/-- **The loop up to the first failure**, by induction on what is left: every call so far lies in
the buffer and transferred something, and the loop stands where the reference run stands. -/
theorem fixLoop_reach (hcall : ValidCall call)
    (hplace : ∀ log, place log (transferred log) = transferred log) {length : Nat}
    (hlength : length < 2 ^ 64) {offset left : Nat} (s : σ) {log : List Call}
    (hsum : offset + left = length) (hlog : transferred log = offset)
    (hgood : ∀ c ∈ log, 0 < c.result ∧ c.offset + c.asked ≤ length) :
    ∃ k offset' left' s' log', offset' + left' = length ∧ transferred log' = offset' ∧
      (∀ c ∈ log', 0 < c.result ∧ c.offset + c.asked ≤ length) ∧
      (∀ fuel, fixLoop (logged place call) length (fuel + k) offset left (s, log) =
        fixLoop (logged place call) length fuel offset' left' (s', log')) ∧
      (left' = 0 ∧ firstFailure call offset left s = none ∨
        0 < left' ∧ ∃ r s'', call offset' left' s' = .ok r s'' ∧ (r = -1 ∨ r = 0) ∧
          firstFailure call offset left s = some (offset', r)) := by
  induction left using Nat.strongRecOn generalizing offset s log with
  | ind left ih =>
      rcases Nat.eq_zero_or_pos left with rfl | hleft
      · refine ⟨0, offset, 0, s, log, hsum, hlog, hgood, fun fuel => rfl, .inl ⟨rfl, ?_⟩⟩
        rw [firstFailure, if_pos rfl]
      · obtain ⟨r, s₁, hr, hresult⟩ := hcall offset left s hleft
        -- The reference run ends at the first `r ≤ 0`; up to there the loop does the same.
        by_cases hfail : r ≤ 0
        · refine ⟨0, offset, left, s, log, hsum, hlog, hgood, fun fuel => rfl,
            .inr ⟨hleft, r, s₁, hr, by omega, ?_⟩⟩
          rw [firstFailure, if_neg (by omega), hr]
          exact if_pos hfail
        · obtain ⟨n, rfl⟩ : ∃ n : Nat, r = n := ⟨r.toNat, by omega⟩
          have hn : 0 < n ∧ n ≤ left := by omega
          have hoffset : place log offset = offset := by
            rw [← hlog]
            exact hplace log
          have hcall₁ : logged place call offset left (s, log) =
              .ok n (s₁, log ++ [⟨offset, left, n⟩]) := by
            simp only [logged, hr, hoffset]
          have hlog₁ : transferred (log ++ [⟨offset, left, n⟩]) = offset + n := by
            rw [transferred_append, hlog]
            simp [transferred]
          have hgood₁ : ∀ c ∈ log ++ [⟨offset, left, n⟩],
              0 < c.result ∧ c.offset + c.asked ≤ length := by
            intro c hc
            rcases List.mem_append.mp hc with hc | hc
            · exact hgood c hc
            · rw [List.mem_singleton.mp hc]
              exact ⟨Int.natCast_pos.mpr hn.1, hsum.le⟩
          obtain ⟨k, offset', left', s', log', hsum', hlog', hgood', hrun, hend⟩ :=
            ih (left - n) (by omega) s₁ (by omega) hlog₁ hgood₁
          refine ⟨k + 1, offset', left', s', log', hsum', hlog', hgood', fun fuel => ?_, ?_⟩
          · rw [← Nat.add_assoc, fixLoop_transfer hcall₁ hn.1 hn.2 (by omega), hrun]
          · have hstep : firstFailure call offset left s =
                firstFailure call (offset + n) (left - n) s₁ := by
              rw [firstFailure, if_neg (by omega), hr]
              simp only
              rw [if_neg hfail, Int.toNat_natCast]
            rw [hstep]
            exact hend

/-- In a log of successes and one more call, only that last call can be a failure. -/
theorem failure_is_last {log pre post : List Call} {c last : Call}
    (hgood : ∀ c ∈ log, 0 < c.result) (heq : log ++ [last] = pre ++ c :: post)
    (hfail : c.result ≤ 0) : post = [] ∧ last = c := by
  rcases List.eq_nil_or_concat post with rfl | ⟨post', x, rfl⟩
  · exact ⟨rfl, (List.append_inj' heq rfl).2 |> List.singleton_inj.mp⟩
  · have hsplit : log ++ [last] = (pre ++ c :: post') ++ [x] := by
      rw [heq]
      simp
    have hmem : c ∈ log := by
      rw [(List.append_inj' hsplit rfl).1]
      simp
    have hpos := hgood c hmem
    omega

/-- After an error the loop calls the stream again, unless `left + 1` wrapped to zero. -/
theorem error_not_last (hcall : ValidCall call) {length fuel offset left : Nat} {s s' s₁ : σ}
    {log log' : List Call} {rt : Int} (hleft : 0 < left) (hwrap : left + 1 < 2 ^ 64)
    (hr : call offset left s = .ok (-1) s₁)
    (h : fixLoop (logged place call) length fuel offset left (s, log) =
      .ok (some rt) (s', log')) :
    ∃ post, log' = log ++ ⟨place log offset, left, -1⟩ :: post ∧ post ≠ [] := by
  have hcall₁ : logged place call offset left (s, log) =
      .ok (-1) (s₁, log ++ [⟨place log offset, left, -1⟩]) := by
    simp only [logged, hr]
  cases fuel with
  | zero =>
      rw [fixLoop_zero hleft] at h
      cases h
  | succ fuel =>
      have hleft₁ : 0 < left + 1 := Nat.succ_pos left
      rw [fixLoop_error hcall₁ hleft, Nat.mod_eq_of_lt hwrap] at h
      generalize (offset + (2 ^ 64 - 1)) % 2 ^ 64 = offset₁ at h
      set log₁ := log ++ [⟨place log offset, left, -1⟩]
      cases fuel with
      | zero =>
          rw [fixLoop_zero hleft₁] at h
          cases h
      | succ fuel =>
          obtain ⟨r₂, s₂, hr₂, -⟩ := hcall offset₁ (left + 1) s₁ hleft₁
          -- The call that follows the error, whatever it returns.
          have hnext : ∃ more, log' = (log₁ ++ [⟨place log₁ offset₁, left + 1, r₂⟩]) ++ more := by
            rw [fixLoop, if_pos hleft₁] at h
            simp only [bind, EStateM.bind, logged, hr₂] at h
            split at h
            · obtain ⟨-, hstate⟩ := EStateM.Result.ok.inj h
              exact ⟨[], by rw [List.append_nil, (Prod.mk.inj hstate).2]⟩
            · exact logged_grows h
          obtain ⟨more, hmore⟩ := hnext
          exact ⟨⟨place log₁ offset₁, left + 1, r₂⟩ :: more, by rw [hmore]; simp [log₁], by simp⟩

/-- **The loop meets its contract exactly when no error is lost.** -/
theorem contract_iff (hcall : ValidCall call)
    (hplace : ∀ log, place log (transferred log) = transferred log) {length : Nat}
    (hlength : length < 2 ^ 64) (s : σ) :
    Contract (fun fuel => fixLoop (logged place call) length fuel 0 length) s length ↔
      NoErrorLost call s length := by
  have hstart : transferred [] = 0 := rfl
  obtain ⟨k, offset, left, s₁, log, hsum, hlog, hgood, hrun, hend⟩ :=
    fixLoop_reach hcall hplace hlength s (Nat.zero_add length) hstart (by simp)
  have hpos : ∀ c ∈ log, 0 < c.result := fun c hc => (hgood c hc).1
  have hrange : ∀ c ∈ log, c.offset + c.asked ≤ length := fun c hc => (hgood c hc).2
  have hoffset : place log offset = offset := by
    rw [← hlog]
    exact hplace log
  rcases hend with ⟨rfl, hnone⟩ | ⟨hleft, r, s₂, hr, hcases, hsome⟩
  · -- Every call succeeded.  The loop returns `length`, as an `int`.
    rw [NoErrorLost, hnone]
    have hdone : ∀ fuel, fixLoop (logged place call) length (fuel + k) 0 length (s, []) =
        .ok (some (toInt length)) (s₁, log) := by
      intro fuel
      rw [hrun, fixLoop_done]
      rfl
    constructor
    · rintro ⟨fuel, rt, s', log', hret, -, hrt, -⟩
      obtain ⟨hrt', hlog'⟩ := EStateM.Result.ok.inj ((hdone fuel).symm.trans (fixLoop_mono hret k))
      have htotal : transferred log' = length := by
        rw [← (Prod.mk.inj hlog').2]
        omega
      have hint : toInt length = length := (Option.some.inj hrt').trans (hrt.mpr htotal)
      by_contra hbig
      exact toInt_ne (Nat.le_of_not_lt hbig) hint
    · intro hsmall
      have hint := toInt_natCast hsmall
      refine ⟨0 + k, toInt length, s₁, log, hdone 0, ?_, by omega, hrange⟩
      intro pre c post heq hfail
      have hc := hpos c (by rw [heq]; simp)
      omega
  · have hcall₁ : logged place call offset left (s₁, log) =
        .ok r (s₂, log ++ [⟨offset, left, r⟩]) := by
      simp only [logged, hr, hoffset]
    have hrange₁ : ∀ c ∈ log ++ [⟨offset, left, r⟩], c.offset + c.asked ≤ length := by
      intro c hc
      rcases List.mem_append.mp hc with hc | hc
      · exact hrange c hc
      · rw [List.mem_singleton.mp hc]
        exact hsum.le
    have htotal : transferred (log ++ [⟨offset, left, r⟩]) = offset := by
      rw [transferred_append, hlog]
      rcases hcases with rfl | rfl <;> simp [transferred]
    rw [NoErrorLost, hsome]
    rcases hcases with rfl | rfl
    · by_cases hwrap : left + 1 < 2 ^ 64
      · -- An error is lost: whatever the loop returns, it made another call first.
        refine iff_of_false ?_ (by omega)
        rintro ⟨fuel, rt, s', log', hret, hstop, -, -⟩
        have hret' := fixLoop_mono hret k
        rw [hrun] at hret'
        obtain ⟨post, hpost, hne⟩ := error_not_last hcall hleft hwrap hr hret'
        exact hne (hstop log _ post hpost (by norm_num)).1
      · -- `left + 1` wraps to zero, so the loop ends, and `length` converts to `-1`.
        have hall : offset = 0 ∧ left = 2 ^ 64 - 1 := by omega
        obtain ⟨rfl, rfl⟩ := hall
        refine iff_of_true ?_ (.inr ⟨rfl, by omega⟩)
        refine ⟨1 + k, -1, s₂, _, ?_, ?_, by omega, hrange₁⟩
        · show fixLoop (logged place call) length (1 + k) 0 length (s, []) = _
          rw [hrun, fixLoop_error hcall₁ hleft]
          have hzero : (2 ^ 64 - 1 + 1) % 2 ^ 64 = 0 := by norm_num
          rw [hzero, fixLoop_done, show length = 2 ^ 64 - 1 by omega]
          rfl
        · intro pre c post heq hfail
          obtain ⟨hnil, rfl⟩ := failure_is_last hpos heq hfail
          exact ⟨hnil, rfl⟩
    · -- End of file.
      refine iff_of_true ⟨1 + k, 0, s₂, _, ?_, ?_, by omega, hrange₁⟩ (.inl rfl)
      · show fixLoop (logged place call) length (1 + k) 0 length (s, []) = _
        rw [hrun, fixLoop_eof hcall₁ hleft]
      · intro pre c post heq hfail
        obtain ⟨hnil, rfl⟩ := failure_is_last hpos heq hfail
        exact ⟨hnil, rfl⟩

end Calls

/-! ## The four members -/

/-- The four calls of the stream return what `ValidCall` allows. -/
structure Stream.Valid (stream : Stream ε σ) : Prop where
  read : ValidCall stream.read
  readBA : ValidCall fun _ left => stream.readBA left
  write : ValidCall stream.write
  writeBA : ValidCall fun _ left => stream.writeBA left

/-- **`readFixSize` and `writeFixSize` meet their contract exactly when no error is lost.** -/
theorem fixSize_contract_iff (stream : Stream ε σ) (hvalid : stream.Valid) (s : σ) {length : Nat}
    (hlength : length < 2 ^ 64) :
    (Contract (fun fuel => stream.logged.readFixSize fuel length) s length ↔
      NoErrorLost stream.read s length) ∧
    (Contract (fun fuel => stream.logged.readFixSizeBA fuel length) s length ↔
      NoErrorLost (fun _ left => stream.readBA left) s length) ∧
    (Contract (fun fuel => stream.logged.writeFixSize fuel length) s length ↔
      NoErrorLost stream.write s length) ∧
    (Contract (fun fuel => stream.logged.writeFixSizeBA fuel length) s length ↔
      NoErrorLost (fun _ left => stream.writeBA left) s length) := by
  have hoffset : ∀ log, atOffset log (transferred log) = transferred log := fun _ => rfl
  have hcursor : ∀ log, atCursor log (transferred log) = transferred log := fun _ => rfl
  exact ⟨contract_iff hvalid.read hoffset hlength s, contract_iff hvalid.readBA hcursor hlength s,
    contract_iff hvalid.write hoffset hlength s, contract_iff hvalid.writeBA hcursor hlength s⟩

/-- A stream whose calls all return the same value. -/
def constantStream (r : Int) : Stream Empty Unit where
  read _ _ := return r
  readBA _ := return r
  write _ _ := return r
  writeBA _ := return r

theorem constantStream_valid {r : Int} (hr : r = -1 ∨ r = 0 ∨ r = 1) :
    (constantStream r).Valid := by
  have hcall : ValidCall fun _ _ => (return r : EStateM Empty Unit Int) := by
    intro offset asked s hasked
    exact ⟨r, s, rfl, by omega⟩
  exact ⟨hcall, hcall, hcall, hcall⟩

/-- A stream that moves one byte in each call. -/
theorem fixSize_contract_one_byte :
    (Contract (fun fuel => (constantStream 1).logged.readFixSize fuel 3) () 3 ↔
      NoErrorLost (constantStream 1).read () 3) ∧
    (Contract (fun fuel => (constantStream 1).logged.readFixSizeBA fuel 3) () 3 ↔
      NoErrorLost (fun _ left => (constantStream 1).readBA left) () 3) ∧
    (Contract (fun fuel => (constantStream 1).logged.writeFixSize fuel 3) () 3 ↔
      NoErrorLost (constantStream 1).write () 3) ∧
    (Contract (fun fuel => (constantStream 1).logged.writeFixSizeBA fuel 3) () 3 ↔
      NoErrorLost (fun _ left => (constantStream 1).writeBA left) () 3) :=
  fixSize_contract_iff (constantStream 1) (constantStream_valid (by decide)) () (by decide)

/-- On a socket that is not connected every call returns `-1`, and `readFixSize` does not. -/
theorem not_contract_disconnected :
    ¬ Contract (fun fuel => (constantStream (-1)).logged.readFixSize fuel 4) () 4 := by
  have hvalid := constantStream_valid (r := -1) (by decide)
  have hplace : ∀ log, atOffset log (transferred log) = transferred log := fun _ => rfl
  have hlength : 4 < 2 ^ 64 := by norm_num
  have hiff := contract_iff hvalid.read hplace hlength ()
  have hlost : ¬ NoErrorLost (constantStream (-1)).read () 4 := by
    rw [NoErrorLost, firstFailure]
    simp [constantStream, pure, EStateM.pure]
  exact hlost ∘ hiff.mp

end Routn
