import Mathlib.Tactic
import Routn.ByteArray.Writer

/-!
# `ZLIBStream`

Input buffers are given to `deflate` or `inflate` one after the other, and the output goes to blocks
of a fixed size, of which the last one is filled up first.  A loop goes on as long as the call has
filled its block.

`deflate` and `inflate` are parameters.  `CoderContract` says what is relied on: a call only stops
when its input is used up, when the stream has ended or when there is no more room.  `avail_in` has
32 bits, so a longer buffer is given in part.
-/

namespace Routn

open Foundation

/-! ## The library below -/

def Z_OK : Int := 0
def Z_STREAM_END : Int := 1
def Z_NEED_DICT : Int := 2
def Z_STREAM_ERROR : Int := -2
def Z_DATA_ERROR : Int := -3
def Z_MEM_ERROR : Int := -4
def Z_BUF_ERROR : Int := -5

/-- What a call of `deflate` or `inflate` does: what it returns, how many bytes it takes from
`next_in`, what it writes to `next_out`, and the `z_stream` behind it. -/
structure Coded (ζ : Type) where
  ret : Int
  taken : Nat
  written : List UInt8
  next : ζ

/-- `deflate` or `inflate` with the input, with `avail_out` and with `flush == Z_FINISH`. -/
abbrev Coder (ζ : Type) := ζ → List UInt8 → Nat → Bool → Coded ζ

structure Zlib (ζ : Type) where
  deflate : Coder ζ
  inflate : Coder ζ
  deflateEnd : ζ → ζ
  inflateEnd : ζ → ζ

/-- After a call with `Z_FINISH` there are only such calls, and they are given no input. -/
def Allowed (last finish : Bool) (input : List UInt8) : Prop :=
  (last = true → finish = true) ∧ (finish = true → input = [])

/-- `output` is the complete output for an input; `At last z input out` is about a stream that has
taken `input` and written `out`, `last` for one that has seen `Z_FINISH`; `ended` is about one that
takes and writes no more. -/
structure CoderContract {ζ : Type} (coder : Coder ζ) (output : List UInt8 → List UInt8)
    (At : Bool → ζ → List UInt8 → List UInt8 → Prop) (ended : ζ → Prop) : Prop where
  call : ∀ {last z fed out}, At last z fed out → ∀ input room finish, Allowed last finish input →
    (coder z input room finish).taken ≤ input.length ∧
      (coder z input room finish).written.length ≤ room ∧
      (coder z input room finish).ret ≠ Z_STREAM_ERROR ∧
      At finish (coder z input room finish).next
        (fed ++ input.take (coder z input room finish).taken)
        (out ++ (coder z input room finish).written)
  /-- A call that has room left has no input left, unless the stream has ended. -/
  stops : ∀ {last z fed out}, At last z fed out → ∀ input room finish, Allowed last finish input →
    (coder z input room finish).written.length < room →
      ended (coder z input room finish).next ∨
        (coder z input room finish).taken = input.length ∧
          (finish = true → out ++ (coder z input room finish).written = output fed)
  /-- What has been written is the beginning of the output, whatever comes. -/
  beginning : ∀ {last z fed out}, At last z fed out → ∀ more, (last = true → more = []) →
    out <+: output (fed ++ more)
  /-- A stream that has ended has written everything. -/
  ends : ∀ {last z fed out}, At last z fed out → ended z → ∀ more, (last = true → more = []) →
    output (fed ++ more) = out
  stays : ∀ {last z fed out}, At last z fed out → ended z → ∀ input room finish,
    Allowed last finish input →
      (coder z input room finish).taken = 0 ∧ ended (coder z input room finish).next

/-! ## The stream -/

structure ZLIBStream (ζ : Type) where
  zstream : ζ
  buffsize : UInt32
  isEncode : Bool
  /-- What the blocks hold, each as far as it is filled. -/
  buffs : List (List UInt8) := []

/-- What can be seen of the calls: what they return, and what they leave of each buffer. -/
structure Calls where
  rets : List Int := []
  left : List (List UInt8) := []
deriving DecidableEq, Repr

namespace ZLIBStream

variable {ζ : Type}

/-- The last block when it is not full, or else a new one, with the blocks in front of it. -/
def openBlock (s : ZLIBStream ζ) : List (List UInt8) × List UInt8 :=
  match s.buffs.getLast? with
  | none => (s.buffs, [])
  | some block =>
      if block.length ≠ s.buffsize.toNat then (s.buffs.dropLast, block) else (s.buffs, [])

/-- The loop over the blocks for one input buffer, with a bound on its turns: whether it is left
with `Z_STREAM_ERROR`, what the calls returned, the stream and the rest of the input. -/
def codeLoop (coder : Coder ζ) (finish : Bool) :
    Nat → ZLIBStream ζ → List UInt8 → Option (Bool × List Int × ZLIBStream ζ × List UInt8)
  | 0, _, _ => none
  | fuel + 1, s, input =>
      let (front, block) := s.openBlock
      let room := s.buffsize.toNat - block.length
      let c := coder s.zstream input room finish
      let rest := input.drop c.taken
      if c.ret = Z_STREAM_ERROR then
        some (true, [c.ret], { s with zstream := c.next, buffs := front ++ [block] }, rest)
      else
        let s := { s with zstream := c.next, buffs := front ++ [block ++ c.written] }
        if c.written.length = room then
          (codeLoop coder finish fuel s rest).map fun (failed, rets, r) =>
            (failed, c.ret :: rets, r)
        else some (false, [c.ret], s, rest)

/-- The loop over the buffers that `encode` and `decode` share; `end_` is `deflateEnd` or
`inflateEnd`. -/
def codeBuffers (coder : Coder ζ) (end_ : ζ → ζ) (finish : Bool) (fuel : Nat) :
    List (List UInt8) → ZLIBStream ζ → Option (Int × Calls × ZLIBStream ζ)
  | [], s => some (Z_OK, {}, s)
  | buf :: bufs, s => do
      -- `avail_in` is an `uInt`.
      let avail := buf.length % 2 ^ 32
      let last := finish && bufs.isEmpty
      let (failed, rets, s, rest) ← codeLoop coder last fuel s (buf.take avail)
      let left := rest ++ buf.drop avail
      if failed then return (Z_STREAM_ERROR, ⟨rets, [left]⟩, s)
      else if last then return (Z_OK, ⟨rets, [left]⟩, { s with zstream := end_ s.zstream })
      else
        let (ret, calls, s) ← codeBuffers coder end_ finish fuel bufs s
        return (ret, ⟨rets ++ calls.rets, left :: calls.left⟩, s)

def encode (zlib : Zlib ζ) (finish : Bool) (fuel : Nat) (v : List (List UInt8))
    (s : ZLIBStream ζ) : Option (Int × Calls × ZLIBStream ζ) :=
  codeBuffers zlib.deflate zlib.deflateEnd finish fuel v s

def decode (zlib : Zlib ζ) (finish : Bool) (fuel : Nat) (v : List (List UInt8))
    (s : ZLIBStream ζ) : Option (Int × Calls × ZLIBStream ζ) :=
  codeBuffers zlib.inflate zlib.inflateEnd finish fuel v s

/-- `write(buffer, length)` with one buffer, `write(ba, length)` with those of
`getReadBuffers`. -/
def write (zlib : Zlib ζ) (fuel : Nat) (v : List (List UInt8)) (s : ZLIBStream ζ) :
    Option (Int × Calls × ZLIBStream ζ) :=
  if s.isEncode then s.encode zlib false fuel v else s.decode zlib false fuel v

def flush (zlib : Zlib ζ) (fuel : Nat) (s : ZLIBStream ζ) : Option (Int × Calls × ZLIBStream ζ) :=
  if s.isEncode then s.encode zlib true fuel [[]] else s.decode zlib true fuel [[]]

def getResult (s : ZLIBStream ζ) : List UInt8 := s.buffs.flatten

/-- `getByteArray()`; `heap` is what fresh memory holds. -/
def getByteArray (heap : Nat → Nat → UInt8) (s : ZLIBStream ζ) : Except Fault ByteArray :=
  match (do ByteArray.writeChunks s.buffs; ByteArray.setPosition 0)
      (ByteArray.new heap 4096) with
  | .ok _ ba => .ok ba
  | .error fault _ => .error fault

/-- Several calls of `write`. -/
def writeAll (zlib : Zlib ζ) (fuel : Nat) :
    List (List (List UInt8)) → ZLIBStream ζ → Option (List Int × Calls × ZLIBStream ζ)
  | [], s => some ([], {}, s)
  | v :: writes, s => do
      let (ret, calls, s) ← s.write zlib fuel v
      let (rets, calls', s) ← writeAll zlib fuel writes s
      return (ret :: rets, ⟨calls.rets ++ calls'.rets, calls.left ++ calls'.left⟩, s)

/-- The function that a stream calls. -/
def coder (zlib : Zlib ζ) (s : ZLIBStream ζ) : Coder ζ :=
  if s.isEncode then zlib.deflate else zlib.inflate

/-! ## One loop -/

section Loop

variable {coder : Coder ζ} {output : List UInt8 → List UInt8}
  {At : Bool → ζ → List UInt8 → List UInt8 → Prop} {ended : ζ → Prop} {s s' : ZLIBStream ζ}
  {last finish : Bool} {fuel : Nat} {fed input given : List UInt8}

/-- No block holds more than its size. -/
def Fits (s : ZLIBStream ζ) : Prop := ∀ block ∈ s.buffs, block.length ≤ s.buffsize.toNat

/-- The open block has room, and nothing is lost by taking it off. -/
theorem openBlock_spec (h : s.Fits) (hsize : 0 < s.buffsize.toNat) :
    s.openBlock.1.flatten ++ s.openBlock.2 = s.buffs.flatten ∧
      s.openBlock.2.length < s.buffsize.toNat ∧
      ∀ block ∈ s.openBlock.1, block.length ≤ s.buffsize.toNat := by
  rw [openBlock]
  cases hlast : s.buffs.getLast? with
  | none => exact ⟨List.append_nil _, hsize, h⟩
  | some block =>
      have hmem : block ∈ s.buffs := List.mem_of_getLast? hlast
      by_cases hfull : block.length ≠ s.buffsize.toNat
      · have hjoin : s.buffs.dropLast ++ [block] = s.buffs :=
          List.dropLast_append_getLast? block hlast
        simp only [if_pos hfull]
        refine ⟨?_, lt_of_le_of_ne (h block hmem) hfull, fun b hb =>
          h b (List.mem_of_mem_dropLast hb)⟩
        conv_rhs => rw [← hjoin]
        simp
      · simp only [if_neg hfull]
        exact ⟨List.append_nil _, hsize, h⟩

/-- What is left of the input was given. -/
theorem codeLoop_suffix {failed : Bool} {rets : List Int} {rest : List UInt8}
    (h : codeLoop coder finish fuel s input = some (failed, rets, s', rest)) : rest <:+ input := by
  induction fuel generalizing s input rets with
  | zero => simp [codeLoop] at h
  | succ fuel ih =>
      rw [codeLoop] at h
      dsimp only at h
      split at h
      · obtain ⟨-, -, -, rfl⟩ := by simpa using h
        exact List.drop_suffix _ _
      · split at h
        · obtain ⟨⟨failed', rets', s'', rest'⟩, hloop, hr⟩ := Option.map_eq_some_iff.mp h
          obtain ⟨rfl, -, rfl, rfl⟩ := by simpa using hr
          exact (ih hloop).trans (List.drop_suffix _ _)
        · obtain ⟨-, -, -, rfl⟩ := by simpa using h
          exact List.drop_suffix _ _

/-- A call has left room. -/
def HasStopped (coder : Coder ζ) (At : Bool → ζ → List UInt8 → List UInt8 → Prop) (finish : Bool)
    (given : List UInt8) (z : ζ) : Prop :=
  ∃ last z₀ fed out input room, At last z₀ fed out ∧ Allowed last finish input ∧
    (coder z₀ input room finish).written.length < room ∧
      (coder z₀ input room finish).next = z ∧ fed ++ input = given

/-- What the loop leaves. -/
structure Looped (coder : Coder ζ) (output : List UInt8 → List UInt8)
    (At : Bool → ζ → List UInt8 → List UInt8 → Prop) (ended : ζ → Prop) (finish : Bool)
    (fed input : List UInt8) (s : ZLIBStream ζ) (taken : Nat) (s' : ZLIBStream ζ) : Prop where
  fits : s'.Fits
  buffsize : s'.buffsize = s.buffsize
  isEncode : s'.isEncode = s.isEncode
  at_ : At finish s'.zstream (fed ++ input.take taken) s'.buffs.flatten
  stopped : ended s'.zstream ∨
    input.drop taken = [] ∧ (finish = true → s'.buffs.flatten = output fed)
  stays : ended s.zstream → input.take taken = [] ∧ ended s'.zstream
  hasStopped : HasStopped coder At finish (fed ++ input) s'.zstream

/-- The loop after a block that is full. -/
theorem Looped.after {next s' : ZLIBStream ζ} {c : Coded ζ} {taken : Nat}
    (h : Looped coder output At ended finish (fed ++ input.take c.taken) (input.drop c.taken) next
      taken s')
    (hstays : ended s.zstream → c.taken = 0 ∧ ended c.next) (hallowed : Allowed last finish input)
    (hzstream : next.zstream = c.next) (hbuffsize : next.buffsize = s.buffsize)
    (hencode : next.isEncode = s.isEncode) :
    Looped coder output At ended finish fed input s (c.taken + taken) s' where
  fits := h.fits
  buffsize := h.buffsize.trans hbuffsize
  isEncode := h.isEncode.trans hencode
  at_ := by
    rw [List.take_add, ← List.append_assoc]
    exact h.at_
  stopped := h.stopped.imp_right fun ⟨hleft, hall⟩ => by
    rw [List.drop_drop] at hleft
    refine ⟨hleft, fun hfinish => ?_⟩
    rw [hall hfinish, hallowed.2 hfinish, List.take_nil, List.append_nil]
  stays := fun hended => by
    obtain ⟨hzero, hended'⟩ := hstays hended
    obtain ⟨htake, hlast⟩ := h.stays (hzstream ▸ hended')
    rw [hzero, List.drop_zero] at htake
    exact ⟨by rw [hzero, Nat.zero_add, htake], hlast⟩
  hasStopped := by
    have hstopped := h.hasStopped
    rw [List.append_assoc, List.take_append_drop] at hstopped
    exact hstopped

/-- **The loop over the blocks.**  `more` is what other calls will give. -/
theorem codeLoop_run (contract : CoderContract coder output At ended) (h : s.Fits)
    (hsize : 0 < s.buffsize.toNat) (hat : At last s.zstream fed s.buffs.flatten)
    (hallowed : Allowed last finish input) (more : List UInt8) (hmore : finish = true → more = [])
    (hfuel : (output (fed ++ (input ++ more))).length < s.buffs.flatten.length + fuel) :
    ∃ rets s' taken, codeLoop coder finish fuel s input =
        some (false, rets, s', input.drop taken) ∧
      Looped coder output At ended finish fed input s taken s' := by
  induction fuel generalizing s last fed input with
  | zero =>
      have hle := (contract.beginning hat (input ++ more) fun hlast => by
        rw [hallowed.2 (hallowed.1 hlast), hmore (hallowed.1 hlast), List.nil_append]).length_le
      omega
  | succ fuel ih =>
      obtain ⟨hjoin, hroom, hfront⟩ := openBlock_spec h hsize
      obtain ⟨front, block, hopen⟩ : ∃ front block, s.openBlock = (front, block) := ⟨_, _, rfl⟩
      simp only [hopen] at hjoin hroom hfront
      set room := s.buffsize.toNat - block.length with hroomEq
      obtain ⟨c, hc⟩ : ∃ c, coder s.zstream input room finish = c := ⟨_, rfl⟩
      have hcall := contract.call hat input room finish hallowed
      have hstops := contract.stops hat input room finish hallowed
      have hstays : ended s.zstream → c.taken = 0 ∧ ended c.next := fun hended =>
        hc ▸ contract.stays hat hended input room finish hallowed
      rw [hc] at hcall hstops
      obtain ⟨htaken, hwritten, hret, hat'⟩ := hcall
      obtain ⟨next, hnext⟩ : ∃ next : ZLIBStream ζ, next =
          { s with zstream := c.next, buffs := front ++ [block ++ c.written] } := ⟨_, rfl⟩
      have hflat : next.buffs.flatten = s.buffs.flatten ++ c.written := by
        simp [hnext, ← hjoin]
      have hfits : next.Fits := by
        intro b hb
        simp only [hnext, List.mem_append, List.mem_singleton] at hb ⊢
        rcases hb with hb | rfl
        · exact hfront b hb
        · rw [List.length_append]
          omega
      have hstep : codeLoop coder finish (fuel + 1) s input =
          if c.written.length = room then
            (codeLoop coder finish fuel next (input.drop c.taken)).map fun (failed, rets, r) =>
              (failed, c.ret :: rets, r)
          else some (false, [c.ret], next, input.drop c.taken) := by
        simp only [codeLoop, hopen, ← hroomEq, hc, if_neg hret, hnext]
      have hnextAt : At finish next.zstream (fed ++ input.take c.taken) next.buffs.flatten := by
        rw [hflat]
        simpa [hnext] using hat'
      rw [hstep]
      by_cases hfull : c.written.length = room
      · -- The block is full: at least one more byte is written.
        have hagain : fed ++ input.take c.taken ++ (input.drop c.taken ++ more) =
            fed ++ (input ++ more) := by
          rw [List.append_assoc, ← List.append_assoc (input.take _), List.take_append_drop]
        have hallowed' : Allowed finish finish (input.drop c.taken) :=
          ⟨id, fun hfinish => by rw [hallowed.2 hfinish, List.drop_nil]⟩
        obtain ⟨rets, s', taken, hloop, hlooped⟩ := ih (s := next) hfits
          (by simpa [hnext] using hsize) hnextAt hallowed'
          (by rw [hagain, hflat, List.length_append]; omega)
        refine ⟨c.ret :: rets, s', c.taken + taken, ?_, ?_⟩
        · rw [if_pos hfull, hloop]
          simp [List.drop_drop]
        · subst hnext
          exact hlooped.after hstays hallowed rfl rfl rfl
      · refine ⟨[c.ret], next, c.taken, by rw [if_neg hfull], hfits, by rw [hnext], by rw [hnext],
          hnextAt, ?_, fun hended => ?_, last, s.zstream, fed, s.buffs.flatten, input, room, hat,
          hallowed, by rw [hc]; exact lt_of_le_of_ne hwritten hfull, by rw [hc, hnext], rfl⟩
        · have hstopped := hstops (lt_of_le_of_ne hwritten hfull)
          rw [hflat, hnext]
          exact hstopped.imp_right fun ⟨hall, hout⟩ => ⟨by rw [hall, List.drop_length], hout⟩
        · obtain ⟨hzero, hended'⟩ := hstays hended
          exact ⟨by rw [hzero, List.take_zero], by rw [hnext]; exact hended'⟩

/-! ## Several writes -/

/-- The stream was given `given`, and has taken all of it or has ended. -/
def Along (At : Bool → ζ → List UInt8 → List UInt8 → Prop) (ended : ζ → Prop) (last : Bool)
    (given : List UInt8) (s : ZLIBStream ζ) : Prop :=
  s.Fits ∧ ∃ fed, At last s.zstream fed s.buffs.flatten ∧ fed <+: given ∧
    (fed = given ∨ ended s.zstream)

/-- A new stream. -/
theorem Along.start (hnew : s.buffs = []) (hat : At false s.zstream [] []) :
    s.Along At ended false [] := by
  refine ⟨by simp [Fits, hnew], [], ?_, List.prefix_refl _, .inl rfl⟩
  rw [hnew]
  exact hat

/-- What no call changes. -/
structure Follows (ended : ζ → Prop) (s s' : ZLIBStream ζ) : Prop where
  buffsize : s'.buffsize = s.buffsize
  isEncode : s'.isEncode = s.isEncode
  stays : ended s.zstream → ended s'.zstream

theorem Follows.refl (ended : ζ → Prop) (s : ZLIBStream ζ) : Follows ended s s := ⟨rfl, rfl, id⟩

theorem Follows.trans {s'' : ZLIBStream ζ} (h : Follows ended s s') (h' : Follows ended s' s'') :
    Follows ended s s'' where
  buffsize := h'.buffsize.trans h.buffsize
  isEncode := h'.isEncode.trans h.isEncode
  stays hended := h'.stays (h.stays hended)

/-- One loop: `given` grows by the input of the loop. -/
theorem Along.loop (contract : CoderContract coder output At ended)
    (h : s.Along At ended false given)
    (hsize : 0 < s.buffsize.toNat) (finish : Bool) (input more : List UInt8)
    (hinput : finish = true → input = [])
    (hmore : finish = true → more = [])
    (hfuel : (output (given ++ (input ++ more))).length < fuel) :
    ∃ rets s' rest, codeLoop coder finish fuel s input = some (false, rets, s', rest) ∧
      s'.Along At ended finish (given ++ input) ∧ Follows ended s s' ∧
      (rest ≠ [] → ended s'.zstream) ∧ (finish = true → s'.buffs.flatten = output given) ∧
      (¬ ended s.zstream → HasStopped coder At finish (given ++ input) s'.zstream) := by
  obtain ⟨hfits, fed, hat, ⟨behind, hgiven⟩, htaken⟩ := h
  have hallowed : Allowed false finish input := ⟨fun h => by simp at h, hinput⟩
  -- From a stream that has ended there is no more output.
  have hlen : (output (fed ++ (input ++ more))).length < s.buffs.flatten.length + fuel := by
    rcases htaken with rfl | hended
    · omega
    · rw [contract.ends hat hended _ (by simp)]
      omega
  obtain ⟨rets, s', taken, hloop, hlooped⟩ :=
    codeLoop_run contract hfits hsize hat hallowed more hmore hlen
  have hstart : ended s.zstream → ended s'.zstream := fun hended => (hlooped.stays hended).2
  refine ⟨rets, s', input.drop taken, hloop, ⟨hlooped.fits, _, hlooped.at_, ?_, ?_⟩,
    ⟨hlooped.buffsize, hlooped.isEncode, hstart⟩, fun hrest => ?_, fun hfinish => ?_,
    fun hgoes => ?_⟩
  · rcases htaken with rfl | hended
    · exact (List.prefix_append_right_inj _).mpr (List.take_prefix _ _)
    · rw [(hlooped.stays hended).1, List.append_nil]
      exact ⟨behind ++ input, by rw [← hgiven, List.append_assoc]⟩
  · rcases htaken with rfl | hended
    · refine hlooped.stopped.symm.imp_left fun ⟨hall, _⟩ => ?_
      rw [List.take_of_length_le (List.drop_eq_nil_iff.mp hall)]
    · exact .inr (hstart hended)
  · exact hlooped.stopped.resolve_right fun ⟨hall, _⟩ => hrest hall
  · -- After `Z_FINISH` everything is written, and what was left before did not matter.
    have hout : s'.buffs.flatten = output fed := by
      rcases hlooped.stopped with hended | ⟨-, hout⟩
      · have hends := contract.ends hlooped.at_ hended [] fun _ => rfl
        rw [hinput hfinish, List.take_nil, List.append_nil, List.append_nil] at hends
        exact hends.symm
      · exact hout hfinish
    rcases htaken with rfl | hended
    · exact hout
    · have hone := contract.ends hat hended [] (by simp)
      rw [hout, ← hgiven, contract.ends hat hended behind (by simp), ← hone, List.append_nil]
  · rw [← htaken.resolve_right hgoes]
    exact hlooped.hasStopped

/-- What `avail_in` announces of a buffer. -/
def seen (buf : List UInt8) : List UInt8 := buf.take (buf.length % 2 ^ 32)

/-- What is announced of all buffers. -/
def seenAll (writes : List (List (List UInt8))) : List UInt8 :=
  (writes.map fun v => (v.map seen).flatten).flatten

theorem seenAll_of_lt {writes : List (List (List UInt8))}
    (h : ∀ v ∈ writes, ∀ buf ∈ v, buf.length < 2 ^ 32) :
    seenAll writes = writes.flatten.flatten := by
  rw [seenAll, List.flatten_flatten]
  refine congrArg List.flatten (List.map_congr_left fun v hv => congrArg List.flatten ?_)
  refine (List.map_congr_left fun buf hbuf => ?_).trans (List.map_id v)
  rw [seen, Nat.mod_eq_of_lt (h v hv buf hbuf), List.take_length, id]

/-- The buffers of one write. -/
theorem Along.buffers (contract : CoderContract coder output At ended) (end_ : ζ → ζ)
    (h : s.Along At ended false given) (hsize : 0 < s.buffsize.toNat) {bufs : List (List UInt8)}
    (more : List UInt8)
    (hfuel : (output (given ++ ((bufs.map seen).flatten ++ more))).length < fuel) :
    ∃ calls s', codeBuffers coder end_ false fuel bufs s = some (Z_OK, calls, s') ∧
      s'.Along At ended false (given ++ (bufs.map seen).flatten) ∧ Follows ended s s' ∧
      ((∀ buf ∈ bufs, buf.length < 2 ^ 32) →
        ∀ left ∈ calls.left, left ≠ [] → ended s'.zstream) := by
  induction bufs generalizing s given with
  | nil => exact ⟨{}, s, rfl, by simpa using h, .refl _ _, by simp⟩
  | cons buf bufs ih =>
      rw [List.map_cons, List.flatten_cons, List.append_assoc] at hfuel
      obtain ⟨rets, s₁, rest, hloop, halong, hfollows, hrest, -⟩ :=
        h.loop contract hsize false (seen buf) ((bufs.map seen).flatten ++ more) (by simp) (by simp)
          hfuel
      obtain ⟨calls, s', hrun, halong', hfollows', hleft⟩ :=
        ih halong (hfollows.buffsize ▸ hsize) (by rw [List.append_assoc]; exact hfuel)
      refine ⟨⟨rets ++ calls.rets, (rest ++ buf.drop (buf.length % 2 ^ 32)) :: calls.left⟩, s', ?_,
        ?_, hfollows.trans hfollows', fun hbufs left hmem hne => ?_⟩
      · rw [seen] at hloop
        rw [codeBuffers]
        simp only [Bool.false_and, hloop]
        simp [hrun]
      · rw [List.map_cons, List.flatten_cons, ← List.append_assoc]
        exact halong'
      · have havail : buf.drop (buf.length % 2 ^ 32) = [] := by
          rw [Nat.mod_eq_of_lt (hbufs buf List.mem_cons_self), List.drop_length]
        rw [havail, List.append_nil] at hmem
        rcases List.mem_cons.mp hmem with rfl | hmem
        · exact hfollows'.stays (hrest hne)
        · exact hleft (fun b hb => hbufs b (List.mem_cons_of_mem _ hb)) left hmem hne

end Loop

/-! ## The whole run -/

section Run

variable {zlib : Zlib ζ} {output : List UInt8 → List UInt8}
  {At : Bool → ζ → List UInt8 → List UInt8 → Prop} {ended : ζ → Prop} {s s' : ZLIBStream ζ}
  {fuel : Nat} {given : List UInt8}

theorem write_eq (zlib : Zlib ζ) (fuel : Nat) (v : List (List UInt8)) (s : ZLIBStream ζ) :
    ∃ end_, s.write zlib fuel v = codeBuffers (s.coder zlib) end_ false fuel v s := by
  unfold write coder encode decode
  split
  · exact ⟨zlib.deflateEnd, rfl⟩
  · exact ⟨zlib.inflateEnd, rfl⟩

theorem flush_eq (zlib : Zlib ζ) (fuel : Nat) (s : ZLIBStream ζ) :
    ∃ end_, s.flush zlib fuel = codeBuffers (s.coder zlib) end_ true fuel [[]] s := by
  unfold flush coder encode decode
  split
  · exact ⟨zlib.deflateEnd, rfl⟩
  · exact ⟨zlib.inflateEnd, rfl⟩

theorem Follows.coder (h : Follows ended s s') (zlib : Zlib ζ) : s'.coder zlib = s.coder zlib := by
  unfold ZLIBStream.coder
  rw [h.isEncode]

/-- All writes, by induction on them. -/
theorem Along.writeAll (contract : CoderContract (s.coder zlib) output At ended)
    (h : s.Along At ended false given) (hsize : 0 < s.buffsize.toNat)
    {writes : List (List (List UInt8))}
    (hfuel : (output (given ++ seenAll writes)).length < fuel) :
    ∃ rets calls s', ZLIBStream.writeAll zlib fuel writes s = some (rets, calls, s') ∧
      (∀ ret ∈ rets, ret = Z_OK) ∧ s'.Along At ended false (given ++ seenAll writes) ∧
      Follows ended s s' ∧ ((∀ v ∈ writes, ∀ buf ∈ v, buf.length < 2 ^ 32) →
        ∀ left ∈ calls.left, left ≠ [] → ended s'.zstream) := by
  induction writes generalizing s given with
  | nil => exact ⟨[], {}, s, rfl, by simp, by simpa [seenAll] using h, .refl _ _, by simp⟩
  | cons v writes ih =>
      have hsplit : seenAll (v :: writes) = (v.map seen).flatten ++ seenAll writes := rfl
      rw [hsplit] at hfuel ⊢
      obtain ⟨end_, hwrite⟩ := write_eq zlib fuel v s
      obtain ⟨calls, s₁, hrun, halong, hfollows, hleft⟩ :=
        h.buffers contract end_ hsize (seenAll writes) hfuel
      obtain ⟨rets, calls', s', hall, hrets, halong', hfollows', hleft'⟩ :=
        ih (hfollows.coder zlib ▸ contract) halong (hfollows.buffsize ▸ hsize)
          (by rw [List.append_assoc]; exact hfuel)
      refine ⟨Z_OK :: rets, ⟨calls.rets ++ calls'.rets, calls.left ++ calls'.left⟩, s', ?_,
        List.forall_mem_cons.mpr ⟨rfl, hrets⟩, ?_, hfollows.trans hfollows', ?_⟩
      · rw [ZLIBStream.writeAll, hwrite, hrun]
        simp [hall]
      · rw [← List.append_assoc]
        exact halong'
      · intro hbufs left hmem hne
        rcases List.mem_append.mp hmem with hmem | hmem
        · exact hfollows'.stays (hleft (hbufs v List.mem_cons_self) left hmem hne)
        · exact hleft' (fun v hv => hbufs v (List.mem_cons_of_mem _ hv)) left hmem hne

/-- `flush()` writes what is still missing, and reads nothing; `z` is the stream before it is
closed. -/
theorem Along.flush (contract : CoderContract (s.coder zlib) output At ended)
    (h : s.Along At ended false given) (hsize : 0 < s.buffsize.toNat)
    (hfuel : (output given).length < fuel) :
    ∃ rets s', ∃ end_ : ζ → ζ, codeLoop (s.coder zlib) true fuel s [] = some (false, rets, s', []) ∧
      s.flush zlib fuel = some (Z_OK, ⟨rets, [[]]⟩, { s' with zstream := end_ s'.zstream }) ∧
      s'.Along At ended true given ∧ s'.buffs.flatten = output given ∧
      (¬ ended s.zstream → HasStopped (s.coder zlib) At true given s'.zstream) := by
  obtain ⟨end_, hflush⟩ := flush_eq zlib fuel s
  obtain ⟨rets, s', rest, hloop, halong, hfollows, -, hout, hstopped⟩ :=
    h.loop contract hsize true [] [] (fun _ => rfl) (fun _ => rfl) (by simpa using hfuel)
  obtain rfl : rest = [] := List.suffix_nil.mp (codeLoop_suffix hloop)
  rw [List.append_nil] at halong hstopped
  refine ⟨rets, s', end_, hloop, ?_, halong, hout rfl, hstopped⟩
  rw [hflush, codeBuffers]
  simp [hloop]

/-- `getByteArray()` holds what `getResult()` returns. -/
theorem Fits.getByteArray (h : s.Fits) (heap : Nat → Nat → UInt8) :
    ∃ ba, s.getByteArray heap = .ok ba ∧ ba.position = 0 ∧ ba.content = s.getResult := by
  have hnew : ByteArray.Appending (ByteArray.new heap 4096) :=
    ⟨ByteArray.new_wellFormed heap (by norm_num), rfl⟩
  have hblocks : ∀ n ∈ s.buffs.map List.length, n < 2 ^ 53 := by
    intro n hn
    obtain ⟨block, hblock, rfl⟩ := List.mem_map.mp hn
    have hle := h block hblock
    have hsize := s.buffsize.toNat_lt
    omega
  obtain ⟨c, hc⟩ := ByteArray.capacityAfter_of_lt (b := 4096) (by norm_num)
    hnew.wellFormed.size_le hblocks
  obtain ⟨ba, hwrite, hba, -, -, -, -, hcontent⟩ := hnew.writeChunks hc
  obtain ⟨ba', hset, -, hpos, hsize, -, hmem, -⟩ := hba.wellFormed.setPosition (Nat.zero_le _)
  refine ⟨ba', ?_, hpos, ?_⟩
  · rw [ZLIBStream.getByteArray, bind_ok hwrite, hset]
  · rw [ByteArray.content, hmem, hsize, Nat.max_zero, ← ByteArray.content, hcontent]
    rfl

end Run

/-! ## A stored block -/

/-- `inflate` on a stream of one stored block with `size` bytes between `header` and `trailer`
further ones.  The state is the number of bytes it has taken. -/
def stored (header size trailer : Nat) : Coder Nat := fun z input room _ =>
  let skipped := min input.length (header - z)
  let copied := if z + skipped < header then 0
    else min (min (input.length - skipped) (header + size - (z + skipped))) room
  let checked := if z + skipped + copied < header + size then 0
    else min (input.length - (skipped + copied)) (header + size + trailer - (z + skipped + copied))
  let taken := skipped + copied + checked
  { ret := if z + taken = header + size + trailer then Z_STREAM_END
      else if taken = 0 then Z_BUF_ERROR else Z_OK
    taken
    written := (input.drop skipped).take copied
    next := z + taken }

/-- `deflate` refuses a stream that was set up for `inflate`. -/
def storedZlib (header size trailer : Nat) : Zlib Nat where
  deflate z _ _ _ := ⟨Z_STREAM_ERROR, 0, [], z⟩
  inflate := stored header size trailer
  deflateEnd := id
  inflateEnd := id

section Stored

variable (header size trailer : Nat)

def storedOutput (fed : List UInt8) : List UInt8 := (fed.drop header).take size

def StoredAt (_ : Bool) (z : Nat) (fed out : List UInt8) : Prop :=
  z = fed.length ∧ z ≤ header + size + trailer ∧ out = storedOutput header size fed

def StoredEnd (z : Nat) : Prop := z = header + size + trailer

/-- The bytes that a call takes are those in front of the data, those it copies and those behind. -/
theorem copied_eq {z skipped copied checked : Nat} (hskipped : skipped = header - z)
    (hcopied : copied ≤ header + size - (z + skipped))
    (hchecked : checked = 0 ∨ header + size ≤ z + skipped + copied) :
    min (size - (z - header)) (skipped + copied + checked - (header - z)) = copied := by
  rcases hchecked with rfl | hbehind
  · omega
  · omega

/-- What a call takes, and what it writes. -/
theorem stored_spec {z : Nat} {fed : List UInt8} (hz : z = fed.length)
    (hle : z ≤ header + size + trailer) (input : List UInt8) (room : Nat) (finish : Bool) :
    ∃ taken ret, taken ≤ input.length ∧ z + taken ≤ header + size + trailer ∧
      (ret = if z + taken = header + size + trailer then Z_STREAM_END
        else if taken = 0 then Z_BUF_ERROR else Z_OK) ∧
      ∃ written, stored header size trailer z input room finish = ⟨ret, taken, written, z + taken⟩ ∧
        written.length ≤ room ∧
        (written.length < room →
          z + taken = header + size + trailer ∨ taken = input.length) ∧
        storedOutput header size (fed ++ input.take taken) =
          storedOutput header size fed ++ written := by
  obtain ⟨skipped, hskipped⟩ : ∃ skipped, min input.length (header - z) = skipped := ⟨_, rfl⟩
  obtain ⟨copied, hcopied⟩ : ∃ copied, (if z + skipped < header then 0
    else min (min (input.length - skipped) (header + size - (z + skipped))) room) = copied :=
    ⟨_, rfl⟩
  obtain ⟨checked, hchecked⟩ : ∃ checked, (if z + skipped + copied < header + size then 0
    else min (input.length - (skipped + copied))
      (header + size + trailer - (z + skipped + copied))) = checked := ⟨_, rfl⟩
  have hbounds : copied ≤ input.length - skipped ∧ copied ≤ room := by
    split at hcopied <;> omega
  have hlen : ((input.drop skipped).take copied).length = copied := by
    rw [List.length_take, List.length_drop]
    omega
  refine ⟨skipped + copied + checked, _, ?_, ?_, rfl, (input.drop skipped).take copied, ?_, ?_, ?_,
    ?_⟩
  · split at hchecked <;> omega
  · split at hcopied <;> split at hchecked <;> omega
  · simp only [stored, hskipped, hcopied, hchecked]
  · omega
  · intro hroom
    rw [hlen] at hroom
    split at hcopied <;> split at hchecked <;> omega
  · have hfed : (fed.drop header).length = z - header := by rw [List.length_drop, hz]
    rw [storedOutput, storedOutput, List.drop_append, List.take_append, hfed, ← hz, List.drop_take,
      List.take_take]
    congr 1
    split at hcopied
    · -- The header is not complete yet.
      have hnone : skipped + copied + checked - (header - z) = 0 := by
        split at hchecked <;> omega
      rw [hnone, ← hcopied, Nat.min_zero, List.take_zero, List.take_zero]
    · have hskipped' : skipped = header - z := by omega
      have hcopied' : copied ≤ header + size - (z + skipped) := by omega
      have hchecked' : checked = 0 ∨ header + size ≤ z + skipped + copied := by
        split at hchecked
        · exact .inl hchecked.symm
        · exact .inr (by omega)
      rw [copied_eq header size hskipped' hcopied' hchecked', ← hskipped']

theorem stored_contract : CoderContract (stored header size trailer) (storedOutput header size)
    (StoredAt header size trailer) (StoredEnd header size trailer) where
  call := by
    rintro last z fed out ⟨hz, hle, rfl⟩ input room finish -
    obtain ⟨taken, ret, htaken, hle', hret, written, hcall, hroom, -, hwritten⟩ :=
      stored_spec header size trailer hz hle input room finish
    rw [hcall]
    refine ⟨htaken, hroom, ?_, ?_, hle', hwritten.symm⟩
    · show ret ≠ Z_STREAM_ERROR
      rw [hret]
      split_ifs <;> decide
    · rw [List.length_append, List.length_take, Nat.min_eq_left htaken, hz]
  stops := by
    rintro last z fed out ⟨hz, hle, rfl⟩ input room finish ⟨-, hinput⟩ hlt
    obtain ⟨taken, ret, htaken, hle', hret, written, hcall, -, hstops, hwritten⟩ :=
      stored_spec header size trailer hz hle input room finish
    rw [hcall] at hlt ⊢
    refine (hstops hlt).imp_right fun hall => ⟨hall, fun hfinish => ?_⟩
    rw [← hwritten, hinput hfinish, List.take_nil, List.append_nil]
  beginning := by
    rintro last z fed out ⟨hz, hle, rfl⟩ more -
    rw [storedOutput, storedOutput, List.drop_append, List.take_append]
    exact List.prefix_append _ _
  ends := by
    rintro last z fed out ⟨hz, -, rfl⟩ hend more -
    rw [StoredEnd] at hend
    have hlen : size ≤ (fed.drop header).length := by
      rw [List.length_drop]
      omega
    rw [storedOutput, storedOutput, List.drop_append, List.take_append_of_le_length hlen]
  stays := by
    rintro last z fed out ⟨hz, hle, rfl⟩ hend input room finish -
    obtain ⟨taken, ret, -, hle', -, written, hcall, -⟩ :=
      stored_spec header size trailer hz hle input room finish
    rw [StoredEnd] at hend
    rw [hcall]
    exact ⟨by dsimp only; omega, by rw [StoredEnd]; dsimp only; omega⟩

variable {header size trailer}

theorem stored_coder {s : ZLIBStream Nat} (h : s.isEncode = false) :
    s.coder (storedZlib header size trailer) = stored header size trailer := by
  rw [coder, h]
  rfl

theorem stored_coderContract {s : ZLIBStream Nat} (h : s.isEncode = false) :
    CoderContract (s.coder (storedZlib header size trailer)) (storedOutput header size)
      (StoredAt header size trailer) (StoredEnd header size trailer) := by
  rw [stored_coder h]
  exact stored_contract header size trailer

end Stored

end ZLIBStream
end Routn
