import Mathlib.Tactic
import Routn.Streams.ZLIBStream

/-!
# What `decode` makes of the return codes

`decode` returns what `inflate` returns only for `Z_STREAM_ERROR`; `Z_DATA_ERROR`, `Z_NEED_DICT`
and `Z_MEM_ERROR` are dropped, and nothing is said at `flush()` about a stream without an end.
With a stream that is in order `Z_STREAM_ERROR` does not occur, so every input is accepted, and the
codes are those of a complete stream exactly when the input begins with one
(`clean_iff_complete`).
-/

namespace Routn

open Foundation

/-- `inflate` with what it reports: `Done`, `Broken` and `Starved` are about a stream that is at
its end, that has found its input damaged or in need of a dictionary, and that has run out of
memory.  `Complete` is about an input that begins with a whole stream. -/
structure InflateContract {ζ : Type} (coder : Coder ζ) (output : List UInt8 → List UInt8)
    (At : Bool → ζ → List UInt8 → List UInt8 → Prop) (Done Broken Starved : ζ → Prop)
    (Complete : List UInt8 → Prop) : Prop where
  calls : CoderContract coder output At fun z => Done z ∨ Broken z ∨ Starved z
  done : ∀ z input room finish,
    (coder z input room finish).ret = Z_STREAM_END ↔ Done (coder z input room finish).next
  broken : ∀ z input room finish,
    (coder z input room finish).ret = Z_DATA_ERROR ∨ (coder z input room finish).ret = Z_NEED_DICT ↔
      Broken (coder z input room finish).next
  starved : ∀ z input room finish,
    (coder z input room finish).ret = Z_MEM_ERROR ↔ Starved (coder z input room finish).next
  doneStays : ∀ z input room finish, Done z → Done (coder z input room finish).next
  brokenStays : ∀ z input room finish, Broken z → Broken (coder z input room finish).next
  starvedStays : ∀ z input room finish, Starved z → Starved (coder z input room finish).next
  complete : ∀ {last z fed out}, At last z fed out → Done z → ∀ more, Complete (fed ++ more)
  damaged : ∀ {last z fed out}, At last z fed out → Broken z → ∀ more, ¬ Complete (fed ++ more)
  /-- A call that has room left has seen no end, unless the stream has ended. -/
  short : ∀ {last z fed out}, At last z fed out → ∀ input room finish, Allowed last finish input →
    (coder z input room finish).written.length < room →
      ¬ (Done (coder z input room finish).next ∨ Broken (coder z input room finish).next ∨
        Starved (coder z input room finish).next) →
          ¬ Complete (fed ++ input)

/-- The codes of a stream without errors that was read to its end. -/
structure Clean (codes : List Int) : Prop where
  ended : Z_STREAM_END ∈ codes
  data : Z_DATA_ERROR ∉ codes
  dict : Z_NEED_DICT ∉ codes
  mem : Z_MEM_ERROR ∉ codes

/-! ## Runs of calls -/

/-- Calls one after the other, with what they return. -/
inductive Turns {ζ : Type} (coder : Coder ζ) : ζ → List Int → ζ → Prop
  | nil (z : ζ) : Turns coder z [] z
  | call {z z' : ζ} {rets : List Int} (input : List UInt8) (room : Nat) (finish : Bool) :
      Turns coder (coder z input room finish).next rets z' →
        Turns coder z ((coder z input room finish).ret :: rets) z'

namespace Turns

variable {ζ : Type} {coder : Coder ζ} {z z' z'' : ζ} {rets rets' : List Int}

theorem append (h : Turns coder z rets z') (h' : Turns coder z' rets' z'') :
    Turns coder z (rets ++ rets') z'' := by
  induction h with
  | nil => exact h'
  | call input room finish _ ih => exact .call input room finish (ih h')

theorem keeps {P : ζ → Prop}
    (hstays : ∀ z input room finish, P z → P (coder z input room finish).next)
    (h : Turns coder z rets z') (hz : P z) : P z' := by
  induction h with
  | nil => exact hz
  | call input room finish _ ih => exact ih (hstays _ input room finish hz)

/-- The stream is left by a call. -/
theorem last (h : Turns coder z rets z') (hne : rets ≠ []) :
    ∃ z₀ input room finish, (coder z₀ input room finish).next = z' := by
  induction h with
  | nil => exact absurd rfl hne
  | @call z z' rets input room finish hrest ih =>
      rcases rets with _ | ⟨ret, rets⟩
      · cases hrest
        exact ⟨z, input, room, finish, rfl⟩
      · exact ih (by simp)

/-- A code that is returned exactly in the states with `P`, which are not left. -/
theorem reports {P : ζ → Prop} (code : Int → Prop)
    (hreport : ∀ z input room finish, code (coder z input room finish).ret ↔
      P (coder z input room finish).next)
    (hstays : ∀ z input room finish, P z → P (coder z input room finish).next)
    (h : Turns coder z rets z') (hne : rets ≠ []) : (∃ ret ∈ rets, code ret) ↔ P z' := by
  induction h with
  | nil => exact absurd rfl hne
  | @call z z' rets input room finish hrest ih =>
      rw [List.exists_mem_cons_iff, hreport]
      rcases rets with _ | ⟨ret, rets⟩
      · cases hrest
        simp
      · rw [ih (by simp)]
        exact or_iff_right_of_imp fun hnext => hrest.keeps hstays hnext

end Turns

namespace InflateContract

variable {ζ : Type} {coder : Coder ζ} {output : List UInt8 → List UInt8}
  {At : Bool → ζ → List UInt8 → List UInt8 → Prop} {Done Broken Starved : ζ → Prop}
  {Complete : List UInt8 → Prop} {z z' : ζ} {rets : List Int}

/-- The three states exclude each other, since a call returns one code. -/
theorem done_only (contract : InflateContract coder output At Done Broken Starved Complete)
    (h : Turns coder z rets z') (hne : rets ≠ []) (hdone : Done z') :
    ¬ Broken z' ∧ ¬ Starved z' := by
  obtain ⟨z₀, input, room, finish, rfl⟩ := h.last hne
  have hret := (contract.done z₀ input room finish).mpr hdone
  constructor
  · intro hbroken
    have herror := (contract.broken z₀ input room finish).mpr hbroken
    rw [hret] at herror
    revert herror
    decide
  · intro hstarved
    have herror := (contract.starved z₀ input room finish).mpr hstarved
    rw [hret] at herror
    revert herror
    decide

/-- The codes are clean when the stream is at its end. -/
theorem clean_iff (contract : InflateContract coder output At Done Broken Starved Complete)
    (h : Turns coder z rets z') (hne : rets ≠ []) : Clean rets ↔ Done z' := by
  have hdone := h.reports (· = Z_STREAM_END) contract.done contract.doneStays hne
  have hbroken := h.reports (fun ret => ret = Z_DATA_ERROR ∨ ret = Z_NEED_DICT)
    contract.broken contract.brokenStays hne
  have hstarved := h.reports (· = Z_MEM_ERROR) contract.starved contract.starvedStays hne
  constructor
  · intro hclean
    exact hdone.mp ⟨_, hclean.ended, rfl⟩
  · intro hend
    obtain ⟨hwhole, hfed⟩ := contract.done_only h hne hend
    obtain ⟨ret, hmem, rfl⟩ := hdone.mpr hend
    exact {
      ended := hmem
      data := fun hdata => hwhole (hbroken.mp ⟨_, hdata, .inl rfl⟩)
      dict := fun hdict => hwhole (hbroken.mp ⟨_, hdict, .inr rfl⟩)
      mem := fun hmem => hfed (hstarved.mp ⟨_, hmem, rfl⟩) }

end InflateContract

/-! ## The calls of the stream -/

namespace ZLIBStream

variable {ζ : Type} {coder : Coder ζ} {end_ : ζ → ζ} {zlib : Zlib ζ} {s s' : ZLIBStream ζ}
  {finish : Bool} {fuel : Nat}

theorem codeLoop_turns {failed : Bool} {rets : List Int} {input rest : List UInt8}
    (h : codeLoop coder finish fuel s input = some (failed, rets, s', rest)) :
    Turns coder s.zstream rets s'.zstream ∧ rets ≠ [] ∧ s'.isEncode = s.isEncode := by
  induction fuel generalizing s input rets with
  | zero => simp [codeLoop] at h
  | succ fuel ih =>
      rw [codeLoop] at h
      dsimp only at h
      split at h
      · obtain ⟨-, rfl, rfl, -⟩ := by simpa using h
        exact ⟨.call _ _ _ (.nil _), by simp, rfl⟩
      · split at h
        · obtain ⟨⟨failed', rets', s'', rest'⟩, hloop, hr⟩ := Option.map_eq_some_iff.mp h
          obtain ⟨rfl, rfl, rfl, rfl⟩ := by simpa using hr
          obtain ⟨hturns, -, hencode⟩ := ih hloop
          exact ⟨.call _ _ _ hturns, by simp, hencode⟩
        · obtain ⟨-, rfl, rfl, -⟩ := by simpa using h
          exact ⟨.call _ _ _ (.nil _), by simp, rfl⟩

theorem codeBuffers_turns {bufs : List (List UInt8)} {ret : Int} {calls : Calls}
    (h : codeBuffers coder end_ false fuel bufs s = some (ret, calls, s')) :
    Turns coder s.zstream calls.rets s'.zstream ∧ s'.isEncode = s.isEncode := by
  induction bufs generalizing s ret calls with
  | nil =>
      obtain ⟨-, rfl, rfl⟩ := by simpa [codeBuffers] using h
      exact ⟨.nil _, rfl⟩
  | cons buf bufs ih =>
      rw [codeBuffers] at h
      obtain ⟨⟨failed, rets, s₁, rest⟩, hloop, h⟩ := Option.bind_eq_some_iff.mp h
      obtain ⟨hturns, -, hencode⟩ := codeLoop_turns hloop
      cases failed with
      | true =>
          obtain ⟨-, rfl, rfl⟩ := by simpa using h
          exact ⟨hturns, hencode⟩
      | false =>
          obtain ⟨⟨ret', calls', s₂⟩, hrest, h⟩ := Option.bind_eq_some_iff.mp h
          obtain ⟨rfl, rfl, rfl⟩ := by simpa using h
          obtain ⟨hturns', hencode'⟩ := ih hrest
          exact ⟨hturns.append hturns', hencode'.trans hencode⟩

theorem writeAll_turns {writes : List (List (List UInt8))} {rets : List Int} {calls : Calls}
    (h : writeAll zlib fuel writes s = some (rets, calls, s')) :
    Turns (s.coder zlib) s.zstream calls.rets s'.zstream ∧ s'.isEncode = s.isEncode := by
  induction writes generalizing s rets calls with
  | nil =>
      obtain ⟨-, rfl, rfl⟩ := by simpa [writeAll] using h
      exact ⟨.nil _, rfl⟩
  | cons v writes ih =>
      rw [writeAll] at h
      obtain ⟨⟨ret, calls₁, s₁⟩, hwrite, h⟩ := Option.bind_eq_some_iff.mp h
      obtain ⟨⟨rets', calls', s₂⟩, hrest, h⟩ := Option.bind_eq_some_iff.mp h
      obtain ⟨rfl, rfl, rfl⟩ := by simpa using h
      obtain ⟨end_, heq⟩ := write_eq zlib fuel v s
      rw [heq] at hwrite
      obtain ⟨hturns, hencode⟩ := codeBuffers_turns hwrite
      obtain ⟨hturns', hencode'⟩ := ih hrest
      have hcoder : s₁.coder zlib = s.coder zlib := by rw [coder, coder, hencode]
      rw [hcoder] at hturns'
      exact ⟨hturns.append hturns', hencode'.trans hencode⟩

/-- **Every input is accepted**, and the codes are clean exactly for a complete stream. -/
theorem clean_iff_complete {output : List UInt8 → List UInt8}
    {At : Bool → ζ → List UInt8 → List UInt8 → Prop} {Done Broken Starved : ζ → Prop}
    {Complete : List UInt8 → Prop}
    (contract : InflateContract (s.coder zlib) output At Done Broken Starved Complete)
    (hnew : s.buffs = []) (hsize : 1 ≤ s.buffsize) (hat : At false s.zstream [] [])
    (writes : List (List (List UInt8))) (hfuel : (output (seenAll writes)).length < fuel) :
    ∃ rets calls s₁ codes s₂, s.writeAll zlib fuel writes = some (rets, calls, s₁) ∧
      s₁.flush zlib fuel = some (Z_OK, ⟨codes, [[]]⟩, s₂) ∧ (∀ ret ∈ rets, ret = Z_OK) ∧
      (Clean (calls.rets ++ codes) ↔
        Complete (seenAll writes) ∧ Z_MEM_ERROR ∉ calls.rets ++ codes) := by
  have hpos : 0 < s.buffsize.toNat := hsize
  have halong : s.Along At (fun z => Done z ∨ Broken z ∨ Starved z) false [] :=
    Along.start hnew hat
  obtain ⟨rets, calls, s₁, hwrites, hrets, halong₁, hfollows, -⟩ :=
    halong.writeAll contract.calls hpos hfuel
  have hcoder : s₁.coder zlib = s.coder zlib := hfollows.coder zlib
  obtain ⟨codes, s₂, end_, hloop, hflush, halong₂, -, hstopped⟩ :=
    halong₁.flush (hcoder ▸ contract.calls) (hfollows.buffsize ▸ hpos) hfuel
  rw [List.nil_append] at halong₂ hstopped
  obtain ⟨hturns₁, -⟩ := writeAll_turns hwrites
  obtain ⟨hturns₂, hne, -⟩ := codeLoop_turns hloop
  rw [hcoder] at hturns₂ hstopped
  have hturns := hturns₁.append hturns₂
  have hne' : calls.rets ++ codes ≠ [] := by simp [hne]
  refine ⟨rets, calls, s₁, codes, _, hwrites, hflush, hrets, ?_⟩
  rw [contract.clean_iff hturns hne']
  constructor
  · intro hdone
    obtain ⟨-, hfed⟩ := contract.done_only hturns hne' hdone
    obtain ⟨-, fed, hat₂, ⟨behind, hgiven⟩, -⟩ := halong₂
    refine ⟨hgiven ▸ contract.complete hat₂ hdone behind, fun hmem => hfed ?_⟩
    exact (hturns.reports (· = Z_MEM_ERROR) contract.starved contract.starvedStays
      hne').mp ⟨_, hmem, rfl⟩
  · rintro ⟨hcomplete, hmem⟩
    by_contra hdone
    obtain ⟨-, fed, hat₂, ⟨behind, hgiven⟩, -⟩ := halong₂
    have hbroken : ¬ Broken s₂.zstream := fun hbroken =>
      contract.damaged hat₂ hbroken behind (hgiven ▸ hcomplete)
    have hstarved : ¬ Starved s₂.zstream := by
      intro hstarved
      obtain ⟨ret, hret, rfl⟩ := (hturns.reports (· = Z_MEM_ERROR) contract.starved
        contract.starvedStays hne').mpr hstarved
      exact hmem hret
    have hopen : ¬ (Done s₂.zstream ∨ Broken s₂.zstream ∨ Starved s₂.zstream) := by
      simp [hdone, hbroken, hstarved]
    have hopen₁ : ¬ (Done s₁.zstream ∨ Broken s₁.zstream ∨ Starved s₁.zstream) := by
      intro hended
      refine hopen (hended.imp (hturns₂.keeps contract.doneStays) (Or.imp ?_ ?_))
      · exact hturns₂.keeps contract.brokenStays
      · exact hturns₂.keeps contract.starvedStays
    obtain ⟨last, z₀, fed₀, out, input, room, hat₀, hallowed, hroom, hnext, hall⟩ :=
      hstopped hopen₁
    rw [← hnext] at hopen
    exact contract.short hat₀ input room true hallowed hroom hopen (hall ▸ hcomplete)

/-! ## A stored block -/

theorem ret_stored (header size trailer z : Nat) (input : List UInt8) (room : Nat) (finish : Bool) :
    (stored header size trailer z input room finish).ret =
      if (stored header size trailer z input room finish).next = header + size + trailer then
        Z_STREAM_END
      else if (stored header size trailer z input room finish).taken = 0 then Z_BUF_ERROR
      else Z_OK := rfl

theorem stored_inflateContract (header size trailer : Nat) {s : ZLIBStream Nat}
    (h : s.isEncode = false) :
    InflateContract (s.coder (storedZlib header size trailer)) (storedOutput header size)
      (StoredAt header size trailer) (StoredEnd header size trailer) (fun _ => False)
      (fun _ => False) (fun fed => header + size + trailer ≤ fed.length) := by
  rw [stored_coder h]
  exact {
    calls := by simpa using stored_contract header size trailer
    done := fun z input room finish => by
      rw [StoredEnd, ret_stored]
      split_ifs with hend htaken
      · simp [hend]
      · simp [hend, Z_BUF_ERROR, Z_STREAM_END]
      · simp [hend, Z_OK, Z_STREAM_END]
    broken := fun z input room finish => by
      rw [ret_stored]
      split_ifs <;> decide
    starved := fun z input room finish => by
      rw [ret_stored]
      split_ifs <;> decide
    doneStays := fun z input room finish hend => by
      rw [StoredEnd] at hend
      simp only [stored, StoredEnd]
      split_ifs <;> omega
    brokenStays := fun _ _ _ _ hfalse => hfalse
    starvedStays := fun _ _ _ _ hfalse => hfalse
    complete := by
      rintro last z fed out ⟨hz, -, -⟩ hend more
      rw [StoredEnd, hz] at hend
      rw [List.length_append]
      omega
    damaged := fun _ hfalse => hfalse.elim
    short := by
      rintro last z fed out ⟨hz, hle, -⟩ input room finish - hroom hopen
      obtain ⟨taken, ret, -, hle', -, written, hcall, -, hstops, -⟩ :=
        stored_spec header size trailer hz hle input room finish
      rw [hcall] at hroom hopen
      have hgoes : ¬ z + taken = header + size + trailer := fun hend => hopen (.inl hend)
      have hall := (hstops hroom).resolve_left hgoes
      rw [List.length_append]
      omega }

end ZLIBStream
end Routn
