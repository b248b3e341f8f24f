import Routn.Http.RequestDump

/-!
# The content-length of a request

`recvRequest` asks for the field as an `uint64_t` and goes on with an `int64_t`.  Where the cast
throws, the length is zero, and where the value has the highest bit, it is negative; in both cases
there is no body.  The configured limit is not looked at.  So the field is handled as it should be
exactly when it is not there or holds a number that needs no check.
-/

namespace Routn
namespace Http
namespace HttpSession

open Foundation Machine Duplex

/-- The digits of a decimal number. -/
def IsDecimal (s : List UInt8) (n : Nat) : Prop :=
  s ≠ [] ∧ (∀ c ∈ s, 48 ≤ c ∧ c ≤ 57) ∧ s.foldl (fun n c => 10 * n + (c.toNat - 48)) 0 = n

/-- `boost::lexical_cast` reads decimal numbers. -/
def CastsNumbers (lexicalCast : List UInt8 → Option UInt64) : Prop :=
  ∀ s n, IsDecimal s n → n < 2 ^ 64 → lexicalCast s = some (UInt64.ofNat n)

/-- A field that announces `n` bytes, no more than the limit. -/
def Announces (limit : UInt64) (field : List UInt8) (n : Nat) : Prop :=
  IsDecimal field n ∧ n ≤ limit.toNat ∧ n < 2 ^ 63

/-- `body.resize(length)` is called. -/
def allocates (length : Int) : Prop := 0 < length

section

variable (chunk : Nat → Nat) (lexicalCast : List UInt8 → Option UInt64) (buffSize : Nat)
  (mem : Uninit)

/-- The head that the loop of `recvRequest` gets, with what it leaves in the buffer. -/
def HasHead (d : Duplex) (data : List UInt8) (offset : Nat) (parser : HttpRequestParser)
    (d' : Duplex) : Prop :=
  recvHead chunk buffSize (d.inbound.length + 1) mem.buffer 0
    { parser := { queryStart := mem.queryStart, uriRelaxed := mem.uriRelaxed } } d =
      .ok (.head data offset parser) d'

/-- `int64_t length`. -/
def lengthOf (r : HttpRequest) : Int := (r.contentLength lexicalCast).toBitVec.toInt

/-- What a call does about the field: a request comes with the body that is announced, and otherwise
the stream is closed and nothing is allocated. -/
structure LengthChecked (limit : UInt64) (d : Duplex) : Prop where
  request : ∀ r d', recvRequest chunk lexicalCast buffSize mem d = .ok (.request r) d' →
    ∀ field ∈ r.findHeader contentLengthName, ∃ n, Announces limit field n ∧ r.body.length = n
  rejected : ∀ data offset parser d₁, HasHead chunk buffSize mem d data offset parser d₁ →
    ∀ field ∈ parser.data.findHeader contentLengthName, (∀ n, ¬ Announces limit field n) →
      (∃ d', recvRequest chunk lexicalCast buffSize mem d = .ok .nullptr d' ∧ d'.closed = true) ∧
        ¬ allocates (lengthOf lexicalCast parser.data)

/-- The field of the head, if there is one, needs no check. -/
def NeedsNoCheck (limit : UInt64) (d : Duplex) : Prop :=
  ∀ data offset parser d₁, HasHead chunk buffSize mem d data offset parser d₁ →
    ∀ field ∈ parser.data.findHeader contentLengthName, ∃ n, Announces limit field n

end

/-! ## The parser sets no body -/

theorem setHeader_body (r : HttpRequest) (key val : List UInt8) :
    (r.setHeader key val).body = r.body := by
  rw [HttpRequest.setHeader]
  split <;> rfl

theorem act_body {buffer : List UInt8} {fpc : Nat} {P P' : HttpRequestParser} {a : Action}
    (h : HttpRequestParser.act buffer fpc P a = some P') : P'.data.body = P.data.body := by
  cases a with
  | mark | startField | writeField | startValue | requestUri | startQuery | done | xml | json =>
      obtain rfl := Option.some.inj h
      rfl
  | writeValue =>
      simp only [HttpRequestParser.act, HttpRequestParser.onRequestHttpField] at h
      split at h
      · obtain rfl := Option.some.inj h
        rfl
      · obtain ⟨key, -, h⟩ := Option.bind_eq_some_iff.mp h
        obtain ⟨val, -, rfl⟩ := Option.map_eq_some_iff.mp h
        exact setHeader_body ..
  | requestMethod =>
      obtain rfl := Option.some.inj h
      rw [HttpRequestParser.onRequestMethod]
      split <;> rfl
  | httpVersion =>
      obtain rfl := Option.some.inj h
      rw [HttpRequestParser.onRequestVersion]
      split
      · rfl
      · split <;> rfl
  | fragment | queryString | requestPath =>
      obtain ⟨v, -, rfl⟩ := Option.map_eq_some_iff.mp h
      rfl

theorem execute_body {data data' : List UInt8} {len nparse : Nat} {P P' : HttpRequestParser}
    (h : P.execute data len = some (nparse, data', P')) : P'.data.body = P.data.body := by
  obtain ⟨⟨n, P₁⟩, hexec, heq⟩ := Option.map_eq_some_iff.mp h
  obtain ⟨-, rfl⟩ := Prod.mk.inj (Prod.mk.inj heq).2
  rw [HttpRequestParser.httpParserExecute] at hexec
  split at hexec
  · obtain ⟨-, rfl⟩ := Prod.mk.inj (Option.some.inj hexec)
    rfl
  · obtain ⟨⟨rest, cs, g⟩, hrun, heq⟩ := Option.map_eq_some_iff.mp hexec
    obtain ⟨-, rfl⟩ := Prod.mk.inj heq
    have hact : ∀ {a : Action} {g g' : Nat × HttpRequestParser}, g.2.data.body = P.data.body →
        (HttpRequestParser.act data g.1 g.2 a).map (fun P => (g.1, P)) = some g' →
        g'.2.data.body = P.data.body := by
      intro a g g' hbody h
      obtain ⟨P', hact, rfl⟩ := Option.map_eq_some_iff.mp h
      exact (act_body hact).trans hbody
    have hend : g.2.data.body = P.data.body :=
      Control.run_invariant (P := fun g : Nat × HttpRequestParser =>
        g.2.data.body = P.data.body) hact id _ rfl hrun
    exact hend

theorem turn_body {buffSize len : Nat} {data data' : List UInt8} {offset : Nat}
    {P P' : HttpRequestParser}
    (h : turn buffSize data len P = .again data' offset P' ∨
      turn buffSize data len P = .leave (.head data' offset P')) :
    P'.data.body = P.data.body := by
  rw [turn] at h
  rcases hexec : P.execute data len with _ | ⟨nparse, data₁, P₁⟩
  · rw [hexec] at h
    rcases h with h | h <;> cases h
  · have hbody := execute_body hexec
    rw [hexec] at h
    simp only at h
    split_ifs at h
    · rcases h with h | h <;> cases h
    · rcases h with h | h <;> cases h
    · rcases h with h | h <;> cases h
      exact hbody
    · rcases h with h | h <;> cases h
      exact hbody

theorem recvHead_body {chunk : Nat → Nat} {buffSize fuel : Nat} {data : List UInt8} {offset : Nat}
    {P P' : HttpRequestParser} {d d' : Duplex} {data' : List UInt8} {offset' : Nat}
    (h : recvHead chunk buffSize fuel data offset P d = .ok (.head data' offset' P') d') :
    P'.data.body = P.data.body := by
  induction fuel generalizing data offset P d with
  | zero => cases h
  | succ fuel ih =>
      obtain ⟨-, d₁, -, h⟩ := of_bind_ok h
      obtain ⟨len, d₂, -, h⟩ := of_bind_ok h
      split at h
      · cases h
      · obtain ⟨d₃, d₄, -, h⟩ := of_bind_ok h
        cases hturn : turn buffSize d₃.memory (offset + len.toNat) P with
        | again data₁ offset₁ P₁ =>
            rw [hturn] at h
            exact (ih h).trans (turn_body (.inl hturn))
        | leave e =>
            rw [hturn] at h
            cases h
            exact turn_body (.inr hturn)

/-! ## The body has the length of the field -/

section

variable {chunk : Nat → Nat} {lexicalCast : List UInt8 → Option UInt64} {buffSize : Nat}
  {mem : Uninit} {limit : UInt64} {d d₁ d' : Duplex} {data : List UInt8} {offset : Nat}
  {parser : HttpRequestParser} {r req : HttpRequest} {length : Int}

theorem finish_body (r : HttpRequest) (body : List UInt8) : (finish r body).body = body := by
  rw [finish, HttpRequest.init]
  split <;> rfl

theorem init_body (r : HttpRequest) : r.init.body = r.body := by
  rw [HttpRequest.init]
  split <;> rfl

theorem init_headers (r : HttpRequest) : r.init.headers = r.headers := by
  rw [HttpRequest.init]
  split <;> rfl

/-- A request that comes has the headers of the head and the body of this length. -/
theorem recvBody_request (hbound : length < 2 ^ 63)
    (h : recvBody chunk length data offset r d = .ok (.request req) d') :
    req.headers = r.headers ∧
      (0 < length → req.body.length = length.toNat) ∧ (¬ 0 < length → req.body = r.body) := by
  rw [recvBody] at h
  by_cases hpos : 0 < length
  · rw [if_pos hpos] at h
    obtain ⟨n, rfl⟩ : ∃ n : Nat, length = n := ⟨length.toNat, by omega⟩
    rw [Int.toNat_natCast] at h ⊢
    obtain ⟨len, hlen⟩ : ∃ len, (if offset ≤ n then offset else n) = len := ⟨_, rfl⟩
    have hle : len ≤ n := by
      rw [← hlen]
      split <;> omega
    rw [hlen] at h
    have hbody : (splice (List.replicate n 0) 0 (data.take len)).length = n := by
      rw [length_splice_of_fits] <;> rw [List.length_replicate]
      rw [List.length_take]
      omega
    dsimp only at h
    split at h
    · rename_i hleft
      have hlenOffset : len = offset := by
        rw [← hlen]
        exact if_pos (by omega)
      obtain ⟨⟨rt, body⟩, d₂, hread, h⟩ := of_bind_ok h
      have hfits : len + (↑n - ↑offset : Int).toNat ≤
          (splice (List.replicate n 0) 0 (data.take len)).length := by
        rw [hbody]
        omega
      have hsize : (↑n - ↑offset : Int).toNat < 2 ^ 64 := by omega
      by_cases henough : (↑n - ↑offset : Int).toNat ≤ d.inbound.length
      · obtain ⟨d₃, hread', -⟩ := readFixSize_ok chunk hfits henough hsize
        obtain ⟨hpair, -⟩ := EStateM.Result.ok.inj (hread'.symm.trans hread)
        obtain ⟨-, rfl⟩ := Prod.mk.inj hpair
        split at h
        · cases h
        · cases h
          refine ⟨init_headers _, fun _ => ?_, fun hnot => absurd hpos hnot⟩
          rw [finish_body, length_splice_of_fits, hbody]
          rw [List.length_take]
          omega
      · obtain ⟨memory, d₃, hread', -⟩ := readFixSize_short chunk hfits
          (Nat.not_le.mp henough) hsize
        obtain ⟨hpair, -⟩ := EStateM.Result.ok.inj (hread'.symm.trans hread)
        obtain ⟨rfl, rfl⟩ := Prod.mk.inj hpair
        cases h
    · cases h
      refine ⟨init_headers _, fun _ => ?_, fun hnot => absurd hpos hnot⟩
      rw [finish_body, hbody]
  · rw [if_neg hpos] at h
    cases h
    exact ⟨init_headers r, fun hyes => absurd hyes hpos, fun _ => init_body r⟩

/-! ## One call -/

theorem recvRequest_of_head (lexicalCast : List UInt8 → Option UInt64)
    (h : HasHead chunk buffSize mem d data offset parser d₁) :
    recvRequest chunk lexicalCast buffSize mem d =
      recvBody chunk (lengthOf lexicalCast parser.data) data offset parser.data d₁ :=
  (bind_ok rfl).trans (bind_ok h)

theorem exists_head (h : recvRequest chunk lexicalCast buffSize mem d = .ok (.request r) d') :
    ∃ data offset parser d₁, HasHead chunk buffSize mem d data offset parser d₁ := by
  obtain ⟨d₀, d₁, hget, h⟩ := of_bind_ok h
  cases hget
  obtain ⟨e, d₂, hhead, h⟩ := of_bind_ok h
  cases e with
  | threw => cases h
  | failed =>
      obtain ⟨-, d₃, -, h⟩ := of_bind_ok h
      cases h
  | head data offset parser => exact ⟨data, offset, parser, d₂, hhead⟩

theorem lengthOf_announced {field : List UInt8} (hcast : CastsNumbers lexicalCast)
    (hfield : field ∈ r.findHeader contentLengthName) {n : Nat} (h : Announces limit field n) :
    lengthOf lexicalCast r = n := by
  obtain ⟨hdecimal, -, hbound⟩ := h
  have hvalue := hcast field n hdecimal (by omega)
  have hlength : r.contentLength lexicalCast = UInt64.ofNat n := by
    change ((r.findHeader contentLengthName).bind lexicalCast).getD 0 = _
    rw [hfield, Option.bind_some, hvalue]
    rfl
  rw [lengthOf, hlength]
  exact Int64.toInt_ofNat_of_lt hbound

theorem findHeader_of_headers {r r' : HttpRequest} (h : r'.headers = r.headers) (key : List UInt8) :
    r'.findHeader key = r.findHeader key := by
  rw [HttpRequest.findHeader, HttpRequest.findHeader, h]

theorem lengthOf_lt (r : HttpRequest) : lengthOf lexicalCast r < 2 ^ 63 :=
  BitVec.toInt_lt

/-- **When the field is handled as it should be.** -/
theorem lengthChecked_iff (hcast : CastsNumbers lexicalCast) (limit : UInt64) (d : Duplex) :
    LengthChecked chunk lexicalCast buffSize mem limit d ↔
      NeedsNoCheck chunk buffSize mem limit d := by
  constructor
  · intro h data offset parser d₁ hhead field hfield
    by_contra hnone
    have hnot : ∀ n, ¬ Announces limit field n := fun n hn => hnone ⟨n, hn⟩
    by_cases hpos : 0 < lengthOf lexicalCast parser.data
    · exact (h.rejected data offset parser d₁ hhead field hfield hnot).2 hpos
    · have hrun := (recvRequest_of_head lexicalCast hhead).trans
        (recvBody_none hpos)
      have hheaders := findHeader_of_headers (init_headers parser.data) contentLengthName
      obtain ⟨n, hn, -⟩ := h.request _ _ hrun field (hheaders ▸ hfield)
      exact hnot n hn
  · intro h
    constructor
    · intro r d' hrun field hfield
      obtain ⟨data, offset, parser, d₁, hhead⟩ := exists_head hrun
      rw [recvRequest_of_head lexicalCast hhead] at hrun
      obtain ⟨hheaders, hsome, hnone⟩ := recvBody_request (lengthOf_lt parser.data) hrun
      rw [findHeader_of_headers hheaders] at hfield
      obtain ⟨n, hn⟩ := h data offset parser d₁ hhead field hfield
      have hlength := lengthOf_announced hcast hfield hn
      rw [hlength] at hsome hnone
      refine ⟨n, hn, ?_⟩
      rcases Nat.eq_zero_or_pos n with rfl | hpos
      · rw [hnone (by simp), recvHead_body hhead]
        rfl
      · rw [hsome (by omega), Int.toNat_natCast]
    · intro data offset parser d₁ hhead field hfield hnot
      obtain ⟨n, hn⟩ := h data offset parser d₁ hhead field hfield
      exact absurd hn (hnot n)

end

/-! ## A field that is no number -/

/-- The cast of digits. -/
def castDigits (s : List UInt8) : Option UInt64 :=
  let n := s.foldl (fun n c => 10 * n + (c.toNat - 48)) 0
  if s ≠ [] ∧ s.all (fun c => decide (48 ≤ c ∧ c ≤ 57)) = true ∧ n < 2 ^ 64 then
    some (UInt64.ofNat n)
  else none

theorem castsNumbers_castDigits : CastsNumbers castDigits := by
  rintro s n ⟨hne, hdigits, rfl⟩ hbound
  exact if_pos ⟨hne, by simpa using hdigits, hbound⟩

/-- A head with the field `Content-Length: a`. -/
def letterRequest : List UInt8 :=
  chars ['G', 'E', 'T', ' ', '/', ' ', 'H', 'T', 'T', 'P', '/', '1', '.', '1', '\r', '\n'] ++
    contentLengthName ++ chars [':', ' ', 'a', '\r', '\n', '\r', '\n']

theorem lengthChecked_iff_letter :
    LengthChecked (fun _ => 64) castDigits 64 ⟨List.replicate 64 0, 0, false⟩ 1024
        { inbound := letterRequest } ↔
      NeedsNoCheck (fun _ => 64) 64 ⟨List.replicate 64 0, 0, false⟩ 1024
        { inbound := letterRequest } :=
  lengthChecked_iff castsNumbers_castDigits 1024 _

theorem not_lengthChecked_letter :
    ¬ LengthChecked (fun _ => 64) castDigits 64 ⟨List.replicate 64 0, 0, false⟩ 1024
      { inbound := letterRequest } := by
  intro h
  have hrun : ∃ r d', recvRequest (fun _ => 64) castDigits 64 ⟨List.replicate 64 0, 0, false⟩
      { inbound := letterRequest } = .ok (.request r) d' ∧
        r.findHeader contentLengthName = some [97] := by
    have hfield : (match recvRequest (fun _ => 64) castDigits 64
        ⟨List.replicate 64 0, 0, false⟩ { inbound := letterRequest } with
      | .ok (.request r) _ => r.findHeader contentLengthName
      | _ => none) = some [97] := by decide +kernel
    split at hfield
    · rename_i r d' hrun
      exact ⟨r, d', hrun, hfield⟩
    · cases hfield
  obtain ⟨r, d', hrun, hfield⟩ := hrun
  obtain ⟨n, ⟨⟨-, hdigits, -⟩, -⟩, -⟩ := h.request r d' hrun [97] hfield
  exact absurd (hdigits 97 (List.mem_singleton_self 97)).2 (by decide)

end HttpSession
end Http
end Routn
