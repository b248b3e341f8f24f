import Mathlib.Data.List.TakeWhile
import Routn.LoadBalance.ServiceDiscovery

/-!
# `ServiceItemInfo::Create` and the ids of endpoints

`Create` makes an info from an address and a port, which it packs into an id.  The port goes through
an `int16_t`, and the sign of this is extended over the address: from 32768 on all addresses with
one port have one id, and `getChildren` keeps the last of them.

`inet_addr` is a function of the system, and `lexical_cast` is the one of Boost.
-/

namespace Routn

open Foundation ServiceDiscovery

namespace ServiceItemInfo

def isspace (c : Char) : Bool := c ∈ [' ', '\t', '\n', '\x0b', '\x0c', '\r']

/-- The digits in front, with their sign, as a `long`. -/
def strtol (s : List Char) : Int :=
  let s := s.dropWhile isspace
  let number (s : List Char) : Nat := Nat.ofDigitChars 10 (s.takeWhile Char.isDigit) 0
  match s with
  | '-' :: s => max (-2 ^ 63) (-number s)
  | '+' :: s => min (2 ^ 63 - 1) (number s)
  | s => min (2 ^ 63 - 1) (number s)

/-- `atoi`, which converts a `long` to `int`. -/
def atoi (s : List Char) : Int := (strtol s).bmod (2 ^ 32)

/-- `split`. -/
def split (str : List Char) (delim : Char) : List (List Char) :=
  if str = [] then [] else str.splitOn delim

/-- `ServiceItemInfo` with the members that come from the data. -/
structure Created extends ServiceItemInfo where
  data : List Char
  datas : List (List Char × List Char)
  updateTime : UInt32
  type : List Char

/-- `rt->_datas[i.substr(0, pos)] = i.substr(pos + 1)`, when there is a `=`. -/
def addData (datas : List (List Char × List Char)) (i : List Char) :
    List (List Char × List Char) :=
  match i.span (· ≠ '=') with
  | (_, []) => datas
  | (key, _ :: value) => (key, value) :: datas.filter (·.1 ≠ key)

def getData (datas : List (List Char × List Char)) (key : List Char) : Option (List Char) :=
  (datas.find? (·.1 = key)).map Prod.snd

def Create (inet_addr : List Char → UInt32) (lexical_cast : List Char → Option UInt64)
    (ip_and_port data : List Char) : Option Created :=
  match ip_and_port.span (· ≠ ':') with
  | (_, []) => none
  | (ip, _ :: rest) =>
      let port : Int := (atoi rest).bmod (2 ^ 16)
      let ip_addr := inet_addr ip
      if ip_addr = 0 then none
      else
        let datas := (split data '&').foldl addData []
        some {
          -- `port` is an `int16_t`.
          id := (ip_addr.toUInt64 <<< 32) ||| UInt64.ofInt port
          ip := String.ofList ip
          port := UInt16.ofInt port
          data := data
          datas := datas
          updateTime :=
            (((getData datas "update_time".toList).bind lexical_cast).getD 0).toUInt32
          type := (getData datas "type".toList).getD [] }

/-! ## Endpoints -/

/-- An IPv4 address. -/
structure Quad where
  a : UInt8
  b : UInt8
  c : UInt8
  d : UInt8
deriving DecidableEq, Repr

/-- The canonical text of an address. -/
def Quad.text (q : Quad) : List Char :=
  ['.'].intercalate [Nat.toDigits 10 q.a.toNat, Nat.toDigits 10 q.b.toNat,
    Nat.toDigits 10 q.c.toNat, Nat.toDigits 10 q.d.toNat]

/-- An address other than 0.0.0.0, and a port that is written with digits. -/
structure Endpoint where
  quad : Quad
  digits : List Char
  nonzero : quad ≠ ⟨0, 0, 0, 0⟩
  isDigit : ∀ c ∈ digits, c.isDigit
  isNumber : digits ≠ []
  bound : Nat.ofDigitChars 10 digits 0 < 2 ^ 16

namespace Endpoint

def ip (e : Endpoint) : String := String.ofList e.quad.text

def port (e : Endpoint) : Nat := Nat.ofDigitChars 10 e.digits 0

def text (e : Endpoint) : List Char := e.quad.text ++ ':' :: e.digits

theorem port_lt (e : Endpoint) : e.port < 2 ^ 16 := e.bound

end Endpoint

/-- What is known of `inet_addr`. -/
structure Inet (inet_addr : List Char → UInt32) : Prop where
  injective : ∀ q q' : Quad, inet_addr q.text = inet_addr q'.text → q = q'
  zero : inet_addr (Quad.text ⟨0, 0, 0, 0⟩) = 0

/-! ## Text -/

theorem not_mem_text (q : Quad) : ':' ∉ q.text := by
  have hdigits : ∀ n, ':' ∉ Nat.toDigits 10 n := by
    intro n hn
    have := Nat.isDigit_of_mem_toDigits (b := 10) (by decide) (by decide) hn
    exact absurd this (by decide)
  simp [Quad.text, List.intercalate, hdigits]

theorem span_text (e : Endpoint) :
    e.text.span (· ≠ ':') = (e.quad.text, ':' :: e.digits) := by
  have hall : ∀ c ∈ e.quad.text, decide (c ≠ ':') = true := by
    intro c hc
    refine decide_eq_true ?_
    rintro rfl
    exact not_mem_text e.quad hc
  unfold Endpoint.text
  rw [List.span_eq_takeWhile_dropWhile, List.takeWhile_append_of_pos hall,
    List.dropWhile_append_of_pos hall]
  simp

theorem atoi_digits (e : Endpoint) : atoi e.digits = e.port := by
  obtain ⟨quad, digits, hnonzero, hdigit, hnumber, hbound⟩ := e
  obtain ⟨c, rest, rfl⟩ := List.exists_cons_of_ne_nil hnumber
  have hall : (c :: rest).takeWhile Char.isDigit = c :: rest :=
    List.takeWhile_eq_self_iff.mpr hdigit
  have hc : c.isDigit := hdigit c List.mem_cons_self
  have hspace : isspace c = false := by
    rw [isspace, decide_eq_false_iff_not]
    intro hin
    fin_cases hin <;> exact absurd hc (by decide)
  have hminus : c ≠ '-' := by
    rintro rfl
    exact absurd hc (by decide)
  have hplus : c ≠ '+' := by
    rintro rfl
    exact absurd hc (by decide)
  have hstrtol : strtol (c :: rest) = (Nat.ofDigitChars 10 (c :: rest) 0 : Nat) := by
    rw [strtol, List.dropWhile_cons_of_neg (by simp [hspace])]
    split
    · next heq => exact absurd (List.cons.inj heq).1 hminus
    · next heq => exact absurd (List.cons.inj heq).1 hplus
    · show min (2 ^ 63 - 1)
        ((Nat.ofDigitChars 10 ((c :: rest).takeWhile Char.isDigit) 0 : Nat) : Int) = _
      rw [hall]
      omega
  show (strtol (c :: rest)).bmod (2 ^ 32) = _
  rw [hstrtol]
  exact Int.bmod_eq_of_le (by omega) (by omega)

/-! ## Ids -/

/-- The port as an `int16_t`. -/
theorem bmod_port {p : Nat} (h : p < 2 ^ 16) :
    (p : Int).bmod (2 ^ 16) = if p < 2 ^ 15 then (p : Int) else p - 2 ^ 16 := by
  split
  · exact Int.bmod_eq_of_le (by omega) (by omega)
  · have hbmod := Int.bmod_eq_of_le (n := (p : Int) - 2 ^ 16) (m := 2 ^ 16) (by omega) (by omega)
    rw [← hbmod]
    exact (Int.sub_bmod_right ..).symm

theorem toNat_ofInt (n : Int) : (UInt64.ofInt n).toNat = (n % 2 ^ 64).toNat := by
  rw [UInt64.ofInt]
  exact UInt64.toNat_ofNat_of_lt' (by unfold UInt64.size; omega)

/-- The id that `Create` packs. -/
def pack (ip_addr : UInt32) (p : Nat) : UInt64 :=
  (ip_addr.toUInt64 <<< 32) ||| UInt64.ofInt ((p : Int).bmod (2 ^ 16))

/-- The address and the port stand side by side as long as the port is not negative. -/
theorem toNat_pack {p : Nat} (h : p < 2 ^ 15) (ip_addr : UInt32) :
    (pack ip_addr p).toNat = ip_addr.toNat * 2 ^ 32 + p := by
  have hport : (UInt64.ofInt ((p : Int).bmod (2 ^ 16))).toNat = p := by
    rw [toNat_ofInt, bmod_port (by omega), if_pos h]
    omega
  have haddr : (ip_addr.toUInt64 <<< 32).toNat = ip_addr.toNat <<< 32 := by
    have := ip_addr.toNat_lt
    rw [UInt64.toNat_shiftLeft, UInt32.toNat_toUInt64]
    apply Nat.mod_eq_of_lt
    rw [show (32 : UInt64).toNat % 64 = 32 from rfl, Nat.shiftLeft_eq]
    omega
  rw [pack, UInt64.toNat_or, hport, haddr, ← Nat.shiftLeft_add_eq_or_of_lt (by omega),
    Nat.shiftLeft_eq]

/-- The sign of the port hides the address. -/
theorem toNat_pack_negative {p : Nat} (h : 2 ^ 15 ≤ p) (hp : p < 2 ^ 16) (ip_addr : UInt32) :
    (pack ip_addr p).toNat = 2 ^ 64 - 2 ^ 16 + p := by
  have hport : (UInt64.ofInt ((p : Int).bmod (2 ^ 16))).toNat = 2 ^ 64 - 2 ^ 16 + p := by
    rw [toNat_ofInt, bmod_port hp, if_neg (by omega)]
    omega
  have hsign : 2 ^ 64 - 2 ^ 16 + p = 2 ^ 64 - (2 ^ 16 - 1 - p + 1) := by omega
  rw [pack, UInt64.toNat_or, hport, UInt64.toNat_shiftLeft,
    show (32 : UInt64).toNat % 64 = 32 from rfl]
  apply Nat.eq_of_testBit_eq
  intro i
  rw [hsign, Nat.testBit_or, Nat.testBit_two_pow_sub_succ (by omega), Nat.testBit_mod_two_pow,
    Nat.testBit_shiftLeft]
  by_cases hlow : i < 32
  · simp [Nat.not_le.mpr hlow]
  · have hfar : (2 ^ 16 - 1 - p).testBit i = false := by
      apply Nat.testBit_lt_two_pow
      have := Nat.pow_le_pow_right (n := 2) (by decide) (Nat.not_lt.mp hlow)
      omega
    rw [hfar]
    by_cases hhigh : i < 64
    · simp [hhigh]
    · simp [hhigh]

/-- **Two ids** are equal for the same address and the same port, or for the same port from 32768
on. -/
theorem pack_eq_iff {p p' : Nat} (hp : p < 2 ^ 16) (hp' : p' < 2 ^ 16) (ip_addr ip_addr' : UInt32) :
    pack ip_addr p = pack ip_addr' p' ↔ p = p' ∧ (ip_addr = ip_addr' ∨ 2 ^ 15 ≤ p) := by
  have hlt := ip_addr.toNat_lt
  have hlt' := ip_addr'.toNat_lt
  rw [← UInt64.toNat_inj, ← UInt32.toNat_inj]
  rcases Nat.lt_or_ge p (2 ^ 15) with h | h <;> rcases Nat.lt_or_ge p' (2 ^ 15) with h' | h'
  · rw [toNat_pack h, toNat_pack h']
    omega
  · rw [toNat_pack h, toNat_pack_negative h' hp']
    omega
  · rw [toNat_pack_negative h hp, toNat_pack h']
    omega
  · rw [toNat_pack_negative h hp, toNat_pack_negative h' hp']
    omega

/-! ## What `Create` makes -/

variable {inet_addr : List Char → UInt32} {lexical_cast : List Char → Option UInt64}
  {data : List Char}

theorem create_spec (lexical_cast : List Char → Option UInt64) (data : List Char)
    (hinet : Inet inet_addr) (e : Endpoint) :
    ∃ item, Create inet_addr lexical_cast e.text data = some item ∧ item.ip = e.ip ∧
      item.port.toNat = e.port ∧ item.id = pack (inet_addr e.quad.text) e.port := by
  have hne : inet_addr e.quad.text ≠ 0 := by
    intro hzero
    exact e.nonzero (hinet.injective _ _ (hzero.trans hinet.zero.symm))
  have hport : (UInt16.ofInt ((e.port : Int).bmod (2 ^ 16))).toNat = e.port := by
    have hbound := e.port_lt
    rw [UInt16.ofInt, UInt16.toNat_ofNat_of_lt']
    · rw [bmod_port hbound]
      split <;> omega
    · unfold UInt16.size
      omega
  simp only [Create, span_text, hne, if_false, atoi_digits]
  exact ⟨_, rfl, rfl, hport, rfl⟩

theorem ip_eq_iff (hinet : Inet inet_addr) (e e' : Endpoint) :
    e.ip = e'.ip ↔ inet_addr e.quad.text = inet_addr e'.quad.text := by
  constructor
  · intro heq
    rw [Endpoint.ip, Endpoint.ip, String.ofList_inj] at heq
    rw [heq]
  · intro heq
    rw [Endpoint.ip, hinet.injective _ _ heq, Endpoint.ip]

/-- The outside of `getChildren`. -/
def config (inet_addr : List Char → UInt32) (lexical_cast : List Char → Option UInt64)
    (queryInfos : String → Option (List String)) (types : SDLoadBalance.Types) : Config where
  queryInfos := queryInfos
  types := types
  create s := (Create inet_addr lexical_cast s.toList []).map (·.toServiceItemInfo)

/-- The endpoints have infos with their address and port; two ids are equal only for one endpoint;
and the view that `getChildren` makes of the endpoints has all of them. -/
def Identified (inet_addr : List Char → UInt32) (lexical_cast : List Char → Option UInt64)
    (c : Config) (data : List Char) (es : List Endpoint) : Prop :=
  (∀ e ∈ es, ∃ item, Create inet_addr lexical_cast e.text data = some item ∧ item.ip = e.ip ∧
    item.port.toNat = e.port) ∧
  (∀ e ∈ es, ∀ e' ∈ es, ∀ item item', Create inet_addr lexical_cast e.text data = some item →
    Create inet_addr lexical_cast e'.text data = some item' →
      (item.id = item'.id ↔ e.ip = e'.ip ∧ e.port = e'.port)) ∧
  ∀ e ∈ es, ∃ info ∈ viewOf c (es.map fun e => String.ofList e.text),
    info.ip = e.ip ∧ info.port.toNat = e.port

/-- No two addresses have one port from 32768 on. -/
def Apart (es : List Endpoint) : Prop :=
  ∀ e ∈ es, ∀ e' ∈ es, e.port = e'.port → 2 ^ 15 ≤ e.port → e.ip = e'.ip

/-- For every info the view has one with its id. -/
theorem exists_mem_foldl_insertInfo {info : ServiceItemInfo} (infos view : View)
    (h : info ∈ view ∨ info ∈ infos) :
    ∃ info' ∈ infos.foldl insertInfo view, info'.id = info.id ∧
      (info' ∈ view ∨ info' ∈ infos) := by
  induction infos generalizing view info with
  | nil => exact ⟨info, h.resolve_right List.not_mem_nil, rfl, h⟩
  | cons first infos ih =>
      have hfirst : first ∈ insertInfo view first :=
        List.mem_append.mpr (.inr (List.mem_singleton.mpr rfl))
      have hmem : ∀ other, other ∈ insertInfo view first → other ∈ view ∨ other = first := by
        intro other hother
        rcases List.mem_append.mp hother with hother | hother
        · exact .inl (List.mem_of_mem_filter hother)
        · exact .inr (List.mem_singleton.mp hother)
      -- Either the info is still there, or the first of `infos` has taken its place.
      obtain ⟨other, hother, hid⟩ : ∃ other, (other ∈ insertInfo view first ∨ other ∈ infos) ∧
          other.id = info.id := by
        by_cases hsame : info.id = first.id
        · exact ⟨first, .inl hfirst, hsame.symm⟩
        · rcases h with h | h
          · exact ⟨info, .inl (List.mem_append.mpr (.inl (List.mem_filter.mpr
              ⟨h, decide_eq_true hsame⟩))), rfl⟩
          · rcases List.mem_cons.mp h with rfl | h
            · exact absurd rfl hsame
            · exact ⟨info, .inr h, rfl⟩
      obtain ⟨info', hinfo', hid', hsource⟩ := ih _ hother
      refine ⟨info', hinfo', hid'.trans hid, ?_⟩
      rcases hsource with hin | hin
      · rcases hmem info' hin with hin | rfl
        · exact .inl hin
        · exact .inr List.mem_cons_self
      · exact .inr (List.mem_cons_of_mem first hin)

/-- **Ids of endpoints.**  The infos of endpoints identify them, and `getChildren` keeps them all,
exactly if no two of the addresses have one port from 32768 on. -/
theorem identified_iff (hinet : Inet inet_addr) (lexical_cast : List Char → Option UInt64)
    (queryInfos : String → Option (List String)) (types : SDLoadBalance.Types) (data : List Char)
    (es : List Endpoint) :
    Identified inet_addr lexical_cast (config inet_addr lexical_cast queryInfos types) data es ↔
      Apart es := by
  have hid : ∀ e e' : Endpoint,
      pack (inet_addr e.quad.text) e.port = pack (inet_addr e'.quad.text) e'.port ↔
        e.port = e'.port ∧ (e.ip = e'.ip ∨ 2 ^ 15 ≤ e.port) := by
    intro e e'
    rw [pack_eq_iff e.port_lt e'.port_lt, ip_eq_iff hinet]
  constructor
  · rintro ⟨-, hids, -⟩ e he e' he' hport hhigh
    obtain ⟨item, hitem, -, -, hpack⟩ := create_spec lexical_cast data hinet e
    obtain ⟨item', hitem', -, -, hpack'⟩ := create_spec lexical_cast data hinet e'
    refine ((hids e he e' he' item item' hitem hitem').mp ?_).1
    rw [hpack, hpack', hid]
    exact ⟨hport, .inr hhigh⟩
  · intro hapart
    refine ⟨fun e _ => ?_, fun e he e' he' item item' hitem hitem' => ?_, fun e he => ?_⟩
    · obtain ⟨item, hitem, hip, hport, -⟩ := create_spec lexical_cast data hinet e
      exact ⟨item, hitem, hip, hport⟩
    · obtain ⟨item₁, hitem₁, -, -, hpack⟩ := create_spec lexical_cast data hinet e
      obtain ⟨item₂, hitem₂, -, -, hpack'⟩ := create_spec lexical_cast data hinet e'
      obtain rfl := Option.some.inj (hitem.symm.trans hitem₁)
      obtain rfl := Option.some.inj (hitem'.symm.trans hitem₂)
      rw [hpack, hpack', hid]
      constructor
      · rintro ⟨hport, hip | hhigh⟩
        · exact ⟨hip, hport⟩
        · exact ⟨hapart e he e' he' hport hhigh, hport⟩
      · rintro ⟨hip, hport⟩
        exact ⟨hport, .inl hip⟩
    · obtain ⟨item, hitem, hip, hport, hpack⟩ := create_spec lexical_cast [] hinet e
      -- The infos of the children, in their order.
      have hcreate : ∀ e' : Endpoint,
          (config inet_addr lexical_cast queryInfos types).create (String.ofList e'.text) =
            (Create inet_addr lexical_cast e'.text []).map (·.toServiceItemInfo) := by
        intro e'
        simp [config]
      have hmem : item.toServiceItemInfo ∈ (es.map fun e => String.ofList e.text).filterMap
          (config inet_addr lexical_cast queryInfos types).create := by
        refine List.mem_filterMap.mpr ⟨_, List.mem_map_of_mem he, ?_⟩
        rw [hcreate, hitem, Option.map_some]
      obtain ⟨info, hinfo, hsame, hsource⟩ := exists_mem_foldl_insertInfo _ [] (.inr hmem)
      refine ⟨info, hinfo, ?_⟩
      obtain ⟨text, htext, hmade⟩ := List.mem_filterMap.mp
        (hsource.resolve_left List.not_mem_nil)
      obtain ⟨e', he', rfl⟩ := List.mem_map.mp htext
      obtain ⟨item', hitem', hip', hport', hpack'⟩ := create_spec lexical_cast [] hinet e'
      rw [hcreate, hitem', Option.map_some] at hmade
      obtain rfl := Option.some.inj hmade
      rw [hpack, hpack', hid] at hsame
      obtain ⟨hports, hips⟩ := hsame
      have hips : e'.ip = e.ip := by
        rcases hips with hips | hhigh
        · exact hips
        · exact hapart e' he' e he hports hhigh
      exact ⟨hip'.trans hips, hport'.trans hports⟩

/-! ## Addresses in network order -/

/-- `inet_addr` on canonical addresses. -/
def networkOrder (s : List Char) : UInt32 :=
  match (s.splitOn '.').map fun number => Nat.ofDigitChars 10 number 0 with
  | [a, b, c, d] => UInt32.ofNat (a + b * 2 ^ 8 + c * 2 ^ 16 + d * 2 ^ 24)
  | _ => -1

theorem networkOrder_text (q : Quad) : networkOrder q.text =
    UInt32.ofNat (q.a.toNat + q.b.toNat * 2 ^ 8 + q.c.toNat * 2 ^ 16 + q.d.toNat * 2 ^ 24) := by
  have hdot : ∀ l ∈ [Nat.toDigits 10 q.a.toNat, Nat.toDigits 10 q.b.toNat,
      Nat.toDigits 10 q.c.toNat, Nat.toDigits 10 q.d.toNat], '.' ∉ l := by
    have hdigits : ∀ n, '.' ∉ Nat.toDigits 10 n := by
      intro n hn
      have := Nat.isDigit_of_mem_toDigits (b := 10) (by decide) (by decide) hn
      exact absurd this (by decide)
    simp [hdigits]
  rw [networkOrder, Quad.text, List.splitOn_intercalate '.' hdot (List.cons_ne_nil _ _)]
  simp only [List.map_cons, List.map_nil, Nat.ofDigitChars_ten_toDigits]

theorem inet_networkOrder : Inet networkOrder where
  injective q q' h := by
    rw [networkOrder_text, networkOrder_text, ← UInt32.toNat_inj] at h
    obtain ⟨a, b, c, d⟩ := q
    obtain ⟨a', b', c', d'⟩ := q'
    have := a.toNat_lt; have := b.toNat_lt; have := c.toNat_lt; have := d.toNat_lt
    have := a'.toNat_lt; have := b'.toNat_lt; have := c'.toNat_lt; have := d'.toNat_lt
    rw [UInt32.toNat_ofNat_of_lt' (by unfold UInt32.size; dsimp only; omega),
      UInt32.toNat_ofNat_of_lt' (by unfold UInt32.size; dsimp only; omega)] at h
    dsimp only at h
    simp only [Quad.mk.injEq, ← UInt8.toNat_inj]
    omega
  zero := by
    rw [networkOrder_text]
    decide

/-- Two addresses, each with the port 40000. -/
def highPort (a : UInt8) : Endpoint where
  quad := ⟨a, 2, 3, 4⟩
  digits := ['4', '0', '0', '0', '0']
  nonzero := by simp
  isDigit := List.all_eq_true.mp rfl
  isNumber := by decide
  bound := by decide

/-- The outside, when nothing is configured. -/
def plain : Config := config networkOrder (fun _ => none) (fun _ => none) fun _ => none

theorem identified_iff_highPort :
    Identified networkOrder (fun _ => none) plain [] [highPort 1] ↔ Apart [highPort 1] :=
  identified_iff inet_networkOrder (fun _ => none) (fun _ => none) (fun _ => none) [] [highPort 1]

/-- **Two addresses with the port 40000** have one id. -/
theorem not_identified_highPort :
    ¬ Identified networkOrder (fun _ => none) plain [] [highPort 1, highPort 5] := by
  rintro ⟨-, hids, -⟩
  obtain ⟨item, hitem, -, -, hpack⟩ := create_spec (fun _ => none) []
    inet_networkOrder (highPort 1)
  obtain ⟨item', hitem', -, -, hpack'⟩ := create_spec (fun _ => none) []
    inet_networkOrder (highPort 5)
  have hsame : item.id = item'.id := by
    rw [hpack, hpack', pack_eq_iff (highPort 1).port_lt (highPort 5).port_lt]
    exact ⟨rfl, .inr (by decide)⟩
  have hip := ((hids _ List.mem_cons_self _ (List.mem_cons_of_mem _ List.mem_cons_self) item item'
    hitem hitem').mp hsame).1
  have hquad := inet_networkOrder.injective _ _ ((ip_eq_iff inet_networkOrder _ _).mp hip)
  exact absurd hquad (by decide)

end ServiceItemInfo
end Routn
