import Mathlib.Data.List.TakeWhile
import Mathlib.Tactic
import Routn.Address.Uri.Wellformed

/-!
# `Uri::dump`, read back by `Create`

The text of a URI leaves out a default port and writes `/` for an empty path.  Read back it is a URI
that answers all questions alike, if there is not a digit behind the first colon of the user
information (`Create_toString_iff`).
-/

namespace Routn
namespace Uri

open Foundation Regex UriParser UriGrammar

/-! ## The members -/

def httpName : List UInt8 := [104, 116, 116, 112]

def wsName : List UInt8 := [119, 115]

def httpsName : List UInt8 := [104, 116, 116, 112, 115]

def wssName : List UInt8 := [119, 115, 115]

def isDefaultPort (u : Uri) : Bool :=
  if u._port = 0 then true
  else if u._scheme = httpName ∨ u._scheme = wsName then u._port == 80
  else if u._scheme = httpsName ∨ u._scheme = wssName then u._port == 443
  else false

def getPath (u : Uri) : List UInt8 := if u._path = [] then [47] else u._path

def getPort (u : Uri) : Int32 :=
  if u._port ≠ 0 then u._port
  else if u._scheme = httpName ∨ u._scheme = wsName then 80
  else if u._scheme = httpsName ∨ u._scheme = wssName then 443
  else u._port

def digits (n : Nat) : List UInt8 := (Nat.toDigits 10 n).map fun c => UInt8.ofNat c.toNat

/-- `std::to_string`. -/
def to_string (n : Int32) : List UInt8 :=
  if n.toInt < 0 then 45 :: digits n.toInt.natAbs else digits n.toInt.natAbs

/-- `dump(os)`, and so `toString()`. -/
def toString (u : Uri) : List UInt8 :=
  u._scheme ++ [58, 47, 47] ++ u._userinfo ++ (if u._userinfo = [] then [] else [64]) ++ u._host ++
    (if u.isDefaultPort then [] else 58 :: to_string u._port) ++ u.getPath ++
    (if u._query = [] then [] else [63]) ++ u._query ++
    (if u._fragment = [] then [] else [35]) ++ u._fragment

/-- The two answer all questions alike. -/
structure Agree (u v : Uri) : Prop where
  scheme : v._scheme = u._scheme
  userinfo : v._userinfo = u._userinfo
  host : v._host = u._host
  port : v.getPort = u.getPort
  path : v.getPath = u.getPath
  query : v._query = u._query
  fragment : v._fragment = u._fragment

/-! ## Numbers -/

theorem digit_byte {d : Nat} (hd : d < 10) :
    isdigit (UInt8.ofNat (Nat.digitChar d).toNat) = true ∧
      (UInt8.ofNat (Nat.digitChar d).toNat).toNat = 48 + d := by
  interval_cases d <;> decide

theorem digits_eq (n : Nat) : digits n = (if n < 10 then [] else digits (n / 10)) ++
    [UInt8.ofNat (Nat.digitChar (n % 10)).toNat] := by
  rw [digits]
  split
  · next hn => rw [Nat.toDigits_of_lt_base hn, Nat.mod_eq_of_lt hn]; rfl
  · next hn => rw [Nat.toDigits_of_base_le (by decide) (Nat.not_lt.mp hn), List.map_append]; rfl

theorem isdigit_digits (n : Nat) : ∀ x ∈ digits n, isdigit x = true := by
  induction n using Nat.strong_induction_on with
  | _ n ih =>
      rw [digits_eq]
      intro x hx
      rcases List.mem_append.mp hx with hx | hx
      · split at hx
        · cases hx
        · exact ih (n / 10) (by omega) x hx
      · rw [List.mem_singleton.mp hx]
        exact (digit_byte (Nat.mod_lt n (by decide))).1

theorem decimal_digits (n : Nat) : decimal (digits n) = n := by
  induction n using Nat.strong_induction_on with
  | _ n ih =>
      have hlast := (digit_byte (Nat.mod_lt n (by decide : 10 > 0))).2
      rw [digits_eq, decimal, List.foldl_append, List.foldl_cons, List.foldl_nil, hlast]
      split
      · next hn => simp [Nat.mod_eq_of_lt hn]
      · next hn =>
          have hfront := ih (n / 10) (by omega)
          rw [decimal] at hfront
          rw [hfront]
          omega

theorem digits_ne_nil (n : Nat) : digits n ≠ [] := by
  rw [digits_eq]
  exact List.append_ne_nil_of_right_ne_nil _ (List.cons_ne_nil _ _)

theorem atoi_digits {n : Nat} (hn : n < 2 ^ 31) : atoi (digits n) = Int32.ofNat n := by
  have hall : (digits n).takeWhile isdigit = digits n :=
    List.takeWhile_eq_self_iff.mpr (isdigit_digits n)
  rw [atoi, hall, decimal_digits, Nat.min_eq_left (by omega)]

/-! ## The components of the text -/

def part (s : List UInt8) : Option (List UInt8) := if s = [] then none else some s

/-- What `dump` writes, by its components. -/
def components (u : Uri) : Components where
  scheme := u._scheme
  userinfo := part u._userinfo
  host := u._host
  port := if u.isDefaultPort then none else some (to_string u._port)
  path := u.getPath
  query := part u._query
  fragment := part u._fragment

theorem behind_part (d : UInt8) (s : List UInt8) :
    behind d (part s) = (if s = [] then [] else [d]) ++ s := by
  rw [part]
  split
  · next h => rw [h]; rfl
  · rfl

theorem before_part (d : UInt8) (s : List UInt8) :
    before d (part s) = s ++ if s = [] then [] else [d] := by
  rw [part]
  split
  · next h => rw [h]; rfl
  · rfl

theorem getD_part (s : List UInt8) : (part s).getD [] = s := by
  rw [part]
  split
  · next h => rw [h]; rfl
  · rfl

theorem text_components (u : Uri) : u.components.text = u.toString := by
  have hport : behind 58 u.components.port =
      if u.isDefaultPort then [] else 58 :: to_string u._port := by
    rw [components]
    split <;> rfl
  rw [Components.text, Components.rest, hport, components, before_part, behind_part, behind_part,
    toString]
  simp only [List.append_assoc, List.cons_append, List.nil_append]

/-! ## They are of the form and valid -/

theorem seen_cases (v : List UInt8) : seen v = v ∨ ∃ name, v = name ++ 58 :: seen v := by
  by_cases hlike : PortLike v
  · obtain ⟨name, digit, others, rfl, hname, hdigit⟩ := hlike
    rw [seen_digit hname hdigit]
    exact .inr ⟨name, rfl⟩
  · exact .inl (seen_eq_iff.mpr hlike)

/-- `unreserved | pct_encoded | sub_delims | ":"`. -/
def userChar : Expr := alts unreserved [pctEncoded, subDelims, char ':']

theorem userChar_colon {p : List UInt8} (hp : p ∈ userChar.language mem) (hcolon : 58 ∈ p) :
    p = [58] := by
  rcases mem_alt.mp hp with hp | hp
  · exact absurd hcolon (not_mem_word rfl hp)
  · rcases mem_alt.mp hp with hp | hp
    · exact absurd hcolon (not_mem_word rfl hp)
    · rcases mem_alt.mp hp with hp | hp
      · exact absurd hcolon (not_mem_word rfl hp)
      · exact (mem_char isByte_colon).mp hp

/-- What is behind a colon is user information too: the colon is a character of its own. -/
theorem userinfo_behind_colon {ws : List (List UInt8)} (hws : ∀ p ∈ ws, p ∈ userChar.language mem)
    {name w : List UInt8} (h : name ++ 58 :: w = ws.flatten) :
    w ∈ UriGrammar.userinfo.language mem := by
  induction ws generalizing name with
  | nil => exact absurd h (List.append_ne_nil_of_right_ne_nil _ (List.cons_ne_nil _ _))
  | cons p ws ih =>
      have hrest : ∀ u ∈ ws, u ∈ userChar.language mem :=
        fun u hu => hws u (List.mem_cons_of_mem _ hu)
      rw [List.flatten_cons] at h
      rcases List.append_eq_append_iff.mp h with ⟨front, rfl, hsplit⟩ | ⟨front, rfl, hsplit⟩
      · cases front with
        | nil =>
            have hbehind : [] ++ 58 :: w = ws.flatten := hsplit
            exact ih hrest hbehind
        | cons x front =>
            obtain ⟨rfl, hw⟩ := List.cons.inj hsplit
            have hone := userChar_colon (hws _ List.mem_cons_self) (by simp)
            obtain ⟨-, rfl⟩ : name = [] ∧ front = [] := by
              cases name with
              | nil => exact ⟨rfl, (List.cons.inj hone).2⟩
              | cons y name => simp at hone
            rw [hw]
            exact Language.mem_kstar.mpr ⟨ws, rfl, hrest⟩
      · exact ih hrest hsplit.symm

theorem seen_mem {v : List UInt8} (hv : v ∈ UriGrammar.userinfo.language mem) :
    seen v ∈ UriGrammar.userinfo.language mem := by
  rcases seen_cases v with hsame | ⟨name, hsplit⟩
  · rw [hsame]
    exact hv
  · obtain ⟨ws, hflat, hws⟩ := Language.mem_kstar.mp hv
    exact userinfo_behind_colon hws (hsplit.symm.trans hflat)

theorem seen_subset {v : List UInt8} {x : UInt8} (hx : x ∈ seen v) : x ∈ v := by
  rcases seen_cases v with hsame | ⟨name, hsplit⟩
  · rwa [hsame] at hx
  · rw [hsplit]
    exact List.mem_append_right _ (List.mem_cons_of_mem _ hx)

theorem digits_mem_port {w : List UInt8} (hw : ∀ x ∈ w, isdigit x = true) :
    w ∈ UriGrammar.port.language mem := by
  refine Language.mem_kstar.mpr
    ⟨w.map fun x => [x], (List.flatMap_singleton' w).symm.trans List.flatMap_def, fun p hp => ?_⟩
  obtain ⟨x, hx, rfl⟩ := List.mem_map.mp hp
  have hdigit := hw x hx
  rw [isdigit, Bool.and_eq_true, decide_eq_true_eq, decide_eq_true_eq] at hdigit
  have hlow : 48 ≤ x.toNat := hdigit.1
  have hhigh : x.toNat ≤ 57 := hdigit.2
  refine ⟨x, ?_, rfl⟩
  rw [mem, Digit, List.any_cons, List.any_nil, Bool.or_false, decide_eq_true_eq, signed,
    if_pos (by omega)]
  omega

theorem slash_mem_path : [47] ∈ pathAbempty.language mem :=
  mem_cat.mpr ⟨[47], [], (mem_behind isByte_slash).mpr
    ⟨some [], fun _ hp => Option.mem_some.mp hp ▸ Language.nil_mem_kstar _, rfl⟩,
    Language.nil_mem_kstar _, rfl⟩

theorem mem_part {s v : List UInt8} (h : v ∈ part s) : v = s ∧ s ≠ [] := by
  rw [part] at h
  split at h
  · cases h
  · next hne => exact ⟨(Option.mem_some.mp h).symm, hne⟩

/-- What is set for a part that is not empty was there. -/
theorem mem_of_part {o : Option (List UInt8)} {v : List UInt8} (h : v ∈ part (o.getD [])) :
    v ∈ o := by
  obtain ⟨rfl, hne⟩ := mem_part h
  cases o with
  | none => exact absurd rfl hne
  | some w => rfl

section Created

variable {c : Components} {uri : Uri}

/-- What is known of a URI that is created from a string of the form. -/
theorem eq_of_Create (h : c.OfForm) (hcreate : Create c.text = some (some uri)) :
    c.Valid ∧ uri = {
      _scheme := c.scheme
      _userinfo := (c.userinfo.map seen).getD []
      _host := c.host
      _port := (c.port.map atoi).getD 0
      _path := c.path
      _query := c.query.getD []
      _fragment := c.fragment.getD [] } := by
  obtain ⟨hvalid, hcreated⟩ := (Components.created_iff h).mp hcreate
  rw [Components.created, if_neg (Components.port_ne_nil h hcreate)] at hcreated
  exact ⟨hvalid, (Option.some.inj hcreated).symm⟩

theorem port_nonneg (h : c.OfForm) (hport : decimal (c.port.getD []) < 2 ^ 31) :
    ∃ n < 2 ^ 31, (c.port.map atoi).getD 0 = Int32.ofNat n := by
  cases hdigits : c.port with
  | none => exact ⟨0, by decide, rfl⟩
  | some w =>
      rw [hdigits] at hport
      have hall : w.takeWhile isdigit = w :=
        List.takeWhile_eq_self_iff.mpr (h.port w hdigits)
      refine ⟨decimal w, hport, ?_⟩
      show atoi w = _
      have hlt : decimal w < 2 ^ 31 := hport
      rw [atoi, hall, Nat.min_eq_left (by omega)]

theorem to_string_ofNat {n : Nat} (hn : n < 2 ^ 31) : to_string (Int32.ofNat n) = digits n := by
  have htoInt : (Int32.ofNat n).toInt = n := Int32.toInt_ofNat_of_lt hn
  rw [to_string, htoInt, if_neg (by omega), Int.natAbs_natCast]

end Created

/-! ## The round trip -/

section RoundTrip

variable {c : Components} {uri : Uri}

theorem components_ofForm (h : c.OfForm) (hcreate : Create c.text = some (some uri))
    (hport : decimal (c.port.getD []) < 2 ^ 31) : uri.components.OfForm := by
  obtain ⟨-, rfl⟩ := eq_of_Create h hcreate
  refine { scheme := h.scheme, userinfo := ?_, host := h.host, port := ?_, path := ?_, query := ?_ }
  · intro v hv x hx
    obtain ⟨w, hw, rfl⟩ := Option.map_eq_some_iff.mp (mem_of_part hv)
    exact h.userinfo w hw x (seen_subset hx)
  · intro w hw x hx
    simp only [components] at hw
    split at hw
    · cases hw
    · obtain ⟨n, hn, heq⟩ := port_nonneg h hport
      rw [← Option.mem_some.mp hw, heq, to_string_ofNat hn] at hx
      exact isdigit_digits n x hx
  · simp only [components, getPath]
    split
    · decide
    · exact h.path
  · intro q hq
    exact h.query q (mem_of_part hq)

theorem components_valid (h : c.OfForm) (hcreate : Create c.text = some (some uri))
    (hport : decimal (c.port.getD []) < 2 ^ 31) : uri.components.Valid := by
  have hform := components_ofForm h hcreate hport
  obtain ⟨hvalid, rfl⟩ := eq_of_Create h hcreate
  refine { scheme := hvalid.scheme, userinfo := ?_, host := hvalid.host, port := ?_, path := ?_,
           query := ?_, fragment := ?_ }
  · intro v hv
    obtain ⟨w, hw, rfl⟩ := Option.map_eq_some_iff.mp (mem_of_part hv)
    exact seen_mem (hvalid.userinfo w hw)
  · exact fun w hw => digits_mem_port (hform.port w hw)
  · simp only [components, getPath]
    split
    · exact slash_mem_path
    · exact hvalid.path
  · exact fun q hq => hvalid.query q (mem_of_part hq)
  · exact fun f hf => hvalid.fragment f (mem_of_part hf)

/-- The URI that is read back. -/
def readBack (u : Uri) : Uri :=
  { u with
    _userinfo := seen u._userinfo
    _port := if u.isDefaultPort then 0 else u._port
    _path := u.getPath }

theorem created_components {n : Nat} (hn : n < 2 ^ 31) (hport : uri._port = Int32.ofNat n) :
    uri.components.created = some uri.readBack := by
  have hne : uri.components.port ≠ some [] := by
    rw [components, hport, to_string_ofNat hn]
    split
    · exact nofun
    · exact fun h => digits_ne_nil n (Option.some.inj h)
  have huser : ((part uri._userinfo).map seen).getD [] = seen uri._userinfo := by
    rw [part]
    split
    · next h => rw [h]; rfl
    · rfl
  have hdigits : (uri.components.port.map atoi).getD 0 =
      if uri.isDefaultPort then 0 else uri._port := by
    rw [components, hport, to_string_ofNat hn]
    split
    · rfl
    · exact atoi_digits hn
  rw [Components.created, if_neg hne, hdigits, readBack]
  simp only [components, huser, getD_part]

theorem getPort_readBack (u : Uri) : u.readBack.getPort = u.getPort := by
  have hscheme : u.readBack._scheme = u._scheme := rfl
  have hport : u.readBack._port = if u.isDefaultPort then 0 else u._port := rfl
  rw [getPort, getPort, hscheme, hport, isDefaultPort]
  by_cases hzero : u._port = 0
  · simp [hzero]
  · by_cases hhttp : u._scheme = httpName ∨ u._scheme = wsName
    · by_cases h80 : u._port = 80 <;> simp [hzero, hhttp, h80]
    · by_cases hhttps : u._scheme = httpsName ∨ u._scheme = wssName
      · by_cases h443 : u._port = 443 <;> simp [hzero, hhttp, hhttps, h443]
      · simp [hzero, hhttp, hhttps]

theorem getPath_readBack (u : Uri) : u.readBack.getPath = u.getPath := by
  have hne : u.readBack._path ≠ [] := by
    show u.getPath ≠ []
    rw [getPath]
    split
    · exact List.cons_ne_nil _ _
    · assumption
  exact if_neg hne

theorem agree_readBack (u : Uri) : Agree u u.readBack ↔ ¬ PortLike u._userinfo := by
  rw [← seen_eq_iff]
  constructor
  · exact fun h => h.userinfo
  · exact fun h =>
      { scheme := rfl, userinfo := h, host := rfl, port := getPort_readBack u,
        path := getPath_readBack u, query := rfl, fragment := rfl }

/-- **A URI that was created is read back from its text,** as far as its members tell, if and only
if there is not a digit behind the first colon of its user information. -/
theorem Create_toString_iff (h : c.OfForm) (hcreate : Create c.text = some (some uri))
    (hport : decimal (c.port.getD []) < 2 ^ 31) :
    (∃ v, Create uri.toString = some (some v) ∧ Agree uri v) ↔ ¬ PortLike uri._userinfo := by
  obtain ⟨n, hn, hn'⟩ := port_nonneg h hport
  have hset : uri._port = Int32.ofNat n := by
    rw [← hn', (eq_of_Create h hcreate).2]
  have hread : Create uri.toString = some (some uri.readBack) := by
    rw [← text_components]
    exact (Components.created_iff (components_ofForm h hcreate hport)).mpr
      ⟨components_valid h hcreate hport, created_components hn hset⟩
  rw [← agree_readBack]
  constructor
  · rintro ⟨v, hv, hagree⟩
    rw [hread] at hv
    cases hv
    exact hagree
  · exact fun hagree => ⟨_, hread, hagree⟩

end RoundTrip

set_option maxRecDepth 8000 in
/-- `http://user:a@host:80/` has the port left out. -/
theorem Create_toString_userAHost :
    (∃ v, Create (toString
        { _scheme := [104, 116, 116, 112]
          _userinfo := [117, 115, 101, 114, 58, 97]
          _host := [104, 111, 115, 116]
          _path := [47]
          _port := 80 }) = some (some v) ∧
      Agree
        { _scheme := [104, 116, 116, 112]
          _userinfo := [117, 115, 101, 114, 58, 97]
          _host := [104, 111, 115, 116]
          _path := [47]
          _port := 80 } v) ↔
      ¬ PortLike [117, 115, 101, 114, 58, 97] :=
  Create_toString_iff ofForm_userAHost rfl (by decide)

end Uri
end Routn
