import Mathlib.Tactic
import Routn.Address.Uri.Accepted
import Routn.Address.Uri.Components

/-!
# Which components are accepted

Of the strings with a scheme and an authority the machine takes those whose components are words of
their rules (`Create_text`).  That the grammar has no other way to divide such a string is shown
from the delimiters alone (`text_injective`).
-/

namespace Routn
namespace Uri

open Foundation Regex UriParser UriGrammar

/-! ## Words -/

section Words

variable {r a b : Expr} {w : List UInt8}

theorem mem_cat : w ∈ (cat a b).language mem ↔
    ∃ u v, u ∈ a.language mem ∧ v ∈ b.language mem ∧ w = u ++ v := by
  show w ∈ a.language mem * b.language mem ↔ _
  rw [Language.mem_mul]
  constructor
  · rintro ⟨u, hu, v, hv, rfl⟩
    exact ⟨u, v, hu, hv, rfl⟩
  · rintro ⟨u, v, hu, hv, rfl⟩
    exact ⟨u, hu, v, hv, rfl⟩

theorem mem_alt : w ∈ (alt a b).language mem ↔ w ∈ a.language mem ∨ w ∈ b.language mem :=
  Language.mem_add ..

theorem mem_eps : w ∈ (eps : Expr).language mem ↔ w = [] := Language.mem_one w

/-- A character in quotes stands for one byte. -/
def IsByte (c : Char) (x : UInt8) : Prop := ∀ y, mem [(c.toNat, c.toNat)] y = (y == x)

theorem isByte_of_signed {c : Char} {x : UInt8} (h : signed x = c.toNat) : IsByte c x := by
  intro y
  rw [mem, List.any_cons, List.any_nil, Bool.or_false, Bool.eq_iff_iff, decide_eq_true_eq,
    beq_iff_eq, ← le_antisymm_iff, ← h]
  exact ⟨fun heq => signed_injective heq.symm, fun heq => heq ▸ rfl⟩

theorem isByte_colon : IsByte ':' 58 := isByte_of_signed rfl

theorem isByte_slash : IsByte '/' 47 := isByte_of_signed rfl

theorem isByte_at : IsByte '@' 64 := isByte_of_signed rfl

theorem isByte_question : IsByte '?' 63 := isByte_of_signed rfl

theorem isByte_hash : IsByte '#' 35 := isByte_of_signed rfl

theorem isByte_opening : IsByte '[' 91 := isByte_of_signed rfl

theorem isByte_closing : IsByte ']' 93 := isByte_of_signed rfl

theorem mem_char {c : Char} {x : UInt8} (hx : IsByte c x) :
    w ∈ (char c).language mem ↔ w = [x] := by
  constructor
  · rintro ⟨y, hy, rfl⟩
    rw [hx y, beq_iff_eq] at hy
    rw [hy]
  · rintro rfl
    exact ⟨x, (hx x).trans (beq_self_eq_true x), rfl⟩

theorem mem_char_cat {c : Char} {x : UInt8} (hx : IsByte c x) :
    w ∈ (cat (char c) r).language mem ↔ ∃ v, v ∈ r.language mem ∧ w = x :: v := by
  rw [mem_cat]
  constructor
  · rintro ⟨u, v, hu, hv, rfl⟩
    rw [mem_char hx] at hu
    exact ⟨v, hv, by rw [hu, List.singleton_append]⟩
  · rintro ⟨v, hv, rfl⟩
    exact ⟨[x], v, (mem_char hx).mpr rfl, hv, rfl⟩

/-- A part that may be absent, with its delimiter in front of it. -/
theorem mem_behind {c : Char} {x : UInt8} (hx : IsByte c x) :
    w ∈ (opt (cat (char c) r)).language mem ↔
      ∃ part : Option (List UInt8), (∀ p ∈ part, p ∈ r.language mem) ∧ w = behind x part := by
  rw [opt, mem_alt, mem_char_cat hx, mem_eps]
  constructor
  · rintro (⟨v, hv, rfl⟩ | rfl)
    · exact ⟨some v, fun p hp => Option.mem_some.mp hp ▸ hv, rfl⟩
    · exact ⟨none, nofun, rfl⟩
  · rintro ⟨_ | v, hv, rfl⟩
    · exact .inr rfl
    · exact .inl ⟨v, hv v rfl, rfl⟩

theorem mem_before {c : Char} {x : UInt8} (hx : IsByte c x) :
    w ∈ (opt (cat r (char c))).language mem ↔
      ∃ part : Option (List UInt8), (∀ p ∈ part, p ∈ r.language mem) ∧ w = before x part := by
  rw [opt, mem_alt, mem_cat, mem_eps]
  constructor
  · rintro (⟨v, u, hv, hu, rfl⟩ | rfl)
    · rw [mem_char hx] at hu
      exact ⟨some v, fun p hp => Option.mem_some.mp hp ▸ hv, by rw [hu]; rfl⟩
    · exact ⟨none, nofun, rfl⟩
  · rintro ⟨_ | v, hv, rfl⟩
    · exact .inr rfl
    · exact .inl ⟨v, [x], hv v rfl, (mem_char hx).mpr rfl, rfl⟩

theorem not_mem_word {x : UInt8} (h : (r.symbols.all fun s => !mem s x) = true)
    (hw : w ∈ r.language mem) : x ∉ w :=
  not_mem_of_language (fun s hs => Bool.not_eq_true' _ ▸ List.all_eq_true.mp h s hs) hw

end Words

/-! ## The delimiters -/

/-- What is a character of user information, a registered name or a port, as far as the delimiters
behind them go. -/
def inUser (x : UInt8) : Prop := x ≠ 64 ∧ x ≠ 47 ∧ x ≠ 63 ∧ x ≠ 35 ∧ x ≠ 91

def inName (x : UInt8) : Prop := inUser x ∧ x ≠ 58

/-- A name without delimiters, or an address in brackets. -/
def HostText (h : List UInt8) : Prop :=
  (∀ x ∈ h, inName x) ∨ ∃ address, h = 91 :: address ++ [93] ∧ 93 ∉ address

namespace Components

/-- No component holds what ends it. -/
structure Delimited (c : Components) : Prop where
  scheme : 58 ∉ c.scheme
  userinfo : ∀ v ∈ c.userinfo, ∀ x ∈ v, inUser x
  host : HostText c.host
  port : ∀ digits ∈ c.port, ∀ x ∈ digits, inName x
  path : (c.path = [] ∨ c.path.head? = some 47) ∧ 63 ∉ c.path ∧ 35 ∉ c.path
  query : ∀ q ∈ c.query, 35 ∉ q

/-- Each component is a word of its rule. -/
structure Valid (c : Components) : Prop where
  scheme : c.scheme ∈ UriGrammar.scheme.language mem
  userinfo : ∀ v ∈ c.userinfo, v ∈ UriGrammar.userinfo.language mem
  host : c.host ∈ UriGrammar.host.language mem
  port : ∀ digits ∈ c.port, digits ∈ UriGrammar.port.language mem
  path : c.path ∈ pathAbempty.language mem
  query : ∀ q ∈ c.query, q ∈ UriGrammar.query.language mem
  fragment : ∀ f ∈ c.fragment, f ∈ UriGrammar.fragment.language mem

end Components

/-- What may be behind an authority. -/
theorem ends_rest (query fragment : Option (List UInt8)) :
    Ends (behind 63 query ++ behind 35 fragment) := by
  cases query with
  | some q =>
      rintro x ⟨⟩
      exact .inr (.inl rfl)
  | none =>
      cases fragment with
      | some f =>
          rintro x ⟨⟩
          exact .inr (.inr rfl)
      | none => rintro x ⟨⟩

theorem ends_path {path tail : List UInt8} (hpath : path = [] ∨ path.head? = some 47)
    (htail : Ends tail) : Ends (path ++ tail) := by
  cases path with
  | nil => exact htail
  | cons y path =>
      rintro x ⟨⟩
      rcases hpath with hpath | hpath
      · cases hpath
      · exact .inl (Option.some.inj hpath)

/-! ### Unique splits -/

section Splits

variable {P : UInt8 → Prop} {u u' v v' : List UInt8}

/-- The first character that is not of a kind divides a text. -/
theorem append_unique (hu : ∀ x ∈ u, P x) (hu' : ∀ x ∈ u', P x) (hv : ∀ x ∈ v.head?, ¬ P x)
    (hv' : ∀ x ∈ v'.head?, ¬ P x) (h : u ++ v = u' ++ v') : u = u' ∧ v = v' := by
  induction u generalizing u' with
  | nil =>
      cases u' with
      | nil => exact ⟨rfl, h⟩
      | cons x u' =>
          rw [List.nil_append] at h
          rw [h] at hv
          exact absurd (hu' x List.mem_cons_self) (hv x rfl)
  | cons y u ih =>
      cases u' with
      | nil =>
          rw [List.nil_append] at h
          rw [← h] at hv'
          exact absurd (hu y List.mem_cons_self) (hv' y rfl)
      | cons x u' =>
          obtain ⟨rfl, hrest⟩ := List.cons.inj h
          obtain ⟨rfl, rfl⟩ := ih (fun z hz => hu z (List.mem_cons_of_mem _ hz))
            (fun z hz => hu' z (List.mem_cons_of_mem _ hz)) hrest
          exact ⟨rfl, rfl⟩

theorem head_ne {x : UInt8} {w : List UInt8} (h : ¬ P x) : ∀ y ∈ (x :: w).head?, ¬ P y := by
  rintro y ⟨⟩
  exact h

theorem behind_unique {d : UInt8} {part part' : Option (List UInt8)}
    (hpart : ∀ p ∈ part, ∀ x ∈ p, P x) (hpart' : ∀ p ∈ part', ∀ x ∈ p, P x)
    (hv : ∀ x ∈ v.head?, ¬ P x ∧ x ≠ d) (hv' : ∀ x ∈ v'.head?, ¬ P x ∧ x ≠ d)
    (h : behind d part ++ v = behind d part' ++ v') : part = part' ∧ v = v' := by
  cases part with
  | none =>
      cases part' with
      | none => exact ⟨rfl, h⟩
      | some p' =>
          rw [show v = d :: (p' ++ v') from h] at hv
          exact absurd rfl (hv d rfl).2
  | some p =>
      cases part' with
      | none =>
          rw [show v' = d :: (p ++ v) from h.symm] at hv'
          exact absurd rfl (hv' d rfl).2
      | some p' =>
          obtain ⟨rfl, rfl⟩ := append_unique (hpart p rfl) (hpart' p' rfl)
            (fun x hx => (hv x hx).1) (fun x hx => (hv' x hx).1) (List.cons.inj h).2
          exact ⟨rfl, rfl⟩

theorem not_inUser_of_ends {tail : List UInt8} (h : Ends tail) : ∀ x ∈ tail.head?, ¬ inUser x := by
  rintro x hx ⟨-, hslash, hquestion, hhash, -⟩
  rcases h x hx with rfl | rfl | rfl
  · exact hslash rfl
  · exact hquestion rfl
  · exact hhash rfl

/-- Behind a host there is a colon, or the authority ends. -/
theorem not_inName_behind {port : Option (List UInt8)} {tail : List UInt8} (h : Ends tail) :
    ∀ x ∈ (behind 58 port ++ tail).head?, ¬ inName x := by
  cases port with
  | none => exact fun x hx hname => not_inUser_of_ends h x hx hname.1
  | some digits =>
      rintro x ⟨⟩ hname
      exact hname.2 rfl

theorem host_unique {h h' : List UInt8} (hh : HostText h) (hh' : HostText h')
    (hv : ∀ x ∈ v.head?, ¬ inName x ∧ x ≠ 91) (hv' : ∀ x ∈ v'.head?, ¬ inName x ∧ x ≠ 91)
    (heq : h ++ v = h' ++ v') : h = h' ∧ v = v' := by
  rcases hh with hh | ⟨address, rfl, haddress⟩ <;> rcases hh' with hh' | ⟨address', rfl, haddress'⟩
  · exact append_unique hh hh' (fun x hx => (hv x hx).1) (fun x hx => (hv' x hx).1) heq
  · cases h with
    | nil =>
        rw [List.nil_append] at heq
        rw [heq] at hv
        exact absurd rfl (hv 91 rfl).2
    | cons x h =>
        obtain ⟨rfl, -⟩ := List.cons.inj heq
        exact absurd rfl (hh _ List.mem_cons_self).1.2.2.2.2
  · cases h' with
    | nil =>
        rw [List.nil_append] at heq
        rw [← heq] at hv'
        exact absurd rfl (hv' 91 rfl).2
    | cons x h' =>
        obtain ⟨rfl, -⟩ := List.cons.inj heq
        exact absurd rfl (hh' _ List.mem_cons_self).1.2.2.2.2
  · have hrest : address ++ 93 :: v = address' ++ 93 :: v' := by
      simpa using (List.cons.inj heq).2
    obtain ⟨rfl, hcons⟩ := append_unique (P := fun x => x ≠ 93)
      (fun x hx hclose => haddress (hclose ▸ hx)) (fun x hx hclose => haddress' (hclose ▸ hx))
      (head_ne fun hne => hne rfl) (head_ne fun hne => hne rfl) hrest
    exact ⟨rfl, (List.cons.inj hcons).2⟩

/-- In a host and a port there is no `@` that could end user information. -/
theorem host_ne_user {h v w tail : List UInt8} {port : Option (List UInt8)} (hh : HostText h)
    (hport : ∀ digits ∈ port, ∀ x ∈ digits, inName x) (htail : Ends tail)
    (hv : ∀ x ∈ v, inUser x) : h ++ (behind 58 port ++ tail) ≠ v ++ 64 :: w := by
  intro heq
  rcases hh with hh | ⟨address, rfl, -⟩
  · have hfront : ∀ x ∈ h ++ behind 58 port, inUser x := by
      intro x hx
      rcases List.mem_append.mp hx with hx | hx
      · exact (hh x hx).1
      · cases port with
        | none => cases hx
        | some digits =>
            rcases List.mem_cons.mp hx with rfl | hx
            · simp [inUser]
            · exact (hport digits rfl x hx).1
    rw [← List.append_assoc] at heq
    obtain ⟨-, rfl⟩ := append_unique hfront hv (not_inUser_of_ends htail)
      (head_ne fun hat => hat.1 rfl) heq
    rcases htail 64 rfl with h | h | h <;> exact absurd h (by decide)
  · cases v with
    | nil => exact absurd (List.cons.inj heq).1 (by decide)
    | cons x v =>
        obtain ⟨rfl, -⟩ := List.cons.inj heq
        exact (hv _ List.mem_cons_self).2.2.2.2 rfl

/-- The user information is there in both texts or in none. -/
theorem before_unique {user user' port port' : Option (List UInt8)}
    {h h' tail tail' : List UInt8} (huser : ∀ v ∈ user, ∀ x ∈ v, inUser x)
    (huser' : ∀ v ∈ user', ∀ x ∈ v, inUser x) (hh : HostText h) (hh' : HostText h')
    (hport : ∀ digits ∈ port, ∀ x ∈ digits, inName x)
    (hport' : ∀ digits ∈ port', ∀ x ∈ digits, inName x) (htail : Ends tail) (htail' : Ends tail')
    (heq : before 64 user ++ (h ++ (behind 58 port ++ tail)) =
      before 64 user' ++ (h' ++ (behind 58 port' ++ tail'))) :
    user = user' ∧ h ++ (behind 58 port ++ tail) = h' ++ (behind 58 port' ++ tail') := by
  cases user with
  | none =>
      cases user' with
      | none => exact ⟨rfl, heq⟩
      | some v =>
          refine absurd heq ?_
          simp only [before, List.nil_append, List.append_assoc, List.singleton_append]
          exact host_ne_user hh hport htail (huser' v rfl)
  | some v =>
      simp only [before, List.append_assoc, List.singleton_append] at heq
      cases user' with
      | none => exact absurd heq.symm (host_ne_user hh' hport' htail' (huser v rfl))
      | some v' =>
          simp only [List.append_assoc, List.singleton_append] at heq
          obtain ⟨rfl, hrest⟩ := append_unique (huser v rfl) (huser' v' rfl)
            (head_ne fun hat => hat.1 rfl) (head_ne fun hat => hat.1 rfl) heq
          exact ⟨rfl, (List.cons.inj hrest).2⟩

theorem behind_host {port : Option (List UInt8)} {tail : List UInt8} (htail : Ends tail) :
    ∀ x ∈ (behind 58 port ++ tail).head?, ¬ inName x ∧ x ≠ 91 := by
  intro x hx
  refine ⟨not_inName_behind htail x hx, ?_⟩
  rintro rfl
  cases port with
  | none => rcases htail 91 hx with h | h | h <;> exact absurd h (by decide)
  | some digits => exact absurd (Option.some.inj hx) (by decide)

theorem behind_port {tail : List UInt8} (htail : Ends tail) :
    ∀ x ∈ tail.head?, ¬ inName x ∧ x ≠ 58 := by
  intro x hx
  refine ⟨fun hname => not_inUser_of_ends htail x hx hname.1, ?_⟩
  rintro rfl
  rcases htail 58 hx with h | h | h <;> exact absurd h (by decide)

theorem behind_path (query fragment : Option (List UInt8)) :
    ∀ x ∈ (behind 63 query ++ behind 35 fragment).head?, ¬ (x ≠ 63 ∧ x ≠ 35) := by
  cases query with
  | some q => exact head_ne fun hne => hne.1 rfl
  | none =>
      cases fragment with
      | some f => exact head_ne fun hne => hne.2 rfl
      | none => exact nofun

theorem behind_query (fragment : Option (List UInt8)) :
    ∀ x ∈ (behind 35 fragment).head?, ¬ x ≠ 35 ∧ x ≠ 63 := by
  cases fragment with
  | some f =>
      rintro x ⟨⟩
      exact ⟨fun hne => hne rfl, by decide⟩
  | none => exact nofun

theorem behind_injective {d : UInt8} {part part' : Option (List UInt8)}
    (h : behind d part = behind d part') : part = part' := by
  cases part <;> cases part' <;> simp_all [behind]

end Splits

/-! ## The grammar of the whole text -/

theorem inName_of_plain {x : UInt8} (h : plain x = true) : inName x := by
  have hne : ∀ y, plain y = false → x ≠ y := by
    rintro y hy rfl
    rw [hy] at h
    cases h
  exact ⟨⟨hne 64 rfl, hne 47 rfl, hne 63 rfl, hne 35 rfl, hne 91 rfl⟩, hne 58 rfl⟩

theorem inUser_of_mem {r : Expr}
    (h : (r.symbols.all fun s =>
      !mem s 64 && !mem s 47 && !mem s 63 && !mem s 35 && !mem s 91) = true)
    {w : List UInt8} (hw : w ∈ r.language mem) : ∀ x ∈ w, inUser x := by
  have hnot : ∀ y ∈ [64, 47, 63, 35, 91], y ∉ w := by
    intro y hy
    refine not_mem_word (List.all_eq_true.mpr fun s hs => ?_) hw
    have hs := List.all_eq_true.mp h s hs
    simp only [Bool.and_eq_true] at hs
    obtain ⟨⟨⟨⟨hat, hslash⟩, hquestion⟩, hhash⟩, hopening⟩ := hs
    simp only [List.mem_cons, List.not_mem_nil, or_false] at hy
    rcases hy with rfl | rfl | rfl | rfl | rfl
    · exact hat
    · exact hslash
    · exact hquestion
    · exact hhash
    · exact hopening
  intro x hx
  have hne : ∀ y ∈ [64, 47, 63, 35, 91], x ≠ y := fun y hy heq => hnot y hy (heq ▸ hx)
  exact ⟨hne 64 (by simp), hne 47 (by simp), hne 63 (by simp), hne 35 (by simp), hne 91 (by simp)⟩

theorem inName_of_mem {r : Expr}
    (h : (r.symbols.all fun s =>
      !mem s 64 && !mem s 47 && !mem s 63 && !mem s 35 && !mem s 91) = true)
    (hcolon : (r.symbols.all fun s => !mem s 58) = true) {w : List UInt8}
    (hw : w ∈ r.language mem) : ∀ x ∈ w, inName x :=
  fun x hx => ⟨inUser_of_mem h hw x hx, fun heq => not_mem_word hcolon hw (heq ▸ hx)⟩

set_option maxRecDepth 8000 in
theorem hostText_of_mem {h : List UInt8} (hh : h ∈ host.language mem) : HostText h := by
  rcases mem_alt.mp hh with hh | hh
  · obtain ⟨v, hv, rfl⟩ := (mem_char_cat isByte_opening).mp hh
    obtain ⟨address, w, haddress, hw, rfl⟩ := mem_cat.mp hv
    obtain rfl := (mem_char isByte_closing).mp hw
    exact .inr ⟨address, rfl, not_mem_word rfl haddress⟩
  · rcases mem_alt.mp hh with hh | hh
    · exact .inl (inName_of_mem rfl rfl hh)
    · exact .inl (inName_of_mem rfl rfl hh)

theorem head_of_segments {w : List UInt8} (hw : w ∈ (star slashSegment).language mem) :
    w = [] ∨ w.head? = some 47 := by
  obtain ⟨ws, rfl, hws⟩ := Language.mem_kstar.mp hw
  cases ws with
  | nil => exact .inl rfl
  | cons w ws =>
      obtain ⟨p, -, rfl⟩ := (mem_char_cat isByte_slash).mp (hws w List.mem_cons_self)
      exact .inr rfl

theorem path_of_mem {w : List UInt8} (hw : w ∈ pathAbempty.language mem) :
    (w = [] ∨ w.head? = some 47) ∧ 63 ∉ w ∧ 35 ∉ w := by
  refine ⟨?_, not_mem_word rfl hw, not_mem_word rfl hw⟩
  obtain ⟨u, v, hu, hv, rfl⟩ := mem_cat.mp hw
  obtain ⟨part, -, rfl⟩ := (mem_behind isByte_slash).mp hu
  cases part with
  | some p => exact .inr rfl
  | none => exact head_of_segments hv

namespace Components

variable {c c' : Components}

theorem OfForm.delimited (h : c.OfForm) : c.Delimited where
  scheme := by
    obtain ⟨first, others, hsplit, hfirst, hothers⟩ := h.scheme
    have hcolon : ∀ x, (isalpha x || isdigit x || issign x) = true → x ≠ 58 := by
      rintro x hx rfl
      exact absurd hx (by decide)
    rw [hsplit]
    intro hmem
    rcases List.mem_cons.mp hmem with heq | hmem
    · exact hcolon first (by rw [hfirst]; rfl) heq.symm
    · exact hcolon _ (hothers _ hmem) rfl
  userinfo := by
    intro v hv x hx
    rcases h.userinfo v hv x hx with hplain | rfl
    · exact (inName_of_plain hplain).1
    · simp [inUser]
  host := by
    rcases h.host with hplain | haddress
    · exact .inl fun x hx => inName_of_plain (hplain x hx)
    · exact .inr haddress
  port := by
    intro digits hdigits x hx
    exact inName_of_plain (by rw [plain, kind_of_isdigit (h.port digits hdigits x hx)]; rfl)
  path := h.path
  query := h.query

theorem Valid.delimited (h : c.Valid) : c.Delimited where
  scheme := not_mem_word rfl h.scheme
  userinfo := fun v hv => inUser_of_mem rfl (h.userinfo v hv)
  host := hostText_of_mem h.host
  port := fun digits hdigits =>
    inName_of_mem rfl rfl (h.port digits hdigits)
  path := path_of_mem h.path
  query := fun q hq => not_mem_word rfl (h.query q hq)

/-- **A text has its components in one way only.** -/
theorem text_injective (h : c.Delimited) (h' : c'.Delimited) (heq : c.text = c'.text) : c = c' := by
  obtain ⟨hscheme, hbehind⟩ := append_unique (P := fun x => x ≠ 58)
    (fun x hx hx' => h.scheme (hx' ▸ hx)) (fun x hx hx' => h'.scheme (hx' ▸ hx))
    (head_ne fun hne => hne rfl) (head_ne fun hne => hne rfl) heq
  have hauthority := (List.cons.inj (List.cons.inj (List.cons.inj hbehind).2).2).2
  have hends := ends_path h.path.1 (ends_rest c.query c.fragment)
  have hends' := ends_path h'.path.1 (ends_rest c'.query c'.fragment)
  obtain ⟨huser, hhost⟩ := before_unique h.userinfo h'.userinfo h.host h'.host h.port h'.port
    hends hends' hauthority
  obtain ⟨hhost, hport⟩ := host_unique h.host h'.host (behind_host hends) (behind_host hends') hhost
  obtain ⟨hport, hpath⟩ := behind_unique h.port h'.port (behind_port hends) (behind_port hends')
    hport
  obtain ⟨hpath, hrest⟩ := append_unique (P := fun x => x ≠ 63 ∧ x ≠ 35)
    (fun x hx => ⟨fun heq => h.path.2.1 (heq ▸ hx), fun heq => h.path.2.2 (heq ▸ hx)⟩)
    (fun x hx => ⟨fun heq => h'.path.2.1 (heq ▸ hx), fun heq => h'.path.2.2 (heq ▸ hx)⟩)
    (behind_path c.query c.fragment) (behind_path c'.query c'.fragment) hpath
  obtain ⟨hquery, hfragment⟩ := behind_unique (P := fun x => x ≠ 35)
    (fun q hq x hx heq => h.query q hq (heq ▸ hx))
    (fun q hq x hx heq => h'.query q hq (heq ▸ hx)) (behind_query c.fragment)
    (behind_query c'.fragment) hrest
  have hfragment := behind_injective hfragment
  cases c
  cases c'
  exact (mk.injEq ..).mpr ⟨hscheme, huser, hhost, hport, hpath, hquery, hfragment⟩

end Components

theorem mem_tail {w : List UInt8} : w ∈ UriGrammar.tail.language mem ↔
    ∃ query fragment : Option (List UInt8), (∀ q ∈ query, q ∈ UriGrammar.query.language mem) ∧
      (∀ f ∈ fragment, f ∈ UriGrammar.fragment.language mem) ∧
      w = behind 63 query ++ behind 35 fragment := by
  refine mem_cat.trans ?_
  constructor
  · rintro ⟨u, v, hu, hv, rfl⟩
    obtain ⟨query, hquery, rfl⟩ := (mem_behind isByte_question).mp hu
    obtain ⟨fragment, hfragment, rfl⟩ := (mem_behind isByte_hash).mp hv
    exact ⟨query, fragment, hquery, hfragment, rfl⟩
  · rintro ⟨query, fragment, hquery, hfragment, rfl⟩
    exact ⟨_, _, (mem_behind isByte_question).mpr ⟨query, hquery, rfl⟩,
      (mem_behind isByte_hash).mpr ⟨fragment, hfragment, rfl⟩, rfl⟩

theorem mem_netPath {w : List UInt8} : w ∈ netPath.language mem ↔
    ∃ (userinfo : Option (List UInt8)) (host : List UInt8) (port : Option (List UInt8))
      (path : List UInt8), (∀ v ∈ userinfo, v ∈ UriGrammar.userinfo.language mem) ∧
      host ∈ UriGrammar.host.language mem ∧
      (∀ digits ∈ port, digits ∈ UriGrammar.port.language mem) ∧
      path ∈ pathAbempty.language mem ∧
      w = 47 :: 47 :: (before 64 userinfo ++ (host ++ behind 58 port) ++ path) := by
  refine (mem_char_cat isByte_slash).trans ?_
  constructor
  · rintro ⟨w₁, hw₁, rfl⟩
    obtain ⟨w₂, hw₂, rfl⟩ := (mem_char_cat isByte_slash).mp hw₁
    obtain ⟨a, path, ha, hpath, rfl⟩ := mem_cat.mp hw₂
    obtain ⟨u, b, hu, hb, rfl⟩ := mem_cat.mp ha
    obtain ⟨userinfo, huser, rfl⟩ := (mem_before isByte_at).mp hu
    obtain ⟨host, p, hhost, hp, rfl⟩ := mem_cat.mp hb
    obtain ⟨port, hport, rfl⟩ := (mem_behind isByte_colon).mp hp
    exact ⟨userinfo, host, port, path, huser, hhost, hport, hpath, rfl⟩
  · rintro ⟨userinfo, host, port, path, huser, hhost, hport, hpath, rfl⟩
    have hauthority : before 64 userinfo ++ (host ++ behind 58 port) ∈ authority.language mem :=
      mem_cat.mpr ⟨_, _, (mem_before isByte_at).mpr ⟨userinfo, huser, rfl⟩,
        mem_cat.mpr ⟨_, _, hhost, (mem_behind isByte_colon).mpr ⟨port, hport, rfl⟩, rfl⟩, rfl⟩
    exact ⟨_, (mem_char_cat isByte_slash).mpr ⟨_, mem_cat.mpr ⟨_, _, hauthority, hpath, rfl⟩, rfl⟩,
      rfl⟩

/-! ### What begins with a scheme -/

/-- No delimiter that could be in front of the colon behind a scheme. -/
def inScheme (x : UInt8) : Prop := x ≠ 58 ∧ x ≠ 47 ∧ x ≠ 63 ∧ x ≠ 35

theorem not_inScheme_of_ends {tail : List UInt8} (h : Ends tail) :
    ∀ x ∈ tail.head?, ¬ inScheme x := by
  rintro x hx ⟨-, hslash, hquestion, hhash⟩
  rcases h x hx with rfl | rfl | rfl
  · exact hslash rfl
  · exact hquestion rfl
  · exact hhash rfl

/-- A relative part is a first segment without a colon and what a slash begins. -/
theorem split_relativePart {w : List UInt8} (hw : w ∈ relativePart.language mem) :
    ∃ u v, w = u ++ v ∧ (∀ x ∈ u, inScheme x) ∧ (v = [] ∨ v.head? = some 47) := by
  rcases mem_alt.mp hw with hw | hw
  · obtain ⟨v, -, rfl⟩ := (mem_char_cat isByte_slash).mp hw
    exact ⟨[], 47 :: v, rfl, nofun, .inr rfl⟩
  · rcases mem_alt.mp hw with hw | hw
    · obtain ⟨v, -, rfl⟩ := (mem_char_cat isByte_slash).mp hw
      exact ⟨[], 47 :: v, rfl, nofun, .inr rfl⟩
    · rcases mem_alt.mp hw with hw | hw
      · obtain ⟨u, v, hu, hv, rfl⟩ := mem_cat.mp hw
        have hnot : 58 ∉ u ∧ 47 ∉ u ∧ 63 ∉ u ∧ 35 ∉ u :=
          ⟨not_mem_word rfl hu, not_mem_word rfl hu,
            not_mem_word rfl hu, not_mem_word rfl hu⟩
        exact ⟨u, v, rfl, fun x hx => ⟨fun h => hnot.1 (h ▸ hx), fun h => hnot.2.1 (h ▸ hx),
          fun h => hnot.2.2.1 (h ▸ hx), fun h => hnot.2.2.2 (h ▸ hx)⟩, head_of_segments hv⟩
      · obtain rfl := mem_eps.mp hw
        exact ⟨[], [], rfl, nofun, .inl rfl⟩

theorem scheme_not_relative {s w : List UInt8} (hs : ∀ x ∈ s, inScheme x) :
    s ++ 58 :: w ∉ relativeRef.language mem := by
  intro h
  obtain ⟨p, t, hp, ht, heq⟩ := mem_cat.mp h
  obtain ⟨u, v, rfl, hu, hv⟩ := split_relativePart hp
  obtain ⟨query, fragment, -, -, rfl⟩ := mem_tail.mp ht
  have hends := ends_path hv (ends_rest query fragment)
  rw [List.append_assoc] at heq
  obtain ⟨-, htail⟩ := append_unique hs hu (head_ne fun hcolon => hcolon.1 rfl)
    (not_inScheme_of_ends hends) heq
  rw [← htail] at hends
  rcases hends 58 rfl with h | h | h <;> exact absurd h (by decide)

theorem nil_not_mem_word {r : Expr} (h : r.nullable = false) : [] ∉ r.language mem := by
  rw [r.language_eq, h, Language.mem_add, not_or]
  exact ⟨r.nil_not_mem_continues _, id⟩

/-- A path that begins with a segment that is not empty does not begin with a slash. -/
theorem segmentNz_no_slash {p t v : List UInt8} {r : Expr}
    (hp : p ∈ (cat segmentNz r).language mem) : 47 :: v ≠ p ++ t := by
  intro heq
  obtain ⟨u, u', hu, -, rfl⟩ := mem_cat.mp hp
  have hnot : 47 ∉ u := not_mem_word rfl hu
  cases u with
  | nil => exact nil_not_mem_word rfl hu
  | cons x u =>
      obtain ⟨rfl, -⟩ := List.cons.inj heq
      exact hnot List.mem_cons_self

/-- Two slashes in front of a hierarchical part are those of an authority. -/
theorem netPath_of_slashes {h t w : List UInt8} (hh : h ∈ hierPart.language mem)
    (ht : t ∈ UriGrammar.tail.language mem) (heq : 47 :: 47 :: w = h ++ t) :
    h ∈ netPath.language mem := by
  obtain ⟨query, fragment, -, -, rfl⟩ := mem_tail.mp ht
  have hslash : ∀ v : List UInt8, behind 63 query ++ behind 35 fragment ≠ 47 :: v := by
    intro v hv
    cases query with
    | some q => exact absurd (List.cons.inj hv).1 (by decide)
    | none =>
        cases fragment with
        | some f => exact absurd (List.cons.inj hv).1 (by decide)
        | none => cases hv
  rcases mem_alt.mp hh with hh | hh
  · exact hh
  · exfalso
    rcases mem_alt.mp hh with hh | hh
    · obtain ⟨v, hv, rfl⟩ := (mem_char_cat isByte_slash).mp hh
      have hrest := (List.cons.inj heq).2
      rcases mem_alt.mp hv with hv | hv
      · exact segmentNz_no_slash hv hrest
      · obtain rfl := mem_eps.mp hv
        exact hslash _ hrest.symm
    · rcases mem_alt.mp hh with hh | hh
      · exact segmentNz_no_slash hh heq
      · obtain rfl := mem_eps.mp hh
        exact hslash _ heq.symm

namespace Components

variable {c : Components}

/-- A text of valid components is a word of the grammar. -/
theorem Valid.accepted (h : c.Valid) : c.text ∈ URIReference.language mem := by
  have hnet : 47 :: 47 :: (before 64 c.userinfo ++ (c.host ++ behind 58 c.port) ++ c.path) ∈
      netPath.language mem :=
    mem_netPath.mpr ⟨_, _, _, _, h.userinfo, h.host, h.port, h.path, rfl⟩
  have htail : c.rest ∈ UriGrammar.tail.language mem :=
    mem_tail.mpr ⟨_, _, h.query, h.fragment, rfl⟩
  refine mem_alt.mpr (.inl (mem_cat.mpr ⟨_, _, h.scheme, (mem_char_cat isByte_colon).mpr
    ⟨_, mem_cat.mpr ⟨_, _, mem_alt.mpr (.inl hnet), htail, rfl⟩, rfl⟩, ?_⟩))
  simp [text, rest]

theorem OfForm.inScheme (h : c.OfForm) : ∀ x ∈ c.scheme, inScheme x := by
  have hbyte : ∀ x, (isalpha x || isdigit x || issign x) = true → Uri.inScheme x := by
    intro x hx
    have hne : ∀ y, (isalpha y || isdigit y || issign y) = false → x ≠ y := by
      rintro y hy rfl
      rw [hy] at hx
      cases hx
    exact ⟨hne 58 rfl, hne 47 rfl, hne 63 rfl, hne 35 rfl⟩
  obtain ⟨first, others, hsplit, hfirst, hothers⟩ := h.scheme
  rw [hsplit]
  intro x hx
  rcases List.mem_cons.mp hx with rfl | hx
  · exact hbyte x (by rw [hfirst]; rfl)
  · exact hbyte x (hothers x hx)

/-- **The components of a word of the grammar are valid.** -/
theorem valid_of_accepted (h : c.OfForm) (hword : c.text ∈ URIReference.language mem) :
    c.Valid := by
  rcases mem_alt.mp hword with hword | hword
  · obtain ⟨s, w, hs, hw, heq⟩ := mem_cat.mp hword
    obtain ⟨v, hv, rfl⟩ := (mem_char_cat isByte_colon).mp hw
    obtain ⟨p, t, hp, ht, rfl⟩ := mem_cat.mp hv
    have hnot : 58 ∉ s := not_mem_word rfl hs
    obtain ⟨hscheme, hbehind⟩ := append_unique (P := fun x => x ≠ 58)
      (fun x hx hx' => h.delimited.scheme (hx' ▸ hx)) (fun x hx hx' => hnot (hx' ▸ hx))
      (head_ne fun hne => hne rfl) (head_ne fun hne => hne rfl) heq
    obtain ⟨userinfo, host, port, path, huser, hhost, hport, hpath, rfl⟩ :=
      mem_netPath.mp (netPath_of_slashes hp ht (List.cons.inj hbehind).2)
    obtain ⟨query, fragment, hquery, hfragment, rfl⟩ := mem_tail.mp ht
    have hvalid : Components.Valid ⟨s, userinfo, host, port, path, query, fragment⟩ :=
      ⟨hs, huser, hhost, hport, hpath, hquery, hfragment⟩
    rw [text_injective h.delimited hvalid.delimited (heq.trans (by simp [text, rest]))]
    exact hvalid
  · exact absurd hword (scheme_not_relative h.inScheme)

theorem created_iff (h : c.OfForm) {uri : Uri} :
    Create c.text = some (some uri) ↔ c.Valid ∧ c.created = some uri := by
  constructor
  · intro hcreate
    exact ⟨valid_of_accepted h (accepted_of_Create hcreate), created_of_Create h hcreate⟩
  · rintro ⟨hvalid, hcreated⟩
    exact Create_of_parse hvalid.accepted ((parse_text h).trans hcreated)

end Components

end Uri
end Routn
