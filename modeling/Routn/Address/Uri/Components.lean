import Mathlib.Tactic
import Routn.Address.Uri.Create

/-!
# The components of a URI

A string `scheme "://" authority path-abempty [ "?" query ] [ "#" fragment ]` by its components, and
what `Create` makes of them.  There is one mark for all of them.  What may be the port is marked at
its first digit, and when an `@` behind it shows that it is of the user information, the mark is not
put back: of `user:1@host` the user information is `1`.  Behind an empty port the mark is null, and
a path is made from it.
-/

namespace Routn

open Foundation UriParser

namespace Uri

open Vars

/-! ## What is asked -/

/-- No control character and none of `gen_delims`. -/
def plain (c : UInt8) : Bool :=
  kind c == .alpha || kind c == .digit || kind c == .sign || kind c == .other

structure Components where
  scheme : List UInt8
  userinfo : Option (List UInt8)
  host : List UInt8
  port : Option (List UInt8)
  path : List UInt8
  query : Option (List UInt8)
  fragment : Option (List UInt8)
deriving DecidableEq

/-- A component with the delimiter in front of it. -/
def behind (delimiter : UInt8) : Option (List UInt8) → List UInt8
  | none => []
  | some part => delimiter :: part

/-- A component with the delimiter behind it. -/
def before (delimiter : UInt8) : Option (List UInt8) → List UInt8
  | none => []
  | some part => part ++ [delimiter]

namespace Components

variable (c : Components)

/-- The query and the fragment. -/
def rest : List UInt8 := behind 63 c.query ++ behind 35 c.fragment

def text : List UInt8 :=
  c.scheme ++ 58 :: 47 :: 47 ::
    (before 64 c.userinfo ++ (c.host ++ (behind 58 c.port ++ (c.path ++ c.rest))))

/-- The delimiters are where they belong; what else may be in a component is left open. -/
structure OfForm : Prop where
  scheme : ∃ first others, c.scheme = first :: others ∧ isalpha first = true ∧
    ∀ x ∈ others, (isalpha x || isdigit x || issign x) = true
  userinfo : ∀ v ∈ c.userinfo, ∀ x ∈ v, plain x = true ∨ x = 58
  host : (∀ x ∈ c.host, plain x = true) ∨ ∃ address, c.host = 91 :: address ++ [93] ∧ 93 ∉ address
  port : ∀ digits ∈ c.port, ∀ x ∈ digits, isdigit x = true
  path : (c.path = [] ∨ c.path.head? = some 47) ∧ 63 ∉ c.path ∧ 35 ∉ c.path
  query : ∀ q ∈ c.query, 35 ∉ q

end Components

/-- The URI has these components; a port that is absent or empty is 0. -/
structure Decomposed (c : Components) (uri : Uri) : Prop where
  scheme : uri._scheme = c.scheme
  userinfo : uri._userinfo = c.userinfo.getD []
  host : uri._host = c.host
  port : decimal (c.port.getD []) ≤ 65535 →
    uri._port = Int32.ofNat (decimal (c.port.getD []))
  path : uri._path = c.path
  query : uri._query = c.query.getD []
  fragment : uri._fragment = c.fragment.getD []

/-- The first colon of the user information has a digit behind it. -/
def PortLike (userinfo : List UInt8) : Prop :=
  ∃ name digit others, userinfo = name ++ 58 :: digit :: others ∧ 58 ∉ name ∧ isdigit digit = true

/-! ## Steps of the phases -/

section Steps

variable {φ φ' : Phase} {c : UInt8} {actions : List Action} {mark mark' : Option (List UInt8)}
  {uri uri' : Uri} {w tail : List UInt8} {g g' : Vars}

theorem between_append (w tail : List UInt8) : between (w ++ tail) tail = w := by
  simp [between]

theorem save_append {set : List UInt8 → Uri} :
    (Vars.mk tail (some (w ++ tail)) uri).save set = some ⟨tail, none, set w⟩ := by
  simp [save, between_append]

theorem parse_nil :
    parse φ ⟨[], mark, uri⟩ = (execAll φ.eof ⟨[], mark, uri⟩).map (·.uri) := rfl

theorem save_p {set : List UInt8 → Uri} (h : g.save set = some g') : g'.p = g.p := by
  have ⟨mark, _, h⟩ := Option.map_eq_some_iff.mp h
  rw [← h]

theorem exec_p {action : Action} (h : exec action g = some g') : g'.p = g.p := by
  cases action with
  | mark => cases h; rfl
  | saveScheme =>
      rw [exec] at h
      exact save_p h
  | saveUserinfo =>
      rw [exec] at h
      split at h
      · cases h; rfl
      · exact save_p h
  | saveHost =>
      rw [exec] at h
      split at h <;> cases h <;> rfl
  | savePort =>
      have ⟨mark, _, h⟩ := Option.map_eq_some_iff.mp h
      rw [← h]
      split <;> rfl
  | savePath =>
      rw [exec] at h
      exact save_p h
  | saveQuery =>
      rw [exec] at h
      exact save_p h
  | saveFragment =>
      rw [exec] at h
      exact save_p h

theorem execAll_p (h : execAll actions g = some g') : g'.p = g.p := by
  induction actions generalizing g with
  | nil => cases h; rfl
  | cons action actions ih =>
      have ⟨mid, hmid, h⟩ := Option.bind_eq_some_iff.mp h
      exact (ih h).trans (exec_p hmid)

theorem run_refused (g : Vars) :
    Phase.control.run store tail .refused g = some (tail, .refused, g) := by
  cases tail with
  | nil => rfl
  | cons c tail => exact Control.run_refused rfl

theorem parse_cons (hnext : φ.next (kind c) = some (actions, φ')) :
    parse φ ⟨c :: tail, mark, uri⟩ =
      (execAll actions ⟨c :: tail, mark, uri⟩).bind fun g => parse φ' ⟨tail, g.mark, g.uri⟩ := by
  have hcontrol : Phase.control.next φ c = some (actions, φ') := hnext
  cases hexec : execAll actions ⟨c :: tail, mark, uri⟩ with
  | none =>
      rw [parse, Control.run_fails (M := store) hcontrol hexec]
      rfl
  | some g =>
      have hp : g.p = c :: tail := execAll_p hexec
      have htick : store.tick c g = ⟨tail, g.mark, g.uri⟩ := by
        show ({ g with p := g.p.tail } : Vars) = _
        rw [hp]
        rfl
      rw [parse, Control.run_step (M := store) hcontrol hexec, htick, Option.bind_some, parse]
      split
      · rename_i hhalts
        cases beq_iff_eq.mp hhalts
        rw [run_refused]
      · rfl

theorem parse_step (hnext : φ.next (kind c) = some (actions, φ'))
    (hexec : execAll actions ⟨c :: tail, mark, uri⟩ = some ⟨c :: tail, mark', uri'⟩) :
    parse φ ⟨c :: tail, mark, uri⟩ = parse φ' ⟨tail, mark', uri'⟩ := by
  rw [parse_cons hnext, hexec]
  rfl

theorem parse_loop (hloop : ∀ x ∈ w, φ.next (kind x) = some ([], φ)) :
    parse φ ⟨w ++ tail, mark, uri⟩ = parse φ ⟨tail, mark, uri⟩ := by
  induction w with
  | nil => rfl
  | cons x w ih =>
      have hx := hloop x List.mem_cons_self
      rw [List.cons_append, parse_step hx rfl]
      exact ih fun y hy => hloop y (List.mem_cons_of_mem _ hy)

/-- A part that is not empty, with the mark in front of it. -/
theorem parse_part (hne : w ≠ []) (hfirst : ∀ x ∈ w, φ.next (kind x) = some ([.mark], φ'))
    (hloop : ∀ x ∈ w, φ'.next (kind x) = some ([], φ')) :
    parse φ ⟨w ++ tail, mark, uri⟩ = parse φ' ⟨tail, some (w ++ tail), uri⟩ := by
  cases w with
  | nil => exact absurd rfl hne
  | cons x w =>
      have hx := hfirst x List.mem_cons_self
      rw [List.cons_append, parse_step hx rfl]
      exact parse_loop fun y hy => hloop y (List.mem_cons_of_mem _ hy)

end Steps

/-! ## Path, query and fragment -/

section Path

variable {mark : Option (List UInt8)} {uri : Uri} {w q f : List UInt8}
  {query fragment : Option (List UInt8)}

theorem next_path {x : UInt8} (hquestion : x ≠ 63) (hhash : x ≠ 35) :
    Phase.path.next (kind x) = some ([], .path) := by
  have hquestion : kind x ≠ .question := fun h => hquestion (beq_iff_eq.mp (kind_eq_iff.mp h))
  have hhash : kind x ≠ .hash := fun h => hhash (beq_iff_eq.mp (kind_eq_iff.mp h))
  cases hkind : kind x <;> first | rfl | contradiction

theorem next_query0 {x : UInt8} (hhash : x ≠ 35) :
    Phase.query0.next (kind x) = some ([.mark], .query) := by
  have hhash : kind x ≠ .hash := fun h => hhash (beq_iff_eq.mp (kind_eq_iff.mp h))
  cases hkind : kind x <;> first | rfl | contradiction

theorem next_query {x : UInt8} (hhash : x ≠ 35) :
    Phase.query.next (kind x) = some ([], .query) := by
  have hhash : kind x ≠ .hash := fun h => hhash (beq_iff_eq.mp (kind_eq_iff.mp h))
  cases hkind : kind x <;> first | rfl | contradiction

theorem parse_fragment0 : parse .fragment0 ⟨f, mark, uri⟩ = some { uri with _fragment := f } := by
  by_cases hne : f = []
  · rw [hne]
    rfl
  · have hpart : parse .fragment0 ⟨f ++ [], mark, uri⟩ =
        parse .fragment ⟨[], some (f ++ []), uri⟩ :=
      parse_part hne (fun _ _ => rfl) fun _ _ => rfl
    rw [List.append_nil] at hpart
    rw [hpart, parse_nil]
    simp [Phase.eof, execAll, exec, save, between]

theorem parse_query0 (hq : 35 ∉ q) :
    parse .query0 ⟨q ++ behind 35 fragment, mark, uri⟩ =
      some { uri with _query := q, _fragment := fragment.getD uri._fragment } := by
  have hchars : ∀ x ∈ q, x ≠ 35 := by
    rintro x hx rfl
    exact hq hx
  by_cases hne : q = []
  · rw [hne]
    cases fragment with
    | none => rfl
    | some f =>
        have hexec : execAll [.mark, .saveQuery] ⟨35 :: f, mark, uri⟩ =
            some ⟨35 :: f, none, { uri with _query := [] }⟩ := by
          simp [execAll, exec, save, between]
        rw [List.nil_append, behind, parse_step (rfl : Phase.query0.next (kind 35) = _) hexec,
          parse_fragment0, Option.getD_some]
  · rw [parse_part hne (fun x hx => next_query0 (hchars x hx)) fun x hx => next_query (hchars x hx)]
    cases fragment with
    | none =>
        rw [behind, parse_nil]
        simp [Phase.eof, execAll, exec, save, between]
    | some f =>
        have hexec : execAll [.saveQuery] ⟨35 :: f, some (q ++ 35 :: f), uri⟩ =
            some ⟨35 :: f, none, { uri with _query := q }⟩ := by
          simp [execAll, exec, save_append]
        rw [behind, parse_step (rfl : Phase.query.next (kind 35) = _) hexec, parse_fragment0,
          Option.getD_some]

/-- The query and the fragment, behind a path that is marked. -/
theorem parse_path (hw : 63 ∉ w ∧ 35 ∉ w) (hquery : ∀ q ∈ query, 35 ∉ q) :
    parse .path ⟨w ++ (behind 63 query ++ behind 35 fragment),
        some (w ++ (behind 63 query ++ behind 35 fragment)), uri⟩ =
      some { uri with
        _path := w
        _query := query.getD uri._query
        _fragment := fragment.getD uri._fragment } := by
  have hloop : ∀ x ∈ w, Phase.path.next (kind x) = some ([], .path) := by
    intro x hx
    apply next_path
    · rintro rfl
      exact hw.1 hx
    · rintro rfl
      exact hw.2 hx
  rw [parse_loop hloop]
  cases query with
  | some q =>
      have hexec : execAll [.savePath] ⟨63 :: (q ++ behind 35 fragment),
          some (w ++ 63 :: (q ++ behind 35 fragment)), uri⟩ =
          some ⟨63 :: (q ++ behind 35 fragment), none, { uri with _path := w }⟩ := by
        simp [execAll, exec, save_append]
      rw [behind, List.cons_append, parse_step (rfl : Phase.path.next (kind 63) = _) hexec,
        parse_query0 (hquery q rfl), Option.getD_some]
  | none =>
      rw [behind, List.nil_append]
      cases fragment with
      | none =>
          rw [behind, parse_nil]
          simp [Phase.eof, execAll, exec, save, between]
      | some f =>
          have hexec : execAll [.savePath] ⟨35 :: f, some (w ++ 35 :: f), uri⟩ =
              some ⟨35 :: f, none, { uri with _path := w }⟩ := by
            simp [execAll, exec, save_append]
          rw [behind, parse_step (rfl : Phase.path.next (kind 35) = _) hexec, parse_fragment0]
          rfl

/-- Without a mark there is no path. -/
theorem parse_path_null (hw : 63 ∉ w ∧ 35 ∉ w) :
    parse .path ⟨w ++ (behind 63 query ++ behind 35 fragment), none, uri⟩ = none := by
  have hloop : ∀ x ∈ w, Phase.path.next (kind x) = some ([], .path) := by
    intro x hx
    apply next_path
    · rintro rfl
      exact hw.1 hx
    · rintro rfl
      exact hw.2 hx
  rw [parse_loop hloop]
  cases query with
  | some q =>
      rw [behind, List.cons_append, parse_cons (rfl : Phase.path.next (kind 63) = _)]
      rfl
  | none =>
      cases fragment with
      | some f =>
          rw [behind, behind, List.nil_append, parse_cons (rfl : Phase.path.next (kind 35) = _)]
          rfl
      | none => rfl

end Path

/-! ## Host and port -/

/-- Text that a host or a port may stand in front of. -/
def Ends (tail : List UInt8) : Prop := ∀ c ∈ tail.head?, c = 47 ∨ c = 63 ∨ c = 35

/-- A phase that a host or a port ends in. -/
structure Leaves (φ : Phase) (empty : Bool) (save : Action) : Prop where
  slash : φ.next (kind 47) = some (Phase.leave empty true save, .path)
  question : φ.next (kind 63) = some (Phase.leavePath empty true save, .query0)
  hash : φ.next (kind 35) = some (Phase.leavePath empty true save, .fragment0)
  eof : φ.eof = Phase.leavePath empty true save

/-- The two phases of what may be the port. -/
structure PortPhases (φ φ' : Phase) : Prop where
  first : φ.next .digit = some ([.mark], φ')
  loop : φ'.next .digit = some ([], φ')
  empty : Leaves φ true .savePort
  leaves : Leaves φ' false .savePort

/-- A phase behind a host, and the one behind the colon. -/
structure HostEnd (φ ψ : Phase) (empty : Bool) : Prop where
  colon : φ.next .colon = some (if empty then [.mark, .saveHost] else [.saveHost], ψ)
  leaves : Leaves φ empty .saveHost

/-- The two phases of a host. -/
structure HostPhases (φ φ' ψ : Phase) : Prop where
  first : ∀ x, plain x = true → φ.next (kind x) = some ([.mark], φ')
  loop : ∀ x, plain x = true → φ'.next (kind x) = some ([], φ')
  opening : φ.next .opening = some ([.mark], .literal true)
  empty : HostEnd φ ψ true
  leaves : HostEnd φ' ψ false

theorem portPhases_port : PortPhases (.port0 true) (.port true) :=
  ⟨rfl, rfl, ⟨rfl, rfl, rfl, rfl⟩, ⟨rfl, rfl, rfl, rfl⟩⟩

theorem portPhases_userOrPort : PortPhases (.userOrPort0 true) (.userOrPort true) :=
  ⟨rfl, rfl, ⟨rfl, rfl, rfl, rfl⟩, ⟨rfl, rfl, rfl, rfl⟩⟩

theorem kind_of_plain {x : UInt8} (h : plain x = true) :
    kind x = .alpha ∨ kind x = .digit ∨ kind x = .sign ∨ kind x = .other := by
  simpa [plain, or_assoc] using h

theorem hostPhases_host : HostPhases (.host0 true) (.host true) (.port0 true) where
  first x hx := by rcases kind_of_plain hx with h | h | h | h <;> rw [h] <;> rfl
  loop x hx := by rcases kind_of_plain hx with h | h | h | h <;> rw [h] <;> rfl
  opening := rfl
  empty := ⟨rfl, ⟨rfl, rfl, rfl, rfl⟩⟩
  leaves := ⟨rfl, ⟨rfl, rfl, rfl, rfl⟩⟩

theorem hostPhases_auth : HostPhases (.auth true) (.userOrHost true) (.userOrPort0 true) where
  first x hx := by rcases kind_of_plain hx with h | h | h | h <;> rw [h] <;> rfl
  loop x hx := by rcases kind_of_plain hx with h | h | h | h <;> rw [h] <;> rfl
  opening := rfl
  empty := ⟨rfl, ⟨rfl, rfl, rfl, rfl⟩⟩
  leaves := ⟨rfl, ⟨rfl, rfl, rfl, rfl⟩⟩

section Host

variable {φ φ' ψ ψ' : Phase} {empty : Bool} {save : Action} {mark mark' : Option (List UInt8)}
  {uri uri' : Uri} {w tail : List UInt8} {port : Option (List UInt8)}

theorem execAll_append {a b : List Action} {g g' : Vars} (h : execAll a g = some g') :
    execAll (a ++ b) g = execAll b g' := by
  rw [execAll, List.foldlM_append]
  rw [execAll] at h
  rw [h]
  rfl

/-- Leaving a host or a port comes to the path. -/
theorem parse_leave (hφ : Leaves φ empty save) (htail : Ends tail)
    (hexec : execAll (Phase.leave empty true save) ⟨tail, mark, uri⟩ =
      some ⟨tail, mark', uri'⟩) :
    parse φ ⟨tail, mark, uri⟩ = parse .path ⟨tail, mark', uri'⟩ := by
  have hpath : execAll (Phase.leavePath empty true save) ⟨tail, mark, uri⟩ =
      execAll [.savePath] ⟨tail, mark', uri'⟩ := execAll_append hexec
  cases tail with
  | nil => rw [parse_nil, parse_nil, hφ.eof, hpath]; rfl
  | cons c tail =>
      rcases htail c rfl with rfl | rfl | rfl
      · rw [parse_step hφ.slash hexec]
        exact (parse_step (rfl : Phase.path.next (kind 47) = _) rfl).symm
      · rw [parse_cons hφ.question, hpath,
          parse_cons (rfl : Phase.path.next (kind 63) = _)]
      · rw [parse_cons hφ.hash, hpath, parse_cons (rfl : Phase.path.next (kind 35) = _)]

/-- What is left behind the host. -/
def afterHost (port : Option (List UInt8)) (tail : List UInt8) (uri : Uri) : Option Uri :=
  match port with
  | none => parse .path ⟨tail, some tail, uri⟩
  | some [] => parse .path ⟨tail, none, uri⟩
  | some digits => parse .path ⟨tail, some tail, { uri with _port := atoi digits }⟩

theorem takeWhile_digits (hw : ∀ x ∈ w, isdigit x = true) (htail : Ends tail) :
    (w ++ tail).takeWhile isdigit = w := by
  have hstop : tail.takeWhile isdigit = [] := by
    cases tail with
    | nil => rfl
    | cons c tail => rcases htail c rfl with rfl | rfl | rfl <;> rfl
  rw [List.takeWhile_append_of_pos hw, hstop, List.append_nil]

theorem parse_port (hφ : PortPhases φ φ') (hw : ∀ x ∈ w, isdigit x = true) (htail : Ends tail) :
    parse φ ⟨w ++ tail, mark, uri⟩ = afterHost (some w) tail uri := by
  by_cases hne : w = []
  · rw [hne, List.nil_append]
    apply parse_leave hφ.empty htail
    simp [Phase.leave, execAll, exec]
  · have hfirst : ∀ x ∈ w, φ.next (kind x) = some ([.mark], φ') := by
      intro x hx
      rw [kind_of_isdigit (hw x hx)]
      exact hφ.first
    have hloop : ∀ x ∈ w, φ'.next (kind x) = some ([], φ') := by
      intro x hx
      rw [kind_of_isdigit (hw x hx)]
      exact hφ.loop
    have hatoi : atoi (w ++ tail) = atoi w := by
      have hwhole : (w ++ []).takeWhile isdigit = w := takeWhile_digits hw (by rintro c ⟨⟩)
      rw [List.append_nil] at hwhole
      rw [atoi, atoi, takeWhile_digits hw htail, hwhole]
    rw [parse_part hne hfirst hloop, afterHost]
    · apply parse_leave hφ.leaves htail
      simp [Phase.leave, execAll, exec, hne, hatoi]
    · exact hne

/-- Behind a host: a colon and the port, or the path. -/
theorem parse_hostEnd (hφ : HostEnd φ ψ empty) (hψ : PortPhases ψ ψ')
    (hport : ∀ digits ∈ port, ∀ x ∈ digits, isdigit x = true) (htail : Ends tail)
    (hw : if empty then w = [] else mark = some (w ++ (behind 58 port ++ tail))) :
    parse φ ⟨behind 58 port ++ tail, mark, uri⟩ = afterHost port tail { uri with _host := w } := by
  cases port with
  | none =>
      apply parse_leave hφ.leaves htail
      cases empty with
      | true =>
          cases hw
          simp [Phase.leave, execAll, exec, between]
      | false =>
          cases hw
          simp [Phase.leave, execAll, exec, between_append, behind]
  | some digits =>
      have hexec : ∃ mark', execAll (if empty then [.mark, .saveHost] else [.saveHost])
          ⟨58 :: (digits ++ tail), mark, uri⟩ =
            some ⟨58 :: (digits ++ tail), mark', { uri with _host := w }⟩ := by
        cases empty with
        | true =>
            cases hw
            exact ⟨_, by simp [execAll, exec, between]; rfl⟩
        | false =>
            cases hw
            exact ⟨_, by simp [execAll, exec, between_append, behind]; rfl⟩
      obtain ⟨mark', hexec⟩ := hexec
      have hcolon : φ.next (kind 58) = _ := hφ.colon
      rw [behind, List.cons_append, parse_step hcolon hexec]
      exact parse_port hψ (hport digits rfl) htail

theorem parse_regName (hφ : HostPhases φ φ' ψ) (hψ : PortPhases ψ ψ')
    (hw : ∀ x ∈ w, plain x = true) (hport : ∀ digits ∈ port, ∀ x ∈ digits, isdigit x = true)
    (htail : Ends tail) :
    parse φ ⟨w ++ (behind 58 port ++ tail), mark, uri⟩ =
      afterHost port tail { uri with _host := w } := by
  by_cases hne : w = []
  · rw [hne, List.nil_append]
    exact parse_hostEnd hφ.empty hψ hport htail rfl
  · rw [parse_part hne (fun x hx => hφ.first x (hw x hx)) fun x hx => hφ.loop x (hw x hx)]
    exact parse_hostEnd hφ.leaves hψ hport htail rfl

theorem parse_literal (hφ : HostPhases φ φ' ψ) (hw : 93 ∉ w)
    (hport : ∀ digits ∈ port, ∀ x ∈ digits, isdigit x = true) (htail : Ends tail) :
    parse φ ⟨91 :: w ++ [93] ++ (behind 58 port ++ tail), mark, uri⟩ =
      afterHost port tail { uri with _host := 91 :: w ++ [93] } := by
  have hopening : φ.next (kind 91) = some ([.mark], .literal true) := hφ.opening
  have hloop : ∀ x ∈ w, (Phase.literal true).next (kind x) = some ([], .literal true) := by
    intro x hx
    have hclosing : kind x ≠ .closing := by
      intro h
      rw [beq_iff_eq.mp (kind_eq_iff.mp h)] at hx
      exact hw hx
    cases hkind : kind x <;> first | rfl | contradiction
  rw [List.append_assoc, List.cons_append, parse_step hopening rfl, parse_loop hloop,
    List.cons_append, parse_step (rfl : (Phase.literal true).next (kind 93) = _) rfl]
  apply parse_hostEnd hostPhases_host.leaves portPhases_port hport htail
  simp

theorem parse_host (hφ : HostPhases φ φ' ψ) (hψ : PortPhases ψ ψ')
    (hw : (∀ x ∈ w, plain x = true) ∨ ∃ address, w = 91 :: address ++ [93] ∧ 93 ∉ address)
    (hport : ∀ digits ∈ port, ∀ x ∈ digits, isdigit x = true) (htail : Ends tail) :
    parse φ ⟨w ++ (behind 58 port ++ tail), mark, uri⟩ =
      afterHost port tail { uri with _host := w } := by
  rcases hw with hw | ⟨address, rfl, haddress⟩
  · exact parse_regName hφ hψ hw hport htail
  · exact parse_literal hφ haddress hport htail

end Host

/-! ## User information -/

/-- What is taken for the user information. -/
def seen (userinfo : List UInt8) : List UInt8 :=
  match userinfo.dropWhile (· ≠ 58) with
  | _ :: digit :: others => if isdigit digit then digit :: others else userinfo
  | _ => userinfo

section Seen

variable {v w : List UInt8} {x : UInt8}

theorem dropWhile_ne_colon (hv : 58 ∉ v) :
    (v ++ w).dropWhile (· ≠ 58) = w.dropWhile (· ≠ 58) := by
  apply List.dropWhile_append_of_pos
  intro x hx
  apply decide_eq_true
  rintro rfl
  exact hv hx

theorem seen_of_no_colon (hv : 58 ∉ v) : seen v = v := by
  have hdrop : (v ++ []).dropWhile (· ≠ 58) = [] := dropWhile_ne_colon hv
  rw [List.append_nil] at hdrop
  rw [seen, hdrop]

theorem seen_colon (hv : 58 ∉ v) : seen (v ++ [58]) = v ++ [58] := by
  have hdrop : (v ++ [58]).dropWhile (· ≠ 58) = [58] := dropWhile_ne_colon hv
  rw [seen, hdrop]

theorem seen_digit (hv : 58 ∉ v) (hx : isdigit x = true) : seen (v ++ 58 :: x :: w) = x :: w := by
  have hdrop : (v ++ 58 :: x :: w).dropWhile (· ≠ 58) = 58 :: x :: w := dropWhile_ne_colon hv
  rw [seen, hdrop]
  exact if_pos hx

theorem seen_other (hv : 58 ∉ v) (hx : isdigit x = false) :
    seen (v ++ 58 :: x :: w) = v ++ 58 :: x :: w := by
  have hdrop : (v ++ 58 :: x :: w).dropWhile (· ≠ 58) = 58 :: x :: w := dropWhile_ne_colon hv
  rw [seen, hdrop]
  exact if_neg (Bool.eq_false_iff.mp hx)

/-- **Only user information that looks like a host and a port is cut.** -/
theorem seen_eq_iff : seen v = v ↔ ¬ PortLike v := by
  by_cases hcolon : 58 ∈ v
  · have ⟨name, others, hsplit, hname⟩ := List.eq_append_cons_of_mem hcolon
    subst hsplit
    match others with
    | [] =>
        have hnot : ¬ PortLike (name ++ [58]) := by
          rintro ⟨name', digit, others, h, hname', _⟩
          have hlast := congrArg (·.dropWhile (· ≠ 58)) h
          simp only [dropWhile_ne_colon hname, dropWhile_ne_colon hname'] at hlast
          cases hlast
        exact iff_of_true (seen_colon hname) hnot
    | x :: others =>
        cases hx : isdigit x with
        | true =>
            have hcut : x :: others ≠ name ++ 58 :: x :: others := by
              intro h
              have hlength := congrArg List.length h
              simp at hlength
              omega
            rw [seen_digit hname hx]
            exact iff_of_false hcut (not_not_intro ⟨name, x, others, rfl, hname, hx⟩)
        | false =>
            have hnot : ¬ PortLike (name ++ 58 :: x :: others) := by
              rintro ⟨name', digit, others', h, hname', hdigit⟩
              have hlast := congrArg (·.dropWhile (· ≠ 58)) h
              simp only [dropWhile_ne_colon hname, dropWhile_ne_colon hname'] at hlast
              cases hlast
              rw [hx] at hdigit
              cases hdigit
            exact iff_of_true (seen_other hname hx) hnot
  · have hnot : ¬ PortLike v := by
      rintro ⟨name, digit, others, rfl, _, _⟩
      exact hcolon (by simp)
    exact iff_of_true (seen_of_no_colon hcolon) hnot

end Seen

section Userinfo

variable {mark : Option (List UInt8)} {uri : Uri} {v w tail : List UInt8}

/-- The phases in which a text goes on that is of the user information. -/
theorem parse_user (hw : ∀ x ∈ w, plain x = true ∨ x = 58) {φ : Phase}
    (hφ : φ = .userOrPort true ∨ φ = .user true) :
    parse φ ⟨w ++ 64 :: tail, some (v ++ 64 :: tail), uri⟩ =
      parse (.host0 true) ⟨tail, none, { uri with _userinfo := v }⟩ := by
  induction w generalizing φ with
  | nil =>
      have hexec : execAll [.saveUserinfo] ⟨64 :: tail, some (v ++ 64 :: tail), uri⟩ =
          some ⟨64 :: tail, none, { uri with _userinfo := v }⟩ := by
        simp [execAll, exec, save_append]
      rcases hφ with rfl | rfl
      · exact parse_step (rfl : (Phase.userOrPort true).next (kind 64) = _) hexec
      · exact parse_step (rfl : (Phase.user true).next (kind 64) = _) hexec
  | cons x w ih =>
      have hrest : ∀ y ∈ w, plain y = true ∨ y = 58 :=
        fun y hy => hw y (List.mem_cons_of_mem _ hy)
      have hnext : ∃ φ', (φ' = .userOrPort true ∨ φ' = .user true) ∧
          φ.next (kind x) = some ([], φ') := by
        have hx : kind x = .alpha ∨ kind x = .digit ∨ kind x = .sign ∨ kind x = .other ∨
            kind x = .colon := by
          rcases hw x List.mem_cons_self with hx | rfl
          · rcases kind_of_plain hx with h | h | h | h <;> simp [h]
          · right; right; right; right; rfl
        rcases hφ with rfl | rfl <;> rcases hx with h | h | h | h | h <;> rw [h] <;>
          first
          | exact ⟨.user true, .inr rfl, rfl⟩
          | exact ⟨.userOrPort true, .inl rfl, rfl⟩
      have ⟨φ', hφ', hnext⟩ := hnext
      rw [List.cons_append, parse_step hnext rfl]
      exact ih hrest hφ'

/-- Behind the first colon, with the mark in front of the user information. -/
theorem parse_userOrPort0 (hw : ∀ x ∈ w, plain x = true ∨ x = 58) (hv : 58 ∉ v) :
    parse (.userOrPort0 true) ⟨w ++ 64 :: tail, some (v ++ 58 :: w ++ 64 :: tail), uri⟩ =
      parse (.host0 true) ⟨tail, none, { uri with _userinfo := seen (v ++ 58 :: w) }⟩ := by
  cases w with
  | nil =>
      have hexec : execAll [.saveUserinfo] ⟨64 :: tail, some (v ++ [58] ++ 64 :: tail), uri⟩ =
          some ⟨64 :: tail, none, { uri with _userinfo := v ++ [58] }⟩ := by
        simp only [execAll, List.foldlM_cons, List.foldlM_nil, exec, save_append]
        rfl
      rw [seen_colon hv]
      exact parse_step (rfl : (Phase.userOrPort0 true).next (kind 64) = _) hexec
  | cons x w =>
      have hrest : ∀ y ∈ w, plain y = true ∨ y = 58 :=
        fun y hy => hw y (List.mem_cons_of_mem _ hy)
      cases hx : isdigit x with
      | true =>
          have hnext : (Phase.userOrPort0 true).next (kind x) =
              some ([.mark], .userOrPort true) := by
            rw [kind_of_isdigit hx]
            rfl
          have hexec : execAll [.mark]
              ⟨x :: (w ++ 64 :: tail), some (v ++ 58 :: x :: w ++ 64 :: tail), uri⟩ =
              some ⟨x :: (w ++ 64 :: tail), some (x :: w ++ 64 :: tail), uri⟩ := rfl
          rw [seen_digit hv hx, List.cons_append, parse_step hnext hexec]
          exact parse_user hrest (.inl rfl)
      | false =>
          have hnext : (Phase.userOrPort0 true).next (kind x) = some ([], .user true) := by
            have hdigit : kind x ≠ .digit := by
              intro h
              exact absurd (kind_eq_iff.mp h) (Bool.eq_false_iff.mp hx)
            rcases hw x List.mem_cons_self with hplain | rfl
            · rcases kind_of_plain hplain with h | h | h | h <;> first | contradiction | rw [h]; rfl
            · rfl
          rw [seen_other hv hx, List.cons_append, parse_step hnext rfl]
          exact parse_user hrest (.inr rfl)

/-- The user information, and what has been the host for a while. -/
theorem parse_userinfo (hv : ∀ x ∈ v, plain x = true ∨ x = 58) :
    ∃ host, parse (.auth true) ⟨v ++ 64 :: tail, mark, uri⟩ =
      parse (.host0 true) ⟨tail, none, { uri with _userinfo := seen v, _host := host }⟩ := by
  by_cases hcolon : 58 ∈ v
  · have ⟨name, w, hsplit, hname⟩ := List.eq_append_cons_of_mem hcolon
    subst hsplit
    have hw : ∀ x ∈ w, plain x = true ∨ x = 58 := fun x hx =>
      hv x (List.mem_append_right _ (List.mem_cons_of_mem _ hx))
    have hplain : ∀ x ∈ name, plain x = true := by
      intro x hx
      refine (hv x (List.mem_append_left _ hx)).resolve_right ?_
      rintro rfl
      exact hname hx
    refine ⟨name, ?_⟩
    rw [List.append_assoc, List.cons_append]
    by_cases hne : name = []
    · have hexec : execAll [.mark, .saveHost] ⟨58 :: (w ++ 64 :: tail), mark, uri⟩ =
          some ⟨58 :: (w ++ 64 :: tail), some ([] ++ 58 :: w ++ 64 :: tail),
            { uri with _host := [] }⟩ := by
        simp [execAll, exec, between]
      rw [hne, List.nil_append,
        parse_step (rfl : (Phase.auth true).next (kind 58) = _) hexec]
      exact parse_userOrPort0 hw List.not_mem_nil
    · have hexec : execAll [.saveHost]
          ⟨58 :: (w ++ 64 :: tail), some (name ++ 58 :: (w ++ 64 :: tail)), uri⟩ =
          some ⟨58 :: (w ++ 64 :: tail), some (name ++ 58 :: w ++ 64 :: tail),
            { uri with _host := name }⟩ := by
        simp [execAll, exec, between_append]
      rw [parse_part hne (fun x hx => hostPhases_auth.first x (hplain x hx))
          (fun x hx => hostPhases_auth.loop x (hplain x hx)),
        parse_step (rfl : (Phase.userOrHost true).next (kind 58) = _) hexec]
      exact parse_userOrPort0 hw hname
  · have hplain : ∀ x ∈ v, plain x = true := by
      intro x hx
      refine (hv x hx).resolve_right ?_
      rintro rfl
      exact hcolon hx
    refine ⟨uri._host, ?_⟩
    rw [seen_of_no_colon hcolon]
    by_cases hne : v = []
    · have hexec : execAll [.mark, .saveUserinfo] ⟨64 :: tail, mark, uri⟩ =
          some ⟨64 :: tail, none, { uri with _userinfo := [] }⟩ := by
        simp [execAll, exec, save, between]
      rw [hne, List.nil_append]
      exact parse_step (rfl : (Phase.auth true).next (kind 64) = _) hexec
    · have hexec : execAll [.saveUserinfo] ⟨64 :: tail, some (v ++ 64 :: tail), uri⟩ =
          some ⟨64 :: tail, none, { uri with _userinfo := v }⟩ := by
        simp [execAll, exec, save_append]
      rw [parse_part hne (fun x hx => hostPhases_auth.first x (hplain x hx))
        fun x hx => hostPhases_auth.loop x (hplain x hx)]
      exact parse_step (rfl : (Phase.userOrHost true).next (kind 64) = _) hexec

end Userinfo

/-! ## The whole text -/

theorem next_scheme {x : UInt8} (h : (isalpha x || isdigit x || issign x) = true) :
    Phase.scheme.next (kind x) = some ([], .scheme) := by
  simp only [Bool.or_eq_true] at h
  rcases h with (h | h) | h
  · rw [kind_of_isalpha h]
    rfl
  · rw [kind_of_isdigit h]
    rfl
  · rw [kind_of_issign h]
    rfl

theorem parse_scheme {s tail : List UInt8} {mark : Option (List UInt8)} {uri : Uri}
    (hs : ∃ first others, s = first :: others ∧ isalpha first = true ∧
      ∀ x ∈ others, (isalpha x || isdigit x || issign x) = true) :
    parse .start ⟨s ++ 58 :: 47 :: 47 :: tail, mark, uri⟩ =
      parse (.auth true) ⟨tail, none, { uri with _scheme := s }⟩ := by
  have ⟨first, others, hsplit, hfirst, hothers⟩ := hs
  have hstart : Phase.start.next (kind first) = some ([.mark], .scheme) := by
    rw [kind_of_isalpha hfirst]
    rfl
  have hexec : execAll [.saveScheme]
      ⟨58 :: 47 :: 47 :: tail, some (s ++ 58 :: 47 :: 47 :: tail), uri⟩ =
      some ⟨58 :: 47 :: 47 :: tail, none, { uri with _scheme := s }⟩ := by
    simp [execAll, exec, save_append]
  have hmark : parse .start ⟨s ++ 58 :: 47 :: 47 :: tail, mark, uri⟩ =
      parse .scheme ⟨58 :: 47 :: 47 :: tail, some (s ++ 58 :: 47 :: 47 :: tail), uri⟩ := by
    rw [hsplit, List.cons_append, parse_step hstart rfl]
    exact parse_loop fun x hx => next_scheme (hothers x hx)
  rw [hmark, parse_step (rfl : Phase.scheme.next (kind 58) = _) hexec,
    parse_step (rfl : Phase.colon.next (kind 47) = _) rfl,
    parse_step (rfl : (Phase.root true).next (kind 47) = _) rfl]

namespace Components

variable {c : Components}

theorem ends_tail (h : c.OfForm) : Ends (c.path ++ c.rest) := by
  have hrest : Ends c.rest := by
    rw [rest]
    cases c.query with
    | some q =>
        rintro x ⟨⟩
        exact .inr (.inl rfl)
    | none =>
        cases c.fragment with
        | some f =>
            rintro x ⟨⟩
            exact .inr (.inr rfl)
        | none => rintro x ⟨⟩
  rcases h.path.1 with hpath | hpath
  · rw [hpath]
    exact hrest
  · intro x hx
    cases hsplit : c.path with
    | nil =>
        rw [hsplit] at hpath
        cases hpath
    | cons y path =>
        rw [hsplit] at hpath hx
        cases hpath
        cases hx
        exact .inl rfl

theorem parse_authority (h : c.OfForm) {tail : List UInt8} (htail : Ends tail) {uri : Uri} :
    parse (.auth true)
        ⟨before 64 c.userinfo ++ (c.host ++ (behind 58 c.port ++ tail)), none, uri⟩ =
      afterHost c.port tail
        { uri with _userinfo := (c.userinfo.map seen).getD uri._userinfo, _host := c.host } := by
  cases hu : c.userinfo with
  | none => exact parse_host hostPhases_auth portPhases_userOrPort h.host h.port htail
  | some v =>
      have huser : ∃ host, parse (.auth true)
          ⟨v ++ 64 :: (c.host ++ (behind 58 c.port ++ tail)), none, uri⟩ =
          parse (.host0 true) ⟨c.host ++ (behind 58 c.port ++ tail), none,
            { uri with _userinfo := seen v, _host := host }⟩ :=
        parse_userinfo (h.userinfo v hu)
      have ⟨host, huser⟩ := huser
      rw [before, List.append_assoc, List.singleton_append, huser,
        parse_host hostPhases_host portPhases_port h.host h.port htail]
      rfl

/-- The URI that is created: with an empty port there is none. -/
def created (c : Components) : Option Uri :=
  if c.port = some [] then none
  else
    some {
      _scheme := c.scheme
      _userinfo := (c.userinfo.map seen).getD []
      _host := c.host
      _port := (c.port.map atoi).getD 0
      _path := c.path
      _query := c.query.getD []
      _fragment := c.fragment.getD [] }

theorem parse_text (h : c.OfForm) : parse .start { p := c.text } = c.created := by
  rw [text, parse_scheme h.scheme, parse_authority h (ends_tail h), created]
  match hport : c.port with
  | none => exact parse_path h.path.2 h.query
  | some [] => exact parse_path_null h.path.2
  | some (_ :: _) => exact parse_path h.path.2 h.query

/-- **What `Create` returns** for a string of this form. -/
theorem created_of_Create (h : c.OfForm) {uri : Uri} (hcreate : Create c.text = some (some uri)) :
    c.created = some uri := by
  rw [← parse_text h]
  exact parse_of_Create hcreate

theorem port_ne_nil (h : c.OfForm) {uri : Uri} (hcreate : Create c.text = some (some uri)) :
    c.port ≠ some [] := by
  intro hport
  have hcreated := created_of_Create h hcreate
  rw [created, if_pos hport] at hcreated
  cases hcreated

theorem port_of_created (h : c.OfForm) (hle : decimal (c.port.getD []) ≤ 65535) :
    (c.port.map atoi).getD 0 = Int32.ofNat (decimal (c.port.getD [])) := by
  cases hport : c.port with
  | none => rfl
  | some digits =>
      rw [hport] at hle
      have hwhole : (digits ++ []).takeWhile isdigit = digits :=
        takeWhile_digits (h.port digits hport) (by rintro c ⟨⟩)
      rw [List.append_nil] at hwhole
      show atoi digits = Int32.ofNat (decimal digits)
      have hle : decimal digits ≤ 2 ^ 63 - 1 := le_trans hle (by norm_num)
      rw [atoi, hwhole, Nat.min_eq_left hle]

end Components

/-- A URI that is created has the components of its text, if and only if there is no user
information with a digit behind its first colon. -/
theorem decomposed_iff {c : Components} {uri : Uri} (h : c.OfForm)
    (hcreate : Create c.text = some (some uri)) :
    Decomposed c uri ↔ ∀ v ∈ c.userinfo, ¬ PortLike v := by
  have hcreated := Components.created_of_Create h hcreate
  rw [Components.created, if_neg (Components.port_ne_nil h hcreate), Option.some_inj] at hcreated
  constructor
  · rintro hdecomposed v hv
    have huser := hdecomposed.userinfo
    rw [← hcreated, hv] at huser
    exact seen_eq_iff.mp huser
  · intro hclean
    rw [← hcreated]
    refine { scheme := rfl, userinfo := ?_, host := rfl, port := Components.port_of_created h,
             path := rfl, query := rfl, fragment := rfl }
    cases hu : c.userinfo with
    | none => rfl
    | some v => exact seen_eq_iff.mpr (hclean v hu)

/-- `http://user:1@host/`. -/
def userOneHost : Components :=
  { scheme := [104, 116, 116, 112]
    userinfo := some [117, 115, 101, 114, 58, 49]
    host := [104, 111, 115, 116]
    port := none
    path := [47]
    query := none
    fragment := none }

/-- `http://user:a@host:80/`. -/
def userAHost : Components :=
  { userOneHost with userinfo := some [117, 115, 101, 114, 58, 97], port := some [56, 48] }

theorem ofForm_userAHost : userAHost.OfForm where
  scheme := ⟨104, [116, 116, 112], rfl, by decide, List.forall_iff_forall_mem.mp (by decide)⟩
  userinfo := by
    rintro v ⟨⟩
    exact List.forall_iff_forall_mem.mp (by decide)
  host := .inl (List.forall_iff_forall_mem.mp (by decide))
  port := by
    rintro digits ⟨⟩
    exact List.forall_iff_forall_mem.mp (by decide)
  path := by decide
  query := nofun

theorem ofForm_userOneHost : userOneHost.OfForm where
  scheme := ofForm_userAHost.scheme
  userinfo := by
    rintro v ⟨⟩
    exact List.forall_iff_forall_mem.mp (by decide)
  host := ofForm_userAHost.host
  port := nofun
  path := ofForm_userAHost.path
  query := nofun

theorem decomposed_iff_userAHost :
    Decomposed userAHost
        { _scheme := [104, 116, 116, 112]
          _userinfo := [117, 115, 101, 114, 58, 97]
          _host := [104, 111, 115, 116]
          _path := [47]
          _port := 80 } ↔
      ∀ v ∈ userAHost.userinfo, ¬ PortLike v :=
  decomposed_iff ofForm_userAHost (by decide +kernel)

/-- The user information that is set is `1`. -/
theorem not_decomposed_userOneHost :
    ¬ ∀ (c : Components) (uri : Uri), c.OfForm → Create c.text = some (some uri) →
      Decomposed c uri := by
  intro h
  have hcreate : Create userOneHost.text = some (some
      { _scheme := [104, 116, 116, 112]
        _userinfo := [49]
        _host := [104, 111, 115, 116]
        _path := [47] }) := by
    decide +kernel
  have huser := (h userOneHost _ ofForm_userOneHost hcreate).userinfo
  exact absurd huser (by decide)

end Uri
end Routn
