import Mathlib.Tactic
import Routn.Foundation.RegexMachine
import Routn.Address.Uri.Table

/-!
# The grammar of `Uri.rl`

The definitions of `Uri.rl` without their actions.  A character is a `char`, which is signed, so
that `any -- ascii` is what is below zero.
-/

namespace Routn
namespace UriGrammar

open Foundation Regex UriParser

/-- A symbol of the grammar is a set of characters, by ranges. -/
abbrev Expr := Regex (List (Int × Int))

/-- A character in quotes, or its number. -/
def char (c : Char) : Expr := sym [(c.toNat, c.toNat)]

/-- One of several characters. -/
def oneOf (cs : List Char) : List (Int × Int) := cs.map fun c => (c.toNat, c.toNat)

def Alpha : List (Int × Int) := [(65, 90), (97, 122)]

def Digit : List (Int × Int) := [(48, 57)]

def Unreserved : List (Int × Int) := Alpha ++ Digit ++ oneOf ['-', '.', '_', '~']

def digit : Expr := sym Digit

def xdigit : Expr := sym [(48, 57), (65, 70), (97, 102)]

def subDelims : Expr := sym (oneOf ['!', '$', '&', '\'', '(', ')', '*', '+', ',', ';', '='])

def unreserved : Expr := sym Unreserved

def pctEncoded : Expr := cats (char '%') [xdigit, xdigit]

def scheme : Expr := cat (sym Alpha) (star (sym (Alpha ++ Digit ++ oneOf ['+', '-', '.'])))

def userinfo : Expr := star (alts unreserved [pctEncoded, subDelims, char ':'])

/-- In the fourth alternative `2` stands without quotes, for the character with this number. -/
def decOctet : Expr :=
  alts digit [
    cat (sym [(49, 57)]) digit,
    cats (char '1') [digit, digit],
    cats (sym [(2, 2)]) [sym [(48, 52)], digit],
    cats (char '2') [char '5', sym [(48, 53)]]]

def IPv4address : Expr :=
  cats decOctet [char '.', decOctet, char '.', decOctet, char '.', decOctet]

def h16 : Expr := cat xdigit (upTo xdigit 3)

def ls32 : Expr := alt (cats h16 [char ':', h16]) IPv4address

/-- `h16 ":"`. -/
def group : Expr := cat h16 (char ':')

/-- `"::"`. -/
def gap : Expr := cat (char ':') (char ':')

def IPv6address : Expr :=
  alts (cat (rep group 6) ls32) [
    cats gap [rep group 5, ls32],
    cats (opt h16) [gap, rep group 4, ls32],
    cats (opt (cat (rep group 1) h16)) [gap, rep group 3, ls32],
    cats (opt (cat (rep group 2) h16)) [gap, rep group 2, ls32],
    cats (opt (cat (rep group 3) h16)) [gap, rep group 1, ls32],
    cats (opt (cat (rep group 4) h16)) [gap, ls32],
    cats (opt (cat (rep group 5) h16)) [gap, h16],
    cat (opt (cat (rep group 6) h16)) gap]

def IPvFuture : Expr :=
  cats (char 'v') [plus xdigit, char '.', plus (alts unreserved [subDelims, char ':'])]

def IPLiteral : Expr := cats (char '[') [alt IPv6address IPvFuture, char ']']

def regName : Expr := star (alts unreserved [pctEncoded, subDelims])

def host : Expr := alts IPLiteral [IPv4address, regName]

def port : Expr := star digit

def authority : Expr :=
  cats (opt (cat userinfo (char '@'))) [host, opt (cat (char ':') port)]

def pchar : Expr :=
  alts (sym [(-128, -1)]) [unreserved, pctEncoded, subDelims, char ':', char '@']

def segment : Expr := star pchar

def segmentNz : Expr := plus pchar

/-- `(pchar - ":")+`. -/
def segmentNzNc : Expr :=
  plus (alts (sym [(-128, -1)]) [unreserved, pctEncoded, subDelims, char '@'])

/-- `"/" segment`. -/
def slashSegment : Expr := cat (char '/') segment

def pathAbempty : Expr := cat (opt slashSegment) (star slashSegment)

def pathAbsolute : Expr := cat (char '/') (opt (cat segmentNz (star slashSegment)))

def pathNoscheme : Expr := cat segmentNzNc (star slashSegment)

def pathRootless : Expr := cat segmentNz (star slashSegment)

def query : Expr := star (alts pchar [char '/', char '?'])

def fragment : Expr := star (alts pchar [char '/', char '?'])

/-- `"//" authority path_abempty`. -/
def netPath : Expr := cats (char '/') [char '/', authority, pathAbempty]

def hierPart : Expr := alts netPath [pathAbsolute, pathRootless, eps]

def relativePart : Expr := alts netPath [pathAbsolute, pathNoscheme, eps]

/-- `( "?" query )? ( "#" fragment )?`. -/
def tail : Expr := cat (opt (cat (char '?') query)) (opt (cat (char '#') fragment))

def relativeRef : Expr := cat relativePart tail

def URI : Expr := cats scheme [char ':', hierPart, tail]

def URIReference : Expr := alt URI relativeRef

/-- The characters of a symbol. -/
def mem (ranges : List (Int × Int)) (c : UInt8) : Bool :=
  ranges.any fun r => decide (r.1 ≤ signed c ∧ signed c ≤ r.2)

/-! ## The same language with fewer symbols -/

/-- `( h16 ":" ){n} h16 "::"`, or `"::"` alone. -/
def upToGap (n : Nat) : Expr := cat (opt (cat (rep group n) h16)) gap

/-- `IPv6address`, with what its alternatives have behind the gap in common only once. -/
def IPv6Shared : Expr :=
  alts
    (cat
      (alt
        (cat
          (alt
            (cat
              (alt
                (cat
                  (alt (cat (alt (cat (alt group gap) group) (cat (opt h16) gap)) group) (upToGap 1))
                  group)
                (upToGap 2))
              group)
            (upToGap 3))
          group)
        (upToGap 4))
      ls32)
    [cat (upToGap 5) h16, upToGap 6]

def netPathShared : Expr :=
  cats (char '/') [char '/',
    cats (opt (cat userinfo (char '@')))
      [alts (cats (char '[') [alt IPv6Shared IPvFuture, char ']']) [IPv4address, regName],
        opt (cat (char ':') port)],
    pathAbempty]

/-- `URI | relative_ref`, with `netPath` and `tail` only once. -/
def Shared : Expr :=
  cat
    (alts (cat (opt (cat scheme (char ':'))) netPathShared) [
      cats scheme [char ':', alts pathAbsolute [pathRootless, eps]], pathAbsolute, pathNoscheme,
      eps])
    tail

section Language

variable (a b c : Expr)

theorem language_opt : (opt a).language mem = a.language mem + 1 := rfl

theorem language_alt : (alt a b).language mem = a.language mem + b.language mem := rfl

theorem language_cat : (cat a b).language mem = a.language mem * b.language mem := rfl

theorem language_eps : (eps : Expr).language mem = 1 := rfl

end Language

theorem language_IPv6Shared : IPv6Shared.language mem = IPv6address.language mem := by
  simp only [IPv6Shared, IPv6address, upToGap, alts, cats, rep, language_opt, language_alt,
    language_cat, language_eps, add_mul, mul_assoc, one_mul, mul_one]
  abel

/-- **Both have the same words.** -/
theorem language_Shared : Shared.language mem = URIReference.language mem := by
  have hnet : netPathShared.language mem = netPath.language mem := by
    simp only [netPathShared, netPath, authority, host, IPLiteral, alts, cats, language_alt,
      language_cat, language_IPv6Shared]
  simp only [Shared, URIReference, URI, relativeRef, hierPart, relativePart, alts, cats,
    language_opt, language_alt, language_cat, language_eps, hnet, add_mul, mul_add, mul_assoc,
    one_mul]
  abel

/-! ## The machine -/

/-- The characters by how the grammar and the machine treat them. -/
def cells : List Nat :=
  [[(-128, -1)],
    [(0, 1), (3, 32), (34, 34), (60, 60), (62, 62), (92, 92), (94, 94), (96, 96), (123, 125),
      (127, 127)],
    [(2, 2)], [(33, 33), (36, 36), (38, 42), (44, 44), (59, 59), (61, 61)], [(35, 35)], [(37, 37)],
    [(43, 43)], [(45, 45)], [(46, 46)], [(47, 47)], [(48, 48)], [(49, 49)], [(50, 50)], [(51, 52)],
    [(53, 53)], [(54, 57)], [(58, 58)], [(63, 63)], [(64, 64)], [(65, 70), (97, 102)],
    [(71, 90), (103, 117), (119, 122)], [(91, 91)], [(93, 93)], [(95, 95), (126, 126)],
    [(118, 118)]].map Ranges.bits

/-- The edges of the states from 1 on. -/
def rows : List (List (Nat × Nat)) :=
  cases.map fun row => row.2.map fun edge => (Ranges.bits edge.1, (target edge.2).2)

def edges (q : Nat) : List (Nat × Nat) := getByRows 24 (byRows 24 rows) [] (q - 1)

def meets (set : List (Int × Int)) (cell : Nat) : Bool :=
  !Nat.beq (Nat.land (Ranges.bits set) cell) 0

def comparison : Comparison where
  start := uriParserStart
  final := fun q => Nat.ble uriParserFirstFinal q
  halts := control.halts
  edges := edges
  cells := cells.map fun cell => (cell, Shared.matching meets cell)
  last := Shared.last
  follow := .ofList 9 Shared.follows

/-- The bit of a character. -/
def index (c : UInt8) : Nat := (signed c + 128).toNat

theorem signed_bounds (c : UInt8) : 0 ≤ signed c + 128 ∧ signed c + 128 < 256 := by
  have hlt := c.toNat_lt
  rw [signed]
  split <;> omega

theorem signed_injective : Function.Injective signed := by
  intro x y h
  have hx := x.toNat_lt
  have hy := y.toNat_lt
  rw [signed, signed] at h
  exact UInt8.toNat_inj.mp (by split at h <;> split at h <;> omega)

theorem mem_eq (set : List (Int × Int)) (c : UInt8) :
    mem set c = (Ranges.bits set).testBit (index c) :=
  (Ranges.testBit_bits (signed_bounds c).1 set).symm

/-- Each cell is in a symbol or outside. -/
theorem symbols_cells : (Shared.symbols.all fun set => cells.all fun cell =>
    Nat.beq (Nat.land (Ranges.bits set) cell) 0 ||
      Nat.beq (Nat.land (Ranges.bits set) cell) cell) = true := by
  decide +kernel

theorem unionOf_cells : unionOf id cells = 2 ^ 256 - 1 := by
  decide +kernel

theorem cases_numbered : cases.map Prod.fst = List.range' 1 560 := by
  decide +kernel

/-- The pair that a text leads to. -/
def pairAfter (text : List UInt8) : Nat × Nat :=
  (control.after uriParserStart text, text.foldl
    (fun points c => comparison.follow.gather (Nat.land points (Shared.matching mem c)))
    Shared.first)

/-- The stations of the searches.  The states for an authority are there twice, without a scheme and
behind one, and most of them are for an address in brackets: each of these parts is searched by
itself. -/
def stations : { ss : List (Nat × Nat) //
    ∀ s ∈ ss, (comparison.reachedFrom 4000 ss s).isSome = true } where
  val := [[], [47, 47], [47, 47, 91], [97, 58, 47, 47], [97, 58, 47, 47, 91]].map pairAfter
  property := by
    rw [List.forall_mem_map]
    simp only [List.forall_mem_cons]
    refine ⟨?_, ?_, ?_, ?_, ?_⟩
    · decide +kernel
    · decide +kernel
    · decide +kernel
    · decide +kernel
    · decide +kernel

/-- A table by the numbers of its rows. -/
theorem lookup_numbered {β : Type*} {xs : List (Nat × β)} {k n : Nat}
    (h : xs.map Prod.fst = List.range' k n) (i : Nat) :
    xs.lookup (k + i) = xs[i]?.map Prod.snd := by
  induction n generalizing xs k i with
  | zero =>
      obtain rfl := List.map_eq_nil_iff.mp h
      rfl
  | succ n ih =>
      cases xs with
      | nil => cases h
      | cons x xs =>
          obtain ⟨hx, hxs⟩ := List.cons.inj h
          obtain ⟨j, b⟩ := x
          obtain rfl : j = k := hx
          rw [List.lookup_cons]
          cases i with
          | zero => rw [Nat.add_zero, beq_self_eq_true]; rfl
          | succ i =>
              have hne : (j + (i + 1) == j) = false := beq_false_of_ne (by omega)
              rw [hne, ← Nat.add_assoc, Nat.add_right_comm]
              exact ih hxs i

theorem step_bits (edges : List (List (Int × Int) × Goto)) (c : UInt8) :
    step (edges.map fun edge => (Ranges.bits edge.1, (target edge.2).2)) (index c) =
      ((Ranges.select edges (signed c)).map target).map Prod.snd := by
  have hsame : ((fun e : Nat × Nat => e.1.testBit (index c)) ∘
      fun edge : List (Int × Int) × Goto => (Ranges.bits edge.1, (target edge.2).2)) =
      Ranges.covers (signed c) :=
    funext fun edge => (mem_eq edge.1 c).symm
  rw [step, Ranges.select, List.find?_map, hsame, Option.map_map, Option.map_map, Option.map_map]
  rfl

theorem comparison_edges : comparison.edges = edges := by
  rw [comparison]

theorem edges_succ (i : Nat) : edges (1 + i) = rows.getD i [] := by
  rw [edges, getByRows_byRows (by decide), Nat.add_sub_cancel_left]

theorem next_eq_step (q : Nat) (c : UInt8) (hq : comparison.halts q = false) :
    (control.next q c).map Prod.snd = step (comparison.edges q) (index c) := by
  obtain ⟨i, rfl⟩ : ∃ i, q = 1 + i :=
    Nat.exists_eq_add_of_le (Nat.pos_of_ne_zero (ne_of_beq_false hq))
  have hnext : control.next (1 + i) c =
      (cases.lookup (1 + i)).bind fun edges => (Ranges.select edges (signed c)).map target := rfl
  rw [comparison_edges, edges_succ, List.getD_eq_getElem?_getD, rows, List.getElem?_map, hnext,
    lookup_numbered cases_numbered]
  cases cases[i]? with
  | none => rfl
  | some row => exact (step_bits row.2 c).symm

/-- The symbols of the grammar that hold a character are those that meet its cell. -/
theorem exists_cell (c : UInt8) : ∃ cell, (cell, Shared.matching mem c) ∈ comparison.cells ∧
    cell.testBit (index c) = true := by
  have hunion : (unionOf id cells).testBit (index c) = true := by
    rw [unionOf_cells, Nat.testBit_two_pow_sub_one]
    have hbounds := signed_bounds c
    exact decide_eq_true (by rw [index]; omega)
  rw [testBit_unionOf] at hunion
  obtain ⟨cell, hcell, hbit⟩ := List.any_eq_true.mp hunion
  refine ⟨cell, List.mem_map.mpr ⟨cell, hcell, congrArg _ ?_⟩, hbit⟩
  refine (matching_congr fun set hset => ?_)
  have hsym := List.all_eq_true.mp (List.all_eq_true.mp symbols_cells set hset) cell hcell
  rw [mem_eq, meets]
  rcases (Bool.or_eq_true _ _).mp hsym with hout | hin
  · rw [hout, testBit_of_disjoint hout hbit]
    rfl
  · rw [testBit_of_holds hin hbit]
    cases hzero : Nat.beq (Nat.land (Ranges.bits set) cell) 0 with
    | false => rfl
    | true =>
        have hout := testBit_of_disjoint hzero hbit
        rw [testBit_of_holds hin hbit] at hout
        cases hout

/-- **The machine accepts the language of the grammar.** -/
theorem machine_accepts_iff (text : List UInt8) :
    uriParserFirstFinal ≤ control.after uriParserStart text ↔
      text ∈ URIReference.language mem := by
  have hfollow : ∀ read < 2 ^ Shared.size,
      comparison.follow.gather read = (Shared.after read).1 :=
    fun read hread => gather_follows (by decide) hread
  have hnull : comparison.final comparison.start = Shared.nullable := rfl
  have haccepts : comparison.final (control.after comparison.start text) = true ↔
      text ∈ Shared.language mem :=
    Comparison.final_after_of_reachedFrom exists_cell next_eq_step (fun _ => rfl) rfl hfollow rfl
      hnull List.mem_cons_self stations.property text
  rw [← language_Shared, ← Nat.ble_eq]
  exact haccepts

end UriGrammar
end Routn
