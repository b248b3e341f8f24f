import Mathlib.Data.List.Basic
import Mathlib.Tactic

/-!
# How `Address::Lookup` splits a host

A `[` in front is looked at first, then the colons; what neither of them takes is the node as a
whole.  The pointers are positions in `host.c_str()`.  The search for the colons leaves `service` at
the first one, also when there are more and the node is not split.
-/

namespace Routn
namespace Address

/-- The characters of a string with the one that ends it. -/
def c_str (s : List Char) : List Char := s ++ ['\x00']

/-- `memchr(p, c, n)`: `none` when a character outside of the buffer is read. -/
def memchr (c : Char) (buf : List Char) : Nat → Nat → Option (Option Nat)
  | _, 0 => some none
  | p, n + 1 =>
      match buf[p]? with
      | none => none
      | some d => if d = c then some (some p) else memchr c buf (p + 1) n

/-- The string at a pointer, with the same reading of `none`. -/
def stringAt (buf : List Char) (p : Nat) : Option (List Char) :=
  if '\x00' ∈ buf.drop p then some ((buf.drop p).takeWhile (· ≠ '\x00')) else none

/-- The node and the service after the look at `[`. -/
def splitBracket (host : List Char) : Option (List Char × Option Nat) :=
  if host.head? = some '[' then do
    match ← memchr ']' (c_str host) 1 (host.length - 1) with
    | none => return ([], none)
    | some endipv6 =>
        let next ← (c_str host)[endipv6 + 1]?
        return ((host.drop 1).take (endipv6 - 1),
          if next = ':' then some (endipv6 + 2) else none)
  else return ([], none)

/-- The node and the service after the look at the colons. -/
def splitColon (host : List Char) : Option (List Char × Option Nat) := do
  match ← memchr ':' (c_str host) 0 host.length with
  | none => return ([], none)
  | some service =>
      match ← memchr ':' (c_str host) (service + 1) (host.length - service - 1) with
      | none => return (host.take service, some (service + 1))
      | some _ => return ([], some service)

/-- The first two arguments of `getaddrinfo`. -/
def lookupArgs (host : List Char) : Option (List Char × Option (List Char)) := do
  let (node, service) ← splitBracket host
  let (node, service) ← if node = [] then splitColon host else some (node, service)
  let node := if node = [] then host else node
  let node ← stringAt (c_str node) 0
  match service with
  | none => return (node, none)
  | some p => return (node, some (← stringAt (c_str host) p))

/-! ## The forms of a host -/

inductive Form
  | host (h : List Char)
  | hostService (h s : List Char)
  | literal (v : List Char)
  | bracketed (v : List Char)
  | bracketedService (v s : List Char)
deriving DecidableEq, Repr

namespace Form

def text : Form → List Char
  | host h => h
  | hostService h s => h ++ ':' :: s
  | literal v => v
  | bracketed v => '[' :: v ++ [']']
  | bracketedService v s => '[' :: v ++ ']' :: ':' :: s

/-- The node and the service that it stands for. -/
def args : Form → List Char × Option (List Char)
  | host h => (h, none)
  | hostService h s => (h, some s)
  | literal v => (v, none)
  | bracketed v => (v, none)
  | bracketedService v s => (v, some s)

/-- An IPv4 address or the name of a host. -/
structure IsHost (h : List Char) : Prop where
  ne_nil : h ≠ []
  colon : ':' ∉ h
  bracket : '[' ∉ h
  nul : '\x00' ∉ h

/-- An IPv6 address has two colons or more. -/
structure IsLiteral (v : List Char) : Prop where
  colons : 2 ≤ v.count ':'
  opening : '[' ∉ v
  closing : ']' ∉ v
  nul : '\x00' ∉ v

structure IsService (s : List Char) : Prop where
  colon : ':' ∉ s
  closing : ']' ∉ s
  nul : '\x00' ∉ s

def Legal : Form → Prop
  | host h => IsHost h
  | hostService h s => IsHost h ∧ IsService s
  | literal v => IsLiteral v
  | bracketed v => IsLiteral v
  | bracketedService v s => IsLiteral v ∧ IsService s

end Form

/-! ## `memchr` -/

section Memchr

variable {c : Char} {middle : List Char}

/-- What is searched is inside of the buffer. -/
theorem memchr_total (c : Char) (buf : List Char) {p n : Nat} (h : p + n ≤ buf.length) :
    ∃ result, memchr c buf p n = some result ∧ ∀ q, result = some q → p ≤ q ∧ q < p + n := by
  induction n generalizing p with
  | zero => exact ⟨none, by simp [memchr], by simp⟩
  | succ n ih =>
      have hp : p < buf.length := by omega
      by_cases hc : buf[p] = c
      · refine ⟨some p, by simp [memchr, hp, hc], ?_⟩
        rintro q ⟨⟩
        omega
      · obtain ⟨result, hresult, hrange⟩ := ih (p := p + 1) (by omega)
        refine ⟨result, by simpa [memchr, hp, hc] using hresult, ?_⟩
        intro q hq
        have hq' := hrange q hq
        omega

theorem memchr_absent (front back : List Char) (h : c ∉ middle) :
    memchr c (front ++ (middle ++ back)) front.length middle.length = some none := by
  induction middle generalizing front with
  | nil => simp [memchr]
  | cons d middle ih =>
      simp only [List.mem_cons, not_or] at h
      have hrest := ih (front ++ [d]) h.2
      simpa [memchr, Ne.symm h.1] using hrest

theorem memchr_first (front back : List Char) {n : Nat} (h : c ∉ middle) (hn : middle.length < n) :
    memchr c (front ++ (middle ++ c :: back)) front.length n =
      some (some (front.length + middle.length)) := by
  induction middle generalizing front n with
  | nil =>
      obtain ⟨n, rfl⟩ := Nat.exists_eq_succ_of_ne_zero hn.ne'
      simp [memchr]
  | cons d middle ih =>
      obtain ⟨n, rfl⟩ := Nat.exists_eq_succ_of_ne_zero (Nat.ne_zero_of_lt hn)
      simp only [List.mem_cons, not_or] at h
      have hrest := ih (front ++ [d]) (n := n) h.2 (by simpa using hn)
      simpa [memchr, Ne.symm h.1, Nat.add_assoc, Nat.add_comm 1] using hrest

end Memchr

/-- A string in a buffer that ends with it. -/
theorem stringAt_append (front : List Char) {s : List Char} (h : '\x00' ∉ s) :
    stringAt (front ++ (s ++ ['\x00'])) front.length = some s := by
  have hall : ∀ d ∈ s, decide (d ≠ '\x00') = true := by
    intro d hd
    exact decide_eq_true fun hnul => h (hnul ▸ hd)
  rw [stringAt, List.drop_left, if_pos (by simp), List.takeWhile_append_of_pos hall]
  simp

theorem stringAt_c_str {s : List Char} (h : '\x00' ∉ s) : stringAt (c_str s) 0 = some s :=
  stringAt_append [] h

/-- A pointer into the buffer or to its end points to a string. -/
theorem stringAt_total {s : List Char} {p : Nat} (h : p ≤ s.length) :
    ∃ t, stringAt (c_str s) p = some t := by
  have hnul : '\x00' ∈ (c_str s).drop p := by
    simp [c_str, List.drop_append_of_le_length h]
  exact ⟨_, if_pos hnul⟩

/-! ## The stages -/

theorem splitBracket_of_ne {host : List Char} (h : host.head? ≠ some '[') :
    splitBracket host = some ([], none) := by
  simp [splitBracket, h]

theorem splitColon_absent {host : List Char} (h : ':' ∉ host) :
    splitColon host = some ([], none) := by
  have hmemchr : memchr ':' (c_str host) 0 host.length = some none := by
    simpa [c_str] using memchr_absent [] ['\x00'] h
  simp [splitColon, hmemchr]

/-- The node is split when nothing is found behind the first colon. -/
theorem splitColon_found {host : List Char} {p : Nat} {second : Option Nat}
    (hfirst : memchr ':' (c_str host) 0 host.length = some (some p))
    (hsecond : memchr ':' (c_str host) (p + 1) (host.length - p - 1) = some second) :
    splitColon host =
      some (if second = none then (host.take p, some (p + 1)) else ([], some p)) := by
  cases second <;> simp [splitColon, hfirst, hsecond]

theorem splitColon_one {h s : List Char} (hh : ':' ∉ h) (hs : ':' ∉ s) :
    splitColon (h ++ ':' :: s) = some (h, some (h.length + 1)) := by
  have hlength : (h ++ ':' :: s).length - h.length - 1 = s.length := by simp
  have hfirst : memchr ':' (c_str (h ++ ':' :: s)) 0 (h ++ ':' :: s).length =
      some (some h.length) := by
    simpa [c_str] using memchr_first [] (s ++ ['\x00'])
      (n := (h ++ ':' :: s).length) hh (by simp)
  have hsecond : memchr ':' (c_str (h ++ ':' :: s)) (h.length + 1) s.length = some none := by
    simpa [c_str] using memchr_absent (h ++ [':']) ['\x00'] hs
  rw [splitColon_found hfirst (hlength ▸ hsecond)]
  simp

/-- With two colons the node is not split, and the service is at the first of them. -/
theorem splitColon_two {a b d : List Char} (ha : ':' ∉ a) (hb : ':' ∉ b) :
    splitColon (a ++ ':' :: (b ++ ':' :: d)) = some ([], some a.length) := by
  have hlength : (a ++ ':' :: (b ++ ':' :: d)).length - a.length - 1 =
      b.length + (d.length + 1) := by simp
  have hfirst : memchr ':' (c_str (a ++ ':' :: (b ++ ':' :: d))) 0
      (a ++ ':' :: (b ++ ':' :: d)).length = some (some a.length) := by
    simpa [c_str] using memchr_first [] (b ++ ':' :: (d ++ ['\x00']))
      (n := (a ++ ':' :: (b ++ ':' :: d)).length) ha (by simp)
  have hsecond : memchr ':' (c_str (a ++ ':' :: (b ++ ':' :: d))) (a.length + 1)
      (b.length + (d.length + 1)) = some (some (a.length + 1 + b.length)) := by
    simpa [c_str] using memchr_first (a ++ [':']) (d ++ ['\x00'])
      (n := b.length + (d.length + 1)) hb (by omega)
  rw [splitColon_found hfirst (hlength ▸ hsecond)]
  simp

theorem splitBracket_found {host : List Char} {endipv6 : Nat} {next : Char}
    (hhead : host.head? = some '[')
    (hmemchr : memchr ']' (c_str host) 1 (host.length - 1) = some (some endipv6))
    (hnext : (c_str host)[endipv6 + 1]? = some next) :
    splitBracket host = some ((host.drop 1).take (endipv6 - 1),
      if next = ':' then some (endipv6 + 2) else none) := by
  simp [splitBracket, hhead, hmemchr, hnext]

theorem splitBracket_bracket (rest : List Char) {v : List Char} (hv : ']' ∉ v) :
    splitBracket ('[' :: v ++ ']' :: rest) =
      some (v, if rest.head?.getD '\x00' = ':' then some (v.length + 3) else none) := by
  have hmemchr : memchr ']' (c_str ('[' :: v ++ ']' :: rest)) 1
      (('[' :: v ++ ']' :: rest).length - 1) = some (some (1 + v.length)) := by
    simpa [c_str] using memchr_first ['['] (rest ++ ['\x00'])
      (n := ('[' :: v ++ ']' :: rest).length - 1) hv (by simp)
  have hnext : (c_str ('[' :: v ++ ']' :: rest))[1 + v.length + 1]? =
      some (rest.head?.getD '\x00') := by
    have hbuf : c_str ('[' :: v ++ ']' :: rest) = ('[' :: v ++ [']']) ++ (rest ++ ['\x00']) := by
      simp [c_str]
    have hlength : ('[' :: v ++ [']']).length = 1 + v.length + 1 := by
      simp [Nat.add_comm]
    rw [hbuf, List.getElem?_append_right (by omega), hlength, Nat.sub_self]
    cases rest <;> simp
  rw [splitBracket_found (by simp) hmemchr hnext]
  simp [Nat.add_comm 1]

/-- The first two colons of a string that has two. -/
theorem exists_two_colons {v : List Char} (h : 2 ≤ v.count ':') :
    ∃ a b d, v = a ++ ':' :: (b ++ ':' :: d) ∧ ':' ∉ a ∧ ':' ∉ b := by
  have hmem : ':' ∈ v := List.count_pos_iff.mp (by omega)
  obtain ⟨a, rest, rfl, ha⟩ := List.eq_append_cons_of_mem hmem
  have hrest : 0 < rest.count ':' := by
    simp [List.count_eq_zero_of_not_mem ha] at h
    simpa using h
  obtain ⟨b, d, rfl, hb⟩ := List.eq_append_cons_of_mem (List.count_pos_iff.mp hrest)
  exact ⟨a, b, d, rfl, ha, hb⟩

/-! ## The arguments of `getaddrinfo` -/

/-- What is found in brackets is the node. -/
theorem lookupArgs_bracket {host node : List Char} {service : Option Nat} (hne : node ≠ [])
    (hnul : '\x00' ∉ node) (hsplit : splitBracket host = some (node, service)) :
    lookupArgs host = match service with
      | none => some (node, none)
      | some p => (stringAt (c_str host) p).map fun s => (node, some s) := by
  cases service <;>
    simp [lookupArgs, hsplit, hne, stringAt_c_str hnul, Option.map_eq_bind]

/-- Without brackets it is what is in front of the colon, or everything. -/
theorem lookupArgs_colon {host node : List Char} {service : Option Nat}
    (hhead : host.head? ≠ some '[') (hsplit : splitColon host = some (node, service))
    (hnul : '\x00' ∉ if node = [] then host else node) :
    lookupArgs host = match service with
      | none => some (if node = [] then host else node, none)
      | some p => (stringAt (c_str host) p).map fun s =>
          (if node = [] then host else node, some s) := by
  cases service <;>
    simp [lookupArgs, splitBracket_of_ne hhead, hsplit, stringAt_c_str hnul,
      Option.map_eq_bind]

/-- Both stages leave a node that is no longer than the host and a service inside of it. -/
theorem splitBracket_total (host : List Char) :
    ∃ node service, splitBracket host = some (node, service) ∧
      ∀ p, service = some p → p ≤ host.length := by
  by_cases hhead : host.head? = some '['
  · have hlength : 0 < host.length := by
      cases host <;> simp at hhead ⊢
    obtain ⟨result, hmemchr, hrange⟩ :=
      memchr_total ']' (c_str host) (p := 1) (n := host.length - 1)
        (by simp [c_str]; omega)
    cases result with
    | none => exact ⟨[], none, by simp [splitBracket, hhead, hmemchr], by simp⟩
    | some endipv6 =>
        have hend := hrange endipv6 rfl
        have hlt : endipv6 + 1 < (c_str host).length := by
          simp [c_str]
          omega
        refine ⟨_, _, splitBracket_found hhead hmemchr (List.getElem?_eq_getElem hlt), ?_⟩
        intro p hp
        -- What is behind the bracket is a colon, and not the character that ends the string.
        by_cases hcolon : (c_str host)[endipv6 + 1] = ':'
        · obtain rfl : endipv6 + 2 = p := by simpa [hcolon] using hp
          by_contra hge
          have hlast : endipv6 + 1 = host.length := by omega
          simp [c_str, hlast] at hcolon
        · simp [hcolon] at hp
  · exact ⟨[], none, splitBracket_of_ne hhead, by simp⟩

theorem splitColon_total (host : List Char) :
    ∃ node service, splitColon host = some (node, service) ∧
      ∀ p, service = some p → p ≤ host.length := by
  obtain ⟨first, hfirst, hrange⟩ :=
    memchr_total ':' (c_str host) (p := 0) (n := host.length) (by simp [c_str])
  cases first with
  | none => exact ⟨[], none, by simp [splitColon, hfirst], by simp⟩
  | some p =>
      have hp := hrange p rfl
      obtain ⟨second, hsecond, -⟩ :=
        memchr_total ':' (c_str host) (p := p + 1) (n := host.length - p - 1)
          (by simp [c_str]; omega)
      have hsplit := splitColon_found hfirst hsecond
      cases second with
      | none =>
          refine ⟨_, _, by simpa using hsplit, ?_⟩
          rintro q ⟨⟩
          omega
      | some _ =>
          refine ⟨_, _, by simpa using hsplit, ?_⟩
          rintro q ⟨⟩
          omega

/-- **No character outside of the string is read**, whatever the host is. -/
theorem lookupArgs_total (host : List Char) : (lookupArgs host).isSome := by
  have hlast (node : List Char) {service : Option Nat}
      (hservice : ∀ p, service = some p → p ≤ host.length) :
      (do
        let node ← stringAt (c_str node) 0
        match service with
        | none => return (node, none)
        | some p => return (node, some (← stringAt (c_str host) p))).isSome := by
    obtain ⟨t, ht⟩ := stringAt_total (Nat.zero_le node.length)
    cases service with
    | none => simp [ht]
    | some p =>
        obtain ⟨u, hu⟩ := stringAt_total (hservice p rfl)
        simp [ht, hu]
  obtain ⟨node, service, hbracket, hservice⟩ := splitBracket_total host
  obtain ⟨node', service', hcolon, hservice'⟩ := splitColon_total host
  by_cases hnode : node = []
  · simpa [lookupArgs, hbracket, hnode, hcolon] using hlast _ hservice'
  · simpa [lookupArgs, hbracket, hnode] using hlast _ hservice

/-! ## The forms -/

theorem head?_ne (rest : List Char) {h : List Char} (hne : h ≠ []) (hbracket : '[' ∉ h) :
    (h ++ rest).head? ≠ some '[' := by
  obtain ⟨c, t, rfl⟩ := List.exists_cons_of_ne_nil hne
  rintro ⟨⟩
  simp at hbracket

namespace Form

theorem lookupArgs_host {h : List Char} (hh : IsHost h) :
    lookupArgs (host h).text = some (host h).args := by
  have hhead : h.head? ≠ some '[' := by simpa using head?_ne [] hh.ne_nil hh.bracket
  simp [text, args, lookupArgs_colon hhead (splitColon_absent hh.colon) (by simpa using hh.nul)]

theorem lookupArgs_hostService {h s : List Char} (hh : IsHost h) (hs : IsService s) :
    lookupArgs (hostService h s).text = some (hostService h s).args := by
  have hservice : stringAt (c_str (h ++ ':' :: s)) (h.length + 1) = some s := by
    simpa [c_str] using stringAt_append (h ++ [':']) hs.nul
  rw [text, lookupArgs_colon (head?_ne _ hh.ne_nil hh.bracket) (splitColon_one hh.colon hs.colon)
    (by simpa [hh.ne_nil] using hh.nul)]
  simp [args, hservice, hh.ne_nil]

theorem IsLiteral.ne_nil {v : List Char} (hv : IsLiteral v) : v ≠ [] := by
  rintro rfl
  exact absurd hv.colons (by decide)

theorem lookupArgs_bracketed {v : List Char} (hv : IsLiteral v) :
    lookupArgs (bracketed v).text = some (bracketed v).args := by
  have hsplit := splitBracket_bracket [] hv.closing
  rw [text, lookupArgs_bracket hv.ne_nil hv.nul hsplit]
  simp [args]

theorem lookupArgs_bracketedService {v s : List Char} (hv : IsLiteral v) (hs : IsService s) :
    lookupArgs (bracketedService v s).text = some (bracketedService v s).args := by
  have hsplit := splitBracket_bracket (':' :: s) hv.closing
  have hservice : stringAt (c_str ('[' :: v ++ ']' :: ':' :: s)) (v.length + 3) = some s := by
    simpa [c_str] using stringAt_append ('[' :: v ++ [']', ':']) hs.nul
  rw [text, lookupArgs_bracket hv.ne_nil hv.nul hsplit]
  simpa [args] using hservice

/-- A literal without brackets comes with a service. -/
theorem lookupArgs_literal {v : List Char} (hv : IsLiteral v) :
    lookupArgs (literal v).text ≠ some (literal v).args := by
  obtain ⟨a, b, d, rfl, ha, hb⟩ := exists_two_colons hv.colons
  have hhead := head?_ne [] hv.ne_nil hv.opening
  rw [List.append_nil] at hhead
  rw [text, lookupArgs_colon hhead (splitColon_two ha hb) (by simpa using hv.nul)]
  simp [args]

/-- **The forms of a host.** -/
theorem lookupArgs_iff (form : Form) (hform : form.Legal) :
    (lookupArgs form.text = some form.args ↔ ∀ v, form ≠ literal v) ∧
      ∀ host, (lookupArgs host).isSome := by
  refine ⟨?_, lookupArgs_total⟩
  cases form with
  | host h => simpa using lookupArgs_host hform
  | hostService h s => simpa using lookupArgs_hostService hform.1 hform.2
  | literal v => simpa using lookupArgs_literal hform
  | bracketed v => simpa using lookupArgs_bracketed hform
  | bracketedService v s => simpa using lookupArgs_bracketedService hform.1 hform.2

/-- `lookupArgs_iff` for `[::1]:80`. -/
theorem lookupArgs_iff_loopback :
    lookupArgs "[::1]:80".toList = some ("::1".toList, some "80".toList) := by
  have hliteral : IsLiteral "::1".toList := by
    constructor <;> decide
  have hservice : IsService "80".toList := by
    constructor <;> decide
  exact (lookupArgs_iff (bracketedService "::1".toList "80".toList) ⟨hliteral, hservice⟩).1.mpr
    (by simp)

/-- **`::1`** comes with the service `::1`. -/
theorem not_lookupArgs_loopback :
    lookupArgs "::1".toList = some ("::1".toList, some "::1".toList) ∧
      (literal "::1".toList).args = ("::1".toList, none) := by
  decide

end Form
end Address
end Routn
