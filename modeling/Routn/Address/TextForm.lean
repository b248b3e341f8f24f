import Mathlib.Data.List.Basic
import Mathlib.Tactic

/-!
# The text of an IPv6 address

RFC 4291: eight groups of one to four hexadecimal digits with a colon between two of them, or less
with one `::` for the groups of zeros that are left out.  A text denotes one list of eight groups.

The sum of the groups can be read off a text without looking for its form.
-/

namespace Routn
namespace Address

def isHex (c : Char) : Bool := c.isDigit || 'a' ≤ c && c ≤ 'f' || 'A' ≤ c && c ≤ 'F'

def hexValue (c : Char) : Nat :=
  if c.isDigit then c.toNat - 48 else if 'a' ≤ c then c.toNat - 87 else c.toNat - 55

/-- The digits of `s` behind those of `v`. -/
def ofHexFrom (v : Nat) (s : List Char) : Nat := s.foldl (fun v c => 16 * v + hexValue c) v

def ofHex (s : List Char) : Nat := ofHexFrom 0 s

structure IsGroup (s : List Char) : Prop where
  ne_nil : s ≠ []
  length_le : s.length ≤ 4
  isHex : ∀ c ∈ s, isHex c

/-- The groups with a colon between one and the next. -/
def join : List (List Char) → List Char
  | [] => []
  | s :: ss => s ++ ss.flatMap (':' :: ·)

/-- The text stands for these groups. -/
inductive Denotes : List Char → List Nat → Prop
  | full {ss : List (List Char)} (h : ∀ s ∈ ss, IsGroup s) : Denotes (join ss) (ss.map ofHex)
  | compressed {left right : List (List Char)} (n : Nat) (hleft : ∀ s ∈ left, IsGroup s)
      (hright : ∀ s ∈ right, IsGroup s) :
      Denotes (join left ++ ':' :: ':' :: join right)
        (left.map ofHex ++ List.replicate (n + 1) 0 ++ right.map ofHex)

theorem IsGroup.not_mem {s : List Char} (h : IsGroup s) : ':' ∉ s := by
  intro hcolon
  exact absurd (h.isHex ':' hcolon) (by decide)

/-! ## The sum -/

/-- The sum of what stands between the colons, where `v` is already read. -/
def weigh : Nat → List Char → Nat
  | v, [] => v
  | v, c :: s => if c = ':' then v + weigh 0 s else weigh (16 * v + hexValue c) s

theorem weigh_append {s t : List Char} (v : Nat) :
    weigh v (s ++ ':' :: t) = weigh v s + weigh 0 t := by
  induction s generalizing v with
  | nil => simp [weigh]
  | cons c s ih =>
      by_cases hc : c = ':'
      · simp [weigh, hc, ih, Nat.add_assoc]
      · simp [weigh, hc, ih]

theorem weigh_of_not_mem {s : List Char} (h : ':' ∉ s) (v : Nat) :
    weigh v s = ofHexFrom v s := by
  induction s generalizing v with
  | nil => simp [weigh, ofHexFrom]
  | cons c s ih =>
      simp only [List.mem_cons, not_or] at h
      simp [weigh, Ne.symm h.1, ih h.2, ofHexFrom]

theorem weigh_flatMap {s : List Char} {ss : List (List Char)} (hs : ':' ∉ s)
    (h : ∀ s ∈ ss, ':' ∉ s) :
    weigh 0 (s ++ ss.flatMap (':' :: ·)) = ofHex s + (ss.map ofHex).sum := by
  induction ss generalizing s with
  | nil => simpa [ofHex] using weigh_of_not_mem hs 0
  | cons r ss ih =>
      have hr : ':' ∉ r := h r (by simp)
      have hrest : ∀ s ∈ ss, ':' ∉ s := fun s hmem => h s (by simp [hmem])
      simp only [List.flatMap_cons, List.cons_append, weigh_append, weigh_of_not_mem hs,
        ih hr hrest, List.map_cons, List.sum_cons]
      rfl

theorem weigh_join {ss : List (List Char)} (h : ∀ s ∈ ss, ':' ∉ s) :
    weigh 0 (join ss) = (ss.map ofHex).sum := by
  cases ss with
  | nil => simp [join, weigh]
  | cons s ss => simpa [join] using weigh_flatMap (h s (by simp)) fun s hmem => h s (by simp [hmem])

theorem weigh_compressed {left right : List (List Char)} (hleft : ∀ s ∈ left, ':' ∉ s)
    (hright : ∀ s ∈ right, ':' ∉ s) :
    weigh 0 (join left ++ ':' :: ':' :: join right) =
      (left.map ofHex).sum + (right.map ofHex).sum := by
  rw [weigh_append, weigh_join hleft]
  simp [weigh, weigh_join hright]

/-- **A text denotes no groups with another sum.** -/
theorem Denotes.weigh_eq {text : List Char} {groups : List Nat} (h : Denotes text groups) :
    weigh 0 text = groups.sum := by
  cases h with
  | full h => exact weigh_join fun s hmem => (h s hmem).not_mem
  | compressed n hleft hright =>
      rw [weigh_compressed (fun s hmem => (hleft s hmem).not_mem)
        fun s hmem => (hright s hmem).not_mem]
      simp

/-! ## One list of groups -/

/-- What is in front of the first `::`, and what is behind it. -/
def firstDouble : List Char → Option (List Char × List Char)
  | c :: d :: t =>
      if c = ':' ∧ d = ':' then some ([], t)
      else (firstDouble (d :: t)).map fun (front, back) => (c :: front, back)
  | _ => none

/-- There is something other than a colon behind each colon. -/
def Solid : List Char → Prop
  | [] => True
  | c :: s => (c = ':' → ∃ d t, s = d :: t ∧ d ≠ ':') ∧ Solid s

theorem Solid.append {s t : List Char} (hs : ':' ∉ s) (ht : Solid t) : Solid (s ++ t) := by
  induction s with
  | nil => exact ht
  | cons c s ih =>
      simp only [List.mem_cons, not_or] at hs
      exact ⟨fun hc => absurd hc.symm hs.1, ih hs.2⟩

theorem solid_flatMap {ss : List (List Char)} (h : ∀ s ∈ ss, IsGroup s) :
    Solid (ss.flatMap (':' :: ·)) := by
  induction ss with
  | nil => simp [Solid]
  | cons s ss ih =>
      have hs := h s (by simp)
      have hrest := ih fun s hmem => h s (by simp [hmem])
      refine ⟨fun _ => ?_, Solid.append hs.not_mem hrest⟩
      obtain ⟨d, t, rfl⟩ := List.exists_cons_of_ne_nil hs.ne_nil
      refine ⟨d, t ++ ss.flatMap (':' :: ·), rfl, ?_⟩
      rintro rfl
      exact hs.not_mem (by simp)

theorem solid_join {ss : List (List Char)} (h : ∀ s ∈ ss, IsGroup s) : Solid (join ss) := by
  cases ss with
  | nil => simp [join, Solid]
  | cons s ss =>
      exact Solid.append (h s (by simp)).not_mem (solid_flatMap fun s hmem => h s (by simp [hmem]))

theorem firstDouble_solid {s : List Char} (h : Solid s) : firstDouble s = none := by
  induction s with
  | nil => simp [firstDouble]
  | cons c s ih =>
      have hrest := ih h.2
      cases s with
      | nil => simp [firstDouble]
      | cons d t =>
          have hne : ¬ (c = ':' ∧ d = ':') := by
            rintro ⟨hc, hd⟩
            obtain ⟨d', t', heq, hne⟩ := h.1 hc
            simp only [List.cons.injEq] at heq
            exact hne (heq.1 ▸ hd)
          simp [firstDouble, hne, hrest]

theorem firstDouble_append {s : List Char} (h : Solid s) (t : List Char) :
    firstDouble (s ++ ':' :: ':' :: t) = some (s, t) := by
  induction s with
  | nil => simp [firstDouble]
  | cons c s ih =>
      have hrest := ih h.2
      cases s with
      | nil =>
          have hc : c ≠ ':' := by
            intro hc
            obtain ⟨d, t', heq, -⟩ := h.1 hc
            cases heq
          simp only [List.nil_append] at hrest
          simp [firstDouble, hc]
      | cons d s =>
          have hne : ¬ (c = ':' ∧ d = ':') := by
            rintro ⟨hc, hd⟩
            obtain ⟨d', t', heq, hne⟩ := h.1 hc
            simp only [List.cons.injEq] at heq
            exact hne (heq.1 ▸ hd)
          simp only [List.cons_append] at hrest ⊢
          simp [firstDouble, hne, hrest]

/-- What stands in front of the first colon. -/
theorem append_inj {s s' t t' : List Char} (hs : ':' ∉ s) (hs' : ':' ∉ s')
    (ht : t = [] ∨ ∃ r, t = ':' :: r) (ht' : t' = [] ∨ ∃ r, t' = ':' :: r)
    (h : s ++ t = s' ++ t') : s = s' ∧ t = t' := by
  induction s generalizing s' with
  | nil =>
      cases s' with
      | nil => exact ⟨rfl, h⟩
      | cons c s' =>
          rcases ht with rfl | ⟨r, rfl⟩
          · simp at h
          · simp only [List.nil_append, List.cons_append, List.cons.injEq] at h
            simp [← h.1] at hs'
  | cons c s ih =>
      simp only [List.mem_cons, not_or] at hs
      cases s' with
      | nil =>
          rcases ht' with rfl | ⟨r, rfl⟩
          · simp at h
          · simp only [List.nil_append, List.cons_append, List.cons.injEq] at h
            exact absurd h.1.symm hs.1
      | cons c' s' =>
          simp only [List.mem_cons, not_or] at hs'
          simp only [List.cons_append, List.cons.injEq] at h
          obtain ⟨rfl, rfl⟩ := ih hs.2 hs'.2 h.2
          exact ⟨by rw [h.1], rfl⟩

theorem flatMap_cases (ss : List (List Char)) :
    ss.flatMap (':' :: ·) = [] ∨ ∃ r, ss.flatMap (':' :: ·) = ':' :: r := by
  cases ss <;> simp

theorem flatMap_injective {ss ss' : List (List Char)} (hss : ∀ s ∈ ss, ':' ∉ s)
    (hss' : ∀ s ∈ ss', ':' ∉ s) (h : ss.flatMap (':' :: ·) = ss'.flatMap (':' :: ·)) :
    ss = ss' := by
  induction ss generalizing ss' with
  | nil => cases ss' <;> simp_all
  | cons s ss ih =>
      cases ss' with
      | nil => simp at h
      | cons s' ss' =>
          simp only [List.mem_cons, forall_eq_or_imp] at hss hss'
          simp only [List.flatMap_cons, List.cons_append, List.cons.injEq, true_and] at h
          obtain ⟨rfl, hrest⟩ := append_inj hss.1 hss'.1 (flatMap_cases ss) (flatMap_cases ss') h
          rw [ih hss.2 hss'.2 hrest]

theorem join_injective {ss ss' : List (List Char)} (hss : ∀ s ∈ ss, IsGroup s)
    (hss' : ∀ s ∈ ss', IsGroup s) (h : join ss = join ss') : ss = ss' := by
  cases ss with
  | nil =>
      cases ss' with
      | nil => rfl
      | cons s' ss' =>
          have hnil : s' = [] := by
            simp only [join, List.nil_eq, List.append_eq_nil_iff] at h
            exact h.1
          exact absurd hnil (hss' s' (by simp)).ne_nil
  | cons s ss =>
      simp only [List.mem_cons, forall_eq_or_imp] at hss
      cases ss' with
      | nil =>
          simp only [join, List.append_eq_nil_iff] at h
          exact absurd h.1 hss.1.ne_nil
      | cons s' ss' =>
          simp only [List.mem_cons, forall_eq_or_imp] at hss'
          obtain ⟨rfl, hrest⟩ := append_inj hss.1.not_mem hss'.1.not_mem (flatMap_cases ss)
            (flatMap_cases ss') h
          rw [flatMap_injective (fun s hmem => (hss.2 s hmem).not_mem)
            (fun s hmem => (hss'.2 s hmem).not_mem) hrest]

/-- **A text denotes one list of eight groups.** -/
theorem Denotes.unique {text text' : List Char} {groups groups' : List Nat}
    (h : Denotes text groups) (h' : Denotes text' groups') (htext : text = text')
    (hlength : groups.length = groups'.length) : groups = groups' := by
  cases h with
  | full h =>
      cases h' with
      | full h' => rw [join_injective h h' htext]
      | compressed n hleft hright =>
          have hnone := firstDouble_solid (solid_join h)
          rw [htext, firstDouble_append (solid_join hleft)] at hnone
          cases hnone
  | @compressed left right n hleft hright =>
      cases h' with
      | full h' =>
          have hnone := firstDouble_solid (solid_join h')
          rw [← htext, firstDouble_append (solid_join hleft)] at hnone
          cases hnone
      | compressed n' hleft' hright' =>
          have hsome := firstDouble_append (solid_join hleft) (join right)
          rw [htext, firstDouble_append (solid_join hleft')] at hsome
          simp only [Option.some.injEq, Prod.mk.injEq] at hsome
          obtain rfl := join_injective hleft' hleft hsome.1
          obtain rfl := join_injective hright' hright hsome.2
          simp only [List.length_append, List.length_map, List.length_replicate] at hlength
          obtain rfl : n = n' := by omega
          rfl

end Address
end Routn
