import Mathlib.Data.List.AList
import Mathlib.Tactic

/-!
# Containers of nodes and indexes into them

The elements of a linked list or of a search tree keep their addresses while others come and go, so
that a map may hold the addresses of the elements that belong to its keys.  A container is the list
of its nodes in their order.  `Indexes` says that map and container are in bijection; it does not
depend on the order, so the rules are about a node at the front and are used up to permutation.
-/

namespace Routn
namespace Foundation

/-- An element of a container, with the address that iterators hold. -/
structure Node (α : Type*) where
  address : Nat
  item : α
deriving DecidableEq, Repr

section Unlink

variable {α : Type*} {p : Nat} {node : Node α} {nodes rest : List (Node α)}

/-- Take the node at an address out; `none` when the address is not that of a node. -/
def unlink (p : Nat) : List (Node α) → Option (Node α × List (Node α))
  | [] => none
  | node :: nodes =>
      if node.address = p then some (node, nodes)
      else (unlink p nodes).map fun found => (found.1, node :: found.2)

/-- What is taken out stood somewhere, and the others stay where they are. -/
theorem split_of_unlink (h : unlink p nodes = some (node, rest)) :
    node.address = p ∧ ∃ front back, nodes = front ++ node :: back ∧ rest = front ++ back := by
  induction nodes generalizing rest with
  | nil => cases h
  | cons first nodes ih =>
      rw [unlink] at h
      split at h
      · next heq =>
          obtain ⟨rfl, rfl⟩ := Prod.mk.inj (Option.some.inj h)
          exact ⟨heq, [], nodes, rfl, rfl⟩
      · obtain ⟨⟨found, others⟩, hfound, hmk⟩ := Option.map_eq_some_iff.mp h
        obtain ⟨rfl, rfl⟩ := Prod.mk.inj hmk
        obtain ⟨haddress, front, back, rfl, rfl⟩ := ih hfound
        exact ⟨haddress, first :: front, back, rfl, rfl⟩

theorem perm_of_unlink (h : unlink p nodes = some (node, rest)) : nodes.Perm (node :: rest) := by
  obtain ⟨-, front, back, rfl, rfl⟩ := split_of_unlink h
  exact List.perm_middle

/-- When no two nodes have the same address, a node is found at its own. -/
theorem unlink_of_mem (hnodup : (nodes.map Node.address).Nodup) (h : node ∈ nodes) :
    ∃ rest, unlink node.address nodes = some (node, rest) := by
  induction nodes with
  | nil => cases h
  | cons first nodes ih =>
      rw [List.map_cons, List.nodup_cons] at hnodup
      rw [unlink]
      split
      · next heq =>
          rcases List.mem_cons.mp h with rfl | hin
          · exact ⟨nodes, rfl⟩
          · exact absurd (List.mem_map.mpr ⟨node, hin, heq.symm⟩) hnodup.1
      · next hne =>
          rcases List.mem_cons.mp h with rfl | hin
          · exact absurd rfl hne
          · obtain ⟨rest, hrest⟩ := ih hnodup.2 hin
            exact ⟨first :: rest, by rw [hrest]; rfl⟩

end Unlink

/-! ## Indexes -/

/-- A map from keys to addresses, such as an `unordered_map` of iterators. -/
abbrev Index (κ : Type*) := AList fun _ : κ => Nat

namespace Index

variable {κ : Type*} [DecidableEq κ]

def size (index : Index κ) : Nat := index.keys.length

/-- `emplace`, or `insert`: a key that is there keeps what it has. -/
def emplace (index : Index κ) (k : κ) (p : Nat) : Index κ :=
  if (index.lookup k).isSome then index else index.insert k p

theorem lookup_emplace (index : Index κ) {k : κ} (hnew : index.lookup k = none) (p : Nat) (k' : κ) :
    (index.emplace k p).lookup k' = if k' = k then some p else index.lookup k' := by
  rw [emplace, hnew]
  simp only [Option.isSome_none, Bool.false_eq_true, if_false]
  split
  · next heq => rw [heq, AList.lookup_insert]
  · next hne => rw [AList.lookup_insert_ne hne]

/-- Maps with the same keys have the same size. -/
theorem size_congr {index index' : Index κ}
    (h : ∀ k, (index.lookup k).isSome = (index'.lookup k).isSome) : index.size = index'.size := by
  refine ((List.perm_ext_iff_of_nodup index.keys_nodup index'.keys_nodup).mpr fun k => ?_).length_eq
  rw [← AList.mem_keys, ← AList.mem_keys, ← AList.lookup_isSome, ← AList.lookup_isSome, h k]

/-- Take nodes from the front, together with the entries of their keys, until the map has no more
than `n` entries: the items that go, and what is left.  `none` when the nodes run out. -/
def shrink {α : Type*} (key : α → κ) (n : Nat) : Index κ → List (Node α) →
    Option (List α × Index κ × List (Node α))
  | index, [] => if index.size > n then none else some ([], index, [])
  | index, node :: nodes =>
      if index.size > n then
        (shrink key n (index.erase (key node.item)) nodes).map fun (items, index, nodes) =>
          (node.item :: items, index, nodes)
      else some ([], index, node :: nodes)

/-- A map that is small enough keeps everything. -/
theorem shrink_of_le {α : Type*} {key : α → κ} {n : Nat} {index : Index κ}
    (hsize : index.size ≤ n) (nodes : List (Node α)) :
    index.shrink key n nodes = some ([], index, nodes) := by
  cases nodes <;> rw [shrink, if_neg (Nat.not_lt.mpr hsize)]

/-- The nodes that go stand in front, and the map loses their keys. -/
theorem shrink_split {α : Type*} {key : α → κ} {n : Nat} {index index' : Index κ}
    {nodes left : List (Node α)} {items : List α}
    (h : index.shrink key n nodes = some (items, index', left)) :
    ∃ gone : List (Node α), nodes = gone ++ left ∧ items = gone.map Node.item ∧
      ∀ k, index'.lookup k = if k ∈ items.map key then none else index.lookup k := by
  induction nodes generalizing index items with
  | nil =>
      rw [shrink] at h
      split at h
      · cases h
      · cases h
        exact ⟨[], rfl, rfl, by simp⟩
  | cons node nodes ih =>
      rw [shrink] at h
      split at h
      · obtain ⟨⟨others, index₁, left₁⟩, hrest, heq⟩ := Option.map_eq_some_iff.mp h
        cases heq
        obtain ⟨gone, rfl, rfl, hlookup⟩ := ih hrest
        refine ⟨node :: gone, rfl, rfl, fun k => ?_⟩
        rw [hlookup, List.map_cons]
        by_cases hkey : k = key node.item
        · subst hkey
          simp
        · simp [hkey, AList.lookup_erase_ne hkey]
      · cases h
        exact ⟨[], rfl, rfl, by simp⟩

/-- The nodes do not run out when every key has one. -/
theorem exists_shrink {α : Type*} (key : α → κ) (n : Nat) (index : Index κ)
    {nodes : List (Node α)}
    (h : ∀ k, (index.lookup k).isSome → ∃ node ∈ nodes, key node.item = k) :
    ∃ r, index.shrink key n nodes = some r := by
  induction nodes generalizing index with
  | nil =>
      have hempty : index.keys = [] := by
        rw [List.eq_nil_iff_forall_not_mem]
        intro k hk
        obtain ⟨node, hnode, -⟩ := h k (AList.lookup_isSome.mpr (AList.mem_keys.mpr hk))
        cases hnode
      have hsize : index.size = 0 := by rw [size, hempty, List.length_nil]
      exact ⟨_, shrink_of_le (by omega) []⟩
  | cons node nodes ih =>
      by_cases hsize : index.size > n
      · obtain ⟨r, hr⟩ := ih (index.erase (key node.item)) (by
          intro k hk
          have hne : k ≠ key node.item := by
            rintro rfl
            simp at hk
          rw [AList.lookup_erase_ne hne] at hk
          obtain ⟨other, hother, hkey⟩ := h k hk
          rcases List.mem_cons.mp hother with rfl | hother
          · exact absurd hkey.symm hne
          · exact ⟨other, hother, hkey⟩)
        exact ⟨_, by rw [shrink, if_pos hsize, hr, Option.map_some]⟩
      · exact ⟨_, shrink_of_le (Nat.not_lt.mp hsize) _⟩

end Index

variable {α κ : Type*} [DecidableEq κ] {key : α → κ} {index : Index κ}
  {nodes nodes' : List (Node α)}
  {node : Node α} {item : α} {k : κ} {p : Nat}

/-- No two nodes have the same address, and the entries of the map are the keys and the addresses of
the nodes. -/
structure Indexes (key : α → κ) (index : Index κ) (nodes : List (Node α)) : Prop where
  nodup : (nodes.map Node.address).Nodup
  lookup : ∀ k p, index.lookup k = some p ↔ ∃ node ∈ nodes, node.address = p ∧ key node.item = k

namespace Indexes

theorem empty : Indexes key (∅ : Index κ) [] := ⟨.nil, by simp⟩

theorem perm (h : Indexes key index nodes) (hperm : nodes.Perm nodes') :
    Indexes key index nodes' where
  nodup := (hperm.map Node.address).nodup_iff.mp h.nodup
  lookup k p := by
    simp only [← hperm.mem_iff]
    exact h.lookup k p

/-- Only what the map answers counts. -/
theorem congr {index' : Index κ} (h : Indexes key index nodes)
    (hlookup : ∀ k, index'.lookup k = index.lookup k) : Indexes key index' nodes where
  nodup := h.nodup
  lookup k p := by
    rw [hlookup]
    exact h.lookup k p

theorem lookup_of_mem (h : Indexes key index nodes) (hnode : node ∈ nodes) :
    index.lookup (key node.item) = some node.address :=
  (h.lookup _ _).mpr ⟨node, hnode, rfl, rfl⟩

/-- Two nodes with the same key are one. -/
theorem eq_of_key (h : Indexes key index nodes) {node' : Node α} (hnode : node ∈ nodes)
    (hnode' : node' ∈ nodes) (hkey : key node.item = key node'.item) : node = node' := by
  have haddress : node.address = node'.address := by
    have hlookup := h.lookup_of_mem hnode
    rw [hkey, h.lookup_of_mem hnode'] at hlookup
    exact (Option.some.inj hlookup).symm
  exact List.inj_on_of_nodup_map h.nodup hnode hnode' haddress

theorem not_mem_of_lookup (h : Indexes key index nodes) (hnone : index.lookup k = none) :
    ∀ node ∈ nodes, key node.item ≠ k := by
  rintro node hnode rfl
  rw [h.lookup_of_mem hnode] at hnone
  cases hnone

/-- The node that an entry points to can be taken out. -/
theorem unlink (h : Indexes key index nodes) (hlookup : index.lookup k = some p) :
    ∃ node rest, Foundation.unlink p nodes = some (node, rest) ∧ key node.item = k := by
  obtain ⟨node, hnode, rfl, hkey⟩ := (h.lookup k p).mp hlookup
  obtain ⟨rest, hrest⟩ := unlink_of_mem h.nodup hnode
  exact ⟨node, rest, hrest, hkey⟩

/-- A new node with a new key. -/
theorem cons (h : Indexes key index nodes) (item : α) (hnew : p ∉ nodes.map Node.address)
    (hkey : index.lookup (key item) = none) :
    Indexes key (index.emplace (key item) p) (⟨p, item⟩ :: nodes) where
  nodup := List.nodup_cons.mpr ⟨hnew, h.nodup⟩
  lookup k q := by
    rw [Index.emplace, hkey]
    simp only [Option.isSome_none, Bool.false_eq_true, if_false, List.exists_mem_cons_iff]
    by_cases heq : k = key item
    · subst heq
      rw [AList.lookup_insert, Option.some.injEq]
      have hother : ¬ ∃ node ∈ nodes, node.address = q ∧ key node.item = key item := by
        rintro ⟨node, hnode, -, hsame⟩
        exact h.not_mem_of_lookup hkey node hnode hsame
      simp [hother]
    · rw [AList.lookup_insert_ne heq, h.lookup]
      simp [Ne.symm heq]

/-- A node goes together with its entry. -/
theorem tail (h : Indexes key index (node :: nodes)) :
    Indexes key (index.erase (key node.item)) nodes where
  nodup := (List.nodup_cons.mp h.nodup).2
  lookup k q := by
    by_cases heq : k = key node.item
    · subst heq
      rw [AList.lookup_erase]
      refine iff_of_false (by simp) ?_
      rintro ⟨other, hother, -, hsame⟩
      obtain rfl := h.eq_of_key (List.mem_cons_of_mem _ hother) List.mem_cons_self hsame
      exact (List.nodup_cons.mp h.nodup).1 (List.mem_map_of_mem hother)
    · rw [AList.lookup_erase_ne heq, h.lookup]
      simp [Ne.symm heq]

/-- The item of a node may change as long as its key does not. -/
theorem update (h : Indexes key index (node :: nodes)) (item : α)
    (hkey : key item = key node.item) :
    Indexes key index (⟨node.address, item⟩ :: nodes) where
  nodup := h.nodup
  lookup k q := by
    rw [h.lookup]
    simp [hkey]

theorem keys_nodup (h : Indexes key index nodes) : (nodes.map fun node => key node.item).Nodup := by
  refine List.Nodup.map_on (fun node hnode node' hnode' hkey => h.eq_of_key hnode hnode' hkey) ?_
  exact List.Nodup.of_map _ h.nodup

/-- The map has as many entries as the container has nodes. -/
theorem size_eq (h : Indexes key index nodes) : index.size = nodes.length := by
  have hmem : ∀ k, k ∈ index.keys ↔ k ∈ nodes.map fun node => key node.item := by
    intro k
    rw [← AList.mem_keys, ← AList.lookup_isSome, Option.isSome_iff_exists]
    simp only [h.lookup, List.mem_map]
    constructor
    · rintro ⟨p, node, hnode, -, hkey⟩
      exact ⟨node, hnode, hkey⟩
    · rintro ⟨node, hnode, hkey⟩
      exact ⟨node.address, node, hnode, rfl, hkey⟩
  have hperm := (List.perm_ext_iff_of_nodup index.keys_nodup h.keys_nodup).mpr hmem
  rw [Index.size, hperm.length_eq, List.length_map]

/-- When map and container are in bijection, nodes go until `n` are left. -/
theorem shrink (h : Indexes key index nodes) (n : Nat) :
    ∃ index', index.shrink key n nodes = some ((nodes.take (nodes.length - n)).map Node.item,
        index', nodes.drop (nodes.length - n)) ∧
      Indexes key index' (nodes.drop (nodes.length - n)) := by
  induction nodes generalizing index with
  | nil => exact ⟨index, by simp [Index.shrink, h.size_eq], by simpa using h⟩
  | cons node nodes ih =>
      by_cases hsize : index.size > n
      · obtain ⟨index', hshrink, hindexes⟩ := ih h.tail
        have hcount : (node :: nodes).length - n = nodes.length - n + 1 := by
          rw [h.size_eq, List.length_cons] at hsize
          rw [List.length_cons]
          omega
        refine ⟨index', ?_, by rwa [hcount, List.drop_succ_cons]⟩
        rw [Index.shrink, if_pos hsize, hshrink, hcount]
        rfl
      · have hcount : (node :: nodes).length - n = 0 := by
          rw [h.size_eq] at hsize
          omega
        rw [hcount]
        exact ⟨index, by rw [Index.shrink, if_neg hsize]; rfl, h⟩

end Indexes

end Foundation
end Routn
