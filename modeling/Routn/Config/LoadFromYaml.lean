import Routn.Config.Yaml

/-!
# `Config::LoadFromYaml`

The members of a tree are listed with their dotted paths, and a member with a path that has a
character outside of a fixed set is left out with everything below it.  Only then are the paths
made lower case and looked up.  The set, which `Lookup` uses for the names of variables too, has no
upper case letters and no `9`.

`emit` is the one of yaml-cpp, and `FromStr` is the conversion of a variable from text.
-/

namespace Routn
namespace Config

open Yaml

/-- `find_first_not_of("abcdefghikjlmnopqrstuvwxyz._012345678") == std::string::npos` -/
def valid (name : List Char) : Bool :=
  name.all fun c => "abcdefghikjlmnopqrstuvwxyz._012345678".toList.contains c

/-- The path of a member of a node. -/
def subPath (front : List Char) (key : String) : List Char :=
  if front = [] then key.toList else front ++ '.' :: key.toList

mutual

def ListAllMember (front : List Char) : Node → List (List Char × Node)
  | .map entries =>
      if valid front then (front, .map entries) :: listEntries front entries else []
  | node => if valid front then [(front, node)] else []

/-- The loop over the entries of a map. -/
def listEntries (front : List Char) : List (String × Node) → List (List Char × Node)
  | [] => []
  | (key, node) :: entries =>
      ListAllMember (subPath front key) node ++ listEntries front entries

end

/-- The variables with their values, by name. -/
abbrev Datas (V : Type) := List Char → Option V

section Load

variable {V : Type} (emit : Node → String) (FromStr : List Char → String → V)

/-- What a variable is given for a node. -/
def text : Node → String
  | .scalar s => s
  | node => emit node

/-- The body of the loop over the members. -/
def assign (datas : Datas V) (i : List Char × Node) : Datas V :=
  if i.1 = [] then datas
  else
    let key := i.1.map Char.toLower
    match datas key with
    | some _ => Function.update datas key (some (FromStr key (text emit i.2)))
    | none => datas

def LoadFromYaml (datas : Datas V) (root : Node) : Datas V :=
  (ListAllMember [] root).foldl (assign emit FromStr) datas

end Load

/-- `Lookup` of a variable of one type: `none` is `std::invalid_argument`. -/
def Lookup {V : Type} (datas : Datas V) (name : List Char) (default_val : V) :
    Option (V × Datas V) :=
  match datas name with
  | some v => some (v, datas)
  | none =>
      if !valid name then none
      else some (default_val, Function.update datas name (some default_val))

/-! ## The nodes of a tree -/

mutual

/-- A node and the nodes below it, each with the keys that lead to it. -/
def nodes (path : List String) : Node → List (List String × Node)
  | .map entries => (path, .map entries) :: below path entries
  | node => [(path, node)]

def below (path : List String) : List (String × Node) → List (List String × Node)
  | [] => []
  | (key, node) :: entries => nodes (path ++ [key]) node ++ below path entries

end

def dotted : List String → List Char
  | [] => []
  | key :: path => key.toList ++ path.flatMap fun key => '.' :: key.toList

/-- The nodes below the root, with their dotted paths. -/
def members : Node → List (List Char × Node)
  | .map entries => (below [] entries).map fun i => (dotted i.1, i.2)
  | _ => []

/-- Letters, digits and `_`. -/
def IsKey (key : String) : Prop := key ≠ "" ∧ ∀ c ∈ key.toList, c.isAlphanum ∨ c = '_'

def Keys : Node → Prop
  | .map entries => ∀ i ∈ below [] entries, ∀ key ∈ i.1, IsKey key
  | _ => True

/-- The last node with this name. -/
def lastNamed (name : List Char) : List (List Char × Node) → Option Node
  | [] => none
  | i :: rest => lastNamed name rest <|> if i.1.map Char.toLower = name then some i.2 else none

/-- Every variable has the value of the last node with its name, or the one it had. -/
def Assigns {V : Type} (emit : Node → String) (FromStr : List Char → String → V) (root : Node)
    (datas datas' : Datas V) : Prop :=
  ∀ name, datas' name = (datas name).map fun old =>
    ((lastNamed name (members root)).map fun node => FromStr name (text emit node)).getD old

/-- The last node with this name, among those that the filter leaves, has the value of the last one
among all. -/
def Reached (emit : Node → String) (root : Node) (name : List Char) : Prop :=
  (lastNamed name ((members root).filter fun i => valid i.1)).map (text emit) =
    (lastNamed name (members root)).map (text emit)

/-! ## The members that are listed -/

theorem dotted_snoc (path : List String) (key : String) :
    dotted (path ++ [key]) =
      if path = [] then key.toList else dotted path ++ '.' :: key.toList := by
  cases path <;> simp [dotted]

theorem dotted_ne_nil {path : List String} (hne : path ≠ []) (hkeys : ∀ key ∈ path, key ≠ "") :
    dotted path ≠ [] := by
  cases path with
  | nil => exact absurd rfl hne
  | cons key path =>
      intro h
      simp only [dotted, List.append_eq_nil_iff] at h
      exact hkeys key (by simp) (by simpa using h.1)

theorem subPath_dotted {path : List String} (hkeys : ∀ key ∈ path, key ≠ "") (key : String) :
    subPath (dotted path) key = dotted (path ++ [key]) := by
  by_cases hpath : path = []
  · simp [subPath, hpath, dotted]
  · simp [subPath, dotted_snoc, hpath, dotted_ne_nil hpath hkeys]

mutual

/-- The path of a node is at the front of the paths of those below it. -/
theorem prefix_of_mem_nodes (path : List String) :
    ∀ (node : Node) (i : List String × Node), i ∈ nodes path node → path <+: i.1
  | .map entries, i, h => by
      rw [nodes, List.mem_cons] at h
      rcases h with rfl | h
      · exact List.prefix_rfl
      · obtain ⟨key, hkey⟩ := prefix_of_mem_below path entries i h
        exact (List.prefix_append path [key]).trans hkey
  | .null, i, h => by simp_all [nodes]
  | .scalar s, i, h => by simp_all [nodes]
  | .sequence items, i, h => by simp_all [nodes]

theorem prefix_of_mem_below (path : List String) :
    ∀ (entries : List (String × Node)) (i : List String × Node),
      i ∈ below path entries → ∃ key, path ++ [key] <+: i.1
  | [], i, h => by simp [below] at h
  | (key, node) :: entries, i, h => by
      rw [below, List.mem_append] at h
      rcases h with h | h
      · exact ⟨key, prefix_of_mem_nodes (path ++ [key]) node i h⟩
      · exact prefix_of_mem_below path entries i h

end

theorem valid_of_front {path path' : List String} (h : path <+: path')
    (hvalid : valid (dotted path') = true) : valid (dotted path) = true := by
  obtain ⟨rest, rfl⟩ := h
  cases path with
  | nil => rfl
  | cons key path =>
      simp only [List.cons_append, dotted, List.flatMap_append, ← List.append_assoc] at hvalid
      simp only [valid, List.all_append, Bool.and_eq_true] at hvalid ⊢
      simp only [dotted, List.all_append, Bool.and_eq_true]
      exact hvalid.1

/-- The members that are listed for some nodes. -/
def listed (nodes : List (List String × Node)) : List (List Char × Node) :=
  (nodes.map fun i => (dotted i.1, i.2)).filter fun i => valid i.1

/-- Below a path that is not valid nothing is. -/
theorem listed_of_not_valid {path : List String} (hvalid : valid (dotted path) = false)
    {nodes : List (List String × Node)} (h : ∀ i ∈ nodes, path <+: i.1) : listed nodes = [] := by
  simp only [listed, List.filter_eq_nil_iff, List.mem_map, forall_exists_index, and_imp]
  rintro _ i hi rfl hi'
  simp [valid_of_front (h i hi) hi'] at hvalid

mutual

/-- **What is listed** for a node: the nodes with a valid path, whatever is above them. -/
theorem ListAllMember_eq (path : List String) :
    ∀ (node : Node), (∀ i ∈ nodes path node, ∀ key ∈ i.1, key ≠ "") →
      ListAllMember (dotted path) node = listed (nodes path node)
  | .map entries, hkeys => by
      have hpath : ∀ key ∈ path, key ≠ "" := hkeys (path, .map entries) (by simp [nodes])
      have hrest := listEntries_eq path entries hpath fun i hi => hkeys i (by simp [nodes, hi])
      by_cases hvalid : valid (dotted path) = true
      · simp [ListAllMember, hvalid, nodes, hrest, listed]
      · have hnone := listed_of_not_valid (by simpa using hvalid)
          (prefix_of_mem_nodes path (.map entries))
        simp [ListAllMember, hvalid, hnone]
  | .null, _ => by
      by_cases hvalid : valid (dotted path) = true <;> simp [ListAllMember, nodes, listed, hvalid]
  | .scalar s, _ => by
      by_cases hvalid : valid (dotted path) = true <;> simp [ListAllMember, nodes, listed, hvalid]
  | .sequence items, _ => by
      by_cases hvalid : valid (dotted path) = true <;> simp [ListAllMember, nodes, listed, hvalid]

theorem listEntries_eq (path : List String) :
    ∀ (entries : List (String × Node)), (∀ key ∈ path, key ≠ "") →
      (∀ i ∈ below path entries, ∀ key ∈ i.1, key ≠ "") →
      listEntries (dotted path) entries = listed (below path entries)
  | [], _, _ => by simp [listEntries, below, listed]
  | (key, node) :: entries, hpath, hkeys => by
      have hnode := ListAllMember_eq (path ++ [key]) node fun i hi => hkeys i (by simp [below, hi])
      have hrest := listEntries_eq path entries hpath fun i hi => hkeys i (by simp [below, hi])
      simp [listEntries, below, subPath_dotted hpath, hnode, hrest, listed]

end

/-! ## What the variables are given -/

section Load

variable {V : Type} (emit : Node → String) (FromStr : List Char → String → V)

/-- **The loop over the members**: a variable has the value of the last one with its name. -/
theorem foldl_assign (datas : Datas V) {list : List (List Char × Node)}
    (hne : ∀ i ∈ list, i.1 ≠ []) (name : List Char) :
    list.foldl (assign emit FromStr) datas name = (datas name).map fun old =>
      ((lastNamed name list).map fun node => FromStr name (text emit node)).getD old := by
  induction list generalizing datas with
  | nil => simp [lastNamed]
  | cons i list ih =>
      simp only [List.mem_cons, forall_eq_or_imp] at hne
      -- What one member does to the variable with this name.
      have hstep : assign emit FromStr datas i name = (datas name).map fun old =>
          if i.1.map Char.toLower = name then FromStr name (text emit i.2) else old := by
        by_cases hname : i.1.map Char.toLower = name
        · cases hdatas : datas name <;> simp [assign, hne.1, hname, hdatas]
        · cases hdatas : datas (i.1.map Char.toLower) <;>
            simp [assign, hne.1, hname, hdatas, Function.update_of_ne (Ne.symm hname)]
      rw [List.foldl_cons, ih _ hne.2, hstep, Option.map_map]
      congr 1
      funext old
      simp only [Function.comp_apply, lastNamed]
      cases lastNamed name list <;> simp
      split <;> simp

theorem LoadFromYaml_eq (datas : Datas V) {root : Node} (hkeys : Keys root) (name : List Char) :
    LoadFromYaml emit FromStr datas root name = (datas name).map fun old =>
      ((lastNamed name ((members root).filter fun i => valid i.1)).map fun node =>
        FromStr name (text emit node)).getD old := by
  have hroot (node : Node) : assign emit FromStr datas ([], node) = datas := rfl
  cases root with
  | map entries =>
      have hlist := listEntries_eq [] entries (by simp) fun i hi key hkey => (hkeys i hi key hkey).1
      rw [dotted] at hlist
      have hne : ∀ i ∈ listed (below [] entries), i.1 ≠ [] := by
        simp only [listed, List.mem_filter, List.mem_map, and_imp, forall_exists_index]
        rintro _ i hi rfl -
        obtain ⟨key, hkey⟩ := prefix_of_mem_below [] entries i hi
        have hpath : i.1 ≠ [] := by
          intro hnil
          simp [hnil] at hkey
        exact dotted_ne_nil hpath fun key hkey => (hkeys i hi key hkey).1
      have hall : LoadFromYaml emit FromStr datas (.map entries) =
          (listed (below [] entries)).foldl (assign emit FromStr) datas := by
        have hvalid : valid [] = true := rfl
        rw [LoadFromYaml, ListAllMember, if_pos hvalid, List.foldl_cons, hroot, hlist]
      rw [hall, foldl_assign emit FromStr datas hne]
      rfl
  | _ => simp [LoadFromYaml, ListAllMember, valid, hroot, members, lastNamed]

end Load

/-- **One tree and one set of variables**, for all conversions and all values they had before. -/
theorem assigns_iff (emit : Node → String) {root : Node} (hkeys : Keys root)
    (names : Set (List Char)) :
    (∀ (V : Type) (FromStr : List Char → String → V) (datas : Datas V),
      (∀ name, (datas name).isSome ↔ name ∈ names) →
        Assigns emit FromStr root datas (LoadFromYaml emit FromStr datas root)) ↔
      ∀ name ∈ names, Reached emit root name := by
  constructor
  · intro hassigns name hname
    -- A variable that keeps the text it is given, and has none before.
    classical
    have hone := hassigns (Option String) (fun _ v => some v)
      (fun name => if name ∈ names then some none else none) (by simp) name
    rw [LoadFromYaml_eq emit _ _ hkeys] at hone
    simp only [hname, if_true, Option.map_some, Option.some.injEq] at hone
    rw [Reached]
    cases hkept : lastNamed name ((members root).filter fun i => valid i.1) <;>
      cases hall : lastNamed name (members root) <;> simp_all
  · intro hreached V FromStr datas hdatas name
    rw [LoadFromYaml_eq emit FromStr datas hkeys]
    cases hold : datas name with
    | none => rfl
    | some old =>
        have hname : name ∈ names := (hdatas name).mp (by simp [hold])
        have hmap := congrArg (Option.map (FromStr name)) (hreached name hname)
        simp only [Option.map_map, Function.comp_def] at hmap
        simp [hmap]

/-- It is enough that no path with this name has a character that the filter refuses. -/
theorem reached_of_valid {emit : Node → String} {root : Node} {name : List Char}
    (h : ∀ i ∈ members root, i.1.map Char.toLower = name → valid i.1 = true) :
    Reached emit root name := by
  have hfilter (list : List (List Char × Node))
      (hlist : ∀ i ∈ list, i.1.map Char.toLower = name → valid i.1 = true) :
      lastNamed name (list.filter fun i => valid i.1) = lastNamed name list := by
    induction list with
    | nil => rfl
    | cons i list ih =>
        simp only [List.mem_cons, forall_eq_or_imp] at hlist
        by_cases hvalid : valid i.1 = true
        · simp [hvalid, lastNamed, ih hlist.2]
        · have hname : ¬ i.1.map Char.toLower = name := fun heq => hvalid (hlist.1 heq)
          simp [hvalid, lastNamed, ih hlist.2, hname]
  rw [Reached, hfilter _ h]

/-! ## The names of variables -/

/-- Lower case letters, digits, `.` and `_`. -/
def IsName (name : List Char) : Prop := ∀ c ∈ name, c.isLower ∨ c.isDigit ∨ c = '.' ∨ c = '_'

theorem toNat_lt {c : Char} (h : c.isLower ∨ c.isDigit ∨ c = '.' ∨ c = '_') : c.toNat < 128 := by
  have hlower : c.isLower = (decide (c.val ≥ 97) && decide (c.val ≤ 122)) := rfl
  simp only [hlower, Char.isDigit, Bool.and_eq_true, decide_eq_true_eq, ge_iff_le,
    UInt32.le_iff_toNat_le] at h
  rcases h with h | h | rfl | rfl
  · exact lt_of_le_of_lt h.2 (by decide)
  · exact lt_of_le_of_lt h.2 (by decide)
  · decide
  · decide

/-- Of the characters of a name only one is not in the set. -/
theorem contains_iff {c : Char} (h : c.isLower ∨ c.isDigit ∨ c = '.' ∨ c = '_') :
    "abcdefghikjlmnopqrstuvwxyz._012345678".toList.contains c = true ↔ c ≠ '9' := by
  have hall : ∀ n < 128, ((Char.ofNat n).isLower ∨ (Char.ofNat n).isDigit ∨ Char.ofNat n = '.' ∨
      Char.ofNat n = '_') → ("abcdefghikjlmnopqrstuvwxyz._012345678".toList.contains
        (Char.ofNat n) = true ↔ Char.ofNat n ≠ '9') := by decide
  have hc := hall c.toNat (toNat_lt h)
  rw [Char.ofNat_toNat] at hc
  exact hc h

theorem valid_iff {name : List Char} (h : IsName name) : valid name = true ↔ '9' ∉ name := by
  rw [valid, List.all_eq_true]
  constructor
  · intro hall hnine
    exact (contains_iff (h '9' hnine)).mp (hall '9' hnine) rfl
  · intro hnine c hc
    exact (contains_iff (h c hc)).mpr fun heq => hnine (heq ▸ hc)

theorem lookup_iff {V : Type} {datas : Datas V} {name : List Char} (hname : IsName name)
    (hnone : datas name = none) (default_val : V) :
    (Lookup datas name default_val).isSome ↔ '9' ∉ name := by
  rw [← valid_iff hname, Lookup, hnone]
  by_cases hvalid : valid name = true <;> simp [hvalid]

/-- **Loading and registering.** -/
theorem config_iff (emit : Node → String) {root : Node} (hkeys : Keys root)
    (names : Set (List Char)) :
    ((∀ (V : Type) (FromStr : List Char → String → V) (datas : Datas V),
      (∀ name, (datas name).isSome ↔ name ∈ names) →
        Assigns emit FromStr root datas (LoadFromYaml emit FromStr datas root)) ↔
      ∀ name ∈ names, Reached emit root name) ∧
    ∀ (V : Type) (datas : Datas V) (name : List Char) (default_val : V), IsName name →
      datas name = none → ((Lookup datas name default_val).isSome ↔ '9' ∉ name) :=
  ⟨assigns_iff emit hkeys names, fun _ _ _ default_val hname hnone =>
    lookup_iff hname hnone default_val⟩

/-- A variable `a`, or `b`. -/
def oneVariable (name : List Char) : Datas String := fun n => if n = name then some "0" else none

/-- `config_iff` for a variable that gets the value of a node. -/
theorem config_iff_one :
    LoadFromYaml (fun _ => "") (fun _ v => v) (oneVariable ['a']) (.map [("a", .scalar "1")])
      ['a'] = some "1" := by
  have hkeys : Keys (.map [("a", .scalar "1")]) := by
    simp [Keys, below, nodes, IsKey]
  have hassigns := (config_iff (fun _ => "") hkeys (Set.singleton ['a'])).1.mpr
    (fun name _ => reached_of_valid (by simp [members, below, nodes, dotted, valid]))
  have hone := hassigns String (fun _ v => v) (oneVariable ['a'])
    (by intro name; by_cases h : name = ['a'] <;> simp [oneVariable, h, Set.singleton]) ['a']
  rw [hone]
  simp [oneVariable, members, below, nodes, dotted, lastNamed, text]

/-- **An upper case key** is dropped, and a name with a nine is refused. -/
theorem not_assigns_upper :
    LoadFromYaml (fun _ => "") (fun _ v => v) (oneVariable ['a']) (.map [("A", .scalar "1")])
        ['a'] = some "0" ∧
      ¬ Assigns (fun _ => "") (fun _ v => v) (.map [("A", .scalar "1")]) (oneVariable ['a'])
        (LoadFromYaml (fun _ => "") (fun _ v => v) (oneVariable ['a'])
          (.map [("A", .scalar "1")])) ∧
      (Lookup (oneVariable ['a']) ['p', '9'] "0").isSome = false := by
  have hload : LoadFromYaml (fun _ => "") (fun _ v => v) (oneVariable ['a'])
      (.map [("A", .scalar "1")]) ['a'] = some "0" := by
    simp [LoadFromYaml, ListAllMember, listEntries, subPath, valid, assign, oneVariable]
  refine ⟨hload, fun hassigns => ?_, by decide⟩
  have hone := hassigns ['a']
  rw [hload] at hone
  simp [oneVariable, members, below, nodes, dotted, lastNamed, text] at hone

end Config
end Routn
