import Mathlib.Tactic

/-!
# YAML nodes

What the configuration uses of `YAML::Node`.  A map keeps its entries in the order in which they
were put in.
-/

namespace Routn
namespace Yaml

inductive Node
  | null
  | scalar (s : String)
  | sequence (items : List Node)
  | map (entries : List (String × Node))
deriving Repr, Inhabited

namespace Node

/-- `n[key]`, when it is defined. -/
def get (n : Node) (key : String) : Option Node :=
  match n with
  | map entries => entries.lookup key
  | _ => none

/-- The entries with a value for this key, in its place if there is one. -/
def assign (key : String) (value : Node) : List (String × Node) → List (String × Node)
  | [] => [(key, value)]
  | entry :: entries =>
      if entry.1 = key then (key, value) :: entries else entry :: assign key value entries

/-- `n[key] = value` -/
def set (n : Node) (key : String) (value : Node) : Node :=
  match n with
  | map entries => map (assign key value entries)
  | _ => map [(key, value)]

/-- The nodes of a sequence; there are none in a node that is not one. -/
def items : Node → List Node
  | sequence items => items
  | _ => []

/-- `n[key].push_back(value)` -/
def push_back (n : Node) (key : String) (value : Node) : Node :=
  n.set key (sequence (((n.get key).map items).getD [] ++ [value]))

/-- `n.as<std::string>()`: `none` is an exception. -/
def asString : Node → Option String
  | scalar s => some s
  | _ => none

theorem lookup_cons (key : String) (entry : String × Node) (entries : List (String × Node)) :
    (entry :: entries).lookup key =
      if key = entry.1 then some entry.2 else entries.lookup key := by
  obtain ⟨first, value⟩ := entry
  by_cases h : key = first
  · simp [h]
  · simp [List.lookup_cons, beq_false_of_ne h, h]

theorem lookup_assign (key key' : String) (value : Node) (entries : List (String × Node)) :
    (assign key value entries).lookup key' =
      if key' = key then some value else entries.lookup key' := by
  induction entries with
  | nil => simp [assign, lookup_cons]
  | cons entry entries ih =>
      by_cases hk : entry.1 = key
      · by_cases h : key' = key <;> simp [assign, lookup_cons, hk, h]
      · by_cases h : key' = entry.1
        · simp [assign, lookup_cons, hk, h]
        · simp [assign, lookup_cons, hk, h, ih]

@[simp] theorem get_set (n : Node) (key key' : String) (value : Node) :
    (n.set key value).get key' = if key' = key then some value else n.get key' := by
  cases n with
  | map entries => exact lookup_assign key key' value entries
  | _ => simp [set, get, lookup_cons]

@[simp] theorem get_null (key : String) : null.get key = none := rfl

/-- Several nodes that are put at the end of a sequence which is not there yet. -/
theorem get_foldl_push_back {α : Type} (node : α → Node) (key key' : String) (values : List α)
    {n : Node} (front : List Node)
    (hfront : n.get key = if front = [] then none else some (sequence front)) :
    (values.foldl (fun n a => n.push_back key (node a)) n).get key' =
      if key' = key then
        if front ++ values.map node = [] then none else some (sequence (front ++ values.map node))
      else n.get key' := by
  induction values generalizing n front with
  | nil =>
      by_cases h : key' = key
      · simp [h, hfront]
      · simp [h]
  | cons a values ih =>
      have hitems : ((n.get key).map items).getD [] = front := by
        by_cases h : front = [] <;> simp [hfront, h, items]
      have hstep : (n.push_back key (node a)).get key = some (sequence (front ++ [node a])) := by
        simp [push_back, hitems]
      rw [List.foldl_cons, ih (front ++ [node a]) (by simp [hstep])]
      by_cases h : key' = key <;> simp [h, push_back]

end Node
end Yaml
end Routn
