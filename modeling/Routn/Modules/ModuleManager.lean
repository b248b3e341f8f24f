import Routn.Foundation.NestedMap
import Routn.Foundation.Sections

/-!
# The index of the modules by their types

`ModuleManager` keeps its modules by their ids, and again by their types and ids.  `del` takes a
module out of both in one locked section.  `add` is a `del` of the id, and then, in a section of its
own, enters the new module in both.

Between the two sections somebody else may have added a module with the same id.  Where it has
another type, the second `add` replaces it in `_modules` but not in `_type2Modules`, and it stays
listed under its type for good.

`onUnload` is called outside of the lock and is not part of it.
-/

namespace Routn
namespace Modules

open Foundation Code

/-! ## Modules -/

structure Module where
  address : Nat
  name : String
  version : String
  type : UInt32
deriving DecidableEq, Repr

def Module.id (m : Module) : String := m.name ++ "/" ++ m.version

/-! ## The manager -/

structure ModuleManager where
  modules : Map String Module
  type2Modules : NestedMap UInt32 String Module

namespace ModuleManager

def new : ModuleManager := ⟨∅, ∅⟩

/-- The section of `del`. -/
def del (mgr : ModuleManager) (name : String) : ModuleManager :=
  match mgr.modules.lookup name with
  | none => mgr
  | some m => ⟨mgr.modules.erase name, mgr.type2Modules.erase m.type m.id⟩

/-- The second section of `add`. -/
def insert (mgr : ModuleManager) (m : Module) : ModuleManager :=
  ⟨mgr.modules.insert m.id m, mgr.type2Modules.insert m.type m.id m⟩

def listByType (mgr : ModuleManager) (type : UInt32) : List Module :=
  match mgr.type2Modules.lookup type with
  | none => []
  | some inner => inner.entries.map (·.2)

end ModuleManager

inductive Call
  | add (m : Module)
  | del (name : String)
  | delAll
  | listByType (type : UInt32)
deriving DecidableEq, Repr

/-- What a call does next. -/
inductive Phase
  /-- The `del` of `add`. -/
  | adding (m : Module)
  | inserting (m : Module)
  /-- The copy of `_modules` in `delAll`. -/
  | copying
  | deleting (names : List String)
  | listing (type : UInt32)
  | returned (ms : List Module)
deriving DecidableEq, Repr

/-- The environment decides in which order the copy of the unordered map is walked through. -/
def code : Code ModuleManager (List String) Call Phase where
  enter
    | .add m => .adding m
    | .del name => .deleting [name]
    | .delAll => .copying
    | .listByType type => .listing type
  next mgr order
    | .adding m => some (mgr.del m.id, .inserting m)
    | .inserting m => some (mgr.insert m, .returned [])
    | .copying => if order.Perm mgr.modules.keys then some (mgr, .deleting order) else none
    | .deleting [] => some (mgr, .returned [])
    | .deleting (name :: names) => some (mgr.del name, .deleting names)
    | .listing type => some (mgr, .returned (mgr.listByType type))
    | .returned _ => none

abbrev Run := Code.State ModuleManager Phase

def start : Run := ⟨.new, []⟩

/-- **The index.**  A module is listed under its type and id exactly if it is the module with that
id, and no inner map is empty. -/
structure Consistent (mgr : ModuleManager) : Prop where
  listed_iff : ∀ m : Module, mgr.type2Modules.get m.type m.id = some m ↔
    mgr.modules.lookup m.id = some m
  trim : mgr.type2Modules.Trim

/-- A module is entered where there is none with its id, or one of its type. -/
def SameType (s : Run) (a : Act (List String) Call) : Prop :=
  ∀ i order m old, a = .run i order → s.threads[i]? = some (.inserting m) →
    s.shared.modules.lookup m.id = some old → old.type = m.type

/-! ## What the sections do -/

/-- The modules stand under their ids, and are listed only under their types and ids. -/
structure Keyed (mgr : ModuleManager) : Prop where
  id_eq : ∀ {name m}, mgr.modules.lookup name = some m → m.id = name
  key_eq : ∀ {type name m}, mgr.type2Modules.get type name = some m → m.type = type ∧ m.id = name
  trim : mgr.type2Modules.Trim

namespace ModuleManager

variable {mgr : ModuleManager} {m m' : Module} {name name' : String} {type : UInt32}

theorem del_of_lookup (h : mgr.modules.lookup name = none) : mgr.del name = mgr := by
  unfold del
  rw [h]

theorem lookup_del : (mgr.del name).modules.lookup name' =
    if name' = name then none else mgr.modules.lookup name' := by
  cases hlookup : mgr.modules.lookup name with
  | none =>
      rw [del_of_lookup hlookup]
      split
      · next heq => rw [heq, hlookup]
      · rfl
  | some m =>
      unfold del
      rw [hlookup]
      by_cases hname : name' = name
      · rw [if_pos hname, hname, AList.lookup_erase]
      · rw [if_neg hname, AList.lookup_erase_ne hname]

theorem get_del_of_lookup (h : mgr.modules.lookup name = some m) :
    (mgr.del name).type2Modules.get type name' =
      if type = m.type ∧ name' = m.id then none else mgr.type2Modules.get type name' := by
  unfold del
  rw [h]
  exact NestedMap.get_erase

theorem lookup_insert : (mgr.insert m).modules.lookup name =
    if name = m.id then some m else mgr.modules.lookup name := by
  unfold insert
  split
  · next heq => rw [heq, AList.lookup_insert]
  · next hne => rw [AList.lookup_insert_ne hne]

theorem get_insert : (mgr.insert m).type2Modules.get type name =
    if type = m.type ∧ name = m.id then some m else mgr.type2Modules.get type name :=
  NestedMap.get_insert

end ModuleManager

variable {mgr mgr' : ModuleManager} {m : Module} {name : String}

theorem keyed_new : Keyed .new where
  id_eq h := by simp [ModuleManager.new] at h
  key_eq h := by
    rw [ModuleManager.new, NestedMap.get_empty] at h
    cases h
  trim := NestedMap.trim_empty

theorem Keyed.del (hmgr : Keyed mgr) (name : String) : Keyed (mgr.del name) := by
  cases hlookup : mgr.modules.lookup name with
  | none =>
      rw [ModuleManager.del_of_lookup hlookup]
      exact hmgr
  | some m =>
      constructor
      · intro name' m' h
        rw [ModuleManager.lookup_del] at h
        split at h
        · cases h
        · exact hmgr.id_eq h
      · intro type name' m' h
        rw [ModuleManager.get_del_of_lookup hlookup] at h
        split at h
        · cases h
        · exact hmgr.key_eq h
      · unfold ModuleManager.del
        rw [hlookup]
        exact hmgr.trim.erase

theorem Keyed.insert (hmgr : Keyed mgr) (m : Module) : Keyed (mgr.insert m) where
  id_eq {name m'} h := by
    rw [ModuleManager.lookup_insert] at h
    split at h
    · next heq =>
        obtain rfl := Option.some.inj h
        exact heq.symm
    · exact hmgr.id_eq h
  key_eq {type name m'} h := by
    rw [ModuleManager.get_insert] at h
    split at h
    · next heq =>
        obtain rfl := Option.some.inj h
        exact ⟨heq.1.symm, heq.2.symm⟩
    · exact hmgr.key_eq h
  trim := hmgr.trim.insert

theorem consistent_new : Consistent .new where
  listed_iff m := by simp [ModuleManager.new, NestedMap.get_empty]
  trim := NestedMap.trim_empty

/-- **`del` keeps the index.**  What is taken out of `_modules` is what is listed. -/
theorem Consistent.del (hmgr : Consistent mgr) (hkeyed : Keyed mgr) (name : String) :
    Consistent (mgr.del name) where
  listed_iff m' := by
    cases hlookup : mgr.modules.lookup name with
    | none =>
        rw [ModuleManager.del_of_lookup hlookup]
        exact hmgr.listed_iff m'
    | some m =>
        have hid := hkeyed.id_eq hlookup
        rw [ModuleManager.lookup_del, ModuleManager.get_del_of_lookup hlookup, hid]
        by_cases hname : m'.id = name
        · by_cases htype : m'.type = m.type
          · simp [hname, htype]
          · -- A module with the id that is listed under another type would be the one found.
            rw [if_neg fun h => htype h.1, if_pos hname, hmgr.listed_iff m', hname, hlookup]
            refine iff_of_false ?_ (by simp)
            intro heq
            exact htype (by rw [Option.some.inj heq])
        · rw [if_neg fun h => hname h.2, if_neg hname]
          exact hmgr.listed_iff m'
  trim := (hkeyed.del name).trim

/-- **An insertion** keeps the index exactly if it replaces no module of another type. -/
theorem Consistent.insert_iff (hmgr : Consistent mgr) (hkeyed : Keyed mgr) :
    Consistent (mgr.insert m) ↔ ∀ old, mgr.modules.lookup m.id = some old → old.type = m.type := by
  constructor
  · intro hins old hlookup
    by_contra htype
    have hid := hkeyed.id_eq hlookup
    -- The old module is still listed under its type, but it is not the one with the id any more.
    have hlisted := (hmgr.listed_iff old).mpr (by rw [hid, hlookup])
    have hstill : (mgr.insert m).type2Modules.get old.type old.id = some old := by
      rw [ModuleManager.get_insert, if_neg fun h => htype h.1]
      exact hlisted
    have hnow := (hins.listed_iff old).mp hstill
    rw [ModuleManager.lookup_insert, if_pos hid] at hnow
    exact htype (by rw [Option.some.inj hnow])
  · intro hsame
    refine ⟨fun m' => ?_, (hkeyed.insert m).trim⟩
    rw [ModuleManager.lookup_insert, ModuleManager.get_insert]
    by_cases hid : m'.id = m.id
    · by_cases htype : m'.type = m.type
      · rw [if_pos ⟨htype, hid⟩, if_pos hid]
      · rw [if_neg fun h => htype h.1, if_pos hid, hmgr.listed_iff m', hid]
        refine iff_of_false ?_ ?_
        · intro hlookup
          exact htype (hsame m' hlookup)
        · intro heq
          exact htype (by rw [Option.some.inj heq])
    · rw [if_neg fun h => hid h.2, if_neg hid]
      exact hmgr.listed_iff m'

/-- What `listByType` returns: the modules that are listed under the type. -/
theorem Keyed.mem_listByType (hmgr : Keyed mgr) (type : UInt32) :
    m ∈ mgr.listByType type ↔ m.type = type ∧ mgr.type2Modules.get m.type m.id = some m := by
  have hentry : m ∈ mgr.listByType type ↔ ∃ name, mgr.type2Modules.get type name = some m := by
    unfold ModuleManager.listByType NestedMap.get
    cases mgr.type2Modules.lookup type with
    | none => simp
    | some inner =>
        simp only [List.mem_map, Sigma.exists, exists_eq_right, Option.bind_some]
        exact exists_congr fun name => AList.mem_lookup_iff.symm
  rw [hentry]
  constructor
  · rintro ⟨name, hget⟩
    obtain ⟨rfl, rfl⟩ := hmgr.key_eq hget
    exact ⟨rfl, hget⟩
  · rintro ⟨rfl, hget⟩
    exact ⟨m.id, hget⟩

/-- While the index is consistent, these are the modules of the type. -/
theorem Consistent.mem_listByType (hmgr : Consistent mgr) (hkeyed : Keyed mgr) (type : UInt32) :
    m ∈ mgr.listByType type ↔ m.type = type ∧ mgr.modules.lookup m.id = some m := by
  rw [hkeyed.mem_listByType, hmgr.listed_iff]

/-- The kinds of sections. -/
inductive Goes (mgr : ModuleManager) : Phase → ModuleManager → Prop
  | on {th : Phase} (hinserting : ∀ m, th ≠ .inserting m) : Goes mgr th mgr
  | del {th : Phase} (name : String) (hinserting : ∀ m, th ≠ .inserting m) :
      Goes mgr th (mgr.del name)
  | insert (m : Module) : Goes mgr (.inserting m) (mgr.insert m)

theorem goes_of_next {order : List String} {th th' : Phase}
    (h : code.next mgr order th = some (mgr', th')) : Goes mgr th mgr' := by
  cases th with
  | adding m =>
      obtain ⟨rfl, rfl⟩ := Prod.mk.inj (Option.some.inj h)
      exact .del m.id (by simp)
  | inserting m =>
      obtain ⟨rfl, rfl⟩ := Prod.mk.inj (Option.some.inj h)
      exact .insert m
  | copying =>
      simp only [code] at h
      split at h
      · obtain ⟨rfl, rfl⟩ := Prod.mk.inj (Option.some.inj h)
        exact .on (by simp)
      · cases h
  | deleting names =>
      cases names with
      | nil =>
          obtain ⟨rfl, rfl⟩ := Prod.mk.inj (Option.some.inj h)
          exact .on (by simp)
      | cons name names =>
          obtain ⟨rfl, rfl⟩ := Prod.mk.inj (Option.some.inj h)
          exact .del name (by simp)
  | listing type =>
      obtain ⟨rfl, rfl⟩ := Prod.mk.inj (Option.some.inj h)
      exact .on (by simp)
  | returned ms => cases h

theorem Goes.keyed {th : Phase} (hmgr : Keyed mgr) (h : Goes mgr th mgr') : Keyed mgr' := by
  cases h with
  | on => exact hmgr
  | del name => exact hmgr.del name
  | insert m => exact hmgr.insert m

/-! ## When the index is consistent -/

section Steps

variable {s s' : Run} {a : Act (List String) Call}

theorem keyed_step (hs : Keyed s.shared) (h : code.step s a = some s') : Keyed s'.shared := by
  cases moves_of_step h with
  | call k => exact hs
  | run hi hnext => exact (goes_of_next hnext).keyed hs

/-- **One step keeps the index** exactly if it replaces no module of another type. -/
theorem consistent_step_iff (hkeyed : Keyed s.shared) (hs : Consistent s.shared)
    (h : code.step s a = some s') : Consistent s'.shared ↔ SameType s a := by
  cases moves_of_step h with
  | call k => exact iff_of_true hs fun i order m old h => by cases h
  | @run i order th th' mgr' hi hnext =>
      have hsame : SameType s (.run i order) ↔ ∀ m, th = .inserting m →
          ∀ old, s.shared.modules.lookup m.id = some old → old.type = m.type := by
        unfold SameType
        constructor
        · intro hall m heq old hlookup
          exact hall i order m old rfl (heq ▸ hi) hlookup
        · rintro hall j order' m old ⟨⟩ hj hlookup
          exact hall m (Option.some.inj (hi.symm.trans hj)) old hlookup
      rw [hsame]
      cases goes_of_next hnext with
      | on hinserting => exact iff_of_true hs fun m heq => absurd heq (hinserting m)
      | del name hinserting =>
          exact iff_of_true (hs.del hkeyed name) fun m heq => absurd heq (hinserting m)
      | insert m =>
          rw [hs.insert_iff hkeyed]
          constructor
          · rintro hok m' ⟨⟩
            exact hok
          · intro hok
            exact hok m rfl

end Steps

/-- **When the index is consistent.**  In every run of `add`, `del`, `delAll` and `listByType`, in
every state of it: exactly if no module replaces one of another type. -/
theorem consistent_iff (as : List (Act (List String) Call)) :
    runAlways code.step (fun s => Consistent s.shared) as start ↔
      runMeets code.step SameType as start := by
  refine runAlways_iff (I := fun s => Keyed s.shared) (fun hs hstep => keyed_step hs hstep)
    (fun hkeyed hs hstep => consistent_step_iff hkeyed hs hstep) ?_ as keyed_new consistent_new
  -- A call that is about to insert is never refused.
  rintro s a hrefused i order m old rfl hi
  simp [Code.step, hi, code] at hrefused

/-- Two modules of one id and of two types. -/
def twoTypes : List (Act (List String) Call) :=
  [.call (.add ⟨0, "m", "1", 0⟩), .call (.add ⟨1, "m", "1", 1⟩), .run 0 [], .run 1 [],
    .run 0 [], .run 1 []]

theorem not_consistent_twoTypes :
    ¬ runAlways code.step (fun s => Consistent s.shared) twoTypes start := by
  intro h
  have hrun : (runActions code.step twoTypes start).map
      (fun s => (s.shared.type2Modules.get 0 "m/1", s.shared.modules.lookup "m/1")) =
      some (some ⟨0, "m", "1", 0⟩, some ⟨1, "m", "1", 1⟩) := by decide
  obtain ⟨s, hs, hlisted⟩ := Option.map_eq_some_iff.mp hrun
  obtain ⟨hold, hnew⟩ := Prod.mk.inj hlisted
  have hiff := (h.end hs).listed_iff ⟨0, "m", "1", 0⟩
  have hid : Module.id ⟨0, "m", "1", 0⟩ = "m/1" := by decide
  rw [hid, hold, hnew] at hiff
  exact absurd (hiff.mp rfl) (by decide)

end Modules
end Routn
