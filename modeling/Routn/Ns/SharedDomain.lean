import Mathlib.Tactic
import Routn.Foundation.Sections
import Routn.Ns.NameServerProtocol

/-!
# `NSDomain` in several threads

`add` and `del` of a node go through several sections under two locks: a set is looked up, perhaps
made and stored, and updated when it may no longer be the one that is stored; and a set that was
found empty is dropped when it may no longer be empty.  The domain lists what it should exactly as
long as no such step meets nodes (`lists_iff`).

`updates` is not a member: it is the order of the updates of the node sets.
-/

namespace Routn
namespace Ns
namespace SharedDomain

open Foundation Code

/-! ## The code -/

inductive Update
  | add (cmd : UInt32) (info : NSNode)
  | del (cmd : UInt32) (id : UInt64)
deriving DecidableEq, Repr

/-- `datas` has the address of a set, and `sets` each `NSNodeSet` with its `_cmd`; addresses from
`made` on are free. -/
structure Store where
  datas : Map UInt32 Nat := ∅
  sets : Nat → UInt32 × NSNodeSet := fun _ => (0, ∅)
  made : Nat := 0
  updates : List Update := []

namespace Store

def get (s : Store) (cmd : UInt32) : Option Nat := AList.lookup cmd s.datas

/-- What the domain lists. -/
def find (s : Store) (cmd : UInt32) (id : UInt64) : Option NSNode :=
  (s.get cmd).bind fun ns => AList.lookup id (s.sets ns).2

/-- `add(ns)` for a new `NSNodeSet(cmd)`. -/
def make (s : Store) (cmd : UInt32) : Store :=
  { s with
    datas := AList.insert cmd s.made s.datas
    sets := Function.update s.sets s.made (cmd, ∅)
    made := s.made + 1 }

/-- `ns->add(info)`. -/
def addTo (s : Store) (cmd : UInt32) (ns : Nat) (info : NSNode) : Store :=
  { s with
    sets := Function.update s.sets ns ((s.sets ns).1, (s.sets ns).2.add info)
    updates := s.updates ++ [.add cmd info] }

/-- `ns->del(id)`. -/
def delFrom (s : Store) (cmd : UInt32) (ns : Nat) (id : UInt64) : Option NSNode × Store :=
  (((s.sets ns).2.del id).1, { s with
    sets := Function.update s.sets ns ((s.sets ns).1, ((s.sets ns).2.del id).2)
    updates := s.updates ++ [.del cmd id] })

/-- `del(cmd)`. -/
def drop (s : Store) (cmd : UInt32) : Store := { s with datas := AList.erase cmd s.datas }

end Store

inductive Call
  | add (cmd : UInt32) (info : NSNode)
  | del (cmd : UInt32) (id : UInt64)
deriving DecidableEq, Repr

inductive Phase
  /-- In front of `get`. -/
  | add (cmd : UInt32) (info : NSNode)
  | making (cmd : UInt32) (info : NSNode)
  | adding (cmd : UInt32) (ns : Nat) (info : NSNode)
  /-- In front of `get`. -/
  | del (cmd : UInt32) (id : UInt64)
  | deleting (cmd : UInt32) (ns : Nat) (id : UInt64)
  | testing (cmd : UInt32) (ns : Nat) (info : Option NSNode)
  | dropping (cmd : UInt32) (info : Option NSNode)
  | returned (info : Option NSNode)
deriving DecidableEq, Repr

def code : Code Store Unit Call Phase where
  enter
    | .add cmd info => .add cmd info
    | .del cmd id => .del cmd id
  next s _
    | .add cmd info =>
        match s.get cmd with
        | none => some (s, .making cmd info)
        | some ns => some (s, .adding cmd ns info)
    | .making cmd info => some (s.make cmd, .adding cmd s.made info)
    | .adding cmd ns info => some (s.addTo cmd ns info, .returned none)
    | .del cmd id =>
        match s.get cmd with
        | none => some (s, .returned none)
        | some ns => some (s, .deleting cmd ns id)
    | .deleting cmd ns id =>
        let (info, s) := s.delFrom cmd ns id
        some (s, .testing cmd ns info)
    | .testing cmd ns info =>
        if (s.sets ns).2.size = 0 then some (s, .dropping cmd info) else some (s, .returned info)
    | .dropping cmd info => some (s.drop cmd, .returned info)
    | .returned _ => none

/-! ## What is to be listed -/

/-- The id was added for the command, and not deleted since. -/
def Kept (updates : List Update) (cmd : UInt32) (id : UInt64) : Prop :=
  ∃ before info after, updates = before ++ .add cmd info :: after ∧ info.id = id ∧
    .del cmd id ∉ after

/-- The domain lists the ids that are to be listed, and no others. -/
def Lists (s : Store) : Prop := ∀ cmd id, (s.find cmd id).isSome = true ↔ Kept s.updates cmd id

/-- A set is stored or dropped only where no node is listed.  An update is one of the set that is
stored, or does not change what is listed. -/
def Phase.Orderly (s : Store) : Phase → Prop
  | .making cmd _ | .dropping cmd _ => ∀ id, s.find cmd id = none
  | .adding cmd ns info => s.get cmd = some ns ∨ (s.find cmd info.id).isSome = true
  | .deleting cmd ns id => s.get cmd = some ns ∨ s.find cmd id = none
  | _ => True

def Orderly (s : Code.State Store Phase) : Act Unit Call → Prop
  | .call _ => True
  | .run i _ => ∀ th, s.threads[i]? = some th → th.Orderly s.shared

section Updates

variable {updates : List Update} {cmd cmd' : UInt32} {id id' : UInt64} {info : NSNode}

theorem kept_add : Kept (updates ++ [.add cmd info]) cmd' id' ↔
    (cmd' = cmd ∧ id' = info.id) ∨ Kept updates cmd' id' := by
  constructor
  · rintro ⟨before, other, after, hsplit, hid, hnot⟩
    rcases List.eq_nil_or_concat after with rfl | ⟨front, last, rfl⟩
    · obtain ⟨-, hlast⟩ := List.append_inj' hsplit rfl
      cases hlast
      exact .inl ⟨rfl, hid.symm⟩
    · rw [List.concat_eq_append, ← List.cons_append, ← List.append_assoc] at hsplit
      obtain ⟨hfront, hlast⟩ := List.append_inj' hsplit rfl
      rw [List.concat_eq_append] at hnot
      exact .inr ⟨before, other, front, hfront, hid, fun h => hnot (List.mem_append_left _ h)⟩
  · rintro (⟨rfl, rfl⟩ | ⟨before, other, after, rfl, hid, hnot⟩)
    · exact ⟨updates, info, [], rfl, rfl, List.not_mem_nil⟩
    · refine ⟨before, other, after ++ [.add cmd info], by simp, hid, ?_⟩
      rw [List.mem_append, List.mem_singleton]
      rintro (h | h)
      · exact hnot h
      · cases h

theorem kept_del : Kept (updates ++ [.del cmd id]) cmd' id' ↔
    ¬ (cmd' = cmd ∧ id' = id) ∧ Kept updates cmd' id' := by
  constructor
  · rintro ⟨before, other, after, hsplit, hid, hnot⟩
    rcases List.eq_nil_or_concat after with rfl | ⟨front, last, rfl⟩
    · obtain ⟨-, hlast⟩ := List.append_inj' hsplit rfl
      cases hlast
    · rw [List.concat_eq_append, ← List.cons_append, ← List.append_assoc] at hsplit
      obtain ⟨hfront, hlast⟩ := List.append_inj' hsplit rfl
      obtain rfl := (List.singleton_inj.mp hlast).symm
      rw [List.concat_eq_append, List.mem_append, List.mem_singleton, not_or] at hnot
      refine ⟨?_, before, other, front, hfront, hid, hnot.1⟩
      rintro ⟨rfl, rfl⟩
      exact hnot.2 rfl
  · rintro ⟨hne, before, other, after, rfl, hid, hnot⟩
    refine ⟨before, other, after ++ [.del cmd id], by simp, hid, ?_⟩
    rw [List.mem_append, List.mem_singleton]
    rintro (h | h)
    · exact hnot h
    · cases h
      exact hne ⟨rfl, rfl⟩

end Updates

/-! ## Sets and their commands -/

/-- There is a set at this address, and it is one for the command. -/
def Store.Holds (s : Store) (ns : Nat) (cmd : UInt32) : Prop := ns < s.made ∧ (s.sets ns).1 = cmd

/-- What is stored for a command is a set of it. -/
def Stored (s : Store) : Prop := ∀ cmd ns, s.get cmd = some ns → s.Holds ns cmd

/-- A thread works at a set of its command. -/
def Phase.Knows (s : Store) : Phase → Prop
  | .adding cmd ns _ | .deleting cmd ns _ => s.Holds ns cmd
  | _ => True

section Sets

variable {s s' : Store} {cmd cmd' : UInt32} {ns n : Nat} {id id' : UInt64} {info : NSNode}

theorem get_make : (s.make cmd).get cmd' = if cmd' = cmd then some s.made else s.get cmd' := by
  by_cases h : cmd' = cmd
  · rw [if_pos h, h]
    exact AList.lookup_insert s.datas
  · rw [if_neg h]
    exact AList.lookup_insert_ne h

theorem get_drop : (s.drop cmd).get cmd' = if cmd' = cmd then none else s.get cmd' := by
  by_cases h : cmd' = cmd
  · rw [if_pos h, h]
    exact AList.lookup_erase cmd s.datas
  · rw [if_neg h]
    exact AList.lookup_erase_ne h

/-- Sets stay, and keep their commands. -/
def Grows (s s' : Store) : Prop := ∀ {ns cmd}, s.Holds ns cmd → s'.Holds ns cmd

theorem grows_make : Grows s (s.make cmd) := by
  intro n cmd' h
  have hne : n ≠ s.made := Nat.ne_of_lt h.1
  exact ⟨Nat.lt_succ_of_lt h.1, (congrArg Prod.fst (Function.update_of_ne hne _ _)).trans h.2⟩

/-- A set that is updated stays a set of its command. -/
theorem grows_update {f : NSNodeSet} {updates : List Update} :
    Grows s { s with
      sets := Function.update s.sets ns ((s.sets ns).1, f)
      updates := updates } := by
  intro n cmd' h
  refine ⟨h.1, ?_⟩
  by_cases hns : n = ns
  · subst hns
    exact (congrArg Prod.fst (Function.update_self n _ s.sets)).trans h.2
  · exact (congrArg Prod.fst (Function.update_of_ne hns _ _)).trans h.2

theorem Phase.Knows.mono {th : Phase} (h : th.Knows s) (hgrows : Grows s s') : th.Knows s' := by
  cases th with
  | adding cmd ns info => exact hgrows h
  | deleting cmd ns id => exact hgrows h
  | _ => trivial

/-- **What a section does**: to what is stored, to the sets, and for its own thread. -/
theorem next_stored {th th' : Phase} {ch : Unit} (hstored : Stored s) (hknows : th.Knows s)
    (h : code.next s ch th = some (s', th')) : Stored s' ∧ Grows s s' ∧ th'.Knows s' := by
  cases th with
  | add cmd info =>
      simp only [code] at h
      split at h
      · cases h
        exact ⟨hstored, id, trivial⟩
      · next hget =>
          cases h
          exact ⟨hstored, id, hstored _ _ hget⟩
  | making cmd info =>
      cases h
      have hnew : (s.make cmd).Holds s.made cmd :=
        ⟨Nat.lt_succ_self _, congrArg Prod.fst (Function.update_self s.made _ s.sets)⟩
      refine ⟨fun cmd' ns hget => ?_, grows_make, hnew⟩
      rw [get_make] at hget
      split at hget
      · next heq =>
          cases hget
          exact heq ▸ hnew
      · exact grows_make (hstored _ _ hget)
  | adding cmd ns info =>
      cases h
      exact ⟨fun cmd' ns hget => grows_update (hstored _ _ hget), grows_update, trivial⟩
  | del cmd id' =>
      simp only [code] at h
      split at h
      · cases h
        exact ⟨hstored, id, trivial⟩
      · next hget =>
          cases h
          exact ⟨hstored, id, hstored _ _ hget⟩
  | deleting cmd ns id' =>
      cases h
      exact ⟨fun cmd' ns hget => grows_update (hstored _ _ hget), grows_update, trivial⟩
  | testing cmd ns info =>
      simp only [code] at h
      split at h
      · cases h
        exact ⟨hstored, id, trivial⟩
      · cases h
        exact ⟨hstored, id, trivial⟩
  | dropping cmd info =>
      cases h
      refine ⟨fun cmd' ns hget => ?_, id, trivial⟩
      rw [get_drop] at hget
      split at hget
      · cases hget
      · exact hstored _ _ hget
  | returned info => cases h

theorem stored_outline : Outline code Stored fun s th => th.Knows s where
  enter {sh k} _ := by cases k <;> trivial
  own hstored hknows h :=
    ⟨(next_stored hstored hknows h).1, (next_stored hstored hknows h).2.2⟩
  others hstored hknows hother h := hother.mono (next_stored hstored hknows h).2.1

end Sets

/-! ## What is listed -/

section Finding

variable {s : Store} {cmd cmd' : UInt32} {ns : Nat} {id id' : UInt64} {info : NSNode}

theorem find_make (hstored : Stored s) :
    (s.make cmd).find cmd' id = if cmd' = cmd then none else s.find cmd' id := by
  rw [Store.find, get_make]
  by_cases h : cmd' = cmd
  · rw [if_pos h, if_pos h, Option.bind_some]
    have hempty : ((s.make cmd).sets s.made).2 = ∅ :=
      congrArg Prod.snd (Function.update_self s.made _ s.sets)
    rw [hempty, AList.lookup_empty]
  · rw [if_neg h, if_neg h, Store.find]
    refine Option.bind_congr fun ns hget => ?_
    have hne : ns ≠ s.made := Nat.ne_of_lt (hstored _ _ hget).1
    have hsame : (s.make cmd).sets ns = s.sets ns := Function.update_of_ne hne _ _
    rw [hsame]

theorem find_drop : (s.drop cmd).find cmd' id = if cmd' = cmd then none else s.find cmd' id := by
  rw [Store.find, get_drop]
  by_cases h : cmd' = cmd
  · rw [if_pos h, if_pos h]
    rfl
  · rw [if_neg h, if_neg h]
    rfl

/-- What is listed when the set at an address becomes another one. -/
theorem find_update (hstored : Stored s) (hholds : s.Holds ns cmd) {f : NSNodeSet}
    {updates : List Update} : Store.find { s with
      sets := Function.update s.sets ns ((s.sets ns).1, f)
      updates := updates } cmd' id =
    if cmd' = cmd ∧ s.get cmd = some ns then AList.lookup id f else s.find cmd' id := by
  by_cases h : cmd' = cmd ∧ s.get cmd = some ns
  · rw [if_pos h, h.1]
    show (s.get cmd).bind _ = _
    rw [h.2, Option.bind_some]
    dsimp only
    rw [Function.update_self]
  · rw [if_neg h]
    show (s.get cmd').bind _ = (s.get cmd').bind _
    refine Option.bind_congr fun n hget => ?_
    have hne : n ≠ ns := by
      rintro rfl
      have hcmd : cmd' = cmd := (hstored _ _ hget).2.symm.trans hholds.2
      exact h ⟨hcmd, hcmd ▸ hget⟩
    dsimp only
    rw [Function.update_of_ne hne]

theorem find_addTo (hstored : Stored s) (hholds : s.Holds ns cmd) :
    (s.addTo cmd ns info).find cmd' id =
      if (cmd' = cmd ∧ id = info.id) ∧ s.get cmd = some ns then some info
      else s.find cmd' id := by
  refine (find_update hstored hholds).trans ?_
  by_cases hat : cmd' = cmd ∧ s.get cmd = some ns
  · obtain ⟨rfl, hget⟩ := hat
    rw [if_pos ⟨rfl, hget⟩, NSNodeSet.add]
    by_cases hid : id = info.id
    · rw [if_pos ⟨⟨rfl, hid⟩, hget⟩, hid, AList.lookup_insert]
    · rw [if_neg fun h => hid h.1.2, AList.lookup_insert_ne hid, Store.find, hget, Option.bind_some]
  · rw [if_neg hat, if_neg fun h => hat ⟨h.1.1, h.2⟩]

theorem find_delFrom (hstored : Stored s) (hholds : s.Holds ns cmd) :
    (s.delFrom cmd ns id).2.find cmd' id' =
      if (cmd' = cmd ∧ id' = id) ∧ s.get cmd = some ns then none else s.find cmd' id' := by
  refine (find_update hstored hholds).trans ?_
  by_cases hat : cmd' = cmd ∧ s.get cmd = some ns
  · obtain ⟨rfl, hget⟩ := hat
    rw [if_pos ⟨rfl, hget⟩, NSNodeSet.del]
    by_cases hid : id' = id
    · rw [if_pos ⟨⟨rfl, hid⟩, hget⟩, hid, AList.lookup_erase]
    · rw [if_neg fun h => hid h.1.2, AList.lookup_erase_ne hid, Store.find, hget, Option.bind_some]
  · rw [if_neg hat, if_neg fun h => hat ⟨h.1.1, h.2⟩]

end Finding

/-! ## What keeps the list -/

section Keeping

variable {s s' : Store} {cmd : UInt32} {ns : Nat} {id : UInt64} {info : NSNode}

/-- Nothing is listed for the command any more. -/
theorem lists_emptied (hlists : Lists s) (hupdates : s'.updates = s.updates)
    (hfind : ∀ cmd' id, s'.find cmd' id = if cmd' = cmd then none else s.find cmd' id) :
    Lists s' ↔ ∀ id, s.find cmd id = none := by
  constructor
  · intro hlists' id
    have hkept := hlists' cmd id
    rw [hfind, if_pos rfl, hupdates, ← hlists cmd id] at hkept
    exact Option.not_isSome_iff_eq_none.mp fun hsome => nomatch hkept.mpr hsome
  · intro hnone cmd' id
    rw [hfind, hupdates, ← hlists cmd' id]
    split
    · next heq => rw [heq, hnone id]
    · exact Iff.rfl

theorem lists_addTo (hstored : Stored s) (hholds : s.Holds ns cmd) (hlists : Lists s) :
    Lists (s.addTo cmd ns info) ↔
      s.get cmd = some ns ∨ (s.find cmd info.id).isSome = true := by
  constructor
  · intro hlists'
    have hkept := (hlists' cmd info.id).mpr (kept_add.mpr (.inl ⟨rfl, rfl⟩))
    rw [find_addTo hstored hholds] at hkept
    split at hkept
    · next hget => exact .inl hget.2
    · exact .inr hkept
  · intro hor cmd' id
    have hadd : Kept (s.addTo cmd ns info).updates cmd' id ↔ _ := kept_add
    rw [hadd, find_addTo hstored hholds, ← hlists cmd' id]
    split
    · next hat => exact iff_of_true rfl (.inl hat.1)
    · next hnot =>
        refine ⟨.inr, fun h => h.elim (fun hat => ?_) fun hsome => hsome⟩
        rw [hat.1, hat.2]
        exact hor.resolve_left fun hget => hnot ⟨hat, hget⟩

theorem lists_delFrom (hstored : Stored s) (hholds : s.Holds ns cmd) (hlists : Lists s) :
    Lists (s.delFrom cmd ns id).2 ↔ s.get cmd = some ns ∨ s.find cmd id = none := by
  have hdel : ∀ {cmd' id'}, Kept (s.delFrom cmd ns id).2.updates cmd' id' ↔ _ := kept_del
  constructor
  · intro hlists'
    have hgone : ((s.delFrom cmd ns id).2.find cmd id).isSome ≠ true := fun h =>
      (hdel.mp ((hlists' cmd id).mp h)).1 ⟨rfl, rfl⟩
    rw [find_delFrom hstored hholds] at hgone
    split at hgone
    · next hget => exact .inl hget.2
    · exact .inr (Option.not_isSome_iff_eq_none.mp hgone)
  · intro hor cmd' id'
    rw [hdel, find_delFrom hstored hholds, ← hlists cmd' id']
    split
    · next hat => exact iff_of_false Bool.false_ne_true fun h => h.1 hat.1
    · next hnot =>
        refine ⟨fun hsome => ⟨fun hat => ?_, hsome⟩, fun h => h.2⟩
        have hnone := hor.resolve_left fun hget => hnot ⟨hat, hget⟩
        rw [hat.1, hat.2, hnone] at hsome
        cases hsome

/-- **A section keeps the list** exactly if it is in order. -/
theorem lists_next {th th' : Phase} {ch : Unit} (hstored : Stored s) (hknows : th.Knows s)
    (hlists : Lists s) (h : code.next s ch th = some (s', th')) :
    Lists s' ↔ th.Orderly s := by
  cases th with
  | making cmd info =>
      cases h
      exact lists_emptied hlists rfl fun _ _ => find_make hstored
  | adding cmd ns info =>
      cases h
      exact lists_addTo hstored hknows hlists
  | deleting cmd ns id =>
      cases h
      exact lists_delFrom hstored hknows hlists
  | dropping cmd info =>
      cases h
      exact lists_emptied hlists rfl fun _ _ => find_drop
  | add cmd info | del cmd id | testing cmd ns info =>
      simp only [code] at h
      split at h <;> cases h <;> exact iff_of_true hlists trivial
  | returned info => cases h

/-- Only a call that has returned has no section left. -/
theorem orderly_of_next_none {th : Phase} {ch : Unit} (h : code.next s ch th = none) :
    th.Orderly s := by
  cases th with
  | making cmd info | adding cmd ns info | deleting cmd ns id | dropping cmd info => cases h
  | _ => trivial

end Keeping

/-- **No node is lost** in the interleavings in which no set with nodes is replaced or dropped, and
none is updated that is not stored. -/
theorem lists_iff (acts : List (Act Unit Call)) :
    runAlways code.step (fun s => Lists s.shared) acts ⟨{}, []⟩ ↔
      runMeets code.step Orderly acts ⟨{}, []⟩ := by
  have hstored : Stored {} := by
    intro cmd ns hget
    cases hget
  have hstart : Holds Stored (fun s th => Phase.Knows s th) ⟨{}, []⟩ :=
    ⟨hstored, fun _ hth => absurd hth List.not_mem_nil⟩
  have hempty : Lists {} := by
    intro cmd id
    refine iff_of_false Bool.false_ne_true ?_
    rintro ⟨before, info, after, hsplit, -⟩
    cases before <;> cases hsplit
  refine runAlways_iff (fun hs h => stored_outline.step hs h) ?_ ?_ acts hstart hempty
  · intro s s' a hs hlists hstep
    cases moves_of_step hstep with
    | call k => exact iff_of_true hlists trivial
    | @run i ch th th' shared hi hnext =>
        have hkeep := lists_next hs.1 (hs.2.at hi) hlists hnext
        refine hkeep.trans ⟨fun h t ht => ?_, fun h => h th hi⟩
        cases hi.symm.trans ht
        exact h
  · intro s a hstep
    cases a with
    | call k => cases hstep
    | run i ch =>
        intro th hi
        simp only [step, Option.bind_eq_bind, hi, Option.bind_some, Option.bind_eq_none_iff]
          at hstep
        cases hnext : code.next s.shared ch th with
        | none => exact orderly_of_next_none hnext
        | some r => exact absurd (hstep r hnext) (by simp)

/-! ## Two nodes for a new command -/

/-- Both calls find no set, and the second one puts its set in the place of the first one's. -/
def overtaken : List (Act Unit Call) := [
  .call (.add 7 ⟨1, "", 0, 0⟩), .call (.add 7 ⟨2, "", 0, 0⟩), .run 0 (), .run 1 (), .run 0 (),
  .run 0 (), .run 1 (), .run 1 ()]

/-- **A node is lost.** -/
theorem not_lists_overtaken : ∃ s, runActions code.step overtaken ⟨{}, []⟩ = some s ∧
    (∀ th ∈ s.threads, th = .returned none) ∧ Kept s.shared.updates 7 1 ∧
      s.shared.find 7 1 = none ∧ ¬ Lists s.shared := by
  obtain ⟨s, hrun⟩ : ∃ s, runActions code.step overtaken ⟨{}, []⟩ = some s := ⟨_, rfl⟩
  obtain rfl := Option.some.inj hrun
  have hkept : Kept [.add 7 ⟨1, "", 0, 0⟩, .add 7 ⟨2, "", 0, 0⟩] 7 1 :=
    ⟨[], ⟨1, "", 0, 0⟩, [.add 7 ⟨2, "", 0, 0⟩], rfl, rfl, by decide⟩
  exact ⟨_, hrun, by decide, hkept, rfl, fun hlists => nomatch (hlists 7 1).mpr hkept⟩

end SharedDomain
end Ns
end Routn
