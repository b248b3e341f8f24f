import Mathlib.Tactic
import Routn.Ns.NSClient

/-!
# The sections of an `NSClient`

What one section does: the domains keep their names and the sets their commands (`next_sound`), what
is left of its message is what was left but for what was due (`writes_next`), other messages keep
theirs (`writes_other`), and the view is written with what was due (`view_next`).
-/

namespace Routn
namespace Ns
namespace NSClient

open Foundation Write

/-! ## Domains and their names -/

/-- What is stored for a domain is one of its name, and the sets in it are of their commands. -/
structure Client.Sound (c : Client) : Prop where
  named : ∀ domain obj, c.get domain = some obj → obj < c.made ∧ (c.objects obj).1 = domain
  stored : ∀ obj, SharedDomain.Stored (c.objects obj).2

/-- Domains stay, with their names and their sets. -/
structure Client.Grows (c c' : Client) : Prop where
  made : c.made ≤ c'.made
  name : ∀ obj < c.made, (c'.objects obj).1 = (c.objects obj).1
  sets : ∀ obj < c.made, SharedDomain.Grows (c.objects obj).2 (c'.objects obj).2

/-- A fiber works at a domain of the name, and at a set of the command. -/
def Fiber.Knows (c : Client) : Fiber → Prop
  | .working domain obj th _ _ =>
      obj < c.made ∧ (c.objects obj).1 = domain ∧ th.Knows (c.objects obj).2
  | _ => True

namespace Client

variable {c c' c'' : Client} {domain : String} {obj : Nat} {d : SharedDomain.Store}

theorem Grows.refl (c : Client) : c.Grows c := ⟨le_rfl, fun _ _ => rfl, fun _ _ _ _ h => h⟩

theorem Grows.trans (h : c.Grows c') (h' : c'.Grows c'') : c.Grows c'' := by
  constructor
  · exact h.made.trans h'.made
  · intro obj hobj
    rw [h'.name obj (hobj.trans_le h.made), h.name obj hobj]
  · intro obj hobj ns cmd hholds
    exact h'.sets obj (hobj.trans_le h.made) (h.sets obj hobj hholds)

theorem sound_empty : ({} : Client).Sound := by
  constructor
  · intro domain obj hget
    simp [get] at hget
  · intro obj cmd ns hget
    cases hget

theorem Sound.clear (h : c.Sound) : Client.Sound { c with domains := ∅ } := by
  constructor
  · intro domain obj hget
    simp [get] at hget
  · exact h.stored

/-! ## One domain is written -/

@[simp] theorem get_write (domain : String) : (c.write obj d).get domain = c.get domain := rfl

theorem Sound.write (h : c.Sound) (hstored : SharedDomain.Stored d) : (c.write obj d).Sound := by
  constructor
  · intro domain obj' hget
    obtain ⟨hmade, hname⟩ := h.named domain obj' hget
    refine ⟨hmade, ?_⟩
    by_cases hobj : obj' = obj
    · subst hobj
      simpa [Client.write] using hname
    · simpa [Client.write, hobj] using hname
  · intro obj'
    by_cases hobj : obj' = obj
    · subst hobj
      simpa [Client.write] using hstored
    · simpa [Client.write, hobj] using h.stored obj'

theorem grows_write (hgrows : SharedDomain.Grows (c.objects obj).2 d) :
    c.Grows (c.write obj d) := by
  constructor
  · exact le_rfl
  · intro obj' _
    by_cases hobj : obj' = obj
    · subst hobj
      simp [Client.write]
    · simp [Client.write, hobj]
  · intro obj' _ ns cmd hholds
    by_cases hobj : obj' = obj
    · subst hobj
      simpa [Client.write] using hgrows hholds
    · simpa [Client.write, hobj] using hholds

/-- What is seen of a domain that is written. -/
theorem view_write (h : c.Sound) (hget : c.get domain = some obj) (k : Key) :
    (c.write obj d).view k = if k.1 = domain then d.find k.2.1 k.2.2 else c.view k := by
  by_cases hdomain : k.1 = domain
  · rw [view, get_write, hdomain, hget]
    simp [Client.write]
  · simp only [view, get_write, hdomain, if_false]
    cases hother : c.get k.1 with
    | none => simp
    | some obj' =>
        have hobj : obj' ≠ obj := by
          rintro rfl
          exact hdomain ((h.named _ _ hother).2.symm.trans (h.named _ _ hget).2)
        simp [Client.write, hobj]

/-- A domain that is not stored is not seen. -/
theorem view_write_stale (h : c.Sound) (hname : (c.objects obj).1 = domain)
    (hstale : c.get domain ≠ some obj) : (c.write obj d).view = c.view := by
  ext k : 1
  simp only [view, get_write]
  cases hother : c.get k.1 with
  | none => simp
  | some obj' =>
      have hobj : obj' ≠ obj := by
        rintro rfl
        exact hstale (by rw [← hname, (h.named _ _ hother).2, hother])
      simp [Client.write, hobj]

/-! ## A domain is made -/

/-- A domain that was not there. -/
def make (c : Client) (domain : String) : Client :=
  { c with
    domains := AList.insert domain c.made c.domains
    objects := Function.update c.objects c.made (domain, {})
    made := c.made + 1 }

theorem get_make (domain' : String) :
    (c.make domain).get domain' = if domain' = domain then some c.made else c.get domain' := by
  by_cases hdomain : domain' = domain
  · subst hdomain
    simp [make, get]
  · simp [make, get, hdomain, AList.lookup_insert_ne hdomain]

theorem sound_make (h : c.Sound) : (c.make domain).Sound := by
  constructor
  · intro domain' obj hget
    rw [get_make] at hget
    split at hget
    · next hdomain =>
        obtain rfl := Option.some.inj hget
        simp [make, hdomain]
    · obtain ⟨hmade, hname⟩ := h.named _ _ hget
      refine ⟨Nat.lt_succ_of_lt hmade, ?_⟩
      simpa [make, hmade.ne] using hname
  · intro obj
    by_cases hobj : obj = c.made
    · intro cmd ns hget
      simp [make, hobj, SharedDomain.Store.get] at hget
    · simpa [make, hobj] using h.stored obj

theorem grows_make : c.Grows (c.make domain) := by
  constructor
  · simp [make]
  · intro obj hobj
    simp [make, hobj.ne]
  · intro obj hobj ns cmd hholds
    simpa [make, hobj.ne] using hholds

/-- Nothing is in it. -/
theorem view_make (h : c.Sound) (hget : c.get domain = none) : (c.make domain).view = c.view := by
  ext k : 1
  simp only [view, get_make]
  by_cases hdomain : k.1 = domain
  · simp [hdomain, hget, make, SharedDomain.Store.find, SharedDomain.Store.get]
  · simp only [hdomain, if_false]
    cases hother : c.get k.1 with
    | none => simp
    | some obj => simp [make, (h.named _ _ hother).1.ne]

theorem getOrMake_spec (h : c.Sound) (domain : String) :
    (c.getOrMake domain).2.Sound ∧ c.Grows (c.getOrMake domain).2 ∧
      (c.getOrMake domain).2.get domain = some (c.getOrMake domain).1 ∧
        (c.getOrMake domain).2.view = c.view := by
  cases hget : c.get domain with
  | some obj =>
      have heq : c.getOrMake domain = (obj, c) := by simp [getOrMake, hget]
      rw [heq]
      exact ⟨h, .refl c, hget, rfl⟩
  | none =>
      have heq : c.getOrMake domain = (c.made, c.make domain) := by simp [getOrMake, hget, make]
      rw [heq]
      exact ⟨sound_make h, grows_make, by simp [get_make], view_make h hget⟩

end Client

/-! ## What is built from a response -/

/-- The writes have been carried out. -/
structure Builds (c c' : Client) (ws : List (Write Key (Option NSNode))) : Prop where
  sound : c'.Sound
  grows : c.Grows c'
  view : c'.view = replay ws c.view

section Building

variable {c c' c'' : Client} {domain : String} {obj : Nat} {d : SharedDomain.Store} {cmd : UInt32}
  {node : NSNode} {ws ws' : List (Write Key (Option NSNode))}

theorem Builds.trans (h : Builds c c' ws) (h' : Builds c' c'' ws') :
    Builds c c'' (ws ++ ws') := by
  constructor
  · exact h'.sound
  · exact h.grows.trans h'.grows
  · rw [h'.view, h.view, replay_append]

theorem stored_addTo {ns : Nat} (hstored : SharedDomain.Stored d) (hholds : d.Holds ns cmd)
    (node : NSNode) : SharedDomain.Stored (d.addTo cmd ns node) ∧
      SharedDomain.Grows d (d.addTo cmd ns node) := by
  have hnext : SharedDomain.code.next d () (.adding cmd ns node) =
      some (d.addTo cmd ns node, .returned none) := rfl
  have hknows : SharedDomain.Phase.Knows d (.adding cmd ns node) := hholds
  have hadd := SharedDomain.next_stored hstored hknows hnext
  exact ⟨hadd.1, hadd.2.1⟩

theorem stored_make (hstored : SharedDomain.Stored d) (cmd : UInt32) :
    SharedDomain.Stored (d.make cmd) ∧ SharedDomain.Grows d (d.make cmd) ∧
      (d.make cmd).Holds d.made cmd := by
  have hnext : SharedDomain.code.next d () (.making cmd ⟨0, "", 0, 0⟩) =
      some (d.make cmd, .adding cmd d.made ⟨0, "", 0, 0⟩) := rfl
  have hknows : SharedDomain.Phase.Knows d (.making cmd ⟨0, "", 0, 0⟩) := trivial
  exact SharedDomain.next_stored hstored hknows hnext

theorem addNode_stored (hstored : SharedDomain.Stored d) (cmd : UInt32) (node : NSNode) :
    SharedDomain.Stored (addNode d cmd node) ∧ SharedDomain.Grows d (addNode d cmd node) := by
  unfold addNode
  cases hget : d.get cmd with
  | some ns => exact stored_addTo hstored (hstored _ _ hget) node
  | none =>
      obtain ⟨hmade, hgrows, hholds⟩ := stored_make hstored cmd
      have hadd := stored_addTo hmade hholds node
      exact ⟨hadd.1, fun hold => hadd.2 (hgrows hold)⟩

theorem find_addNode (hstored : SharedDomain.Stored d) (cmd' : UInt32) (id : UInt64) :
    (addNode d cmd node).find cmd' id =
      if cmd' = cmd ∧ id = node.id then some node else d.find cmd' id := by
  unfold addNode
  cases hget : d.get cmd with
  | some ns => simp [SharedDomain.find_addTo hstored (hstored _ _ hget), hget]
  | none =>
      obtain ⟨hmade, -, hholds⟩ := stored_make hstored cmd
      have hnew : (d.make cmd).get cmd = some d.made := by simp [SharedDomain.get_make]
      have hnone : d.find cmd id = none := by simp [SharedDomain.Store.find, hget]
      dsimp only
      rw [SharedDomain.find_addTo hmade hholds, SharedDomain.find_make hstored]
      by_cases hcmd : cmd' = cmd
      · subst hcmd
        simp [hnew, hnone]
      · simp [hcmd]

/-- A node is added to a domain that is stored. -/
theorem buildCall_builds (h : c.Sound) (hget : c.get domain = some obj) (cmd : UInt32)
    (node : NSNode) :
    Builds c (buildCall obj c (.add cmd node)) [callWrite domain (.add cmd node)] := by
  obtain ⟨hstored, hgrows⟩ := addNode_stored (h.stored obj) cmd node
  constructor
  · exact h.write hstored
  · exact Client.grows_write hgrows
  · ext k : 1
    obtain ⟨domain', cmd', id⟩ := k
    rw [buildCall, Client.view_write h hget, find_addNode (h.stored obj)]
    by_cases hdomain : domain' = domain
    · subst hdomain
      simp [callWrite, apply, Function.update_apply, Client.view, hget]
    · simp [callWrite, apply, hdomain]

theorem foldl_buildCall (h : c.Sound) (hget : c.get domain = some obj) (nodes : List NSNode) :
    Builds c ((nodes.map fun node => .add cmd node).foldl (buildCall obj) c)
      ((nodes.map fun node => .add cmd node).map (callWrite domain)) := by
  induction nodes generalizing c with
  | nil => exact ⟨h, .refl c, rfl⟩
  | cons node nodes ih =>
      have hfirst := buildCall_builds h hget cmd node
      exact hfirst.trans (ih hfirst.sound hget)

variable (hasQueryDomain : String → Bool)

theorem buildInfo_builds (h : c.Sound) (info : NodeInfo) :
    Builds c (buildInfo hasQueryDomain c info) ((Task.mk true info).writes hasQueryDomain) := by
  unfold buildInfo Task.writes
  split
  · obtain ⟨hsound, hgrows, hget, hview⟩ := Client.getOrMake_spec h info.domain
    have hmade : Builds c (c.getOrMake info.domain).2 [] := ⟨hsound, hgrows, hview⟩
    exact hmade.trans (foldl_buildCall hsound hget _)
  · exact ⟨h, .refl c, rfl⟩

theorem foldl_buildInfo (h : c.Sound) (infos : List NodeInfo) :
    Builds c (infos.foldl (buildInfo hasQueryDomain) c)
      (infos.flatMap fun info => (Task.mk true info).writes hasQueryDomain) := by
  induction infos generalizing c with
  | nil => exact ⟨h, .refl c, rfl⟩
  | cons info infos ih =>
      have hfirst := buildInfo_builds hasQueryDomain h info
      exact hfirst.trans (ih hfirst.sound)

/-- **The view after the swap** is what the response says. -/
theorem swap_builds (h : c.Sound) (infos : List NodeInfo) :
    Builds c (swap hasQueryDomain c infos) [.all (snapshot hasQueryDomain infos)] := by
  have hbuilt := foldl_buildInfo hasQueryDomain h.clear infos
  have hclear : Client.view { c with domains := ∅ } = fun _ => none := by
    ext k : 1
    simp [Client.view, Client.get]
  constructor
  · exact hbuilt.sound
  · exact ⟨hbuilt.grows.made, hbuilt.grows.name, hbuilt.grows.sets⟩
  · rw [swap, hbuilt.view, hclear]
    rfl

end Building

/-! ## One section -/

section Next

variable {hasQueryDomain : String → Bool} {c c' : Client} {fiber fiber' : Fiber} {domain : String}
  {obj : Nat} {d d' : SharedDomain.Store} {th th' : SharedDomain.Phase}

theorem phaseWrites_next (h : SharedDomain.code.next d () th = some (d', th')) (domain : String) :
    phaseWrites domain th = phaseDue domain d th ++ phaseWrites domain th' := by
  cases th with
  | add cmd node | del cmd id | testing cmd ns node =>
      simp only [SharedDomain.code] at h
      split at h <;> cases h <;> simp_all [phaseWrites, phaseDue]
  | making cmd node | adding cmd ns node | deleting cmd ns id | dropping cmd node =>
      cases h
      simp [phaseWrites, phaseDue]
  | returned node => cases h

theorem eq_returned (h : SharedDomain.code.next d () th = none) : ∃ info, th = .returned info := by
  cases th with
  | returned info => exact ⟨info, rfl⟩
  | add cmd node | del cmd id | testing cmd ns node =>
      simp only [SharedDomain.code] at h
      split at h <;> cases h
  | making cmd node | adding cmd ns node | deleting cmd ns id | dropping cmd node => cases h

theorem phaseWrites_enter (domain : String) (call : SharedDomain.Call) :
    phaseWrites domain (SharedDomain.code.enter call) = [callWrite domain call] := by
  cases call <;> simp [SharedDomain.code, phaseWrites, callWrite]

/-- **What is left of a message** after a section is what was left before, but for what was due. -/
theorem writes_next (hsound : c.Sound) (h : next hasQueryDomain c fiber = some (c', fiber')) :
    fiber.writes hasQueryDomain c =
      fiber.due hasQueryDomain c ++ fiber'.writes hasQueryDomain c' := by
  cases fiber with
  | swapping infos =>
      cases h
      simp [Fiber.writes, Fiber.inHand, Fiber.waiting, Fiber.due]
  | notify tasks =>
      cases tasks with
      | nil =>
          cases h
          simp [Fiber.writes, Fiber.inHand, Fiber.waiting, Fiber.due]
      | cons task tasks =>
          simp only [next] at h
          split at h
          · next hquery =>
              split at h
              · next hupdate =>
                  cases h
                  obtain ⟨-, -, hget, -⟩ := Client.getOrMake_spec hsound task.info.domain
                  simp [Fiber.writes, Fiber.inHand, Fiber.waiting, Fiber.due, Task.writes,
                    phaseWrites, hquery, hupdate, hget]
              · next hupdate =>
                  split at h
                  · next hget =>
                      cases h
                      simp [Fiber.writes, Fiber.inHand, Fiber.waiting, Fiber.due, hupdate, hget]
                  · next obj hget =>
                      cases h
                      simp [Fiber.writes, Fiber.inHand, Fiber.waiting, Fiber.due, Task.writes,
                        phaseWrites, hquery, hget]
          · next hquery =>
              cases h
              simp [Fiber.writes, Fiber.inHand, Fiber.waiting, Fiber.due, Task.writes, hquery]
  | working domain obj th calls tasks =>
      simp only [next] at h
      split at h
      · next d' th' hnext =>
          cases h
          by_cases hget : c.get domain = some obj
          · simp [Fiber.writes, Fiber.inHand, Fiber.waiting, Fiber.due, hget,
              phaseWrites_next hnext domain]
          · simp [Fiber.writes, Fiber.inHand, Fiber.waiting, Fiber.due, hget]
      · next hnext =>
          obtain ⟨info, rfl⟩ := eq_returned hnext
          cases calls with
          | nil =>
              cases h
              simp [Fiber.writes, Fiber.inHand, Fiber.waiting, Fiber.due, phaseWrites, phaseDue]
          | cons call calls =>
              cases h
              simp only [Fiber.writes, Fiber.inHand, phaseWrites_enter]
              simp [Fiber.waiting, Fiber.due, phaseDue, phaseWrites]
  | returned => cases h

theorem Fiber.Knows.mono (h : fiber.Knows c) (hgrows : c.Grows c') : fiber.Knows c' := by
  cases fiber with
  | working domain obj th calls tasks =>
      obtain ⟨hmade, hname, hth⟩ := h
      exact ⟨hmade.trans_le hgrows.made, (hgrows.name obj hmade).trans hname,
        hth.mono (hgrows.sets obj hmade)⟩
  | _ => trivial

theorem knows_returned (hsound : c.Sound) (hget : c.get domain = some obj)
    (calls : List SharedDomain.Call) (tasks : List Task) :
    (Fiber.working domain obj (.returned none) calls tasks).Knows c :=
  ⟨(hsound.named _ _ hget).1, (hsound.named _ _ hget).2, trivial⟩

/-- **What a section keeps**: names, sets, and what its fiber relies on. -/
theorem next_sound (hsound : c.Sound) (hknows : fiber.Knows c)
    (h : next hasQueryDomain c fiber = some (c', fiber')) :
    c'.Sound ∧ c.Grows c' ∧ fiber'.Knows c' := by
  cases fiber with
  | swapping infos =>
      cases h
      have hbuilds := swap_builds hasQueryDomain hsound infos
      exact ⟨hbuilds.sound, hbuilds.grows, trivial⟩
  | notify tasks =>
      cases tasks with
      | nil =>
          cases h
          exact ⟨hsound, .refl c, trivial⟩
      | cons task tasks =>
          simp only [next] at h
          split at h
          · split at h
            · cases h
              obtain ⟨hsound', hgrows, hget, -⟩ := Client.getOrMake_spec hsound task.info.domain
              exact ⟨hsound', hgrows, knows_returned hsound' hget _ _⟩
            · split at h
              · cases h
                exact ⟨hsound, .refl c, trivial⟩
              · next obj hget =>
                  cases h
                  exact ⟨hsound, .refl c, knows_returned hsound hget _ _⟩
          · cases h
            exact ⟨hsound, .refl c, trivial⟩
  | working domain obj th calls tasks =>
      obtain ⟨hmade, hname, hth⟩ := hknows
      simp only [next] at h
      split at h
      · next d' th' hnext =>
          cases h
          obtain ⟨hstored, hgrows, hth'⟩ :=
            SharedDomain.next_stored (hsound.stored obj) hth hnext
          refine ⟨hsound.write hstored, Client.grows_write hgrows, hmade, ?_, ?_⟩
          · simpa [Client.write] using hname
          · simpa [Client.write] using hth'
      · split at h
        · cases h
          exact ⟨hsound, .refl c, trivial⟩
        · next call calls =>
            cases h
            refine ⟨hsound, .refl c, hmade, hname, ?_⟩
            cases call <;> trivial
  | returned => cases h

/-! ## What a section does to the others -/

/-- The domains of the client are new ones. -/
def Client.Fresh (n : Nat) (c : Client) : Prop :=
  n ≤ c.made ∧ ∀ domain obj, c.get domain = some obj → n ≤ obj

theorem fresh_getOrMake {n : Nat} (h : c.Fresh n) (domain : String) :
    (c.getOrMake domain).2.Fresh n := by
  cases hget : c.get domain with
  | some obj => simpa [Client.getOrMake, hget] using h
  | none =>
      have heq : c.getOrMake domain = (c.made, c.make domain) := by
        simp [Client.getOrMake, hget, Client.make]
      rw [heq]
      refine ⟨h.1.trans (Nat.le_succ _), fun domain' obj hobj => ?_⟩
      rw [Client.get_make] at hobj
      split at hobj
      · obtain rfl := Option.some.inj hobj
        exact h.1
      · exact h.2 _ _ hobj

theorem fresh_foldl_buildCall {n : Nat} (h : c.Fresh n) (obj : Nat)
    (calls : List SharedDomain.Call) : (calls.foldl (buildCall obj) c).Fresh n := by
  induction calls generalizing c with
  | nil => exact h
  | cons call calls ih =>
      cases call with
      | add cmd node => exact ih ⟨h.1, fun domain obj' hget => h.2 domain obj' hget⟩
      | del cmd id => exact ih h

theorem fresh_foldl_buildInfo {n : Nat} (h : c.Fresh n) (infos : List NodeInfo) :
    (infos.foldl (buildInfo hasQueryDomain) c).Fresh n := by
  induction infos generalizing c with
  | nil => exact h
  | cons info infos ih =>
      apply ih
      unfold buildInfo
      split
      · exact fresh_foldl_buildCall (fresh_getOrMake h _) _ _
      · exact h

/-- **After a swap** nothing in hand can be seen. -/
theorem writes_swap {other : Fiber} (hknows : other.Knows c) (infos : List NodeInfo) :
    other.writes hasQueryDomain (swap hasQueryDomain c infos) = other.waiting hasQueryDomain := by
  have hstart : Client.Fresh c.made { c with domains := ∅ } := by
    refine ⟨le_rfl, fun domain obj hget => ?_⟩
    simp [Client.get] at hget
  have hfresh : (swap hasQueryDomain c infos).Fresh c.made := fresh_foldl_buildInfo hstart infos
  cases other with
  | working domain obj th calls tasks =>
      have hstale : (swap hasQueryDomain c infos).get domain ≠ some obj := fun hget =>
        absurd (hfresh.2 domain obj hget) (not_le.mpr hknows.1)
      simp [Fiber.writes, Fiber.inHand, hstale]
  | _ => simp [Fiber.writes, Fiber.inHand]

theorem get_getOrMake (hobj : obj < c.made) (domain domain' : String) :
    (c.getOrMake domain').2.get domain = some obj ↔ c.get domain = some obj := by
  cases hget : c.get domain' with
  | some obj' => simp [Client.getOrMake, hget]
  | none =>
      have heq : c.getOrMake domain' = (c.made, c.make domain') := by
        simp [Client.getOrMake, hget, Client.make]
      rw [heq, Client.get_make]
      by_cases hdomain : domain = domain'
      · simp [hdomain, hget, hobj.ne']
      · simp [hdomain]

/-- **Other sections** leave to the others what they had to do. -/
theorem writes_other {other : Fiber} (hknows : other.Knows c)
    (hswap : ∀ infos, fiber ≠ .swapping infos)
    (h : next hasQueryDomain c fiber = some (c', fiber')) :
    other.writes hasQueryDomain c' = other.writes hasQueryDomain c := by
  have hget : ∀ domain obj, obj < c.made →
      (c'.get domain = some obj ↔ c.get domain = some obj) := by
    intro domain obj hobj
    cases fiber with
    | swapping infos => exact absurd rfl (hswap infos)
    | notify tasks =>
        cases tasks with
        | nil =>
            cases h
            exact Iff.rfl
        | cons task tasks =>
            simp only [next] at h
            split at h
            · split at h
              · cases h
                exact get_getOrMake hobj _ _
              · split at h <;> cases h <;> exact Iff.rfl
            · cases h
              exact Iff.rfl
    | working domain obj th calls tasks =>
        simp only [next] at h
        split at h
        · cases h
          exact Iff.rfl
        · split at h <;> cases h <;> exact Iff.rfl
    | returned => cases h
  cases other with
  | working domain obj th calls tasks =>
      simp [Fiber.writes, Fiber.inHand, hget domain obj hknows.1]
  | _ => simp [Fiber.writes, Fiber.inHand]

/-! ## What a section does to the view -/

section View

variable {cmd : UInt32} {ns : Nat} {id : UInt64} {value : Option NSNode} {k : Key}

@[simp] theorem write_self (c : Client) (obj : Nat) : c.write obj (c.objects obj).2 = c := by
  simp [Client.write]

/-- Nothing is listed for a command any more. -/
theorem view_emptied (hsound : c.Sound) (hget : c.get domain = some obj)
    (hfind : ∀ cmd' id, d'.find cmd' id =
      if cmd' = cmd then none else (c.objects obj).2.find cmd' id)
    (heff : k.1 = domain → k.2.1 = cmd → c.view k = none) :
    (c.write obj d').view k = c.view k := by
  rw [Client.view_write hsound hget, hfind]
  by_cases hdomain : k.1 = domain
  · by_cases hcmd : k.2.1 = cmd
    · simp [hdomain, hcmd, heff hdomain hcmd]
    · simp [hdomain, hcmd, Client.view, hget]
  · simp [hdomain]

/-- A node is written in a set. -/
theorem view_written (hsound : c.Sound) (hget : c.get domain = some obj)
    (hfind : ∀ cmd' id', d'.find cmd' id' =
      if (cmd' = cmd ∧ id' = id) ∧ (c.objects obj).2.get cmd = some ns then value
      else (c.objects obj).2.find cmd' id')
    (heff : k = (domain, cmd, id) → (c.objects obj).2.get cmd = some ns ∨ c.view k = value) :
    (c.write obj d').view k = replay [.put (domain, cmd, id) value] c.view k := by
  obtain ⟨domain', cmd', id'⟩ := k
  rw [Client.view_write hsound hget, hfind, replay_cons, replay_nil, apply, Function.update_apply]
  by_cases hkey : (domain', cmd', id') = (domain, cmd, id)
  · obtain ⟨rfl, rfl, rfl⟩ : domain' = domain ∧ cmd' = cmd ∧ id' = id := by simpa using hkey
    rcases heff rfl with hset | hvalue
    · simp [hset]
    · have hfound : (c.objects obj).2.find cmd' id' = value := by
        simpa [Client.view, hget] using hvalue
      simp [hfound]
  · rw [if_neg hkey]
    by_cases hdomain : domain' = domain
    · have hother : ¬ (cmd' = cmd ∧ id' = id) := by simpa [hdomain] using hkey
      simp [hdomain, hother, Client.view, hget]
    · simp [hdomain]

/-- **A section of a call** does to a key what is due. -/
theorem view_phase (hsound : c.Sound) (hname : (c.objects obj).1 = domain)
    (hth : th.Knows (c.objects obj).2) {calls : List SharedDomain.Call} {tasks : List Task}
    (heff : (Fiber.working domain obj th calls tasks).Effective c k)
    (hnext : SharedDomain.code.next (c.objects obj).2 () th = some (d', th')) :
    (c.write obj d').view k = replay
      ((Fiber.working domain obj th calls tasks).due hasQueryDomain c) c.view k := by
  by_cases hget : c.get domain = some obj
  · have hstored := hsound.stored obj
    replace heff := heff hget
    simp only [Fiber.due, hget, if_true]
    cases th with
    | add cmd node | testing cmd ns node =>
        simp only [SharedDomain.code] at hnext
        split at hnext <;> cases hnext <;> simp [phaseDue]
    | del cmd id =>
        simp only [SharedDomain.code] at hnext
        split at hnext
        · next hset =>
            cases hnext
            have hnone : c.view (domain, cmd, id) = none := by
              simp [Client.view, hget, SharedDomain.Store.find, hset]
            simp [phaseDue, hset, apply, ← hnone]
        · next hset =>
            cases hnext
            simp [phaseDue, hset]
    | making cmd node =>
        cases hnext
        exact view_emptied hsound hget (fun _ _ => SharedDomain.find_make hstored) heff
    | dropping cmd node =>
        cases hnext
        exact view_emptied hsound hget (fun _ _ => SharedDomain.find_drop) heff
    | adding cmd ns node =>
        cases hnext
        exact view_written hsound hget (fun _ _ => SharedDomain.find_addTo hstored hth) heff
    | deleting cmd ns id =>
        cases hnext
        exact view_written hsound hget (fun _ _ => SharedDomain.find_delFrom hstored hth) heff
    | returned node => cases hnext
  · simp [Fiber.due, hget, Client.view_write_stale hsound hname hget]

end View

theorem getOrMake_view (hsound : c.Sound) (domain : String) :
    (c.getOrMake domain).2.view = c.view :=
  (Client.getOrMake_spec hsound domain).2.2.2

/-- The nodes of a domain that is not there need not be deleted. -/
theorem replay_absent {task : Task} (hupdate : task.update = false)
    (hget : c.get task.info.domain = none) :
    replay (task.writes hasQueryDomain) c.view = c.view := by
  apply replay_idle
  intro w hw
  obtain ⟨node, -, rfl⟩ : ∃ node ∈ task.info.nodes,
      Write.put (task.info.domain, task.info.cmd, node.id) none = w := by
    unfold Task.writes at hw
    split at hw
    · simpa [Task.calls, hupdate, callWrite] using hw
    · cases hw
  have hnone : c.view (task.info.domain, task.info.cmd, node.id) = none := by
    simp [Client.view, hget]
  simp [apply, ← hnone]

/-- **A section** does to a key what is due. -/
theorem view_next {k : Key} (hsound : c.Sound) (hknows : fiber.Knows c)
    (heff : fiber.Effective c k) (h : next hasQueryDomain c fiber = some (c', fiber')) :
    c'.view k = replay (fiber.due hasQueryDomain c) c.view k := by
  cases fiber with
  | swapping infos =>
      cases h
      rw [(swap_builds hasQueryDomain hsound infos).view, Fiber.due]
  | notify tasks =>
      cases tasks with
      | nil =>
          cases h
          simp [Fiber.due]
      | cons task tasks =>
          simp only [next] at h
          split at h
          · split at h
            · next hupdate =>
                cases h
                simp [Fiber.due, hupdate, getOrMake_view hsound]
            · next hupdate =>
                split at h
                · next hget =>
                    cases h
                    simp [Fiber.due, hupdate, hget, replay_absent]
                · next obj hget =>
                    cases h
                    simp [Fiber.due, hget]
          · next hquery =>
              cases h
              simp [Fiber.due, Task.writes, hquery]
  | working domain obj th calls tasks =>
      obtain ⟨-, hname, hth⟩ := hknows
      simp only [next] at h
      split at h
      · next d' th' hnext =>
          cases h
          exact view_phase hsound hname hth heff hnext
      · next hnext =>
          obtain ⟨info, rfl⟩ := eq_returned hnext
          split at h <;> cases h <;> simp [Fiber.due, phaseDue]
  | returned => cases h

end Next

end NSClient
end Ns
end Routn
