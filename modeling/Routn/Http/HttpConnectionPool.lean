import Mathlib.Data.List.TakeWhile
import Routn.Foundation.Transition

/-!
# `HttpConnectionPool`

`getConnection` takes the connections off the list up to the first one it keeps, and `ReleasePtr`
puts a connection back or destroys it.  Both ask for the age of a connection by `_create_time`,
which no constructor and no other code sets, and with a comparison that goes the other way.

The calls are taken one after the other here.  `created` and `uses` are not members: they say when
an object was made and how often it was released.
-/

namespace Routn
namespace Http

/-- The members of an `HttpConnection` that are the pool's own. -/
structure Conn where
  create_time : UInt64 := 0
  request_count : UInt64 := 0
deriving DecidableEq, Repr

/-- The pool; a connection is named by the address of its object. -/
structure HttpConnectionPool where
  maxAliveTime : UInt32
  maxRequest : UInt32
  conns : List Nat := []
  total : Int32 := 0
deriving DecidableEq, Repr

namespace HttpConnectionPool

/-- The tests of `getConnection`. -/
def discards (pool : HttpConnectionPool) (c : Conn) (connected : Bool) (now : UInt64) : Bool :=
  !connected || c.create_time + pool.maxAliveTime.toUInt64 > now

/-- The loop of `getConnection` over `_conns`: the invalid connections, the one that is kept and
what is left of the list. -/
def popLoop (pool : HttpConnectionPool) (objects : Nat → Conn) (connected : Nat → Bool)
    (now : UInt64) : List Nat → List Nat × Option Nat × List Nat
  | [] => ([], none, [])
  | conn :: conns =>
      if pool.discards (objects conn) (connected conn) now then
        let (invalid, ptr, rest) := popLoop pool objects connected now conns
        (conn :: invalid, ptr, rest)
      else ([], some conn, conns)

/-- The test of `ReleasePtr`, behind `++ptr->_request_count`. -/
def destroys (pool : HttpConnectionPool) (c : Conn) (connected : Bool) (now : UInt64) : Bool :=
  !connected || c.create_time + pool.maxAliveTime.toUInt64 ≥ now ||
    c.request_count ≥ pool.maxRequest.toUInt64

/-! ## Calls one after the other -/

structure State where
  pool : HttpConnectionPool
  objects : Nat → Conn := fun _ => {}
  handedOut : List Nat := []
  clock : UInt64 := 0
  /-- When the object was made. -/
  created : Nat → UInt64 := fun _ => 0
  /-- How often the object was released. -/
  uses : Nat → Nat := fun _ => 0

inductive Op
  /-- `made` is the address of the new object and the time after the connect. -/
  | getConnection (now : UInt64) (connected : Nat → Bool) (made : Option (Nat × UInt64))
  | release (ptr : Nat) (now : UInt64) (connected : Bool)

/-- What a call did: the pooled connection that it returned, and those that it deleted. -/
structure Outcome where
  reused : Option Nat := none
  destroyed : List Nat := []
deriving DecidableEq, Repr

namespace State

def getConnection (s : State) (now : UInt64) (connected : Nat → Bool)
    (made : Option (Nat × UInt64)) : Outcome × State :=
  let (invalid, ptr, conns) := s.pool.popLoop s.objects connected now s.pool.conns
  let pool := { s.pool with conns, total := s.pool.total - Int32.ofNat invalid.length }
  match ptr, made with
  | some ptr, _ =>
      (⟨some ptr, invalid⟩, { s with pool, handedOut := ptr :: s.handedOut, clock := now })
  | none, some (new, time) =>
      (⟨none, invalid⟩, { s with
        pool := { pool with total := pool.total + 1 }
        objects := Function.update s.objects new {}
        handedOut := new :: s.handedOut
        clock := time
        created := Function.update s.created new time
        uses := Function.update s.uses new 0 })
  | none, none => (⟨none, invalid⟩, { s with pool, clock := now })

def ReleasePtr (s : State) (ptr : Nat) (now : UInt64) (connected : Bool) : Outcome × State :=
  let c := { s.objects ptr with request_count := (s.objects ptr).request_count + 1 }
  let s := { s with
    objects := Function.update s.objects ptr c
    handedOut := s.handedOut.erase ptr
    clock := now
    uses := Function.update s.uses ptr (s.uses ptr + 1) }
  if s.pool.destroys c connected now then
    (⟨none, [ptr]⟩, { s with pool := { s.pool with total := s.pool.total - 1 } })
  else (⟨none, []⟩, { s with pool := { s.pool with conns := s.pool.conns ++ [ptr] } })

def step (s : State) : Op → Option (Outcome × State)
  | .getConnection now connected made => some (s.getConnection now connected made)
  | .release ptr now connected => some (s.ReleasePtr ptr now connected)

/-- The clock does not go back, a new object has an address of its own, and what is released has
been handed out. -/
def legal (s : State) : Op → Prop
  | .getConnection now _ made => s.clock ≤ now ∧
      ∀ object ∈ made, now ≤ object.2 ∧ object.1 ∉ s.pool.conns ++ s.handedOut
  | .release ptr now _ => s.clock ≤ now ∧ ptr ∈ s.handedOut

instance decidableLegal (s : State) : ∀ op, Decidable (s.legal op)
  | .getConnection now _ made => inferInstanceAs (Decidable (s.clock ≤ now ∧
      ∀ object ∈ made, now ≤ object.2 ∧ object.1 ∉ s.pool.conns ++ s.handedOut))
  | .release ptr now _ => inferInstanceAs (Decidable (s.clock ≤ now ∧ ptr ∈ s.handedOut))

/-- The age of an object. -/
def age (s : State) (now : UInt64) (conn : Nat) : Nat := now.toNat - (s.created conn).toNat

end State

/-! ## What the calls ought to do -/

/-- A pooled connection that is returned can be used, and one that is deleted cannot. -/
def Right (s : State) : Op → Outcome → State → Prop
  | .getConnection now connected _, o, _ =>
      (∀ conn ∈ o.reused, connected conn ∧ s.age now conn < s.pool.maxAliveTime.toNat ∧
        s.uses conn < s.pool.maxRequest.toNat) ∧
      ∀ conn ∈ o.destroyed, connected conn = false ∨
        s.pool.maxAliveTime.toNat ≤ s.age now conn ∨ s.pool.maxRequest.toNat ≤ s.uses conn
  | .release _ now connected, o, s' =>
      ∀ conn ∈ o.destroyed, connected = false ∨
        s.pool.maxAliveTime.toNat ≤ s.age now conn ∨ s.pool.maxRequest.toNat ≤ s'.uses conn

/-- When they do so. -/
def Meets (s : State) : Op → Prop
  | .getConnection now connected _ => ∀ conn, s.pool.conns.find? connected = some conn →
      s.pool.maxAliveTime.toNat ≤ now.toNat ∧ s.age now conn < s.pool.maxAliveTime.toNat
  | .release ptr now connected => s.pool.maxAliveTime.toNat < now.toNat ∨ connected = false ∨
      s.pool.maxAliveTime.toNat ≤ s.age now ptr ∨ s.pool.maxRequest.toNat ≤ s.uses ptr + 1

/-! ## The invariant -/

/-- An object that is pooled or handed out: its time of creation is still zero. -/
structure Tracks (s : State) (conn : Nat) : Prop where
  create_time : (s.objects conn).create_time = 0
  request_count : (s.objects conn).request_count.toNat = s.uses conn
  bounded : s.uses conn < 2 ^ 32
  created : s.created conn ≤ s.clock

structure Inv (s : State) : Prop where
  nodup : (s.pool.conns ++ s.handedOut).Nodup
  tracks : ∀ conn ∈ s.pool.conns ++ s.handedOut, Tracks s conn
  pooled : ∀ conn ∈ s.pool.conns, s.uses conn < s.pool.maxRequest.toNat

section

variable {s : State} {pool : HttpConnectionPool} {objects : Nat → Conn} {connected : Nat → Bool}
  {now : UInt64}

/-- The sum of the age tests is the bound itself. -/
theorem toNat_sum (pool : HttpConnectionPool) {c : Conn} (h : c.create_time = 0) :
    (c.create_time + pool.maxAliveTime.toUInt64).toNat = pool.maxAliveTime.toNat := by
  simp [h]

/-- The loop when the clock has not reached the bound. -/
theorem popLoop_early {conns : List Nat} (hzero : ∀ conn ∈ conns, (objects conn).create_time = 0)
    (hearly : now.toNat < pool.maxAliveTime.toNat) :
    pool.popLoop objects connected now conns = (conns, none, []) := by
  induction conns with
  | nil => rfl
  | cons conn conns ih =>
      have hsum := toNat_sum pool (hzero conn List.mem_cons_self)
      have hdiscards : pool.discards (objects conn) (connected conn) now = true := by
        rw [discards, Bool.or_eq_true, decide_eq_true_eq, gt_iff_lt, UInt64.lt_iff_toNat_lt, hsum]
        exact Or.inr hearly
      rw [popLoop, if_pos hdiscards, ih fun c hc => hzero c (List.mem_cons_of_mem _ hc)]

/-- The loop when the clock has reached it. -/
theorem popLoop_late {conns : List Nat} (hzero : ∀ conn ∈ conns, (objects conn).create_time = 0)
    (hlate : pool.maxAliveTime.toNat ≤ now.toNat) :
    pool.popLoop objects connected now conns =
      (conns.takeWhile (!connected ·), conns.find? connected,
        (conns.dropWhile (!connected ·)).tail) := by
  induction conns with
  | nil => rfl
  | cons conn conns ih =>
      have hsum := toNat_sum pool (hzero conn List.mem_cons_self)
      have hdiscards : pool.discards (objects conn) (connected conn) now = !connected conn := by
        have hage : ¬ (objects conn).create_time + pool.maxAliveTime.toUInt64 > now := by
          rw [gt_iff_lt, UInt64.lt_iff_toNat_lt, hsum]
          exact Nat.not_lt.mpr hlate
        rw [discards, decide_eq_false hage, Bool.or_false]
      rw [popLoop, hdiscards, ih fun c hc => hzero c (List.mem_cons_of_mem _ hc)]
      cases hconn : connected conn with
      | true => simp [hconn]
      | false => simp [hconn]

/-- Nothing is lost from the list. -/
theorem popLoop_append (pool : HttpConnectionPool) (objects : Nat → Conn)
    (connected : Nat → Bool) (now : UInt64) (conns : List Nat) :
    (pool.popLoop objects connected now conns).1 ++
      ((pool.popLoop objects connected now conns).2.1.toList ++
        (pool.popLoop objects connected now conns).2.2) = conns := by
  induction conns with
  | nil => rfl
  | cons conn conns ih =>
      rw [popLoop]
      split
      · simp [ih]
      · simp

theorem getConnection_outcome (s : State) (now : UInt64) (connected : Nat → Bool)
    (made : Option (Nat × UInt64)) :
    (s.getConnection now connected made).1 =
      ⟨(s.pool.popLoop s.objects connected now s.pool.conns).2.1,
        (s.pool.popLoop s.objects connected now s.pool.conns).1⟩ := by
  rw [State.getConnection]
  rcases s.pool.popLoop s.objects connected now s.pool.conns with ⟨invalid, ptr, conns⟩
  rcases ptr with _ | ptr
  · rcases made with _ | ⟨new, time⟩ <;> rfl
  · rfl

/-! ## One call -/

theorem Inv.zero (h : Inv s) : ∀ conn ∈ s.pool.conns, (s.objects conn).create_time = 0 :=
  fun conn hconn => (h.tracks conn (List.mem_append_left _ hconn)).create_time

theorem age_le (s : State) (now : UInt64) (conn : Nat) : s.age now conn ≤ now.toNat :=
  Nat.sub_le _ _

theorem right_getConnection_iff (h : Inv s) (made : Option (Nat × UInt64)) (s' : State) :
    Right s (.getConnection now connected made) (s.getConnection now connected made).1 s' ↔
      Meets s (.getConnection now connected made) := by
  rw [getConnection_outcome, Right, Meets]
  by_cases hlate : s.pool.maxAliveTime.toNat ≤ now.toNat
  · rw [popLoop_late h.zero hlate]
    constructor
    · intro hright conn hfind
      exact ⟨hlate, (hright.1 conn hfind).2.1⟩
    · intro hmeets
      constructor
      · intro conn hfind
        exact ⟨List.find?_some hfind, (hmeets conn hfind).2,
          h.pooled conn (List.mem_of_find?_eq_some hfind)⟩
      · intro conn hconn
        have hnot := List.mem_takeWhile_imp hconn
        exact Or.inl (by simpa using hnot)
  · rw [popLoop_early h.zero (Nat.not_le.mp hlate)]
    constructor
    · intro hright conn hfind
      have hmem := List.mem_of_find?_eq_some hfind
      have hconnected := List.find?_some hfind
      have hpooled := h.pooled conn hmem
      have hage := age_le s now conn
      rcases hright.2 conn hmem with hnot | hold | hused
      · rw [hconnected] at hnot
        contradiction
      · omega
      · omega
    · intro hmeets
      refine ⟨fun conn hconn => (by contradiction), fun conn hconn => Or.inl ?_⟩
      cases hfind : s.pool.conns.find? connected with
      | none => simpa using List.find?_eq_none.mp hfind conn hconn
      | some first => exact absurd (hmeets first hfind).1 hlate

/-- What a release does to the object. -/
def released (c : Conn) : Conn := { c with request_count := c.request_count + 1 }

theorem toNat_released {conn : Nat} (h : Tracks s conn) :
    (released (s.objects conn)).request_count.toNat = s.uses conn + 1 := by
  have hbounded := h.bounded
  rw [released, UInt64.toNat_add, h.request_count]
  change (s.uses conn + 1) % 2 ^ 64 = _
  omega

theorem Tracks.released {conn : Nat} (h : Tracks s conn) {s' : State}
    (hobjects : s'.objects conn = released (s.objects conn))
    (huses : s'.uses conn = s.uses conn + 1) (hcreated : s'.created conn = s.created conn)
    (hclock : s.clock ≤ s'.clock) (hbounded : s.uses conn + 1 < 2 ^ 32) : Tracks s' conn where
  create_time := by rw [hobjects]; exact h.create_time
  request_count := by rw [hobjects, huses, toNat_released h]
  bounded := by rw [huses]; exact hbounded
  created := by rw [hcreated]; exact UInt64.le_trans h.created hclock

theorem destroys_iff {ptr : Nat} (h : Tracks s ptr) (connected : Bool) (now : UInt64) :
    s.pool.destroys (released (s.objects ptr)) connected now = true ↔
      connected = false ∨ now.toNat ≤ s.pool.maxAliveTime.toNat ∨
        s.pool.maxRequest.toNat ≤ s.uses ptr + 1 := by
  have hsum := toNat_sum s.pool (c := released (s.objects ptr)) h.create_time
  have hcount := toNat_released h
  rw [destroys, Bool.or_eq_true, Bool.or_eq_true, decide_eq_true_eq, decide_eq_true_eq, ge_iff_le,
    ge_iff_le, UInt64.le_iff_toNat_le, UInt64.le_iff_toNat_le, hsum, hcount,
    UInt32.toNat_toUInt64, or_assoc, Bool.not_eq_true']

theorem ReleasePtr_destroyed (s : State) (ptr : Nat) (now : UInt64) (connected : Bool) :
    (s.ReleasePtr ptr now connected).1.destroyed =
      if s.pool.destroys (released (s.objects ptr)) connected now then [ptr] else [] := by
  rw [State.ReleasePtr]
  change (if s.pool.destroys (released (s.objects ptr)) connected now then _ else _ :
    Outcome × State).1.destroyed = _
  split <;> rfl

theorem ReleasePtr_uses (s : State) (ptr : Nat) (now : UInt64) (connected : Bool) :
    (s.ReleasePtr ptr now connected).2.uses ptr = s.uses ptr + 1 := by
  rw [State.ReleasePtr]
  split <;> exact Function.update_self ..

theorem right_release_iff {ptr : Nat} (h : Tracks s ptr) (connected : Bool) :
    Right s (.release ptr now connected) (s.ReleasePtr ptr now connected).1
      (s.ReleasePtr ptr now connected).2 ↔ Meets s (.release ptr now connected) := by
  have hdestroys := destroys_iff h connected now
  rw [Right, Meets, ReleasePtr_destroyed]
  by_cases hgone : s.pool.destroys (released (s.objects ptr)) connected now = true
  · rw [if_pos hgone]
    simp only [List.mem_singleton, forall_eq, ReleasePtr_uses]
    constructor
    · exact Or.inr
    · rintro (hlate | hrest)
      · rcases hdestroys.mp hgone with hnot | hearly | hused
        · exact Or.inl hnot
        · exact absurd hearly (Nat.not_le.mpr hlate)
        · exact Or.inr (Or.inr hused)
      · exact hrest
  · rw [if_neg hgone]
    refine iff_of_true (fun conn hconn => (by contradiction)) (Or.inl ?_)
    exact Nat.not_le.mp fun hearly => hgone (hdestroys.mpr (Or.inr (Or.inl hearly)))

/-! ## The calls keep the invariant -/

theorem Tracks.later {conn : Nat} (h : Tracks s conn) {s' : State}
    (hobjects : s'.objects conn = s.objects conn) (huses : s'.uses conn = s.uses conn)
    (hcreated : s'.created conn = s.created conn) (hclock : s.clock ≤ s'.clock) :
    Tracks s' conn where
  create_time := by rw [hobjects, h.create_time]
  request_count := by rw [hobjects, huses, h.request_count]
  bounded := by rw [huses]; exact h.bounded
  created := by rw [hcreated]; exact UInt64.le_trans h.created hclock

/-- Connections leave the list, and time passes. -/
theorem Inv.taken (h : Inv s) (hclock : s.clock ≤ now) {conns out : List Nat} (total : Int32)
    (hperm : (conns ++ out).Subperm (s.pool.conns ++ s.handedOut))
    (hsub : conns ⊆ s.pool.conns) :
    Inv { s with pool := { s.pool with conns, total }, handedOut := out, clock := now } where
  nodup := by
    obtain ⟨l, hl, hsublist⟩ := hperm
    exact hl.nodup_iff.mp (h.nodup.sublist hsublist)
  tracks := fun conn hconn => (h.tracks conn (hperm.subset hconn)).later rfl rfl rfl hclock
  pooled := fun conn hconn => h.pooled conn (hsub hconn)

/-- A new object is handed out. -/
theorem Inv.made (h : Inv s) {new : Nat} {time : UInt64} (hnew : new ∉ s.pool.conns ++ s.handedOut)
    (htime : s.clock ≤ time) (total : Int32) :
    Inv { s with
      pool := { s.pool with total }
      objects := Function.update s.objects new {}
      handedOut := new :: s.handedOut
      clock := time
      created := Function.update s.created new time
      uses := Function.update s.uses new 0 } where
  nodup := by
    rw [List.perm_middle.nodup_iff]
    exact List.nodup_cons.mpr ⟨hnew, h.nodup⟩
  tracks := by
    intro conn hconn
    by_cases heq : conn = new
    · subst heq
      constructor <;> simp
    · have hold : conn ∈ s.pool.conns ++ s.handedOut := by
        rcases List.mem_cons.mp (List.perm_middle.mem_iff.mp hconn) with hfirst | hrest
        · exact absurd hfirst heq
        · exact hrest
      exact (h.tracks conn hold).later (Function.update_of_ne heq ..)
        (Function.update_of_ne heq ..) (Function.update_of_ne heq ..) htime
  pooled := by
    intro conn hconn
    have hne : conn ≠ new := fun heq => hnew (List.mem_append_left _ (heq ▸ hconn))
    have huses := Function.update_of_ne hne 0 s.uses
    exact huses.trans_lt (h.pooled conn hconn)

theorem Inv.getConnection (h : Inv s) {made : Option (Nat × UInt64)}
    (hlegal : s.legal (.getConnection now connected made)) :
    Inv (s.getConnection now connected made).2 := by
  obtain ⟨hclock, hmade⟩ := hlegal
  have hsplit := popLoop_append s.pool s.objects connected now s.pool.conns
  rw [State.getConnection]
  rcases hpop : s.pool.popLoop s.objects connected now s.pool.conns with ⟨invalid, ptr, rest⟩
  rw [hpop] at hsplit
  cases ptr with
  | some ptr =>
      change invalid ++ (ptr :: rest) = s.pool.conns at hsplit
      have hsub : rest ⊆ s.pool.conns := by
        rw [← hsplit]
        exact fun c hc => List.mem_append_right _ (List.mem_cons_of_mem _ hc)
      have hperm : (rest ++ ptr :: s.handedOut).Subperm (s.pool.conns ++ s.handedOut) := by
        refine List.perm_middle.subperm.trans ?_
        rw [← hsplit, List.append_assoc]
        exact (List.sublist_append_right invalid _).subperm
      exact h.taken hclock _ hperm hsub
  | none =>
      change invalid ++ rest = s.pool.conns at hsplit
      have hsublist : rest.Sublist s.pool.conns := hsplit ▸ List.sublist_append_right invalid rest
      have hperm : (rest ++ s.handedOut).Subperm (s.pool.conns ++ s.handedOut) :=
        (hsublist.append_right s.handedOut).subperm
      have hrest := h.taken hclock (s.pool.total - Int32.ofNat invalid.length) hperm
        hsublist.subset
      cases made with
      | none => exact hrest
      | some object =>
          obtain ⟨new, time⟩ := object
          obtain ⟨htime, hnew⟩ := hmade (new, time) rfl
          exact hrest.made (fun hmem => hnew (hperm.subset hmem)) htime _

theorem Inv.release (h : Inv s) {ptr : Nat} {connected : Bool}
    (hlegal : s.legal (.release ptr now connected)) :
    Inv (s.ReleasePtr ptr now connected).2 := by
  obtain ⟨hclock, hptr⟩ := hlegal
  have htracks := h.tracks ptr (List.mem_append_right _ hptr)
  have hperm : (s.pool.conns ++ s.handedOut).Perm
      (ptr :: (s.pool.conns ++ s.handedOut.erase ptr)) :=
    ((List.perm_cons_erase hptr).append_left _).trans List.perm_middle
  obtain ⟨hother, hnodup⟩ := List.nodup_cons.mp (hperm.nodup_iff.mp h.nodup)
  have hrest : ∀ conn ∈ s.pool.conns ++ s.handedOut.erase ptr, conn ≠ ptr := fun conn hconn heq =>
    hother (heq ▸ hconn)
  have hkept : ∀ conn ∈ s.pool.conns ++ s.handedOut.erase ptr,
      Tracks s conn := fun conn hconn =>
    h.tracks conn (hperm.mem_iff.mpr (List.mem_cons_of_mem _ hconn))
  have hpooled : ∀ conn ∈ s.pool.conns,
      Function.update s.uses ptr (s.uses ptr + 1) conn < s.pool.maxRequest.toNat := by
    intro conn hconn
    rw [Function.update_of_ne (hrest conn (List.mem_append_left _ hconn))]
    exact h.pooled conn hconn
  rw [State.ReleasePtr]
  change Inv (if s.pool.destroys (released (s.objects ptr)) connected now then _ else _ :
    Outcome × State).2
  split
  · refine ⟨hnodup, fun conn hconn => ?_, hpooled⟩
    have hne := hrest conn hconn
    exact (hkept conn hconn).later (Function.update_of_ne hne ..)
      (Function.update_of_ne hne ..) rfl hclock
  · rename_i hstays
    have hused : s.uses ptr + 1 < s.pool.maxRequest.toNat :=
      Nat.not_le.mp fun hused => hstays ((destroys_iff htracks connected _).mpr
        (Or.inr (Or.inr hused)))
    have hback : (s.pool.conns ++ [ptr] ++ s.handedOut.erase ptr).Perm
        (ptr :: (s.pool.conns ++ s.handedOut.erase ptr)) := by
      rw [List.append_assoc]
      exact List.perm_middle
    refine ⟨hback.nodup_iff.mpr (List.nodup_cons.mpr ⟨hother, hnodup⟩), fun conn hconn => ?_,
      fun conn hconn => ?_⟩
    · rcases List.mem_cons.mp (hback.mem_iff.mp hconn) with rfl | hconn
      · have hlimit := s.pool.maxRequest.toNat_lt
        exact htracks.released (Function.update_self conn (released (s.objects conn)) s.objects)
          (Function.update_self conn (s.uses conn + 1) s.uses) rfl hclock (hused.trans hlimit)
      · have hne := hrest conn hconn
        exact (hkept conn hconn).later (Function.update_of_ne hne ..)
          (Function.update_of_ne hne ..) rfl hclock
    · rcases List.mem_append.mp hconn with hconn | hlast
      · exact hpooled conn hconn
      · rw [List.mem_singleton.mp hlast]
        have huses := Function.update_self ptr (s.uses ptr + 1) s.uses
        exact huses.trans_lt hused

end

/-! ## Histories -/

/-- A pool without connections. -/
def start (maxAliveTime maxRequest : UInt32) : State where
  pool := { maxAliveTime, maxRequest }

theorem usable_iff (maxAliveTime maxRequest : UInt32) (ops : List Op) :
    Foundation.runKeeps State.step State.legal (fun _ => True) Right ops
        (start maxAliveTime maxRequest) ↔
      Foundation.runObserves State.step State.legal Meets ops (start maxAliveTime maxRequest) := by
  have hstart : Inv (start maxAliveTime maxRequest) :=
    ⟨List.nodup_nil, fun _ hconn => absurd hconn List.not_mem_nil,
      fun _ hconn => absurd hconn List.not_mem_nil⟩
  have hinv : ∀ {s op}, Inv s → s.legal op → ∃ o s', s.step op = some (o, s') ∧ Inv s' ∧
      (Right s op o s' ↔ Meets s op) := by
    intro s op h hlegal
    cases op with
    | getConnection now connected made =>
        exact ⟨_, _, rfl, h.getConnection hlegal, right_getConnection_iff h made _⟩
    | release ptr now connected =>
        exact ⟨_, _, rfl, h.release hlegal,
          right_release_iff (h.tracks ptr (List.mem_append_right _ hlegal.2)) connected⟩
  refine Foundation.runKeeps_iff (J := Inv) (fun _ => trivial) ?_ ?_ ops hstart
  · intro s op h hlegal hmeets
    obtain ⟨o, s', hstep, hinv', hright⟩ := hinv h hlegal
    exact ⟨o, s', hstep, hright.mpr hmeets, hinv'⟩
  · intro s op o s' h hlegal hnot hstep hgood
    obtain ⟨o', s'', hstep', -, hright⟩ := hinv h hlegal
    obtain ⟨rfl, rfl⟩ := Prod.mk.inj (Option.some.inj (hstep.symm.trans hstep'))
    exact hnot (hright.mp hgood)

/-- A connection that is made at 5000 and released at once is returned at 10000, though it may live
for a second only. -/
theorem not_usable_tooOld :
    ¬ Foundation.runKeeps State.step State.legal (fun _ => True) Right
      [.getConnection 5000 (fun _ => true) (some (0, 5000)), .release 0 5000 true,
        .getConnection 10000 (fun _ => true) none] (start 1000 10) := by
  intro h
  have hthird := (Foundation.runKeeps_tail (Foundation.runKeeps_tail h (by decide) rfl).2
    (by decide) rfl).2
  have hright := (Foundation.runKeeps_tail hthird (by decide) rfl).1
  exact absurd (hright.1 0 rfl).2.1 (by decide)

end HttpConnectionPool
end Http
end Routn
