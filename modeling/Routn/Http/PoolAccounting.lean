import Routn.Foundation.Sections
import Routn.Http.HttpConnectionPool

/-!
# Who holds the connections of a pool

Any number of threads call `getConnection`, use what they got and drop it.  A section is what a
thread does under the mutex, one change of `_total`, one `delete` or one `new`; between any two of
them the other threads go on.

An object that is there is on the list of the pool, in the hands of a user or in those of a call
that is not over.  A `delete` or a use of an object that is not there would be recorded as a fault.
A connect that fails stands for all of the ways in which `getConnection` returns `nullptr`.
-/

namespace Routn
namespace Http
namespace HttpConnectionPool

open Foundation Code

structure Store where
  pool : HttpConnectionPool
  objects : Nat → Conn := fun _ => {}
  /-- The objects that have been made and not been deleted. -/
  live : List Nat := []
  /-- The objects that users have a `shared_ptr` to. -/
  users : List Nat := []
  /-- Some object was used or deleted that is not there. -/
  fault : Bool := false

namespace Store

/-- The objects are used. -/
def touch (s : Store) (conns : List Nat) : Store :=
  { s with fault := s.fault || conns.any (· ∉ s.live) }

def delete (s : Store) (conn : Nat) : Store :=
  { s.touch [conn] with live := s.live.erase conn }

def addTotal (s : Store) (n : Int) : Store :=
  { s with pool := { s.pool with total := s.pool.total + Int32.ofInt n } }

end Store

inductive Call
  | getConnection
  | use
  | release
deriving DecidableEq, Repr

inductive Phase
  | getConnection
  /-- The loop over `invalid_conns`, which has had `size` elements. -/
  | discarding (invalid : List Nat) (size : Nat) (ptr : Option Nat)
  | connecting
  /-- In front of `++_total`. -/
  | counting (ptr : Nat)
  | returning (ptr : Nat)
  | use
  /-- The last `shared_ptr` goes. -/
  | release
  | ReleasePtr (ptr : Nat)
  | deleting (ptr : Nat)
  /-- In front of `--pool->_total`. -/
  | discounting
  /-- In front of the lock. -/
  | pushing (ptr : Nat)
  | returned
deriving DecidableEq, Repr

/-- What the environment decides: the time, which sockets are connected, the address of a new object
or that the connect fails, and the object that a user is about to use or to drop. -/
structure Env where
  now : UInt64
  connected : Nat → Bool
  made : Option Nat
  ptr : Nat

def code : Code Store Env Call Phase where
  enter
    | .getConnection => .getConnection
    | .use => .use
    | .release => .release
  next s env
    | .getConnection =>
        let (invalid, ptr, conns) := s.pool.popLoop s.objects env.connected env.now s.pool.conns
        let s := s.touch (invalid ++ ptr.toList)
        some ({ s with pool := { s.pool with conns } }, .discarding invalid invalid.length ptr)
    | .discarding (conn :: invalid) size ptr => some (s.delete conn, .discarding invalid size ptr)
    | .discarding [] size (some ptr) => some (s.addTotal (-size), .returning ptr)
    | .discarding [] size none => some (s.addTotal (-size), .connecting)
    | .connecting =>
        match env.made with
        | none => some (s, .returned)
        | some new =>
            if new ∈ s.live then none
            else some ({ s with
              objects := Function.update s.objects new {}
              live := new :: s.live }, .counting new)
    | .counting ptr => some (s.addTotal 1, .returning ptr)
    | .returning ptr => some ({ s with users := ptr :: s.users }, .returned)
    | .use => if env.ptr ∈ s.users then some (s.touch [env.ptr], .returned) else none
    | .release =>
        if env.ptr ∈ s.users then
          some ({ s with users := s.users.erase env.ptr }, .ReleasePtr env.ptr)
        else none
    | .ReleasePtr ptr =>
        let c := { s.objects ptr with request_count := (s.objects ptr).request_count + 1 }
        let s := { s.touch [ptr] with objects := Function.update s.objects ptr c }
        if s.pool.destroys c (env.connected ptr) env.now then some (s, .deleting ptr)
        else some (s, .pushing ptr)
    | .deleting ptr => some (s.delete ptr, .discounting)
    | .discounting => some (s.addTotal (-1), .returned)
    | .pushing ptr =>
        some ({ s with pool := { s.pool with conns := s.pool.conns ++ [ptr] } }, .returned)
    | .returned => none

/-! ## The accounts -/

namespace Phase

/-- The objects in the hands of a call. -/
def hand : Phase → List Nat
  | .discarding invalid _ ptr => invalid ++ ptr.toList
  | .counting ptr | .returning ptr | .ReleasePtr ptr | .deleting ptr | .pushing ptr => [ptr]
  | _ => []

/-- By how much `_total` is above the number of objects as long as the call is not over. -/
def excess : Phase → Int
  | .discarding invalid size _ => size - invalid.length
  | .counting _ => -1
  | .discounting => 1
  | _ => 0

end Phase

/-- The handed-out set: what users hold, and what is in the hands of calls. -/
def handedOut (s : Code.State Store Phase) : List Nat :=
  s.shared.users ++ s.threads.flatMap Phase.hand

/-- The accounts of a pool, with what is in the hands of calls and the sum of their excesses. -/
structure Accounts (s : Store) (hands : List Nat) (excess : Int) : Prop where
  fault : s.fault = false
  nodup : s.live.Nodup
  held : (s.pool.conns ++ (s.users ++ hands)).Perm s.live
  total : s.pool.total = Int32.ofInt (s.live.length + excess)

namespace Accounts

variable {s : Store} {hands : List Nat} {excess : Int}

/-- What somebody holds is there. -/
theorem mem_live (h : Accounts s hands excess) {conn : Nat}
    (hconn : conn ∈ s.pool.conns ++ (s.users ++ hands)) : conn ∈ s.live :=
  h.held.subset hconn

theorem touch_of_live {conns : List Nat} (hconns : ∀ c ∈ conns, c ∈ s.live) :
    s.touch conns = s := by
  have hnone : conns.any (· ∉ s.live) = false := by
    simpa using hconns
  rw [Store.touch, hnone, Bool.or_false]

/-- Objects change hands. -/
theorem move (h : Accounts s hands excess) {conns users hands' : List Nat}
    (hperm : (conns ++ (users ++ hands')).Perm (s.pool.conns ++ (s.users ++ hands))) :
    Accounts { s with pool := { s.pool with conns }, users } hands' excess :=
  ⟨h.fault, h.nodup, hperm.trans h.held, h.total⟩

theorem delete {conn : Nat} (h : Accounts s (conn :: hands) excess) :
    Accounts (s.delete conn) hands (excess + 1) := by
  have hfirst : (s.pool.conns ++ (s.users ++ conn :: hands)).Perm
      (conn :: (s.pool.conns ++ (s.users ++ hands))) :=
    (List.perm_middle.append_left _).trans List.perm_middle
  have hlive := h.mem_live (hfirst.mem_iff.mpr List.mem_cons_self)
  have htouch := touch_of_live (s := s) (List.forall_mem_singleton.mpr hlive)
  rw [Store.delete, htouch]
  refine ⟨h.fault, h.nodup.erase conn, ?_, ?_⟩
  · have hcons := hfirst.symm.trans (h.held.trans (List.perm_cons_erase hlive))
    exact hcons.cons_inv
  · have hlength := List.length_erase_of_mem hlive
    have hpos := List.length_pos_of_mem hlive
    refine h.total.trans (congrArg Int32.ofInt ?_)
    simp only [hlength]
    omega

theorem addTotal (h : Accounts s hands excess) (n : Int) :
    Accounts (s.addTotal n) hands (excess + n) := by
  refine ⟨h.fault, h.nodup, h.held, ?_⟩
  change s.pool.total + Int32.ofInt n = Int32.ofInt (s.live.length + (excess + n))
  rw [h.total, ← Int32.ofInt_add, Int.add_assoc]

/-- A new object is in the hands of the call that made it. -/
theorem new (h : Accounts s hands excess) {conn : Nat} (hconn : conn ∉ s.live)
    (objects : Nat → Conn) :
    Accounts { s with objects, live := conn :: s.live } (conn :: hands) (excess - 1) := by
  refine ⟨h.fault, List.nodup_cons.mpr ⟨hconn, h.nodup⟩, ?_, ?_⟩
  · exact ((List.perm_middle.append_left _).trans List.perm_middle).trans (h.held.cons conn)
  · refine h.total.trans (congrArg Int32.ofInt ?_)
    simp only [List.length_cons]
    omega

/-- `getConnection` takes from the front of the list what it looks at. -/
theorem pop {env : Env} {rest : List Nat} (h : Accounts s rest excess)
    {invalid conns : List Nat} {ptr : Option Nat}
    (hpop : s.pool.popLoop s.objects env.connected env.now s.pool.conns = (invalid, ptr, conns)) :
    s.touch (invalid ++ ptr.toList) = s ∧
      Accounts { s with pool := { s.pool with conns } } (invalid ++ ptr.toList ++ rest) excess := by
  have hsplit := popLoop_append s.pool s.objects env.connected env.now s.pool.conns
  rw [hpop] at hsplit
  simp only at hsplit
  rw [← List.append_assoc] at hsplit
  have hlive : ∀ c ∈ invalid ++ ptr.toList, c ∈ s.live := fun c hc =>
    h.mem_live (List.mem_append_left _ (hsplit ▸ List.mem_append_left conns hc))
  refine ⟨touch_of_live hlive, h.move ?_⟩
  rw [← hsplit, List.append_assoc (invalid ++ ptr.toList) conns]
  exact ((List.perm_append_comm_assoc _ _ _).append_left conns).trans
    (List.perm_append_comm_assoc _ _ _)

/-- The accounts with the excess in another form. -/
theorem of_excess (h : Accounts s hands excess) {excess' : Int} (heq : excess' = excess) :
    Accounts s hands excess' :=
  heq ▸ h

/-- One section of a thread, whatever the others hold. -/
theorem next {s' : Store} {env : Env} {th th' : Phase} {rest : List Nat} {others : Int}
    (h : Accounts s (th.hand ++ rest) (th.excess + others))
    (hnext : code.next s env th = some (s', th')) :
    Accounts s' (th'.hand ++ rest) (th'.excess + others) := by
  cases th with
  | getConnection =>
      simp only [code] at hnext
      rcases hpop : s.pool.popLoop s.objects env.connected env.now s.pool.conns with
        ⟨invalid, ptr, conns⟩
      obtain ⟨htouch, hmoved⟩ := h.pop hpop
      simp only [Phase.hand, List.nil_append] at hmoved
      rw [hpop, htouch] at hnext
      obtain ⟨rfl, rfl⟩ := Prod.mk.inj (Option.some.inj hnext)
      exact hmoved.of_excess (by simp [Phase.excess])
  | discarding invalid size ptr =>
      cases invalid with
      | cons conn invalid =>
          obtain ⟨rfl, rfl⟩ := Prod.mk.inj (Option.some.inj hnext)
          refine h.delete.of_excess ?_
          simp only [Phase.excess, List.length_cons]
          omega
      | nil =>
          have hsub : Accounts (s.addTotal (-size)) (ptr.toList ++ rest) (0 + others) := by
            refine (h.addTotal (-size)).of_excess ?_
            simp only [Phase.excess, List.length_nil]
            omega
          cases ptr <;> obtain ⟨rfl, rfl⟩ := Prod.mk.inj (Option.some.inj hnext) <;> exact hsub
  | connecting =>
      simp only [code] at hnext
      cases hmade : env.made with
      | none =>
          rw [hmade] at hnext
          obtain ⟨rfl, rfl⟩ := Prod.mk.inj (Option.some.inj hnext)
          exact h
      | some new =>
          rw [hmade] at hnext
          obtain ⟨hnew, hnext⟩ := Option.ite_none_left_eq_some.mp hnext
          obtain ⟨rfl, rfl⟩ := Prod.mk.inj (Option.some.inj hnext)
          refine (h.new hnew (Function.update s.objects new {})).of_excess ?_
          simp only [Phase.excess]
          omega
  | counting ptr =>
      obtain ⟨rfl, rfl⟩ := Prod.mk.inj (Option.some.inj hnext)
      refine (h.addTotal 1).of_excess ?_
      simp only [Phase.excess]
      omega
  | returning ptr =>
      obtain ⟨rfl, rfl⟩ := Prod.mk.inj (Option.some.inj hnext)
      refine h.move (List.Perm.append_left _ ?_)
      exact List.perm_middle.symm
  | use =>
      obtain ⟨hptr, hnext⟩ := Option.ite_none_right_eq_some.mp hnext
      obtain ⟨rfl, rfl⟩ := Prod.mk.inj (Option.some.inj hnext)
      have hlive := h.mem_live (List.mem_append_right _ (List.mem_append_left _ hptr))
      rw [touch_of_live (by simpa using hlive)]
      exact h
  | release =>
      obtain ⟨hptr, hnext⟩ := Option.ite_none_right_eq_some.mp hnext
      obtain ⟨rfl, rfl⟩ := Prod.mk.inj (Option.some.inj hnext)
      refine h.move (List.Perm.append_left _ ?_)
      exact List.perm_middle.trans ((List.perm_cons_erase hptr).symm.append_right _)
  | ReleasePtr ptr =>
      have hlive := h.mem_live (List.mem_append_right _ (List.mem_append_right _
        (List.mem_append_left _ (List.mem_singleton_self ptr))))
      have htouch := touch_of_live (s := s) (List.forall_mem_singleton.mpr hlive)
      simp only [code, htouch] at hnext
      split at hnext
      · obtain ⟨rfl, rfl⟩ := Prod.mk.inj (Option.some.inj hnext)
        exact ⟨h.fault, h.nodup, h.held, h.total⟩
      · obtain ⟨rfl, rfl⟩ := Prod.mk.inj (Option.some.inj hnext)
        exact ⟨h.fault, h.nodup, h.held, h.total⟩
  | deleting ptr =>
      obtain ⟨rfl, rfl⟩ := Prod.mk.inj (Option.some.inj hnext)
      refine h.delete.of_excess ?_
      simp only [Phase.excess]
      omega
  | discounting =>
      obtain ⟨rfl, rfl⟩ := Prod.mk.inj (Option.some.inj hnext)
      refine (h.addTotal (-1)).of_excess ?_
      simp only [Phase.excess]
      omega
  | pushing ptr =>
      obtain ⟨rfl, rfl⟩ := Prod.mk.inj (Option.some.inj hnext)
      refine h.move ?_
      rw [List.append_assoc]
      exact List.Perm.append_left _ (List.perm_append_comm_assoc [ptr] s.users rest)
  | returned => cases hnext

theorem congr (h : Accounts s hands excess) {hands' : List Nat} {excess' : Int}
    (hhands : hands'.Perm hands) (hexcess : excess' = excess) : Accounts s hands' excess' :=
  ⟨h.fault, h.nodup, ((hhands.append_left _).append_left _).trans h.held, hexcess ▸ h.total⟩

end Accounts

/-! ## Runs -/

/-- A thread of a list, and the list when it has gone on. -/
theorem exists_threads {threads : List Phase} {i : Nat} {th : Phase} (th' : Phase)
    (h : threads[i]? = some th) :
    ∃ before after, threads = before ++ th :: after ∧
      threads.set i th' = before ++ th' :: after := by
  obtain ⟨hi, hget⟩ := List.getElem?_eq_some_iff.mp h
  refine ⟨threads.take i, threads.drop (i + 1), ?_,
    List.set_eq_take_append_cons_drop.trans (if_pos hi)⟩
  rw [← hget, List.getElem_cons_drop, List.take_append_drop]

/-- The accounts of a state. -/
def Balanced (s : Code.State Store Phase) : Prop :=
  Accounts s.shared (s.threads.flatMap Phase.hand) (s.threads.map Phase.excess).sum

theorem Balanced.step {s s' : Code.State Store Phase} {a : Act Env Call} (h : Balanced s)
    (hstep : code.step s a = some s') : Balanced s' := by
  cases moves_of_step hstep with
  | call k =>
      refine h.congr ?_ ?_
      · cases k <;> simp [code, Phase.hand]
      · cases k <;> simp [code, Phase.excess]
  | @run i env th th' shared hi hnext =>
      obtain ⟨before, after, hthreads, hset⟩ := exists_threads th' hi
      rw [Balanced, hthreads] at h
      rw [Balanced, hset]
      have hfront : ∀ t : Phase, (t.hand ++ (before ++ after).flatMap Phase.hand).Perm
          ((before ++ t :: after).flatMap Phase.hand) := by
        intro t
        simp only [List.flatMap_append, List.flatMap_cons]
        exact List.perm_append_comm_assoc _ _ _
      have hsum : ∀ t : Phase, t.excess + ((before ++ after).map Phase.excess).sum =
          ((before ++ t :: after).map Phase.excess).sum := by
        intro t
        simp only [List.map_append, List.map_cons, List.sum_append, List.sum_cons]
        omega
      have hown := (h.congr (hfront th) (hsum th)).next hnext
      exact hown.congr (hfront th').symm (hsum th').symm

/-- The accounts of a state as they are seen from outside. -/
structure Accounted (s : Code.State Store Phase) : Prop where
  /-- Nothing has been used or deleted that is not there. -/
  fault : s.shared.fault = false
  /-- What is there is on the list or handed out, once. -/
  once : ∀ conn, (s.shared.pool.conns ++ handedOut s).count conn =
    if conn ∈ s.shared.live then 1 else 0
  total : (∀ th ∈ s.threads, th = Phase.returned) →
    s.shared.pool.total = Int32.ofNat s.shared.live.length ∧
      (s.shared.live.length < 2 ^ 31 → s.shared.pool.total.toInt = s.shared.live.length)

theorem Balanced.accounted {s : Code.State Store Phase} (h : Balanced s) : Accounted s where
  fault := h.fault
  once := by
    intro conn
    rw [handedOut, h.held.count_eq, h.nodup.count]
  total := by
    intro hreturned
    have hzero : (s.threads.map Phase.excess).sum = 0 := by
      refine List.sum_eq_zero fun n hn => ?_
      obtain ⟨th, hth, rfl⟩ := List.mem_map.mp hn
      rw [hreturned th hth]
      rfl
    have htotal := h.total
    rw [hzero, Int.add_zero, Int32.ofInt_eq_ofNat] at htotal
    exact ⟨htotal, fun hlt => by rw [htotal, Int32.toInt_ofNat_of_lt hlt]⟩

/-- In every interleaving, a pool that starts without connections has its accounts in order. -/
theorem accounted_always (maxAliveTime maxRequest : UInt32) (acts : List (Act Env Call)) :
    runAlways code.step Accounted acts ⟨{ pool := { maxAliveTime, maxRequest } }, []⟩ := by
  have hstart : Balanced ⟨{ pool := { maxAliveTime, maxRequest } }, []⟩ :=
    ⟨rfl, List.nodup_nil, List.Perm.refl _, rfl⟩
  exact runAlways_of_invariant Balanced.step Balanced.accounted acts hstart

end HttpConnectionPool
end Http
end Routn
