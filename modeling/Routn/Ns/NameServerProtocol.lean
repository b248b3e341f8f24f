import Routn.Foundation.NestedMap

/-!
# Nodes, node sets and domains

A node is known by an id, which is its address and its port side by side.  A domain has a set of
nodes for each command, and drops a set that has become empty.  `find` is what a domain, and a set
of domains, list for a command and an id.

`inet_addr` is a function of the system.
-/

namespace Routn
namespace Ns

open Foundation

structure NSNode where
  id : UInt64
  ip : String
  port : UInt16
  weight : UInt32
deriving DecidableEq, Repr

namespace NSNode

def GetID (inet_addr : String → UInt32) (ip : String) (port : UInt16) : UInt64 :=
  (inet_addr ip).toUInt64 <<< 32 ||| port.toUInt64

def new (inet_addr : String → UInt32) (ip : String) (port : UInt16) (weight : UInt32) : NSNode :=
  ⟨GetID inet_addr ip port, ip, port, weight⟩

/-- The upper half of an id is the address. -/
theorem getID_shiftRight (inet_addr : String → UInt32) (ip : String) (port : UInt16) :
    GetID inet_addr ip port >>> 32 = (inet_addr ip).toUInt64 := by
  have haddr := (inet_addr ip).toNat_lt
  have hport := port.toNat_lt
  apply UInt64.toNat_inj.mp
  have hhigh : ((inet_addr ip).toUInt64 <<< 32).toNat = (inet_addr ip).toNat <<< 32 := by
    rw [UInt64.toNat_shiftLeft, UInt32.toNat_toUInt64]
    apply Nat.mod_eq_of_lt
    rw [show (32 : UInt64).toNat % 64 = 32 from rfl, Nat.shiftLeft_eq]
    omega
  rw [UInt64.toNat_shiftRight, GetID, UInt64.toNat_or, hhigh, UInt16.toNat_toUInt64,
    UInt32.toNat_toUInt64, ← Nat.shiftLeft_add_eq_or_of_lt (by omega), Nat.shiftLeft_eq,
    show (32 : UInt64).toNat % 64 = 32 from rfl, Nat.shiftRight_eq_div_pow]
  omega

end NSNode

/-! ## The tables -/

abbrev NSNodeSet := Map UInt64 NSNode

namespace NSNodeSet

def add (s : NSNodeSet) (info : NSNode) : NSNodeSet := AList.insert info.id info s

def del (s : NSNodeSet) (id : UInt64) : Option NSNode × NSNodeSet :=
  (AList.lookup id s, AList.erase id s)

def size (s : NSNodeSet) : Nat := s.keys.length

end NSNodeSet

abbrev NSDomain := NestedMap UInt32 UInt64 NSNode

namespace NSDomain

def get (d : NSDomain) (cmd : UInt32) : Option NSNodeSet := AList.lookup cmd d

def add (d : NSDomain) (cmd : UInt32) (info : NSNode) : NSDomain :=
  match get d cmd with
  | none => AList.insert cmd (NSNodeSet.add ∅ info) d
  | some ns => AList.insert cmd (NSNodeSet.add ns info) d

def del (d : NSDomain) (cmd : UInt32) (id : UInt64) : Option NSNode × NSDomain :=
  match get d cmd with
  | none => (none, d)
  | some ns =>
      let (info, ns) := NSNodeSet.del ns id
      (info, if NSNodeSet.size ns = 0 then AList.erase cmd d else AList.insert cmd ns d)

/-- The node that is listed for a command with this id. -/
def find (d : NSDomain) (cmd : UInt32) (id : UInt64) : Option NSNode := NestedMap.get d cmd id

theorem find_add (d : NSDomain) (cmd cmd' : UInt32) (info : NSNode) (id : UInt64) :
    find (add d cmd info) cmd' id =
      if cmd' = cmd ∧ id = info.id then some info else find d cmd' id := by
  have hadd : add d cmd info = NestedMap.insert d cmd info.id info := by
    unfold add get NestedMap.insert NestedMap.inner NSNodeSet.add
    cases AList.lookup cmd d with
    | none => rfl
    | some ns => rfl
  rw [hadd]
  exact NestedMap.get_insert

theorem find_del (d : NSDomain) (cmd cmd' : UInt32) (id id' : UInt64) :
    find (del d cmd id).2 cmd' id' =
      if cmd' = cmd ∧ id' = id then none else find d cmd' id' := by
  unfold del get
  cases hlookup : AList.lookup cmd d with
  | none =>
      have hnone : NestedMap.get d cmd id = none := by simp [NestedMap.get, hlookup]
      by_cases h : cmd' = cmd ∧ id' = id
      · obtain ⟨rfl, rfl⟩ := h
        rw [if_pos ⟨rfl, rfl⟩]
        exact hnone
      · rw [if_neg h]
  | some ns =>
      have hdel : (if NSNodeSet.size (AList.erase id ns) = 0 then AList.erase cmd d
          else AList.insert cmd (AList.erase id ns) d) = NestedMap.erase d cmd id := by
        unfold NestedMap.erase NestedMap.inner NSNodeSet.size
        rw [hlookup]
        simp only [List.length_eq_zero_iff, Option.getD_some]
      change NestedMap.get (if NSNodeSet.size (AList.erase id ns) = 0 then AList.erase cmd d
        else AList.insert cmd (AList.erase id ns) d) cmd' id' = _
      rw [hdel]
      exact NestedMap.get_erase

end NSDomain

abbrev NSDomainSet := Map String NSDomain

namespace NSDomainSet

def get (domains : NSDomainSet) (domain : String) : Option NSDomain := AList.lookup domain domains

/-- The node that is listed for a domain and a command with this id. -/
def find (domains : NSDomainSet) (domain : String) (cmd : UInt32) (id : UInt64) : Option NSNode :=
  (get domains domain).bind fun d => NSDomain.find d cmd id

theorem find_insert (domains : NSDomainSet) (domain domain' : String) (d : NSDomain) (cmd : UInt32)
    (id : UInt64) :
    find (AList.insert domain d domains) domain' cmd id =
      if domain' = domain then NSDomain.find d cmd id else find domains domain' cmd id := by
  unfold find get
  by_cases h : domain' = domain
  · subst h
    simp
  · rw [AList.lookup_insert_ne h, if_neg h]

end NSDomainSet

end Ns
end Routn
