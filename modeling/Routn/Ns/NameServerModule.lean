import Routn.Ns.Diff
import Routn.Ns.NameServerProtocol
import Routn.Rpc.Message

/-!
# The name server

`_sessions` has what each stream has registered, and `_domains` is the registry.  `set` brings the
registry up to date by what a stream had registered and what it registers now.
-/

namespace Routn
namespace Ns

open Foundation

/-! ## The registry -/

namespace NSDomainSet

/-- The loop over `dels`. -/
def delDomain (id : UInt64) (domains : NSDomainSet) (i : Sigma fun _ : String => Cmds) :
    NSDomainSet :=
  match get domains i.1 with
  | none => domains
  | some d => AList.insert i.1 (i.2.keys.foldl (fun d c => (NSDomain.del d c id).2) d) domains

def delAll (domains : NSDomainSet) (dels : Domain2Cmds) (id : UInt64) : NSDomainSet :=
  dels.entries.foldl (delDomain id) domains

/-- The loops over `news` and `comms`. -/
def addDomain (node : NSNode) (domains : NSDomainSet) (i : Sigma fun _ : String => Cmds) :
    NSDomainSet :=
  let d := (get domains i.1).getD ∅
  AList.insert i.1 (i.2.keys.foldl (fun d c => NSDomain.add d c node) d) domains

def addAll (domains : NSDomainSet) (news : Domain2Cmds) (node : NSNode) : NSDomainSet :=
  news.entries.foldl (addDomain node) domains

end NSDomainSet

/-! ## The module -/

structure NSClientInfo where
  node : NSNode
  domain2cmds : Domain2Cmds

structure NameServerModule (RockStream : Type) where
  domains : NSDomainSet
  sessions : Map RockStream NSClientInfo

variable {RockStream : Type} [DecidableEq RockStream]

namespace NameServerModule

def new : NameServerModule RockStream := ⟨∅, ∅⟩

def get (m : NameServerModule RockStream) (rs : RockStream) : Option NSClientInfo :=
  m.sessions.lookup rs

/-- `_domain2cmds`, or nothing. -/
def registered (info : Option NSClientInfo) : Domain2Cmds :=
  match info with
  | none => ∅
  | some info => info.domain2cmds

/-- The registry after `set`. -/
def update (domains : NSDomainSet) (old_info info : Option NSClientInfo) : NSDomainSet :=
  let (dels, news, comms) := diff (registered old_info) (registered info) ∅ ∅ ∅
  -- The pointers are null only where the loop over them is empty.
  let domains := match old_info with
    | none => domains
    | some old => domains.delAll dels old.node.id
  let domains := match info with
    | none => domains
    | some info => domains.addAll news info.node
  match old_info, info with
  | some old, some info =>
      if comms.keys ≠ [] ∧ old.node.weight ≠ info.node.weight then
        domains.addAll comms info.node
      else domains
  | _, _ => domains

def set (m : NameServerModule RockStream) (rs : RockStream) (isConnected : Bool)
    (info : Option NSClientInfo) : NameServerModule RockStream :=
  let info := if isConnected then info else none
  { domains := update m.domains (m.get rs) info
    sessions := match info with
      | none => m.sessions.erase rs
      | some info => m.sessions.insert rs info }

def onDisconnect (m : NameServerModule RockStream) (rs : RockStream) (isConnected : Bool) :
    Bool × NameServerModule RockStream :=
  (true, m.set rs isConnected none)

end NameServerModule

/-! ## Requests -/

structure Node where
  ip : Option String
  port : Option UInt32
  weight : Option UInt32

structure RegisterInfo where
  domain : Option String
  cmds : List UInt32
  node : Option Node

structure RegisterRequest where
  info : List RegisterInfo

variable (inet_addr : String → UInt32)

/-- The id of the node agrees with that of an earlier registration. -/
def checkId (which : String) (value : Option NSClientInfo) (ns_node : NSNode) :
    Except String Unit :=
  match value with
  | none => .ok ()
  | some value =>
      if value.node.id ≠ ns_node.id then
        .error (" " ++ which ++ ".ip = " ++ value.node.ip ++
          " " ++ which ++ ".port = " ++ toString value.node.port ++
          " cur.ip = " ++ ns_node.ip ++ " cur.port = " ++ toString ns_node.port)
      else .ok ()

/-- What the loop of `handleRegister` does with an info: the `new_value` afterwards, or the end of
what is logged. -/
def registerInfo (old_value new_value : Option NSClientInfo) (info : RegisterInfo) :
    Except String (Option NSClientInfo) :=
  match info.node with
  | none => .error " node is null"
  | some node =>
  match info.domain with
  | none => .error " domain is null"
  | some domain =>
  if info.cmds.length = 0 then .error " cmds is null" else
  match node.ip with
  | none => .error " ip is null"
  | some ip =>
  match node.port with
  | none => .error " port is null"
  | some port =>
  match node.weight with
  | none => .error " weight is null"
  | some weight =>
  -- The port is narrowed to 16 bits.
  let ns_node := NSNode.new inet_addr ip port.toUInt16 weight
  if ns_node.id >>> 32 = 0 then .error (" ip = " ++ ip ++ " invalid") else do
  checkId "old" old_value ns_node
  checkId "new" new_value ns_node
  let value := new_value.getD ⟨ns_node, ∅⟩
  return some { value with
    domain2cmds :=
      info.cmds.foldl (fun m cmd => NestedMap.insert m domain cmd ()) value.domain2cmds }

/-- `handleRegister`, where the request is the one that `getAsPB` gives. -/
def NameServerModule.handleRegister (m : NameServerModule RockStream)
    (request : Option RegisterRequest) (response : RockResponse) (stream : RockStream)
    (isConnected : Bool) : Bool × NameServerModule RockStream × RockResponse :=
  match request with
  | none => (false, m, response)
  | some rr =>
      match rr.info.foldlM (registerInfo inet_addr (m.get stream)) none with
      | .error _ => (false, m, response)
      | .ok new_value =>
          (true, m.set stream isConnected new_value,
            { response with result := 0, resStr := "ok".toUTF8.toList })

end Ns
end Routn
