import Routn.LoadBalance.SDLoadBalance

/-!
# `ZKServiceDiscovery::getChildren`

A run of `getChildren` fetches the children of a path, swaps the new view into `_datas` under the
lock, and after it has released the lock calls the callbacks with the old view and the new one.  The
callback is `onServiceChange` of the balancer; its sections are those of a call in a run of
`SDLoadBalance`, which this system carries along.

`swaps`, `nulls` and `applied` say what happened; the code has no such data.
-/

namespace Routn
namespace ServiceDiscovery

open Foundation

/-- `_queryInfos`, the types of the balancers, and `ServiceItemInfo::Create` without data. -/
structure Config where
  queryInfos : String → Option (List String)
  types : SDLoadBalance.Types
  create : String → Option ServiceItemInfo

/-- The service is one that `getChildren` is to look at. -/
def Config.queries (c : Config) (sv : Service) : Bool :=
  match c.queryInfos sv.1 with
  | none => false
  | some services => services.contains sv.2 || services.contains "all"

/-- `infos[info->getId()] = info`. -/
def insertInfo (infos : View) (info : ServiceItemInfo) : View :=
  infos.filter (·.id ≠ info.id) ++ [info]

/-- The view that the children make. -/
def viewOf (c : Config) (vals : List String) : View :=
  (vals.filterMap c.create).foldl insertInfo []

/-- A swap: the service, the view before it and the view after it. -/
structure Swap where
  sv : Service
  old : View
  new : View
deriving DecidableEq, Repr

/-- An update of a balancer, and the call of `onServiceChange` that did it. -/
structure Applied where
  call : Nat
  sv : Service
  adds : List LoadBalanceItem
  dels : List UInt64
deriving DecidableEq, Repr

structure Store where
  /-- `_datas`. -/
  datas : Service → View := fun _ => []
  balancer : Code.State SDLoadBalance SDLoadBalance.Phase := ⟨{}, []⟩
  /-- Each swap is followed by one call of the callback, which is a thread of `balancer`. -/
  swaps : List Swap := []
  /-- The calls, and the ids for which the stream callback returned null to them. -/
  nulls : List (Nat × UInt64) := []
  applied : List Applied := []

inductive Phase
  | called (sv : Service)
  | fetching (sv : Service)
  | swapping (sv : Service) (infos : View)
  /-- In the callback. -/
  | notifying (call : Nat)
  | failed
deriving DecidableEq, Repr

/-- What `_client->getChildren` returns, if it is `ZOK`, and what the stream callback returns. -/
structure Outside where
  children : Option (List String)
  streams : UInt64 → Option Nat

/-- `_datas[domain][service].swap(infos)`, and the callback is called. -/
def swap (types : SDLoadBalance.Types) (sv : Service) (infos : View) (st : Store) : Store :=
  let change := SDLoadBalance.Call.onServiceChange sv (st.datas sv) infos
  { st with
    datas := Function.update st.datas sv infos
    balancer :=
      ⟨st.balancer.shared, st.balancer.threads ++ [(SDLoadBalance.code types).enter change]⟩
    swaps := st.swaps ++ [⟨sv, st.datas sv, infos⟩] }

/-- The ids for which a section of the callback gets no stream. -/
def nullsOf (types : SDLoadBalance.Types) (call : Nat) (streams : UInt64 → Option Nat) :
    Option SDLoadBalance.Phase → List (Nat × UInt64)
  | some (.changing sv old_value new_value) =>
      if SDLoadBalance.getType types sv = .UNKNOWN then []
      else
        ((View.news old_value new_value).filter fun info => streams info.id = none).map
          fun info => (call, info.id)
  | _ => []

/-- The update that a section of the callback does. -/
def appliedBy (call : Nat) : Option SDLoadBalance.Phase → List Applied
  | some (.updating sv (some _) adds dels) => [⟨call, sv, adds, dels⟩]
  | _ => []

/-- The next section of the callback. -/
def notify (types : SDLoadBalance.Types) (call : Nat) (streams : UInt64 → Option Nat)
    (st : Store) : Option Store :=
  ((SDLoadBalance.code types).step st.balancer (.run call streams)).map fun balancer =>
    { st with
      balancer := balancer
      nulls := st.nulls ++ nullsOf types call streams st.balancer.threads[call]?
      applied := st.applied ++ appliedBy call st.balancer.threads[call]? }

/-- The sections of `getChildren`, called for the path of a service. -/
def getChildren (c : Config) : Code Store Outside Service Phase where
  enter sv := .called sv
  next st out
    | .called sv => some (st, if c.queries sv then .fetching sv else .failed)
    | .fetching sv =>
        match out.children with
        | none => some (st, .failed)
        | some vals => some (st, .swapping sv (viewOf c vals))
    | .swapping sv infos => some (swap c.types sv infos st, .notifying st.balancer.threads.length)
    | .notifying call => (notify c.types call out.streams st).map fun st' => (st', .notifying call)
    | .failed => none

end ServiceDiscovery
end Routn
