import Mathlib.Logic.Function.Basic
import Routn.Foundation.Sections

/-!
# `LoadBalance` and `SDLoadBalance`

`SDLoadBalance` keeps one `LoadBalance` for each domain and service.  `get` looks it up under the
read lock and, when there is none, makes one and stores it under the write lock;
`onServiceChange` makes the items of what is new in a view, gets the balancer, and updates it.

A `LoadBalance` is an object with an address, for a caller keeps it and changes it after the lock of
the table has been released.  `_types` does not change in the runs that are modelled.
-/

namespace Routn

open Foundation

/-- `ILoadBalance::Type`. -/
inductive LoadBalanceType
  | UNKNOWN
  | ROUNDROBIN
  | WEIGHT
  | FAIR
deriving DecidableEq, Repr

/-- What `onServiceChange` sets of an item; the stream is its address. -/
structure LoadBalanceItem where
  id : UInt64
  stream : Nat
deriving DecidableEq, Repr

/-- `_datas`; what `initNolock` makes of it is left out. -/
structure LoadBalance where
  type : LoadBalanceType
  datas : UInt64 → Option LoadBalanceItem

namespace LoadBalance

/-- `_datas` after an `update`: what is deleted goes, then what is added comes. -/
def updated (datas : UInt64 → Option LoadBalanceItem) (adds : List LoadBalanceItem)
    (dels : List UInt64) : UInt64 → Option LoadBalanceItem := fun id =>
  match adds.reverse.find? (·.id = id) with
  | some item => some item
  | none => if id ∈ dels then none else datas id

def update (lb : LoadBalance) (adds : List LoadBalanceItem) (dels : List UInt64) : LoadBalance :=
  { lb with datas := updated lb.datas adds dels }

end LoadBalance

/-- The members of `ServiceItemInfo` that are not empty here. -/
structure ServiceItemInfo where
  id : UInt64
  ip : String
  port : UInt16
deriving DecidableEq, Repr

/-- A map from ids to infos. -/
abbrev View := List ServiceItemInfo

namespace View

def Has (view : View) (id : UInt64) : Prop := ∃ info ∈ view, info.id = id

instance (view : View) (id : UInt64) : Decidable (view.Has id) :=
  inferInstanceAs (Decidable (∃ info ∈ view, info.id = id))

/-- `add_vals` of `onServiceChange`. -/
def news (old new : View) : View := new.filter fun info => ¬ Has old info.id

/-- The keys of `del_infos`. -/
def dels (old new : View) : List UInt64 := (old.map (·.id)).filter fun id => ¬ Has new id

/-- The keys and items of `add_infos`, for these answers of the stream callback. -/
def adds (old new : View) (streams : UInt64 → Option Nat) : List LoadBalanceItem :=
  (news old new).filterMap fun info => (streams info.id).map fun stream => ⟨info.id, stream⟩

variable {old new : View} {id : UInt64}

theorem mem_news {info : ServiceItemInfo} :
    info ∈ news old new ↔ info ∈ new ∧ ¬ old.Has info.id := by
  rw [news, List.mem_filter, decide_eq_true_iff]

theorem mem_dels : id ∈ dels old new ↔ old.Has id ∧ ¬ new.Has id := by
  rw [dels, List.mem_filter, decide_eq_true_iff]
  refine and_congr_left fun _ => ?_
  simp [Has]

/-- The items are those of the ids that are new and have a stream. -/
theorem mem_adds {streams : UInt64 → Option Nat} :
    (∃ item ∈ adds old new streams, item.id = id) ↔
      new.Has id ∧ ¬ old.Has id ∧ streams id ≠ none := by
  constructor
  · rintro ⟨item, hitem, rfl⟩
    obtain ⟨info, hinfo, hsome⟩ := List.mem_filterMap.mp hitem
    obtain ⟨stream, hstream, rfl⟩ := Option.map_eq_some_iff.mp hsome
    obtain ⟨hnew, hold⟩ := mem_news.mp hinfo
    exact ⟨⟨info, hnew, rfl⟩, hold, by simp [hstream]⟩
  · rintro ⟨⟨info, hnew, rfl⟩, hold, hstream⟩
    obtain ⟨stream, hstream⟩ := Option.ne_none_iff_exists'.mp hstream
    exact ⟨⟨info.id, stream⟩, List.mem_filterMap.mpr
      ⟨info, mem_news.mpr ⟨hnew, hold⟩, by simp [hstream]⟩, rfl⟩

end View

/-- A domain and a service. -/
abbrev Service := String × String

/-- `_datas`, the balancers that have been made, and the updates in the order they were done.  A
balancer is its place in `objects`, and `none` is the null pointer. -/
structure SDLoadBalance where
  datas : Service → Option (Option Nat) := fun _ => none
  objects : List LoadBalance := []
  updates : List (Service × List LoadBalanceItem × List UInt64) := []

namespace SDLoadBalance

/-- `_types`, by domain and service. -/
abbrev Types := String → Option (String → Option LoadBalanceType)

def getType (types : Types) (sv : Service) : LoadBalanceType :=
  match types sv.1 with
  | none => .UNKNOWN
  | some services =>
      match services sv.2 with
      | some type => type
      | none => (services "all").getD .UNKNOWN

/-- `createLoadBalance`, and `_datas[domain][service] = lb`. -/
def store (type : LoadBalanceType) (sv : Service) (sd : SDLoadBalance) :
    Option Nat × SDLoadBalance :=
  if type = .UNKNOWN then
    (none, { sd with datas := Function.update sd.datas sv (some none) })
  else
    (some sd.objects.length, { sd with
      datas := Function.update sd.datas sv (some (some sd.objects.length))
      objects := sd.objects ++ [⟨type, fun _ => none⟩] })

/-- `lb->update`, under the lock of the balancer. -/
def update (lb : Nat) (sv : Service) (adds : List LoadBalanceItem) (dels : List UInt64)
    (sd : SDLoadBalance) : SDLoadBalance :=
  { sd with
    objects := sd.objects.modify lb fun b => b.update adds dels
    updates := sd.updates ++ [(sv, adds, dels)] }

/-- A call of `get`, or of `onServiceChange`. -/
inductive Call
  | get (sv : Service) (auto_create : Bool)
  | onServiceChange (sv : Service) (old_value new_value : View)
deriving DecidableEq, Repr

/-- What a call of `get` is for: its caller, or the update of `onServiceChange`. -/
inductive Purpose
  | caller
  | update (adds : List LoadBalanceItem) (dels : List UInt64)
deriving DecidableEq, Repr

/-- Where a call is. -/
inductive Phase
  /-- `onServiceChange` has been called. -/
  | changing (sv : Service) (old_value new_value : View)
  /-- In `get`, before it looks. -/
  | looking (sv : Service) (auto_create : Bool) (purpose : Purpose)
  /-- In `get`: there was no balancer. -/
  | storing (sv : Service) (purpose : Purpose)
  /-- `get` has returned the balancer to `onServiceChange`. -/
  | updating (sv : Service) (lb : Option Nat) (adds : List LoadBalanceItem) (dels : List UInt64)
  /-- `get` has returned it, and `onServiceChange` has updated it if it was the caller. -/
  | returned (sv : Service) (lb : Option Nat)
  /-- Nothing was to do, or `get` was not to create. -/
  | nothing
deriving DecidableEq, Repr

/-- After `get`. -/
def Purpose.resume (sv : Service) (lb : Option Nat) : Purpose → Phase
  | caller => .returned sv lb
  | update adds dels => .updating sv lb adds dels

/-- The sections of `get` and `onServiceChange`.  The environment says what the stream callback
returns for the info with an id. -/
def code (types : Types) :
    Code SDLoadBalance (UInt64 → Option Nat) Call Phase where
  enter
    | .get sv auto_create => .looking sv auto_create .caller
    | .onServiceChange sv old_value new_value => .changing sv old_value new_value
  next sd streams
    | .changing sv old_value new_value =>
        if getType types sv = .UNKNOWN then some (sd, .nothing)
        else
          let adds := View.adds old_value new_value streams
          let dels := View.dels old_value new_value
          if adds = [] ∧ dels = [] then some (sd, .nothing)
          else some (sd, .looking sv true (.update adds dels))
    | .looking sv auto_create purpose =>
        match sd.datas sv with
        | some lb => some (sd, purpose.resume sv lb)
        | none => if auto_create then some (sd, .storing sv purpose) else some (sd, .nothing)
    | .storing sv purpose =>
        let (lb, sd') := sd.store (getType types sv) sv
        some (sd', purpose.resume sv lb)
    | .updating sv (some lb) adds dels => some (sd.update lb sv adds dels, .returned sv (some lb))
    -- A call on the null pointer.
    | .updating _ none _ _ => none
    | .returned .. | .nothing => none

end SDLoadBalance

end Routn
