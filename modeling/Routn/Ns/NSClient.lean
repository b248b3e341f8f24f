import Mathlib.Tactic
import Routn.Foundation.Replay
import Routn.Ns.SharedDomain

/-!
# `NSClient`

`query` builds new domains from a response and swaps them in; `onNotify` changes the domains that
are there.  `doRecv` hands both to fibers of their own, which run side by side, section by section.

The server is what its messages tell of it: one sequence of changes, each of which is sent once the
client has been answered.  The domains that are queried do not change, and queries are answered in
time.
-/

namespace Routn
namespace Ns
namespace NSClient

open Foundation Write

/-! ## Messages -/

structure NodeInfo where
  domain : String
  cmd : UInt32
  nodes : List NSNode
deriving DecidableEq, Repr

structure NotifyMessage where
  dels : List NodeInfo
  updates : List NodeInfo
deriving DecidableEq, Repr

inductive Message
  | response (infos : List NodeInfo)
  | notify (nm : NotifyMessage)
deriving DecidableEq, Repr

/-- An element of `dels` or of `updates`. -/
structure Task where
  update : Bool
  info : NodeInfo
deriving DecidableEq, Repr

namespace Task

/-- What is called for its nodes; a node without an address is only logged when it is new. -/
def calls (t : Task) : List SharedDomain.Call :=
  if t.update then
    (t.info.nodes.filter fun node => node.id >>> (32 : UInt64) ≠ 0).map
      fun node => .add t.info.cmd node
  else t.info.nodes.map fun node => .del t.info.cmd node.id

end Task

def NotifyMessage.tasks (nm : NotifyMessage) : List Task :=
  nm.dels.map (Task.mk false) ++ nm.updates.map (Task.mk true)

/-! ## The client -/

/-- `*_domains` has the address of an `NSDomain`, and `objects` each one with its `_domain`;
addresses from `made` on are free. -/
structure Client where
  domains : Map String Nat := ∅
  objects : Nat → String × SharedDomain.Store := fun _ => ("", {})
  made : Nat := 0

/-- A domain, a command and the id of a node. -/
abbrev Key : Type := String × UInt32 × UInt64

abbrev Registry : Type := Key → Option NSNode

namespace Client

/-- `_domains->get(domain)`. -/
def get (c : Client) (domain : String) : Option Nat := AList.lookup domain c.domains

/-- `_domains->get(domain, true)`. -/
def getOrMake (c : Client) (domain : String) : Nat × Client :=
  match c.get domain with
  | some obj => (obj, c)
  | none => (c.made, { c with
      domains := AList.insert domain c.made c.domains
      objects := Function.update c.objects c.made (domain, {})
      made := c.made + 1 })

/-- A domain after one of its sections. -/
def write (c : Client) (obj : Nat) (d : SharedDomain.Store) : Client :=
  { c with objects := Function.update c.objects obj ((c.objects obj).1, d) }

/-- What the client sees. -/
def view (c : Client) : Registry := fun k =>
  (c.get k.1).bind fun obj => (c.objects obj).2.find k.2.1 k.2.2

end Client

/-- `add`, from its first section to its last. -/
def addNode (d : SharedDomain.Store) (cmd : UInt32) (node : NSNode) : SharedDomain.Store :=
  match d.get cmd with
  | none => (d.make cmd).addTo cmd d.made node
  | some ns => d.addTo cmd ns node

/-- A call on a domain that only one fiber knows. -/
def buildCall (obj : Nat) (c : Client) : SharedDomain.Call → Client
  | .add cmd node => c.write obj (addNode (c.objects obj).2 cmd node)
  | .del _ _ => c

inductive Fiber
  /-- `query` with its response, in front of the swap. -/
  | swapping (infos : List NodeInfo)
  /-- `onNotify`, in front of an element. -/
  | notify (tasks : List Task)
  /-- Inside a call on a domain, with what comes behind it. -/
  | working (domain : String) (obj : Nat) (th : SharedDomain.Phase)
      (calls : List SharedDomain.Call) (tasks : List Task)
  | returned
deriving DecidableEq, Repr

section Code

variable (hasQueryDomain : String → Bool)

def buildInfo (c : Client) (info : NodeInfo) : Client :=
  if hasQueryDomain info.domain then
    let (obj, c) := c.getOrMake info.domain
    (Task.mk true info).calls.foldl (buildCall obj) c
  else c

/-- The new domains are built, and swapped in. -/
def swap (c : Client) (infos : List NodeInfo) : Client :=
  infos.foldl (buildInfo hasQueryDomain) { c with domains := ∅ }

/-- The next section of a fiber. -/
def next (c : Client) : Fiber → Option (Client × Fiber)
  | .swapping infos => some (swap hasQueryDomain c infos, .returned)
  | .notify [] => some (c, .returned)
  | .notify (task :: tasks) =>
      if hasQueryDomain task.info.domain then
        if task.update then
          let (obj, c) := c.getOrMake task.info.domain
          some (c, .working task.info.domain obj (.returned none) task.calls tasks)
        else
          match c.get task.info.domain with
          | none => some (c, .notify tasks)
          | some obj =>
              some (c, .working task.info.domain obj (.returned none) task.calls tasks)
      else some (c, .notify tasks)
  | .working domain obj th calls tasks =>
      match SharedDomain.code.next (c.objects obj).2 () th with
      | some (d, th') => some (c.write obj d, .working domain obj th' calls tasks)
      | none =>
          match calls with
          | [] => some (c, .notify tasks)
          | call :: calls =>
              some (c, .working domain obj (SharedDomain.code.enter call) calls tasks)
  | .returned => none

/-! ## What is still to be done -/

/-- What a call does to the view. -/
def callWrite (domain : String) : SharedDomain.Call → Write Key (Option NSNode)
  | .add cmd node => .put (domain, cmd, node.id) (some node)
  | .del cmd id => .put (domain, cmd, id) none

def Task.writes (t : Task) : List (Write Key (Option NSNode)) :=
  if hasQueryDomain t.info.domain then t.calls.map (callWrite t.info.domain) else []

/-- A change of the registry, as far as its domains are queried. -/
def NotifyMessage.writes (nm : NotifyMessage) : List (Write Key (Option NSNode)) :=
  nm.tasks.flatMap (Task.writes hasQueryDomain)

/-- What a response says of the domains that are queried. -/
def snapshot (infos : List NodeInfo) : Registry :=
  replay (infos.flatMap fun info => (Task.mk true info).writes hasQueryDomain) fun _ => none

def Message.writes : Message → List (Write Key (Option NSNode))
  | .response infos => [.all (snapshot hasQueryDomain infos)]
  | .notify nm => nm.writes hasQueryDomain

/-- What is left of a call. -/
def phaseWrites (domain : String) : SharedDomain.Phase → List (Write Key (Option NSNode))
  | .add cmd node | .making cmd node | .adding cmd _ node =>
      [.put (domain, cmd, node.id) (some node)]
  | .del cmd id | .deleting cmd _ id => [.put (domain, cmd, id) none]
  | .testing _ _ _ | .dropping _ _ | .returned _ => []

/-- What a fiber does with the domain that it works at, unless that has been swapped out. -/
def Fiber.inHand (c : Client) : Fiber → List (Write Key (Option NSNode))
  | .working domain obj th calls _ =>
      if c.get domain = some obj then phaseWrites domain th ++ calls.map (callWrite domain) else []
  | _ => []

/-- What a fiber has not begun with. -/
def Fiber.waiting : Fiber → List (Write Key (Option NSNode))
  | .swapping infos => [.all (snapshot hasQueryDomain infos)]
  | .notify tasks | .working _ _ _ _ tasks => tasks.flatMap (Task.writes hasQueryDomain)
  | .returned => []

/-- What is left of a message. -/
def Fiber.writes (c : Client) (fiber : Fiber) : List (Write Key (Option NSNode)) :=
  fiber.inHand c ++ fiber.waiting hasQueryDomain

/-- What the next section of a call on a domain carries out. -/
def phaseDue (domain : String) (d : SharedDomain.Store) :
    SharedDomain.Phase → List (Write Key (Option NSNode))
  | .adding cmd _ node => [.put (domain, cmd, node.id) (some node)]
  | .del cmd id => if d.get cmd = none then [.put (domain, cmd, id) none] else []
  | .deleting cmd _ id => [.put (domain, cmd, id) none]
  | _ => []

/-- What the next section of a fiber carries out. -/
def Fiber.due (c : Client) : Fiber → List (Write Key (Option NSNode))
  | .swapping infos => [.all (snapshot hasQueryDomain infos)]
  | .notify (task :: _) =>
      -- A domain that is not there is passed over.
      if task.update = false ∧ c.get task.info.domain = none then task.writes hasQueryDomain else []
  | .working domain obj th _ _ =>
      if c.get domain = some obj then phaseDue domain (c.objects obj).2 th else []
  | _ => []

/-- In a domain that is seen, the section does to the key what is due: its set is the one that is
stored, or what is due is so already, and no node is in a set that is replaced or dropped. -/
def Fiber.Effective (c : Client) (k : Key) : Fiber → Prop
  | .working domain obj th _ _ =>
      c.get domain = some obj →
        match th with
        | .making cmd _ | .dropping cmd _ => k.1 = domain → k.2.1 = cmd → c.view k = none
        | .adding cmd ns node => k = (domain, cmd, node.id) →
            (c.objects obj).2.get cmd = some ns ∨ c.view k = some node
        | .deleting cmd ns id => k = (domain, cmd, id) →
            (c.objects obj).2.get cmd = some ns ∨ c.view k = none
        | _ => True
  | _ => True

/-! ## The system -/

/-- `registry` is that of the server, for the domains that are queried; `asked` counts the queries
that it has not answered, and `wire` is what it has sent. -/
structure State where
  registry : Registry := fun _ => none
  subscribed : Bool := false
  asked : Nat := 0
  wire : List Message := []
  client : Client := {}
  /-- By the arrival of their messages. -/
  fibers : List Fiber := []

inductive Act
  /-- The registry changes. -/
  | change (nm : NotifyMessage)
  | query
  /-- The server answers a query. -/
  | serve (infos : List NodeInfo)
  | doRecv
  /-- A fiber runs its next section. -/
  | run (i : Nat)
deriving DecidableEq, Repr

def step (s : State) : Act → Option State
  | .change nm => some { s with
      registry := replay (nm.writes hasQueryDomain) s.registry
      wire := if s.subscribed then s.wire ++ [.notify nm] else s.wire }
  | .query => some { s with asked := s.asked + 1 }
  | .serve infos =>
      if s.asked = 0 then none
      else some { s with
        asked := s.asked - 1
        subscribed := true
        wire := s.wire ++ [.response infos] }
  | .doRecv =>
      match s.wire with
      | [] => none
      | .response infos :: wire =>
          some { s with wire, fibers := s.fibers ++ [.swapping infos] }
      | .notify nm :: wire => some { s with wire, fibers := s.fibers ++ [.notify nm.tasks] }
  | .run i =>
      match s.fibers[i]? with
      | none => none
      | some fiber =>
          match next hasQueryDomain s.client fiber with
          | none => none
          | some (client, fiber') => some { s with client, fibers := s.fibers.set i fiber' }

/-- All messages have been dealt with. -/
def Settled (s : State) : Prop := s.wire = [] ∧ ∀ fiber ∈ s.fibers, fiber = .returned

/-- When all is done, the view is the registry, if the client has been told of it. -/
def Current (s : State) : Prop :=
  s.subscribed = true → Settled s → s.client.view = s.registry

/-- The server answers with its registry. -/
def Honest (s : State) : Act → Prop
  | .serve infos => snapshot hasQueryDomain infos = s.registry
  | _ => True

section Order

variable (left : Fiber → List (Write Key (Option NSNode)))

/-- What is left of the messages that came before the one of a fiber. -/
def earlier (s : State) (i : Nat) : List (Write Key (Option NSNode)) :=
  (s.fibers.take i).flatMap left

/-- What is left of those that came, or are to come, after it. -/
def later (s : State) (i : Nat) : List (Write Key (Option NSNode)) :=
  (s.fibers.drop (i + 1)).flatMap left ++ s.wire.flatMap (Message.writes hasQueryDomain)

end Order

/-- A snapshot may be swapped in.  No later message has a domain in hand that its change is lost
with; and what is left of earlier ones does not change the snapshot, but where a later one does. -/
def OrderlySwap (s : State) (i : Nat) (infos : List NodeInfo) : Prop :=
  ∀ k,
    last (later hasQueryDomain (Fiber.writes hasQueryDomain s.client) s i) k =
        last (later hasQueryDomain (Fiber.waiting hasQueryDomain) s i) k ∧
      ((last (later hasQueryDomain (Fiber.waiting hasQueryDomain) s i) k).isSome ∨
        (last (earlier (Fiber.waiting hasQueryDomain) s i) k).getD
          (snapshot hasQueryDomain infos k) = snapshot hasQueryDomain infos k)

/-- What is left when a section has been run, of its own message and of later ones. -/
def behind (s : State) (i : Nat) (fiber : Fiber) : List (Write Key (Option NSNode)) :=
  (fiber.writes hasQueryDomain s.client).drop (fiber.due hasQueryDomain s.client).length ++
    later hasQueryDomain (Fiber.writes hasQueryDomain s.client) s i

/-- A section may be run: it does what is due, and what is left of earlier messages does not change
that, but where something behind it does. -/
def OrderlySection (s : State) (i : Nat) (fiber : Fiber) : Prop :=
  ∀ k, (last (behind hasQueryDomain s i fiber) k).isSome ∨
    match last (earlier (Fiber.writes hasQueryDomain s.client) s i) k with
    | none => fiber.Effective s.client k
    | some a => ∀ b, last (fiber.due hasQueryDomain s.client) k = some b → b = a

def Orderly (s : State) : Act → Prop
  | .run i => ∀ fiber, s.fibers[i]? = some fiber →
      match fiber with
      | .swapping infos => OrderlySwap hasQueryDomain s i infos
      | fiber => OrderlySection hasQueryDomain s i fiber
  | _ => True

end Code

end NSClient
end Ns
end Routn
