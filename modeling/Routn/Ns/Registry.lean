import Routn.Foundation.Transition
import Routn.Ns.Registration

/-!
# The registry and the sessions

The registry lists a node for a domain and a command as long as a session has it registered there.
`set` takes out of it what a session gives up, also where another session has the same node
registered; and it leaves a node alone that its session keeps with the weight that it had, also
where another session has changed the weight since.

`order` is the order in which the live sessions registered last, and is there for the proofs.
-/

namespace Routn
namespace Ns

open Foundation

/-! ## What `set` does to the registry -/

theorem NSDomain.find_foldl_del (ds : NSDomain) (cs : List UInt32) (c : UInt32) (id id' : UInt64) :
    find (cs.foldl (fun d n => (del d n id).2) ds) c id' =
      if c ∈ cs ∧ id' = id then none else find ds c id' := by
  rw [foldl_writes (fun d => find d c id') (fun d n => find_del d n c id id')]
  simp

theorem NSDomain.find_foldl_add (ds : NSDomain) (cs : List UInt32) (c : UInt32) (node : NSNode)
    (id : UInt64) :
    find (cs.foldl (fun d n => add d n node) ds) c id =
      if c ∈ cs ∧ id = node.id then some node else find ds c id := by
  rw [foldl_writes (fun d => find d c id) (fun d n => find_add d n c node id)]
  simp

namespace NSDomainSet

variable (domains : NSDomainSet) (d : String) (c : UInt32) (id : UInt64)

theorem find_delDomain (id' : UInt64) (i : Sigma fun _ : String => Cmds) :
    find (delDomain id domains i) d c id' =
      if d = i.1 ∧ (i.2.lookup c).isSome ∧ id' = id then none else find domains d c id' := by
  unfold delDomain
  cases hget : get domains i.1 with
  | none =>
      by_cases hkey : d = i.1 ∧ (i.2.lookup c).isSome ∧ id' = id
      · rw [if_pos hkey, find, hkey.1, hget]
        rfl
      · rw [if_neg hkey]
  | some ds =>
      dsimp only
      rw [find_insert, NSDomain.find_foldl_del]
      simp only [← AList.mem_keys, ← AList.lookup_isSome]
      by_cases hd : d = i.1
      · subst hd
        simp [find, hget]
      · simp [hd]

theorem find_addDomain (node : NSNode) (i : Sigma fun _ : String => Cmds) :
    find (addDomain node domains i) d c id =
      if d = i.1 ∧ (i.2.lookup c).isSome ∧ id = node.id then some node
      else find domains d c id := by
  unfold addDomain
  dsimp only
  rw [find_insert, NSDomain.find_foldl_add]
  simp only [← AList.mem_keys, ← AList.lookup_isSome]
  by_cases hd : d = i.1
  · subst hd
    cases hget : get domains i.1 with
    | none => simp [find, hget, NSDomain.find, NestedMap.get_empty]
    | some ds => simp [find, hget]
  · simp [hd]

theorem find_delAll (dels : Domain2Cmds) (id' : UInt64) :
    find (delAll domains dels id) d c id' =
      if (NestedMap.get dels d c).isSome ∧ id' = id then none else find domains d c id' := by
  have hpairs := exists_mem_entries dels d c (id' = id)
  rw [delAll, foldl_writes (fun domains => find domains d c id')
    fun domains i => find_delDomain domains d c id id' i]
  simp only [hpairs]

theorem find_addAll (news : Domain2Cmds) (node : NSNode) :
    find (addAll domains news node) d c id =
      if (NestedMap.get news d c).isSome ∧ id = node.id then some node
      else find domains d c id := by
  have hpairs := exists_mem_entries news d c (id = node.id)
  rw [addAll, foldl_writes (fun domains => find domains d c id)
    fun domains i => find_addDomain domains d c id node i]
  simp only [hpairs]

end NSDomainSet

/-- A client has its node registered for the domain and the command, under this id. -/
def NSClientInfo.Holds (info : NSClientInfo) (d : String) (c : UInt32) (id : UInt64) : Prop :=
  info.node.id = id ∧ (NestedMap.get info.domain2cmds d c).isSome

instance (info : NSClientInfo) (d : String) (c : UInt32) (id : UInt64) :
    Decidable (info.Holds d c id) :=
  inferInstanceAs (Decidable (_ ∧ _))

namespace NameServerModule

variable {domains : NSDomainSet} {d : String} {c : UInt32} {id : UInt64}

/-- The loop over `comms`, with what guards it. -/
theorem find_reweigh (comms : Domain2Cmds) (old info : NSClientInfo) :
    (if comms.keys ≠ [] ∧ old.node.weight ≠ info.node.weight then
      domains.addAll comms info.node else domains).find d c id =
      if (NestedMap.get comms d c).isSome ∧ id = info.node.id ∧
        old.node.weight ≠ info.node.weight then some info.node else domains.find d c id := by
  by_cases hweight : old.node.weight = info.node.weight
  · simp [hweight]
  · by_cases hempty : comms.keys = []
    · have hnone : NestedMap.get comms d c = none := by
        have hnot : d ∉ comms := by
          rw [AList.mem_keys, hempty]
          exact List.not_mem_nil
        rw [NestedMap.get, AList.lookup_eq_none.mpr hnot]
        rfl
      simp [hempty, hnone]
    · rw [if_pos ⟨hempty, hweight⟩, NSDomainSet.find_addAll]
      simp [hweight]

theorem find_update_first (info : NSClientInfo) :
    (update domains none (some info)).find d c id =
      if info.Holds d c id then some info.node else domains.find d c id := by
  change (domains.addAll (diff ∅ info.domain2cmds ∅ ∅ ∅).2.1 info.node).find d c id = _
  obtain ⟨-, hnews, -⟩ := get_diff ∅ info.domain2cmds d c
  have hnone : NestedMap.get (∅ : Domain2Cmds) d c = none := NestedMap.get_empty
  have hentered : ((NestedMap.get (diff ∅ info.domain2cmds ∅ ∅ ∅).2.1 d c).isSome ∧
      id = info.node.id) ↔ info.Holds d c id := by
    rw [hnews, hnone, NSClientInfo.Holds, eq_comm (a := id)]
    simp [and_comm]
  rw [NSDomainSet.find_addAll]
  simp only [hentered]

theorem find_update_gone (old : NSClientInfo) :
    (update domains (some old) none).find d c id =
      if old.Holds d c id then none else domains.find d c id := by
  change (domains.delAll (diff old.domain2cmds ∅ ∅ ∅ ∅).1 old.node.id).find d c id = _
  obtain ⟨hdels, -, -⟩ := get_diff old.domain2cmds ∅ d c
  have hnone : NestedMap.get (∅ : Domain2Cmds) d c = none := NestedMap.get_empty
  have hgone : ((NestedMap.get (diff old.domain2cmds ∅ ∅ ∅ ∅).1 d c).isSome ∧
      id = old.node.id) ↔ old.Holds d c id := by
    rw [hdels, hnone, NSClientInfo.Holds, eq_comm (a := id)]
    simp [and_comm]
  rw [NSDomainSet.find_delAll]
  simp only [hgone]

theorem find_update_again {old info : NSClientInfo} (hid : info.node.id = old.node.id) :
    (update domains (some old) (some info)).find d c id =
      if info.Holds d c id then
        if old.Holds d c id ∧ old.node.weight = info.node.weight then domains.find d c id
        else some info.node
      else if old.Holds d c id then none
      else domains.find d c id := by
  obtain ⟨hdels, hnews, hcomms⟩ := get_diff old.domain2cmds info.domain2cmds d c
  have hupdate : update domains (some old) (some info) =
      let maps := diff old.domain2cmds info.domain2cmds ∅ ∅ ∅
      let domains := (domains.delAll maps.1 old.node.id).addAll maps.2.1 info.node
      if maps.2.2.keys ≠ [] ∧ old.node.weight ≠ info.node.weight then
        domains.addAll maps.2.2 info.node
      else domains := rfl
  rw [hupdate]
  dsimp only
  rw [find_reweigh, NSDomainSet.find_addAll, NSDomainSet.find_delAll]
  simp only [hdels, hnews, hcomms, NSClientInfo.Holds, hid]
  by_cases hsame : id = old.node.id
  · subst hsame
    by_cases hold : (NestedMap.get old.domain2cmds d c).isSome
    · by_cases hinfo : (NestedMap.get info.domain2cmds d c).isSome
      · by_cases hweight : old.node.weight = info.node.weight
        · simp [hold, hinfo, hweight]
        · simp [hold, hinfo, hweight]
      · simp [hold, hinfo]
    · by_cases hinfo : (NestedMap.get info.domain2cmds d c).isSome
      · simp [hold, hinfo]
      · simp [hold, hinfo]
  · simp [hsame, Ne.symm hsame]

/-- What a registration, if there is one, has there. -/
def heldBy (info : Option NSClientInfo) (d : String) (c : UInt32) (id : UInt64) : Option NSNode :=
  info.bind fun info => if info.Holds d c id then some info.node else none

theorem id_of_heldBy {info : Option NSClientInfo} {node : NSNode}
    (h : heldBy info d c id = some node) : node.id = id := by
  obtain ⟨info, -, hnode⟩ := Option.bind_eq_some_iff.mp h
  split at hnode
  · next hholds =>
      obtain rfl := Option.some.inj hnode
      exact hholds.1
  · cases hnode

/-- **What `set` makes of an entry**: it enters what is new, takes out what is given up, and leaves
alone what is kept with its weight. -/
theorem find_update (domains : NSDomainSet) {old_info info : Option NSClientInfo}
    (hid : ∀ old new, old_info = some old → info = some new → new.node.id = old.node.id) :
    (update domains old_info info).find d c id =
      match heldBy info d c id, heldBy old_info d c id with
      | some node, some old =>
          if old.weight = node.weight then domains.find d c id else some node
      | some node, none => some node
      | none, some _ => none
      | none, none => domains.find d c id := by
  cases old_info with
  | none =>
      cases info with
      | none => rfl
      | some info =>
          rw [find_update_first]
          by_cases hinfo : info.Holds d c id
          · simp [heldBy, hinfo]
          · simp [heldBy, hinfo]
  | some old =>
      cases info with
      | none =>
          rw [find_update_gone]
          by_cases hold : old.Holds d c id
          · simp [heldBy, hold]
          · simp [heldBy, hold]
      | some info =>
          rw [find_update_again (hid old info rfl rfl)]
          by_cases hinfo : info.Holds d c id
          · by_cases hold : old.Holds d c id
            · simp [heldBy, hinfo, hold]
            · simp [heldBy, hinfo, hold]
          · by_cases hold : old.Holds d c id
            · simp [heldBy, hinfo, hold]
            · simp [heldBy, hinfo, hold]

end NameServerModule

/-! ## Runs -/

variable {RockStream : Type} [DecidableEq RockStream]

/-- What can happen at the server. -/
inductive Event (RockStream : Type)
  | register (stream : RockStream) (isConnected : Bool) (request : Option RegisterRequest)
      (response : RockResponse)
  | disconnect (stream : RockStream) (isConnected : Bool)

/-- The server, and the streams with a live session, the one that registered last in front. -/
structure Run (RockStream : Type) where
  server : NameServerModule RockStream
  order : List RockStream

open NameServerModule

namespace Run

def start : Run RockStream := ⟨.new, []⟩

/-- The state after a `set` for a stream. -/
def touch (s : Run RockStream) (stream : RockStream) (server : NameServerModule RockStream) :
    Run RockStream where
  server := server
  order := (if (server.get stream).isSome then [stream] else []) ++ s.order.filter (· ≠ stream)

def step (inet_addr : String → UInt32) (s : Run RockStream) :
    Event RockStream → Option (Run RockStream)
  | .register stream isConnected request response =>
      let (ok, server, _) := s.server.handleRegister inet_addr request response stream isConnected
      some (if ok then s.touch stream server else s)
  | .disconnect stream isConnected =>
      some (s.touch stream (s.server.onDisconnect stream isConnected).2)

/-- The latest registration of a node for a domain and a command that is still live. -/
def latest (s : Run RockStream) (d : String) (c : UInt32) (id : UInt64) : Option NSNode :=
  s.order.findSome? fun stream => heldBy (s.server.get stream) d c id

/-- **The registry lists what the live sessions have registered**, with the weight of the latest
registration. -/
structure Consistent (s : Run RockStream) : Prop where
  nodes : ∀ d c id, (s.server.domains.find d c id).isSome ↔
    ∃ stream info, s.server.get stream = some info ∧ info.Holds d c id
  weights : ∀ d c id node, s.server.domains.find d c id = some node →
    node.id = id ∧ (s.latest d c id).map NSNode.weight = some node.weight

/-- No other session has the node registered there. -/
def NoOther (s : Run RockStream) (stream : RockStream) (d : String) (c : UInt32) (id : UInt64) :
    Prop :=
  ∀ other info, other ≠ stream → s.server.get other = some info → ¬ info.Holds d c id

end Run

/-- A request registers its node for this domain and this command. -/
def RegisterRequest.Names (rr : RegisterRequest) (d : String) (c : UInt32) : Prop :=
  ∃ info ∈ rr.info, info.domain = some d ∧ c ∈ info.cmds

instance (rr : RegisterRequest) (d : String) (c : UInt32) : Decidable (rr.Names d c) :=
  inferInstanceAs (Decidable (∃ info ∈ rr.info, info.domain = some d ∧ c ∈ info.cmds))

/-- The weight that a request gives to its node. -/
def RegisterRequest.weight (rr : RegisterRequest) : Option UInt32 :=
  rr.info.head?.bind RegisterInfo.weight

namespace Run

/-- A session gives nothing up that another one has too, and what it keeps with the weight that it
had still has this weight. -/
def Harmless (inet_addr : String → UInt32) (s : Run RockStream) : Event RockStream → Prop
  | .disconnect stream _ => ∀ d c id info, s.server.get stream = some info →
      info.Holds d c id → s.NoOther stream d c id
  | .register _ _ none _ => True
  | .register stream isConnected (some rr) _ =>
      AllPass inet_addr (s.server.get stream) none rr.info →
        ∀ d c id info, s.server.get stream = some info → info.Holds d c id →
          if isConnected ∧ rr.Names d c then
            rr.weight = some info.node.weight →
              (s.latest d c id).map NSNode.weight = some info.node.weight
          else s.NoOther stream d c id

/-- The sessions stand in the order. -/
def Ordered (s : Run RockStream) : Prop :=
  ∀ stream, (s.server.get stream).isSome ↔ stream ∈ s.order

/-! ## One step -/

variable {s : Run RockStream} {stream : RockStream} {d : String} {c : UInt32} {id : UInt64}

/-- Two nodes with the same id and weight, or none. -/
def Alike (node node' : Option NSNode) : Prop :=
  node.map NSNode.id = node'.map NSNode.id ∧ node.map NSNode.weight = node'.map NSNode.weight

/-- The registry is right about an entry. -/
def Listed (s : Run RockStream) (d : String) (c : UInt32) (id : UInt64) : Prop :=
  Alike (s.server.domains.find d c id) (s.latest d c id)

theorem id_of_latest {node : NSNode} (h : s.latest d c id = some node) : node.id = id := by
  obtain ⟨stream, -, hnode⟩ := List.exists_of_findSome?_eq_some h
  exact id_of_heldBy hnode

theorem latest_isSome (hordered : s.Ordered) :
    (s.latest d c id).isSome ↔
      ∃ stream info, s.server.get stream = some info ∧ info.Holds d c id := by
  rw [latest, List.findSome?_isSome_iff]
  constructor
  · rintro ⟨stream, -, hsome⟩
    obtain ⟨node, hnode⟩ := Option.isSome_iff_exists.mp hsome
    obtain ⟨info, hinfo, hheld⟩ := Option.bind_eq_some_iff.mp hnode
    split at hheld
    · next hholds => exact ⟨stream, info, hinfo, hholds⟩
    · cases hheld
  · rintro ⟨stream, info, hinfo, hholds⟩
    refine ⟨stream, (hordered stream).mp (by rw [hinfo]; rfl), ?_⟩
    rw [heldBy, hinfo, Option.bind_some, if_pos hholds]
    rfl

theorem consistent_iff_listed (hordered : s.Ordered) :
    s.Consistent ↔ ∀ d c id, s.Listed d c id := by
  constructor
  · rintro ⟨hnodes, hweights⟩ d c id
    have hsome := (hnodes d c id).trans (latest_isSome hordered).symm
    unfold Listed
    cases hfind : s.server.domains.find d c id with
    | none =>
        have hnone : s.latest d c id = none := by
          rw [← Option.not_isSome_iff_eq_none, ← hsome, hfind]
          exact Bool.false_ne_true
        rw [hnone]
        exact ⟨rfl, rfl⟩
    | some node =>
        obtain ⟨hid, hweight⟩ := hweights d c id node hfind
        obtain ⟨other, hother, hsame⟩ := Option.map_eq_some_iff.mp hweight
        rw [hother]
        exact ⟨congrArg some (hid.trans (id_of_latest hother).symm), congrArg some hsame.symm⟩
  · intro hlisted
    constructor
    · intro d c id
      rw [← latest_isSome hordered, ← Option.isSome_map, (hlisted d c id).1, Option.isSome_map]
    · intro d c id node hfind
      obtain ⟨hids, hweights⟩ := hlisted d c id
      rw [hfind] at hids hweights
      refine ⟨?_, hweights.symm⟩
      obtain ⟨other, hother, hsame⟩ := Option.map_eq_some_iff.mp hids.symm
      exact hsame.symm.trans (id_of_latest hother)

/-- The sessions behind a `set`. -/
theorem get_set (m : NameServerModule RockStream) (isConnected : Bool) (info : Option NSClientInfo)
    (other : RockStream) :
    (m.set stream isConnected info).get other =
      if other = stream then (if isConnected then info else none) else m.get other := by
  unfold NameServerModule.set NameServerModule.get
  cases (if isConnected then info else none) with
  | none =>
      by_cases h : other = stream
      · subst h
        simp
      · simp [h, AList.lookup_erase_ne h]
  | some info =>
      by_cases h : other = stream
      · subst h
        simp
      · simp [h, AList.lookup_insert_ne h]

theorem Ordered.touch (hordered : s.Ordered) {server : NameServerModule RockStream}
    (hget : ∀ other, other ≠ stream → server.get other = s.server.get other) :
    (s.touch stream server).Ordered := by
  intro other
  change (server.get other).isSome ↔ _ ∈ _ ++ _
  rw [List.mem_append, List.mem_filter, ← hordered other]
  by_cases h : other = stream
  · subst h
    by_cases hsome : (server.get other).isSome
    · simp [hsome]
    · simp [hsome]
  · rw [hget other h]
    by_cases hsome : (server.get stream).isSome
    · simp [hsome, h]
    · simp [hsome, h]

/-- The latest registration among the other sessions. -/
def others (s : Run RockStream) (stream : RockStream) (d : String) (c : UInt32) (id : UInt64) :
    Option NSNode :=
  (s.order.filter (· ≠ stream)).findSome? fun stream => heldBy (s.server.get stream) d c id

theorem latest_touch {server : NameServerModule RockStream}
    (hget : ∀ other, other ≠ stream → server.get other = s.server.get other) :
    (s.touch stream server).latest d c id =
      (heldBy (server.get stream) d c id).or (s.others stream d c id) := by
  have hothers : (s.order.filter (· ≠ stream)).findSome?
      (fun stream => heldBy (server.get stream) d c id) = s.others stream d c id := by
    unfold others
    induction s.order with
    | nil => rfl
    | cons first rest ih =>
        by_cases h : first = stream
        · rw [List.filter_cons_of_neg (by simpa using h), ih]
        · rw [List.filter_cons_of_pos (by simpa using h), List.findSome?_cons,
            List.findSome?_cons, hget first h, ih]
  unfold latest touch
  rw [List.findSome?_append, hothers]
  cases hstream : server.get stream with
  | none => rfl
  | some info =>
      simp [hstream]

/-- A session that has nothing there does not matter. -/
theorem latest_eq_others (hnone : heldBy (s.server.get stream) d c id = none) :
    s.latest d c id = s.others stream d c id := by
  unfold latest others
  induction s.order with
  | nil => rfl
  | cons first rest ih =>
      by_cases h : first = stream
      · subst h
        simp [hnone, ih]
      · simp [h, ih, List.findSome?_cons]

theorem others_eq_none (hordered : s.Ordered) :
    s.others stream d c id = none ↔ s.NoOther stream d c id := by
  unfold others NoOther
  rw [List.findSome?_eq_none_iff]
  constructor
  · intro hnone other info hne hinfo hholds
    have hmem : other ∈ s.order := (hordered other).mp (by rw [hinfo]; rfl)
    have := hnone other (List.mem_filter.mpr ⟨hmem, decide_eq_true hne⟩)
    rw [heldBy, hinfo, Option.bind_some, if_pos hholds] at this
    cases this
  · intro hnone other hother
    cases hinfo : s.server.get other with
    | none => rfl
    | some info =>
        have hne := of_decide_eq_true (List.mem_filter.mp hother).2
        rw [heldBy, Option.bind_some, if_neg (hnone other info hne hinfo)]

/-- **What a `set` does to the consistency of an entry.** -/
theorem listed_touch_iff (hordered : s.Ordered) (hlisted : s.Listed d c id) (isConnected : Bool)
    (given : Option NSClientInfo)
    (hid : ∀ old new, s.server.get stream = some old → given = some new →
      new.node.id = old.node.id) :
    (s.touch stream (s.server.set stream isConnected given)).Listed d c id ↔
      ∀ old, heldBy (s.server.get stream) d c id = some old →
        match heldBy (if isConnected then given else none) d c id with
        | some node => old.weight = node.weight →
            (s.latest d c id).map NSNode.weight = some node.weight
        | none => s.NoOther stream d c id := by
  have hget : ∀ other, other ≠ stream →
      (s.server.set stream isConnected given).get other = s.server.get other := by
    intro other hne
    rw [get_set, if_neg hne]
  have hgiven : ∀ old new, s.server.get stream = some old →
      (if isConnected then given else none) = some new → new.node.id = old.node.id := by
    intro old new hold hnew
    split at hnew
    · exact hid old new hold hnew
    · cases hnew
  have hfind : (s.server.set stream isConnected given).domains.find d c id = _ :=
    find_update s.server.domains hgiven
  unfold Listed
  rw [latest_touch hget, get_set, if_pos rfl]
  change Alike ((s.server.set stream isConnected given).domains.find d c id) _ ↔ _
  rw [hfind]
  cases hnew : heldBy (if isConnected then given else none) d c id with
  | some node =>
      cases hold : heldBy (s.server.get stream) d c id with
      | none => simp [Alike]
      | some old =>
          simp only [Option.some.injEq, forall_eq', Option.some_or]
          by_cases hweight : old.weight = node.weight
          · rw [if_pos hweight]
            simp only [hweight, forall_const]
            obtain ⟨hids, hweights⟩ := hlisted
            unfold Alike
            rw [hids, hweights]
            constructor
            · exact fun h => h.2
            · intro h
              refine ⟨?_, h⟩
              obtain ⟨other, hother, -⟩ := Option.map_eq_some_iff.mp h
              rw [hother, Option.map_some, Option.map_some, id_of_latest hother,
                id_of_heldBy hnew]
          · rw [if_neg hweight]
            simp [Alike, hweight]
  | none =>
      cases hold : heldBy (s.server.get stream) d c id with
      | none =>
          simp only [reduceCtorEq, IsEmpty.forall_iff, implies_true, iff_true, Option.none_or]
          rw [← latest_eq_others hold]
          exact hlisted
      | some old =>
          simp only [Option.some.injEq, forall_eq', Option.none_or]
          rw [← others_eq_none hordered]
          cases s.others stream d c id with
          | none => simp [Alike]
          | some other => simp [Alike]

/-! ## What a request registers -/

variable {inet_addr : String → UInt32}

/-- The commands of an info are entered for its domain. -/
theorem get_foldl_insert (m : Domain2Cmds) (domain : String) (cmds : List UInt32) :
    (NestedMap.get (cmds.foldl (fun m cmd => NestedMap.insert m domain cmd ()) m) d c).isSome ↔
      (d = domain ∧ c ∈ cmds) ∨ (NestedMap.get m d c).isSome := by
  have hstep : ∀ (m : Domain2Cmds) cmd, NestedMap.get (NestedMap.insert m domain cmd ()) d c =
      if d = domain ∧ c = cmd then some () else NestedMap.get m d c :=
    fun m cmd => NestedMap.get_insert
  rw [foldl_writes (fun m : Domain2Cmds => NestedMap.get m d c) hstep]
  by_cases hmem : d = domain ∧ c ∈ cmds
  · obtain ⟨rfl, hmem⟩ := hmem
    simp [hmem]
  · have hnot : ¬ ∃ cmd ∈ cmds, d = domain ∧ c = cmd := by
      rintro ⟨cmd, hcmd, hd, rfl⟩
      exact hmem ⟨hd, hcmd⟩
    rw [if_neg hnot]
    simp [hmem]

/-- What the loop has registered: the node of the first info, and all pairs. -/
theorem foldlM_ok (old_value : Option NSClientInfo) {infos : List RegisterInfo}
    {n : NSClientInfo} {v : Option NSClientInfo}
    (h : infos.foldlM (registerInfo inet_addr old_value) (some n) = .ok v) :
    ∃ n', v = some n' ∧ n'.node = n.node ∧ ∀ d c, (NestedMap.get n'.domain2cmds d c).isSome ↔
      (∃ info ∈ infos, info.domain = some d ∧ c ∈ info.cmds) ∨
        (NestedMap.get n.domain2cmds d c).isSome := by
  induction infos generalizing n with
  | nil =>
      obtain rfl : some n = v := Except.ok.inj h
      exact ⟨n, rfl, rfl, by simp⟩
  | cons info infos ih =>
      rw [List.foldlM_cons] at h
      obtain ⟨-, domain, ns_node, hdomain, -, -, hok⟩ | ⟨-, e, herror⟩ :=
        registerInfo_cases inet_addr old_value (some n) info
      · rw [hok] at h
        obtain ⟨n', hv, hnode, hpairs⟩ := ih h
        refine ⟨n', hv, hnode, fun d c => ?_⟩
        rw [hpairs, get_foldl_insert, List.exists_mem_cons_iff, hdomain]
        simp only [Option.getD_some, Option.some.injEq, eq_comm (a := domain)]
        exact or_left_comm.trans or_assoc.symm
      · rw [herror] at h
        cases h

/-- What an accepted request makes of a session. -/
theorem foldlM_registers {rr : RegisterRequest} {v : Option NSClientInfo} {old : NSClientInfo}
    (h : rr.info.foldlM (registerInfo inet_addr (some old)) none = .ok v) :
    (v = none ∧ rr.info = []) ∨
      ∃ n, v = some n ∧ n.node.id = old.node.id ∧ rr.weight = some n.node.weight ∧
        ∀ d c, (NestedMap.get n.domain2cmds d c).isSome ↔ rr.Names d c := by
  obtain ⟨infos⟩ := rr
  cases infos with
  | nil => exact .inl ⟨(Except.ok.inj h).symm, rfl⟩
  | cons info infos =>
      refine .inr ?_
      dsimp only at h
      rw [List.foldlM_cons] at h
      obtain ⟨hpasses, domain, ns_node, hdomain, hid, hweight, hok⟩ | ⟨-, e, herror⟩ :=
        registerInfo_cases inet_addr (some old) none info
      · rw [hok] at h
        obtain ⟨n, hv, hnode, hpairs⟩ := foldlM_ok (some old) h
        refine ⟨n, hv, ?_, ?_, fun d c => ?_⟩
        · rw [hnode]
          exact (hpasses.old _ hid old rfl).symm
        · rw [hnode]
          exact hweight
        · rw [hpairs, get_foldl_insert, RegisterRequest.Names, List.exists_mem_cons_iff, hdomain]
          have hempty : (NestedMap.get (∅ : Domain2Cmds) d c).isSome = false := by
            rw [NestedMap.get_empty]
            rfl
          simp only [Option.getD_none, Option.some.injEq, eq_comm (a := domain), hempty,
            Bool.false_eq_true, or_false]
          exact or_comm
      · rw [herror] at h
        cases h

/-- What the session of an accepted request holds. -/
theorem heldBy_registers {rr : RegisterRequest} {v : Option NSClientInfo} {old : NSClientInfo}
    (isConnected : Bool) (h : rr.info.foldlM (registerInfo inet_addr (some old)) none = .ok v)
    (hid : old.node.id = id) :
    if isConnected ∧ rr.Names d c then
      ∃ node, heldBy (if isConnected then v else none) d c id = some node ∧
        rr.weight = some node.weight
    else heldBy (if isConnected then v else none) d c id = none := by
  obtain ⟨rfl, hempty⟩ | ⟨n, rfl, hsame, hweight, hpairs⟩ := foldlM_registers h
  · have hnot : ¬ rr.Names d c := by
      rintro ⟨info, hinfo, -⟩
      rw [hempty] at hinfo
      cases hinfo
    rw [if_neg fun h => hnot h.2]
    cases isConnected <;> rfl
  · have hholds : n.Holds d c id ↔ rr.Names d c := by
      rw [NSClientInfo.Holds, hpairs, hsame, hid]
      simp
    cases isConnected with
    | false => simp [heldBy]
    | true =>
        by_cases hnames : rr.Names d c
        · simp [heldBy, hholds, hnames, hweight]
        · simp [heldBy, hholds, hnames]

/-! ## All steps -/

theorem set_ordered (hordered : s.Ordered) (isConnected : Bool) (given : Option NSClientInfo) :
    (s.touch stream (s.server.set stream isConnected given)).Ordered :=
  hordered.touch fun other hne => by rw [get_set, if_neg hne]

theorem step_register (isConnected : Bool) (rr : RegisterRequest) (response : RockResponse) :
    s.step inet_addr (.register stream isConnected (some rr) response) =
      match rr.info.foldlM (registerInfo inet_addr (s.server.get stream)) none with
      | .error _ => some s
      | .ok v => some (s.touch stream (s.server.set stream isConnected v)) := by
  cases hloop : rr.info.foldlM (registerInfo inet_addr (s.server.get stream)) none with
  | error e =>
      have hhandle : s.server.handleRegister inet_addr (some rr) response stream isConnected =
          (false, s.server, response) := by
        simp only [NameServerModule.handleRegister, hloop]
      simp [step, hhandle]
  | ok v =>
      have hhandle : s.server.handleRegister inet_addr (some rr) response stream isConnected =
          (true, s.server.set stream isConnected v,
            { response with result := 0, resStr := "ok".toUTF8.toList }) := by
        simp only [NameServerModule.handleRegister, hloop]
      simp [step, hhandle]

theorem step_ordered (hordered : s.Ordered) {event : Event RockStream} {s' : Run RockStream}
    (hstep : s.step inet_addr event = some s') : s'.Ordered := by
  cases event with
  | disconnect stream isConnected =>
      obtain rfl := Option.some.inj hstep
      exact set_ordered hordered isConnected none
  | register stream isConnected request response =>
      cases request with
      | none =>
          obtain rfl := Option.some.inj hstep
          exact hordered
      | some rr =>
          rw [step_register] at hstep
          split at hstep
          · obtain rfl := Option.some.inj hstep
            exact hordered
          · obtain rfl := Option.some.inj hstep
            exact set_ordered hordered isConnected _

/-- What a `set` does to the consistency of the registry. -/
theorem set_consistent_iff (stream : RockStream) (hordered : s.Ordered)
    (hconsistent : s.Consistent) (isConnected : Bool)
    (given : Option NSClientInfo)
    (hid : ∀ old new, s.server.get stream = some old → given = some new →
      new.node.id = old.node.id) :
    (s.touch stream (s.server.set stream isConnected given)).Consistent ↔
      ∀ d c id info, s.server.get stream = some info → info.Holds d c id →
        match heldBy (if isConnected then given else none) d c id with
        | some node => info.node.weight = node.weight →
            (s.latest d c id).map NSNode.weight = some node.weight
        | none => s.NoOther stream d c id := by
  rw [consistent_iff_listed (set_ordered hordered isConnected given)]
  have hlisted := (consistent_iff_listed hordered).mp hconsistent
  apply forall_congr'
  intro d
  apply forall_congr'
  intro c
  apply forall_congr'
  intro id
  rw [listed_touch_iff hordered (hlisted d c id) isConnected given hid]
  constructor
  · intro h info hinfo hholds
    apply h
    rw [heldBy, hinfo, Option.bind_some, if_pos hholds]
  · intro h node hnode
    obtain ⟨info, hinfo, hheld⟩ := Option.bind_eq_some_iff.mp hnode
    split at hheld
    · next hholds =>
        obtain rfl := Option.some.inj hheld
        exact h info hinfo hholds
    · cases hheld

/-- **A step keeps the registry consistent** exactly when it is harmless. -/
theorem step_consistent_iff (hordered : s.Ordered) (hconsistent : s.Consistent)
    {event : Event RockStream} {s' : Run RockStream}
    (hstep : s.step inet_addr event = some s') :
    s'.Consistent ↔ s.Harmless inet_addr event := by
  cases event with
  | disconnect stream isConnected =>
      obtain rfl := Option.some.inj hstep
      have hid : ∀ old new, s.server.get stream = some old → (none : Option NSClientInfo) =
          some new → new.node.id = old.node.id := fun old new _ hnew => by cases hnew
      have hset := set_consistent_iff stream hordered hconsistent isConnected none hid
      have hnone : (if isConnected then none else none : Option NSClientInfo) = none := by
        cases isConnected <;> rfl
      simp only [hnone] at hset
      exact hset
  | register stream isConnected request response =>
      cases request with
      | none =>
          obtain rfl := Option.some.inj hstep
          exact iff_of_true hconsistent trivial
      | some rr =>
          rw [step_register] at hstep
          obtain ⟨hall, v, hv⟩ | ⟨hnot, e, he⟩ :=
            foldlM_cases inet_addr (s.server.get stream) rr.info none
          · rw [hv] at hstep
            obtain rfl := Option.some.inj hstep
            cases hold : s.server.get stream with
            | none =>
                have hid : ∀ old new, s.server.get stream = some old → v = some new →
                    new.node.id = old.node.id := by
                  intro old new h
                  rw [hold] at h
                  cases h
                refine (set_consistent_iff stream hordered hconsistent isConnected v hid).trans
                  (iff_of_true ?_ ?_)
                · intro d c id info hinfo
                  rw [hold] at hinfo
                  cases hinfo
                · intro _ d c id info hinfo
                  rw [hold] at hinfo
                  cases hinfo
            | some old =>
                rw [hold] at hv
                have hid : ∀ old new, s.server.get stream = some old → v = some new →
                    new.node.id = old.node.id := by
                  intro old' new hold' hnew
                  obtain rfl := Option.some.inj (hold.symm.trans hold')
                  obtain ⟨hnone, -⟩ | ⟨n, hn, hsame, -⟩ := foldlM_registers hv
                  · rw [hnone] at hnew
                    cases hnew
                  · obtain rfl := Option.some.inj (hn.symm.trans hnew)
                    exact hsame
                refine (set_consistent_iff stream hordered hconsistent isConnected v hid).trans
                  (Iff.trans ?_ (forall_prop_of_true hall).symm)
                apply forall_congr'
                intro d
                apply forall_congr'
                intro c
                apply forall_congr'
                intro id
                apply forall_congr'
                intro info
                apply imp_congr_right
                intro hinfo
                apply imp_congr_right
                intro hholds
                obtain rfl := Option.some.inj (hold.symm.trans hinfo)
                have hnew := heldBy_registers (d := d) (c := c) isConnected hv hholds.1
                split at hnew
                · next hnames =>
                    obtain ⟨node, hnode, hweight⟩ := hnew
                    rw [hnode, if_pos hnames, hweight]
                    simp only [Option.some.injEq]
                    constructor
                    · intro h heq
                      rw [← heq]
                      exact h heq.symm
                    · intro h heq
                      rw [← heq]
                      exact h heq.symm
                · next hnames =>
                    rw [hnew, if_neg hnames]
          · rw [he] at hstep
            obtain rfl := Option.some.inj hstep
            exact iff_of_true hconsistent fun hall => absurd hall hnot

theorem start_ordered : (start : Run RockStream).Ordered := by
  intro stream
  simp [start, NameServerModule.new, NameServerModule.get]

theorem start_consistent : (start : Run RockStream).Consistent := by
  rw [consistent_iff_listed start_ordered]
  intro d c id
  exact ⟨rfl, rfl⟩

/-- **The registry over any history**: it lists what the live sessions have registered after each
step exactly when every step is harmless, so that a session gives nothing up that another one has
too, and keeps nothing whose weight another one has changed. -/
theorem registry_iff (inet_addr : String → UInt32) (events : List (Event RockStream)) :
    runAlways (step inet_addr) Consistent events start ↔
      runMeets (step inet_addr) (Harmless inet_addr) events start :=
  runAlways_iff (fun hordered hstep => step_ordered hordered hstep)
    (fun hordered hconsistent hstep => step_consistent_iff hordered hconsistent hstep)
    (fun {s event} hrefused => by cases event <;> cases hrefused) events start_ordered
    start_consistent

/-- Two sessions register one node, and the first of them ends. -/
def reconnected : List (Event Bool) :=
  [.register false true (some (requestAt "10.0.0.1")) {},
    .register true true (some (requestAt "10.0.0.1")) {}, .disconnect false false]

/-- **A server that reconnects** before its old session ends is no longer listed. -/
theorem not_registry_reconnected :
    ¬ runAlways (step oneAddress) Consistent reconnected start := by
  intro halways
  have hend : ∃ s', runActions (step oneAddress) reconnected start = some s' ∧
      s'.server.domains.find "cpp" 1 0x0100000a00000050 = none ∧
      (s'.server.get true).any (fun info => info.Holds "cpp" 1 0x0100000a00000050) :=
    ⟨_, rfl, by decide, by decide⟩
  obtain ⟨s', hrun, hfind, hheld⟩ := hend
  have hlisted : (s'.server.domains.find "cpp" 1 0x0100000a00000050).isSome := by
    rw [(halways.end hrun).nodes]
    cases hinfo : s'.server.get true with
    | none =>
        rw [hinfo] at hheld
        cases hheld
    | some info =>
        rw [hinfo] at hheld
        exact ⟨true, info, hinfo, of_decide_eq_true hheld⟩
  rw [hfind] at hlisted
  cases hlisted

end Run

end Ns
end Routn
