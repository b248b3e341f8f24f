import Routn.Ns.NameServerModule

/-!
# Requests that are refused

`handleRegister` looks at one info after the other, and changes something only behind the loop.  The
address of a node is looked for in the upper half of its id, and is refused where this is zero.
`inet_addr` gives zero for 0.0.0.0 only, and 0xffffffff for what is not an address.
-/

namespace Routn
namespace Ns

open Foundation

/-! ## What can be wrong with a request -/

/-- A field, or the commands, are missing. -/
def RegisterInfo.Lacks (info : RegisterInfo) : Prop :=
  info.node = none ∨ info.domain = none ∨ info.cmds = [] ∨
    ∃ node, info.node = some node ∧ (node.ip = none ∨ node.port = none ∨ node.weight = none)

def RegisterInfo.ip (info : RegisterInfo) : Option String := info.node.bind Node.ip

/-- The id of the node that an info names. -/
def RegisterInfo.id (inet_addr : String → UInt32) (info : RegisterInfo) : Option UInt64 :=
  info.node.bind fun node => node.ip.bind fun ip => node.port.map fun port =>
    NSNode.GetID inet_addr ip port.toUInt16

def RegisterInfo.weight (info : RegisterInfo) : Option UInt32 := info.node.bind Node.weight

/-- Both name the same node, if they name one. -/
def RegisterInfo.Agrees (inet_addr : String → UInt32) (earlier info : RegisterInfo) : Prop :=
  ∀ id id', earlier.id inet_addr = some id → info.id inet_addr = some id' → id = id'

namespace RegisterRequest

/-- An info lacks something, or names a node other than the session's or an earlier one's. -/
def Faulty (inet_addr : String → UInt32) (session : Option NSClientInfo) (rr : RegisterRequest) :
    Prop :=
  (∃ info ∈ rr.info, info.Lacks) ∨
    (∃ info ∈ rr.info, ∃ id, info.id inet_addr = some id ∧
      ∃ old, session = some old ∧ old.node.id ≠ id) ∨
    ¬ rr.info.Pairwise (RegisterInfo.Agrees inet_addr)

/-- An info has an address with this property. -/
def HasIp (P : String → Prop) (rr : RegisterRequest) : Prop :=
  ∃ info ∈ rr.info, ∃ ip, info.ip = some ip ∧ P ip

/-- Nothing is done for a request that is faulty or has an address that is none. -/
def Validated {RockStream : Type} [DecidableEq RockStream] (inet_addr : String → UInt32)
    (valid : String → Prop) (m : NameServerModule RockStream) (rr : RegisterRequest)
    (response : RockResponse) (stream : RockStream) (isConnected : Bool) : Prop :=
  rr.Faulty inet_addr (m.get stream) ∨ rr.HasIp (¬ valid ·) →
    m.handleRegister inet_addr (some rr) response stream isConnected = (false, m, response)

end RegisterRequest

/-! ## One info -/

variable {inet_addr : String → UInt32} {old_value new_value : Option NSClientInfo}
  {info : RegisterInfo}

/-- The node of an info agrees with a registration. -/
def Matches (value : Option NSClientInfo) (id : UInt64) : Prop :=
  ∀ v, value = some v → v.node.id = id

theorem checkId_ok {which : String} {value : Option NSClientInfo} {ns_node : NSNode} :
    checkId which value ns_node = .ok () ↔ Matches value ns_node.id := by
  unfold checkId Matches
  cases value with
  | none => simp
  | some value =>
      dsimp only
      split
      · next hne => simpa using hne
      · next heq => simpa using heq

/-- What the loop asks of an info. -/
structure Passes (inet_addr : String → UInt32) (old_value new_value : Option NSClientInfo)
    (info : RegisterInfo) : Prop where
  complete : ¬ info.Lacks
  ip : ∀ ip, info.ip = some ip → inet_addr ip ≠ 0
  old : ∀ id, info.id inet_addr = some id → Matches old_value id
  new : ∀ id, info.id inet_addr = some id → Matches new_value id

theorem id_fields (inet_addr : String → UInt32) {node : Node} {ip : String} {port : UInt32}
    (hnode : info.node = some node) (hip : node.ip = some ip) (hport : node.port = some port) :
    info.id inet_addr = some (NSNode.GetID inet_addr ip port.toUInt16) := by
  unfold RegisterInfo.id
  rw [hnode, Option.bind_some, hip, Option.bind_some, hport]
  rfl

theorem id_shiftRight_eq_zero {ip : String} {port : UInt16} :
    NSNode.GetID inet_addr ip port >>> 32 = 0 ↔ inet_addr ip = 0 := by
  rw [NSNode.getID_shiftRight, ← UInt64.toNat_inj, ← UInt32.toNat_inj, UInt32.toNat_toUInt64]
  rfl

/-- An info passes, or ends the loop. -/
theorem registerInfo_cases (inet_addr : String → UInt32) (old_value new_value : Option NSClientInfo)
    (info : RegisterInfo) :
    (Passes inet_addr old_value new_value info ∧ ∃ domain ns_node,
      info.domain = some domain ∧ info.id inet_addr = some ns_node.id ∧
      info.weight = some ns_node.weight ∧
      registerInfo inet_addr old_value new_value info =
        let value := new_value.getD ⟨ns_node, ∅⟩
        .ok (some { value with
          domain2cmds :=
            info.cmds.foldl (fun m cmd => NestedMap.insert m domain cmd ()) value.domain2cmds })) ∨
    (¬ Passes inet_addr old_value new_value info ∧ ∃ e,
      registerInfo inet_addr old_value new_value info = .error e) := by
  unfold registerInfo
  split
  · next hnode => exact .inr ⟨fun h => h.complete (.inl hnode), _, rfl⟩
  next node hnode =>
  split
  · next hdomain => exact .inr ⟨fun h => h.complete (.inr (.inl hdomain)), _, rfl⟩
  next domain hdomain =>
  split
  · next hcmds =>
      exact .inr ⟨fun h => h.complete (.inr (.inr (.inl (List.length_eq_zero_iff.mp hcmds)))),
        _, rfl⟩
  next hcmds =>
  split
  · next hip =>
      exact .inr ⟨fun h => h.complete (.inr (.inr (.inr ⟨node, hnode, .inl hip⟩))), _, rfl⟩
  next ip hip =>
  split
  · next hport =>
      exact .inr ⟨fun h => h.complete (.inr (.inr (.inr ⟨node, hnode, .inr (.inl hport)⟩))), _, rfl⟩
  next port hport =>
  split
  · next hweight =>
      exact .inr ⟨fun h => h.complete (.inr (.inr (.inr ⟨node, hnode, .inr (.inr hweight)⟩))),
        _, rfl⟩
  next weight hweight =>
  have hid := id_fields inet_addr hnode hip hport
  have hinfoip : info.ip = some ip := by
    rw [RegisterInfo.ip, hnode, Option.bind_some, hip]
  dsimp only
  split
  · next hzero =>
      exact .inr ⟨fun h => h.ip ip hinfoip (id_shiftRight_eq_zero.mp hzero), _, rfl⟩
  next hzero =>
  cases hold : checkId "old" old_value (NSNode.new inet_addr ip port.toUInt16 weight) with
  | error e =>
      refine .inr ⟨fun h => ?_, e, rfl⟩
      rw [checkId_ok.mpr (h.old _ hid)] at hold
      cases hold
  | ok u =>
  cases hnew : checkId "new" new_value (NSNode.new inet_addr ip port.toUInt16 weight) with
  | error e =>
      refine .inr ⟨fun h => ?_, e, rfl⟩
      rw [checkId_ok.mpr (h.new _ hid)] at hnew
      cases hnew
  | ok u' =>
  have hinfoweight : info.weight = some weight := by
    rw [RegisterInfo.weight, hnode, Option.bind_some, hweight]
  refine .inl ⟨⟨?_, ?_, ?_, ?_⟩, domain, _, hdomain, hid, hinfoweight, rfl⟩
  · rintro (h | h | h | ⟨node', hnode', h⟩)
    · simp [hnode] at h
    · simp [hdomain] at h
    · exact hcmds (List.length_eq_zero_iff.mpr h)
    · obtain rfl := Option.some.inj (hnode.symm.trans hnode')
      simp [hip, hport, hweight] at h
  · intro ip' h
    obtain rfl := Option.some.inj (hinfoip.symm.trans h)
    exact fun h0 => hzero (id_shiftRight_eq_zero.mpr h0)
  · intro id h
    obtain rfl := Option.some.inj (hid.symm.trans h)
    exact checkId_ok.mp hold
  · intro id h
    obtain rfl := Option.some.inj (hid.symm.trans h)
    exact checkId_ok.mp hnew

/-- The value behind an info that passes. -/
theorem registerInfo_passes (h : Passes inet_addr old_value new_value info) :
    ∃ n, registerInfo inet_addr old_value new_value info = .ok (some n) ∧
      info.id inet_addr = some n.node.id := by
  obtain ⟨-, domain, ns_node, -, hid, -, hok⟩ | ⟨hnot, -⟩ :=
    registerInfo_cases inet_addr old_value new_value info
  · refine ⟨_, hok, ?_⟩
    rw [hid]
    cases new_value with
    | none => rfl
    | some v => exact congrArg some (h.new _ hid v rfl).symm
  · exact absurd h hnot

/-! ## The loop -/

/-- The infos are all complete, have an address other than zero, and name one node. -/
structure AllPass (inet_addr : String → UInt32) (old_value new_value : Option NSClientInfo)
    (infos : List RegisterInfo) : Prop where
  each : ∀ info ∈ infos, Passes inet_addr old_value new_value info
  agree : infos.Pairwise (RegisterInfo.Agrees inet_addr)

theorem allPass_cons {infos : List RegisterInfo} {n : NSClientInfo}
    (hpasses : Passes inet_addr old_value new_value info)
    (hid : info.id inet_addr = some n.node.id) :
    AllPass inet_addr old_value new_value (info :: infos) ↔
      AllPass inet_addr old_value (some n) infos := by
  constructor
  · rintro ⟨heach, hagree⟩
    obtain ⟨hfirst, hagree⟩ := List.pairwise_cons.mp hagree
    refine ⟨fun other hother => ?_, hagree⟩
    obtain ⟨hcomplete, hip, hold, -⟩ := heach other (List.mem_cons_of_mem info hother)
    refine ⟨hcomplete, hip, hold, fun id h v hv => ?_⟩
    obtain rfl := Option.some.inj hv
    exact hfirst other hother _ _ hid h
  · rintro ⟨heach, hagree⟩
    refine ⟨fun other hother => ?_,
      List.pairwise_cons.mpr ⟨fun other hother id id' h h' => ?_, hagree⟩⟩
    · obtain rfl | hother := List.mem_cons.mp hother
      · exact hpasses
      obtain ⟨hcomplete, hip, hold, hnew⟩ := heach other hother
      refine ⟨hcomplete, hip, hold, fun id h v hv => ?_⟩
      -- An earlier info agreed with the first, and so with the others.
      exact (hpasses.new _ hid v hv).trans (hnew id h n rfl)
    · obtain rfl := Option.some.inj (hid.symm.trans h)
      exact (heach other hother).new id' h' n rfl

theorem foldlM_cases (inet_addr : String → UInt32) (old_value : Option NSClientInfo)
    (infos : List RegisterInfo) (new_value : Option NSClientInfo) :
    (AllPass inet_addr old_value new_value infos ∧ ∃ v,
      infos.foldlM (registerInfo inet_addr old_value) new_value = .ok v) ∨
    (¬ AllPass inet_addr old_value new_value infos ∧ ∃ e,
      infos.foldlM (registerInfo inet_addr old_value) new_value = .error e) := by
  induction infos generalizing new_value with
  | nil => exact .inl ⟨⟨by simp, .nil⟩, new_value, rfl⟩
  | cons info infos ih =>
      rw [List.foldlM_cons]
      obtain ⟨hpasses, -⟩ | ⟨hnot, e, he⟩ :=
        registerInfo_cases inet_addr old_value new_value info
      · obtain ⟨n, hn, hid⟩ := registerInfo_passes hpasses
        rw [hn, allPass_cons hpasses hid]
        exact ih (some n)
      · rw [he]
        exact .inr ⟨fun h => hnot (h.each info List.mem_cons_self), e, rfl⟩

/-- A request is accepted, or changes nothing. -/
theorem handleRegister_cases {RockStream : Type} [DecidableEq RockStream]
    (inet_addr : String → UInt32) (m : NameServerModule RockStream) (rr : RegisterRequest)
    (response : RockResponse) (stream : RockStream) (isConnected : Bool) :
    (AllPass inet_addr (m.get stream) none rr.info ∧
      (m.handleRegister inet_addr (some rr) response stream isConnected).1 = true) ∨
    (¬ AllPass inet_addr (m.get stream) none rr.info ∧
      m.handleRegister inet_addr (some rr) response stream isConnected = (false, m, response)) := by
  unfold NameServerModule.handleRegister
  obtain ⟨hall, v, hv⟩ | ⟨hnot, e, he⟩ := foldlM_cases inet_addr (m.get stream) rr.info none
  · refine .inl ⟨hall, ?_⟩
    dsimp only
    rw [hv]
  · refine .inr ⟨hnot, ?_⟩
    dsimp only
    rw [he]

/-- A request passes when it is not faulty and has no address that is zero. -/
theorem allPass_iff {session : Option NSClientInfo} {rr : RegisterRequest} :
    AllPass inet_addr session none rr.info ↔
      ¬ rr.Faulty inet_addr session ∧ ¬ rr.HasIp (inet_addr · = 0) := by
  constructor
  · rintro ⟨heach, hagree⟩
    constructor
    · rintro (⟨info, hinfo, hlacks⟩ | ⟨info, hinfo, id, hid, old, hold, hne⟩ | hnot)
      · exact (heach info hinfo).complete hlacks
      · exact hne ((heach info hinfo).old id hid old hold)
      · exact hnot hagree
    · rintro ⟨info, hinfo, ip, hip, hzero⟩
      exact (heach info hinfo).ip ip hip hzero
  · rintro ⟨hfaulty, hzero⟩
    refine ⟨fun info hinfo => ⟨?_, ?_, ?_, ?_⟩, ?_⟩
    · exact fun h => hfaulty (.inl ⟨info, hinfo, h⟩)
    · exact fun ip hip h => hzero ⟨info, hinfo, ip, hip, h⟩
    · intro id hid old hold
      by_contra hne
      exact hfaulty (.inr (.inl ⟨info, hinfo, id, hid, old, hold, hne⟩))
    · intro id _ v hv
      cases hv
    · by_contra hnot
      exact hfaulty (.inr (.inr hnot))

/-! ## When nothing is done for what is bad -/

/-- **A bad request is refused** exactly when it does not only have an address that is none: when
all of its addresses are addresses, or it is faulty, or one of its addresses is 0.0.0.0. -/
theorem validated_iff {RockStream : Type} [DecidableEq RockStream] (inet_addr : String → UInt32)
    (valid : String → Prop) (hnone : ∀ ip, ¬ valid ip → inet_addr ip = 0xffffffff)
    (m : NameServerModule RockStream) (rr : RegisterRequest) (response : RockResponse)
    (stream : RockStream) (isConnected : Bool) :
    rr.Validated inet_addr valid m response stream isConnected ↔
      ¬ rr.HasIp (¬ valid ·) ∨ rr.Faulty inet_addr (m.get stream) ∨
        rr.HasIp fun ip => valid ip ∧ inet_addr ip = 0 := by
  have hzero : rr.HasIp (inet_addr · = 0) ↔ rr.HasIp fun ip => valid ip ∧ inet_addr ip = 0 := by
    constructor
    · rintro ⟨info, hinfo, ip, hip, h⟩
      refine ⟨info, hinfo, ip, hip, ?_, h⟩
      by_contra hnot
      rw [hnone ip hnot] at h
      exact absurd h (by decide)
    · rintro ⟨info, hinfo, ip, hip, -, h⟩
      exact ⟨info, hinfo, ip, hip, h⟩
  unfold RegisterRequest.Validated
  rw [← hzero]
  obtain ⟨hall, htrue⟩ | ⟨hnot, hfalse⟩ :=
    handleRegister_cases inet_addr m rr response stream isConnected
  · obtain ⟨hfaulty, hip⟩ := allPass_iff.mp hall
    have haccepted : m.handleRegister inet_addr (some rr) response stream isConnected ≠
        (false, m, response) := by
      intro h
      rw [h] at htrue
      cases htrue
    tauto
  · have := allPass_iff.not.mp hnot
    tauto

/-! ## A name in the place of an address -/

/-- A system that knows one address. -/
def oneAddress (ip : String) : UInt32 := if ip = "10.0.0.1" then 0x0100000a else 0xffffffff

def noSessions : NameServerModule Nat := .new

/-- One info with this address. -/
def requestAt (ip : String) : RegisterRequest :=
  ⟨[⟨some "cpp", [1], some ⟨some ip, some 80, some 1⟩⟩]⟩

theorem validated_iff_abc :
    (requestAt "abc").Validated oneAddress (· = "10.0.0.1") noSessions {} 0 true ↔
      ¬ (requestAt "abc").HasIp (¬ · = "10.0.0.1") ∨
        (requestAt "abc").Faulty oneAddress (noSessions.get 0) ∨
        (requestAt "abc").HasIp fun ip => ip = "10.0.0.1" ∧ oneAddress ip = 0 :=
  validated_iff oneAddress _ (fun _ h => if_neg h) _ _ _ _ _

/-- A node without an address is registered. -/
theorem not_validated_abc :
    (∀ ip, ip ≠ "10.0.0.1" → oneAddress ip = 0xffffffff) ∧
      ¬ (requestAt "abc").Validated oneAddress (· = "10.0.0.1") noSessions {} 0 true := by
  refine ⟨fun ip h => if_neg h, fun h => ?_⟩
  have hfalse := congrArg Prod.fst (h (.inr ⟨_, List.mem_cons_self, "abc", rfl, by decide⟩))
  exact absurd hfalse (by decide)

end Ns
end Routn
