import Routn.Foundation.Table
import Routn.Foundation.Transition

/-!
# The names in the chat room

A WebSocket session runs its messages one after the other, and many sessions run side by side.  A
`login_request` looks in `s_sessions` whether the name is taken, and stores the session under the
name in another locked section.  The session keeps its name in the `$id` header of its handshake,
and when the connection is closed the entry under that name is erased.

Two sessions may find the same name free before either of them is stored.  And the handshake is
read from the client: when it has a `$id` header, the session has that name from the start.

A session is live until its entry has been erased.  Notifications only read the table, and are not
part of it.
-/

namespace Routn
namespace ChatRoom

open Foundation

/-! ## Sessions -/

inductive Phase
  /-- Waits for the next message. -/
  | idle
  /-- The name was free, and the session is to be stored under it. -/
  | adding (name : String)
  | closed
deriving DecidableEq, Repr

structure Session where
  /-- The `$id` header of the handshake, empty when there is none. -/
  id : String
  phase : Phase
  /-- The results and texts of the responses. -/
  rsp : List (String × String)
deriving DecidableEq, Repr

inductive Message
  | login_request (name : String)
  | send_request (msg : String)
  | other
deriving DecidableEq, Repr

def Session.respond (se : Session) (result msg : String) : Session :=
  { se with rsp := se.rsp ++ [(result, msg)] }

/-- The name of a session that is live and logged in. -/
def Session.name (se : Session) : Option String :=
  if se.phase = .closed ∨ se.id = "" then none else some se.id

structure State where
  /-- `s_sessions`; a session is its number. -/
  table : String → Option Nat
  sessions : List Session
  /-- Which session, when it was closed, has erased the entry of which one. -/
  erased : List (Nat × Nat)

/-- No connection yet. -/
def start : State := ⟨fun _ => none, [], []⟩

/-- The name of a session. -/
def State.name (s : State) (i : Nat) : Option String := s.sessions[i]?.bind Session.name

/-- `handle`, up to the section of `session_exists`. -/
def handle (table : String → Option Nat) (se : Session) : Message → Session
  | .login_request name =>
      if name = "" then se.respond "400" "name is null"
      else if se.id ≠ "" then se.respond "401" "logined"
      else if (table name).isSome then se.respond "402" "name exists"
      else { se with phase := .adding name }
  | .send_request msg =>
      if msg = "" then se.respond "500" "msg is null"
      else if se.id = "" then se.respond "501" "not login"
      else se.respond "200" "ok"
  | .other => se

inductive Act
  /-- A handshake with this `$id` header. -/
  | connect (id : String)
  | message (i : Nat) (msg : Message)
  /-- The section of `session_add`. -/
  | add (i : Nat)
  /-- The section of `session_del` in `onClose`. -/
  | close (i : Nat)
deriving DecidableEq, Repr

def step (s : State) : Act → Option State
  | .connect id => some { s with sessions := s.sessions ++ [⟨id, .idle, []⟩] }
  | .message i msg => do
      let se ← s.sessions[i]?
      if se.phase = .idle then
        return { s with sessions := s.sessions.set i (handle s.table se msg) }
      else none
  | .add i => do
      let se ← s.sessions[i]?
      match se.phase with
      | .adding name =>
          let se' := { se.respond "200" "ok" with id := name, phase := .idle }
          return { s with
            table := Function.update s.table name (some i)
            sessions := s.sessions.set i se' }
      | .idle | .closed => none
  | .close i => do
      let se ← s.sessions[i]?
      if se.phase = .idle then
        let sessions := s.sessions.set i { se with phase := .closed }
        if se.id = "" then return { s with sessions }
        else
          return {
            table := Function.update s.table se.id none
            sessions
            erased := s.erased ++ ((s.table se.id).map (i, ·)).toList }
      else none

/-- **Unique names.**  No two live sessions are logged in under one name, each is the one stored
under its name, and no session has erased the entry of another one. -/
structure UniqueNames (s : State) : Prop where
  unique : ∀ i j name, s.name i = some name → s.name j = some name → i = j
  stored : ∀ i name, s.name i = some name → s.table name = some i
  own : ∀ p ∈ s.erased, p.1 = p.2

/-- No handshake has a `$id` header, and a session is stored under a name under which none is. -/
structure Free (s : State) (a : Act) : Prop where
  connect : ∀ id, a = .connect id → id = ""
  add : ∀ i se name, a = .add i → s.sessions[i]? = some se → se.phase = .adding name →
    s.table name = none

/-! ## The ways in which a step can go -/

inductive Moves (s : State) : Act → State → Prop
  | connect (id : String) :
      Moves s (.connect id) { s with sessions := s.sessions ++ [⟨id, .idle, []⟩] }
  | message {i : Nat} {se : Session} (msg : Message) (hi : s.sessions[i]? = some se)
      (hidle : se.phase = .idle) :
      Moves s (.message i msg) { s with sessions := s.sessions.set i (handle s.table se msg) }
  | add {i : Nat} {se se' : Session} {name : String} (hi : s.sessions[i]? = some se)
      (hadding : se.phase = .adding name) (hid : se'.id = name) (hidle : se'.phase = .idle) :
      Moves s (.add i) { s with
        table := Function.update s.table name (some i)
        sessions := s.sessions.set i se' }
  | leave {i : Nat} {se se' : Session} (hi : s.sessions[i]? = some se) (hidle : se.phase = .idle)
      (hid : se.id = "") (hclosed : se'.phase = .closed) :
      Moves s (.close i) { s with sessions := s.sessions.set i se' }
  | close {i : Nat} {se se' : Session} (hi : s.sessions[i]? = some se) (hidle : se.phase = .idle)
      (hid : se.id ≠ "") (hclosed : se'.phase = .closed) :
      Moves s (.close i) {
        table := Function.update s.table se.id none
        sessions := s.sessions.set i se'
        erased := s.erased ++ ((s.table se.id).map (i, ·)).toList }

variable {s s' : State} {a : Act} {i j : Nat} {se se' : Session} {name : String}

theorem moves_of_step (h : step s a = some s') : Moves s a s' := by
  cases a with
  | connect id =>
      obtain rfl := Option.some.inj h
      exact .connect id
  | message i msg =>
      simp only [step, Option.bind_eq_bind, Option.bind_eq_some_iff] at h
      obtain ⟨se, hi, h⟩ := h
      split at h
      · next hidle =>
          obtain rfl := Option.some.inj h
          exact .message msg hi hidle
      · cases h
  | add i =>
      simp only [step, Option.bind_eq_bind, Option.bind_eq_some_iff] at h
      obtain ⟨se, hi, h⟩ := h
      split at h
      · next hadding =>
          obtain rfl := Option.some.inj h
          exact .add hi hadding rfl rfl
      · cases h
      · cases h
  | close i =>
      simp only [step, Option.bind_eq_bind, Option.bind_eq_some_iff] at h
      obtain ⟨se, hi, h⟩ := h
      split at h
      · next hidle =>
          split at h
          · next hid =>
              obtain rfl := Option.some.inj h
              exact .leave hi hidle hid rfl
          · next hid =>
              obtain rfl := Option.some.inj h
              exact .close hi hidle hid rfl
      · cases h

/-! ## Names -/

theorem Session.name_eq_some_iff :
    se.name = some name ↔ se.phase ≠ .closed ∧ se.id = name ∧ name ≠ "" := by
  unfold Session.name
  split
  · next h =>
      refine iff_of_false (by simp) ?_
      rintro ⟨hlive, rfl, hid⟩
      exact h.elim hlive hid
  · next h =>
      obtain ⟨hlive, hid⟩ := not_or.mp h
      constructor
      · intro heq
        obtain rfl := Option.some.inj heq
        exact ⟨hlive, rfl, hid⟩
      · rintro ⟨-, rfl, -⟩
        rfl

theorem name_of_getElem? (hi : s.sessions[i]? = some se) : s.name i = se.name := by
  simp [State.name, hi]

/-- Replacing a session changes its name only. -/
theorem name_set (hi : s.sessions[i]? = some se) (table : String → Option Nat)
    (erased : List (Nat × Nat)) (j : Nat) :
    (⟨table, s.sessions.set i se', erased⟩ : State).name j =
      if j = i then se'.name else s.name j := by
  unfold State.name
  split
  · next heq =>
      subst heq
      have hlt := (List.getElem?_eq_some_iff.mp hi).1
      simp [List.getElem?_set_self hlt]
  · next hne => rw [List.getElem?_set_ne (Ne.symm hne)]

theorem name_connect (id : String) (j : Nat) :
    (⟨s.table, s.sessions ++ [⟨id, .idle, []⟩], s.erased⟩ : State).name j =
      if j = s.sessions.length then (if id = "" then none else some id) else s.name j := by
  unfold State.name
  split
  · next heq =>
      subst heq
      simp [Session.name]
  · next hne =>
      by_cases hlt : j < s.sessions.length
      · rw [List.getElem?_append_left hlt]
      · rw [List.getElem?_eq_none (by simp; omega), List.getElem?_eq_none (Nat.le_of_not_lt hlt)]

/-- A message is answered, or the session without a name is to be stored under one. -/
theorem handle_cases (table : String → Option Nat) (msg : Message) (hidle : se.phase = .idle) :
    ((handle table se msg).id = se.id ∧ (handle table se msg).phase = .idle) ∨
      ∃ name, name ≠ "" ∧ se.id = "" ∧ handle table se msg = { se with phase := .adding name } := by
  cases msg with
  | login_request name =>
      simp only [handle]
      split
      · exact .inl ⟨rfl, hidle⟩
      split
      · exact .inl ⟨rfl, hidle⟩
      split
      · exact .inl ⟨rfl, hidle⟩
      · next hname hid _ => exact .inr ⟨name, hname, not_not.mp hid, rfl⟩
  | send_request msg =>
      simp only [handle]
      split
      · exact .inl ⟨rfl, hidle⟩
      split <;> exact .inl ⟨rfl, hidle⟩
  | other => exact .inl ⟨rfl, hidle⟩

/-- A message changes nobody's name. -/
theorem name_handle (table : String → Option Nat) (msg : Message) (hidle : se.phase = .idle) :
    (handle table se msg).name = se.name := by
  rcases handle_cases table msg hidle with ⟨hid, hphase⟩ | ⟨name, -, hid, heq⟩
  · unfold Session.name
    rw [hid, hphase, hidle]
  · rw [heq]
    simp [Session.name, hid]

/-! ## The invariant of every run -/

/-- Whoever is stored under a name is live and has the name; and who is to be stored has none. -/
structure Stored (s : State) : Prop where
  name_eq : ∀ {name i}, s.table name = some i → s.name i = some name
  adding : ∀ {i : Nat} {se : Session} {name : String},
    s.sessions[i]? = some se → se.phase = .adding name →
    se.id = "" ∧ name ≠ ""

theorem stored_start : Stored start where
  name_eq h := by cases h
  adding h := by cases h

/-- A session that has been replaced by one that is not about to be stored. -/
theorem Stored.adding_set (hs : Stored s) (hse' : ∀ {name}, se'.phase = .adding name →
    se'.id = "" ∧ name ≠ "") {t : Session} (ht : (s.sessions.set i se')[j]? = some t)
    (hadding : t.phase = .adding name) : t.id = "" ∧ name ≠ "" := by
  rcases getElem?_of_set ht with ⟨-, rfl⟩ | ⟨-, hold⟩
  · exact hse' hadding
  · exact hs.adding hold hadding

theorem handle_adding (table : String → Option Nat) (msg : Message) (hidle : se.phase = .idle)
    (h : (handle table se msg).phase = .adding name) :
    (handle table se msg).id = "" ∧ name ≠ "" := by
  rcases handle_cases table msg hidle with ⟨-, hphase⟩ | ⟨name', hname, hid, heq⟩
  · rw [hphase] at h
    cases h
  · rw [heq] at h ⊢
    obtain rfl := Phase.adding.inj h
    exact ⟨hid, hname⟩

theorem Stored.moves (hs : Stored s) (h : Moves s a s') : Stored s' := by
  cases h with
  | connect id =>
      constructor
      · intro name i hget
        have hname := hs.name_eq hget
        rw [name_connect, if_neg, hname]
        rintro rfl
        simp [State.name] at hname
      · intro i se name hi hadding
        by_cases hlt : i < s.sessions.length
        · rw [List.getElem?_append_left hlt] at hi
          exact hs.adding hi hadding
        · obtain ⟨-, rfl⟩ : i = s.sessions.length ∧ ⟨id, .idle, []⟩ = se := by
            rw [List.getElem?_append_right (Nat.le_of_not_lt hlt)] at hi
            obtain ⟨hone, heq⟩ := List.getElem?_eq_some_iff.mp hi
            simp only [List.length_singleton] at hone
            exact ⟨by omega, by simpa using heq⟩
          cases hadding
  | @message i se msg hi hidle =>
      constructor
      · intro name j hget
        rw [name_set hi]
        split
        · next heq =>
            rw [name_handle _ _ hidle, ← name_of_getElem? hi, ← heq]
            exact hs.name_eq hget
        · exact hs.name_eq hget
      · intro j t name ht hadding
        exact hs.adding_set (fun h => handle_adding _ _ hidle h) ht hadding
  | @add i se se' name hi hadding hid hidle =>
      obtain ⟨hempty, hne⟩ := hs.adding hi hadding
      constructor
      · intro name' j hget
        rw [name_set hi]
        dsimp only at hget
        rw [Function.update_apply] at hget
        split at hget
        · next heq =>
            obtain rfl := Option.some.inj hget
            rw [if_pos rfl, Session.name_eq_some_iff, hid, hidle]
            exact ⟨by simp, heq.symm, heq ▸ hne⟩
        · -- The others are other sessions, for this one had no name.
          have hname := hs.name_eq hget
          rw [if_neg, hname]
          rintro rfl
          rw [name_of_getElem? hi, Session.name_eq_some_iff, hempty] at hname
          exact hname.2.2 hname.2.1.symm
      · intro j t name' ht hadding'
        refine hs.adding_set (fun h => ?_) ht hadding'
        rw [hidle] at h
        cases h
  | @leave i se se' hi hidle hid hclosed =>
      constructor
      · intro name j hget
        have hname := hs.name_eq hget
        rw [name_set hi, if_neg, hname]
        rintro rfl
        rw [name_of_getElem? hi, Session.name_eq_some_iff, hid] at hname
        exact hname.2.2 hname.2.1.symm
      · intro j t name ht hadding
        refine hs.adding_set (fun h => ?_) ht hadding
        rw [hclosed] at h
        cases h
  | @close i se se' hi hidle hid hclosed =>
      constructor
      · intro name j hget
        dsimp only at hget
        rw [Function.update_apply] at hget
        split at hget
        · cases hget
        · next hne =>
            have hname := hs.name_eq hget
            rw [name_set hi, if_neg, hname]
            rintro rfl
            rw [name_of_getElem? hi, Session.name_eq_some_iff] at hname
            exact hne hname.2.1.symm
      · intro j t name ht hadding
        refine hs.adding_set (fun h => ?_) ht hadding
        rw [hclosed] at h
        cases h

/-! ## When the names are unique -/

/-- Two sessions of one name cannot both be the one that is stored. -/
theorem UniqueNames.of_stored (hstored : ∀ i name, s.name i = some name → s.table name = some i)
    (hown : ∀ p ∈ s.erased, p.1 = p.2) : UniqueNames s where
  unique i j name hi hj := Option.some.inj ((hstored i name hi).symm.trans (hstored j name hj))
  stored := hstored
  own := hown

/-- **A handshake** keeps the names unique exactly if it brings none. -/
theorem UniqueNames.connect_iff (hstored : Stored s) (hs : UniqueNames s) (id : String) :
    UniqueNames { s with sessions := s.sessions ++ [⟨id, .idle, []⟩] } ↔ id = "" := by
  constructor
  · intro hs'
    by_contra hid
    have hname := hs'.stored s.sessions.length id (by rw [name_connect, if_pos rfl, if_neg hid])
    -- Nobody is stored under a number that is new.
    have hlast := hstored.name_eq hname
    simp [State.name] at hlast
  · rintro rfl
    refine UniqueNames.of_stored (fun i name hi => ?_) hs.own
    rw [name_connect] at hi
    split at hi
    · cases hi
    · exact hs.stored i name hi

/-- **A login** keeps the names unique exactly if nobody is stored under the name. -/
theorem UniqueNames.add_iff (hstored : Stored s) (hs : UniqueNames s)
    (hi : s.sessions[i]? = some se) (hadding : se.phase = .adding name) (hid : se'.id = name)
    (hidle : se'.phase = .idle) :
    UniqueNames { s with
      table := Function.update s.table name (some i)
      sessions := s.sessions.set i se' } ↔ s.table name = none := by
  obtain ⟨hempty, hne⟩ := hstored.adding hi hadding
  have hname : s.name i = none := by
    rw [name_of_getElem? hi]
    simp [Session.name, hempty]
  have hname' : se'.name = some name := by
    rw [Session.name_eq_some_iff, hid, hidle]
    exact ⟨by simp, rfl, hne⟩
  constructor
  · intro hs'
    by_contra hsome
    obtain ⟨j, hj⟩ := Option.ne_none_iff_exists'.mp hsome
    have hold := hstored.name_eq hj
    have hij : j ≠ i := by
      rintro rfl
      rw [hname] at hold
      cases hold
    -- Both sessions have the name now.
    refine hij (hs'.unique j i name ?_ ?_)
    · rw [name_set hi, if_neg hij, hold]
    · rw [name_set hi, if_pos rfl, hname']
  · intro hfree
    refine UniqueNames.of_stored (fun j name' hj => ?_) hs.own
    rw [name_set hi] at hj
    dsimp only
    rw [Function.update_apply]
    split at hj
    · next heq =>
        rw [hname'] at hj
        rw [if_pos (Option.some.inj hj).symm, heq]
    · have hold := hs.stored j name' hj
      rw [if_neg, hold]
      rintro rfl
      rw [hfree] at hold
      cases hold

/-- **A close** erases the entry of its own session. -/
theorem UniqueNames.close (hs : UniqueNames s) (hi : s.sessions[i]? = some se)
    (hidle : se.phase = .idle) (hid : se.id ≠ "") (hclosed : se'.phase = .closed) :
    UniqueNames {
      table := Function.update s.table se.id none
      sessions := s.sessions.set i se'
      erased := s.erased ++ ((s.table se.id).map (i, ·)).toList } := by
  have hname : s.name i = some se.id := by
    rw [name_of_getElem? hi, Session.name_eq_some_iff, hidle]
    exact ⟨by simp, rfl, hid⟩
  have hstored := hs.stored i se.id hname
  refine UniqueNames.of_stored (fun j name hj => ?_) fun p hp => ?_
  · rw [name_set hi] at hj
    split at hj
    · rw [Session.name_eq_some_iff] at hj
      exact absurd hclosed hj.1
    · next hne =>
        dsimp only
        rw [Function.update_apply, if_neg, hs.stored j name hj]
        rintro rfl
        exact hne (hs.unique j i se.id hj hname)
  · rw [hstored] at hp
    rcases List.mem_append.mp hp with hold | hnew
    · exact hs.own p hold
    · rw [Option.map_some, Option.toList_some, List.mem_singleton] at hnew
      rw [hnew]

theorem free_message (i : Nat) (msg : Message) : Free s (.message i msg) := by
  constructor
  · intro id h
    cases h
  · intro i se name h
    cases h

theorem free_close (i : Nat) : Free s (.close i) := by
  constructor
  · intro id h
    cases h
  · intro i se name h
    cases h

/-- **One step keeps the names unique** exactly if it meets the condition. -/
theorem UniqueNames.step_iff (hstored : Stored s) (hs : UniqueNames s) (h : step s a = some s') :
    UniqueNames s' ↔ Free s a := by
  cases moves_of_step h with
  | connect id =>
      rw [hs.connect_iff hstored]
      constructor
      · rintro rfl
        constructor
        · rintro id ⟨⟩
          rfl
        · intro i se name h
          cases h
      · intro hfree
        exact hfree.connect id rfl
  | @message i se msg hi hidle =>
      refine iff_of_true (UniqueNames.of_stored (fun j name hj => ?_) hs.own) (free_message i msg)
      rw [name_set hi, name_handle _ _ hidle, ← name_of_getElem? hi] at hj
      split at hj
      · next heq => exact hs.stored j name (heq ▸ hj)
      · exact hs.stored j name hj
  | @add i se se' name hi hadding hid hidle =>
      rw [hs.add_iff hstored hi hadding hid hidle]
      constructor
      · intro hnone
        constructor
        · intro id h
          cases h
        · rintro j t name' ⟨⟩ ht hadding'
          obtain rfl := Option.some.inj (hi.symm.trans ht)
          obtain rfl := Phase.adding.inj (hadding.symm.trans hadding')
          exact hnone
      · intro hfree
        exact hfree.add i se name rfl hi hadding
  | @leave i se se' hi hidle hid hclosed =>
      refine iff_of_true (UniqueNames.of_stored (fun j name hj => ?_) hs.own) (free_close i)
      rw [name_set hi] at hj
      split at hj
      · rw [Session.name_eq_some_iff] at hj
        exact absurd hclosed hj.1
      · exact hs.stored j name hj
  | close hi hidle hid hclosed =>
      exact iff_of_true (hs.close hi hidle hid hclosed) (free_close _)

/-- **When the names are unique.**  In every run of handshakes, messages and closes, in every state
of it: exactly if no handshake brings a name and every login stores its session under a name that is
still free. -/
theorem uniqueNames_iff (as : List Act) :
    runAlways step UniqueNames as start ↔ runMeets step Free as start := by
  refine runAlways_iff (I := Stored) (fun hs hstep => hs.moves (moves_of_step hstep))
    (fun hstored hs hstep => hs.step_iff hstored hstep) ?_ as stored_start ?_
  · -- A handshake is never refused, and nor is a session that is to be stored.
    intro s a hrefused
    constructor
    · rintro id rfl
      cases hrefused
    · rintro i se name rfl hi hadding
      simp [step, hi, hadding] at hrefused
  · refine UniqueNames.of_stored (fun i name h => ?_) fun p hp => ?_
    · cases h
    · cases hp

/-- Two sessions that find the same name free. -/
def twoLogins : List Act :=
  [.connect "", .connect "", .message 0 (.login_request "bob"),
    .message 1 (.login_request "bob"), .add 0, .add 1]

theorem not_uniqueNames_twoLogins : ¬ runAlways step UniqueNames twoLogins start := by
  intro h
  have hrun : (runActions step twoLogins start).map (fun s => (s.name 0, s.name 1)) =
      some (some "bob", some "bob") := by decide
  obtain ⟨s, hs, hnames⟩ := Option.map_eq_some_iff.mp hrun
  obtain ⟨hfirst, hsecond⟩ := Prod.mk.inj hnames
  have heq := (h.end hs).unique 0 1 "bob" hfirst hsecond
  cases heq

end ChatRoom
end Routn
