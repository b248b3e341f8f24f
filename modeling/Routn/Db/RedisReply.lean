import Mathlib.Tactic

/-!
# `RedisReplyClone`

Replies are in a memory of three kinds of blocks: the `redisReply` structures, the strings with
their terminating null byte, and the arrays of pointers.  An address is the number of its block, and
an allocation is a block at the end; nothing is freed here.  `Represents` reads a finite tree out of
a memory, and the clone is read as the same tree from blocks that are all new.
-/

namespace Routn
namespace Redis

/-! ## Memory -/

def REDIS_REPLY_STRING : Int := 1
def REDIS_REPLY_ARRAY : Int := 2
def REDIS_REPLY_INTEGER : Int := 3
def REDIS_REPLY_NIL : Int := 4
def REDIS_REPLY_STATUS : Int := 5
def REDIS_REPLY_ERROR : Int := 6

/-- What `calloc` leaves has all fields zero. -/
structure redisReply where
  type : Int := 0
  integer : Int64 := 0
  len : Nat := 0
  str : Option Nat := none
  elements : Nat := 0
  element : Option Nat := none
deriving DecidableEq, Repr

structure Memory where
  replies : List redisReply := []
  strings : List (List UInt8) := []
  arrays : List (List (Option Nat)) := []
deriving DecidableEq, Repr

namespace Memory

/-- `calloc(1, sizeof(redisReply))`, and what is assigned to the fields. -/
def newReply (m : Memory) (c : redisReply) : Nat × Memory :=
  (m.replies.length, { m with replies := m.replies ++ [c] })

/-- `malloc(len + 1)`, filled. -/
def newString (m : Memory) (str : List UInt8) : Nat × Memory :=
  (m.strings.length, { m with strings := m.strings ++ [str] })

/-- `calloc(n, sizeof(r))`. -/
def newArray (m : Memory) (n : Nat) : Nat × Memory :=
  (m.arrays.length, { m with arrays := m.arrays ++ [List.replicate n none] })

/-- `c->element[i] = p`. -/
def setElement (m : Memory) (array i : Nat) (p : Nat) : Memory :=
  { m with arrays := m.arrays.modify array (·.set i (some p)) }

/-- `r->element[i]`. -/
def getElement (m : Memory) (array i : Nat) : Option Nat := (m.arrays[array]?).bind (·[i]?.join)

end Memory

/-! ## The code -/

/-- The loop over the elements, `n` of them from `i` on. -/
def cloneElements (clone : Memory → Nat → Option (Nat × Memory)) (src dst : Nat) :
    Nat → Nat → Memory → Option Memory
  | 0, _, m => some m
  | n + 1, i, m => do
      let r ← m.getElement src i
      let (c, m) ← clone m r
      cloneElements clone src dst n (i + 1) (m.setElement dst i c)

/-- `RedisReplyClone`, with a bound on the depth; `none` also for what is undefined. -/
def RedisReplyClone : Nat → Memory → Nat → Option (Nat × Memory)
  | 0, _, _ => none
  | fuel + 1, m, r => do
      let r ← m.replies[r]?
      if r.type = REDIS_REPLY_INTEGER then
        some (m.newReply { type := r.type, integer := r.integer })
      else if r.type = REDIS_REPLY_ARRAY then
        match r.element with
        | none => some (m.newReply { type := r.type })
        | some src =>
            let dst := m.newArray r.elements
            let c := dst.2.newReply
              { type := r.type, element := some dst.1, elements := r.elements }
            let m ← cloneElements (RedisReplyClone fuel) src dst.1 r.elements 0 c.2
            some (c.1, m)
      else if r.type = REDIS_REPLY_ERROR ∨ r.type = REDIS_REPLY_STATUS ∨
          r.type = REDIS_REPLY_STRING then
        match r.str with
        | none => some (m.newReply { type := r.type, len := r.len })
        | some str => do
            let block ← m.strings[str]?
            -- `memcpy` reads `len` bytes of the block.
            if block.length < r.len then none
            else
              let str := m.newString (block.take r.len ++ [0])
              some (str.2.newReply { type := r.type, str := some str.1, len := r.len })
      else some (m.newReply { type := r.type })

/-! ## Replies as trees -/

/-- The kinds of a reply with a text. -/
inductive Kind
  | STATUS
  | ERROR
  | STRING
deriving DecidableEq, Repr

def Kind.type : Kind → Int
  | STATUS => REDIS_REPLY_STATUS
  | ERROR => REDIS_REPLY_ERROR
  | STRING => REDIS_REPLY_STRING

inductive Reply
  | NIL
  | INTEGER (integer : Int64)
  | null (kind : Kind) (len : Nat)
  | text (kind : Kind) (str : List UInt8)
  | ARRAY (elements : List Reply)

/-- How many blocks of each kind are old. -/
structure Extent where
  replies : Nat := 0
  strings : Nat := 0
  arrays : Nat := 0

structure Extent.Le (old old' : Extent) : Prop where
  replies : old.replies ≤ old'.replies
  strings : old.strings ≤ old'.strings
  arrays : old.arrays ≤ old'.arrays

def Memory.extent (m : Memory) : Extent := ⟨m.replies.length, m.strings.length, m.arrays.length⟩

mutual

/-- The block at `p` is the root of the tree, all of whose blocks are new.  What the type of a reply
does not use is zero. -/
def Represents (old : Extent) (m : Memory) : Reply → Nat → Prop
  | .NIL, p => old.replies ≤ p ∧ m.replies[p]? = some { type := REDIS_REPLY_NIL }
  | .INTEGER integer, p =>
      old.replies ≤ p ∧ m.replies[p]? = some { type := REDIS_REPLY_INTEGER, integer }
  | .null kind len, p => old.replies ≤ p ∧ m.replies[p]? = some { type := kind.type, len }
  | .text kind str, p => old.replies ≤ p ∧ ∃ s, old.strings ≤ s ∧
      m.replies[p]? = some { type := kind.type, len := str.length, str := some s } ∧
      m.strings[s]? = some (str ++ [0])
  | .ARRAY elements, p => old.replies ≤ p ∧
      ((elements = [] ∧ m.replies[p]? = some { type := REDIS_REPLY_ARRAY }) ∨
        ∃ array block, old.arrays ≤ array ∧
          m.replies[p]? = some {
            type := REDIS_REPLY_ARRAY
            elements := elements.length
            element := some array } ∧
          m.arrays[array]? = some block ∧ RepresentsAll old m elements block)

/-- The elements in order. -/
def RepresentsAll (old : Extent) (m : Memory) : List Reply → List (Option Nat) → Prop
  | [], block => block = []
  | element :: elements, block => ∃ p rest, block = some p :: rest ∧
      Represents old m element p ∧ RepresentsAll old m elements rest

end

mutual

def Reply.depth : Reply → Nat
  | .ARRAY elements => depthAll elements + 1
  | _ => 1

def depthAll : List Reply → Nat
  | [] => 0
  | element :: elements => max element.depth (depthAll elements)

end

/-- Every new block is as it was. -/
structure Agrees (old : Extent) (m m' : Memory) : Prop where
  replies : ∀ p : Nat, old.replies ≤ p → ∀ r : redisReply,
    m.replies[p]? = some r → m'.replies[p]? = some r
  strings : ∀ s : Nat, old.strings ≤ s → ∀ str : List UInt8,
    m.strings[s]? = some str → m'.strings[s]? = some str
  arrays : ∀ a : Nat, old.arrays ≤ a → ∀ block : List (Option Nat),
    m.arrays[a]? = some block → m'.arrays[a]? = some block

/-- Every block is as it was. -/
def Kept (m m' : Memory) : Prop := Agrees {} m m'

/-- The clone has been made, of new blocks, and the reply is what it was. -/
structure DeepCopy (m : Memory) (t : Reply) (r c : Nat) (m' : Memory) : Prop where
  copied : Represents m.extent m' t c
  kept : Kept m m'
  original : Represents {} m' t r

/-! ## Blocks that are kept -/

section Frame

variable {old old' : Extent} {m m' m'' : Memory}

theorem Extent.Le.refl (old : Extent) : old.Le old := ⟨le_rfl, le_rfl, le_rfl⟩

theorem Extent.Le.zero (old : Extent) : Extent.Le {} old :=
  ⟨Nat.zero_le _, Nat.zero_le _, Nat.zero_le _⟩

theorem Agrees.refl (old : Extent) (m : Memory) : Agrees old m m :=
  ⟨fun _ _ _ h => h, fun _ _ _ h => h, fun _ _ _ h => h⟩

theorem Agrees.trans (h : Agrees old m m') (h' : Agrees old m' m'') : Agrees old m m'' where
  replies p hp r hr := h'.replies p hp r (h.replies p hp r hr)
  strings s hs str hstr := h'.strings s hs str (h.strings s hs str hstr)
  arrays a ha block hblock := h'.arrays a ha block (h.arrays a ha block hblock)

theorem Kept.agrees (h : Kept m m') (old : Extent) : Agrees old m m' where
  replies p _ := h.replies p (Nat.zero_le _)
  strings s _ := h.strings s (Nat.zero_le _)
  arrays a _ := h.arrays a (Nat.zero_le _)

theorem length_le_of_getElem? {α : Type} {l l' : List α}
    (h : ∀ i : Nat, 0 ≤ i → ∀ a, l[i]? = some a → l'[i]? = some a) : l.length ≤ l'.length := by
  by_contra hlt
  have hin : l'.length < l.length := by omega
  have hget := h l'.length (Nat.zero_le _) _ (List.getElem?_eq_getElem hin)
  simp at hget

/-- A memory grows when its blocks are kept. -/
theorem Kept.extent (h : Kept m m') : m.extent.Le m'.extent :=
  ⟨length_le_of_getElem? h.replies, length_le_of_getElem? h.strings,
    length_le_of_getElem? h.arrays⟩

mutual

/-- **A tree depends on its own blocks only.** -/
theorem Represents.frame (hle : old'.Le old) (h : Agrees old m m') {t : Reply} {p : Nat}
    (ht : Represents old m t p) : Represents old' m' t p := by
  cases t with
  | NIL => exact ⟨hle.replies.trans ht.1, h.replies _ ht.1 _ ht.2⟩
  | INTEGER integer => exact ⟨hle.replies.trans ht.1, h.replies _ ht.1 _ ht.2⟩
  | null kind len => exact ⟨hle.replies.trans ht.1, h.replies _ ht.1 _ ht.2⟩
  | text kind str =>
      obtain ⟨hp, s, hs, hreply, hstr⟩ := ht
      exact ⟨hle.replies.trans hp, s, hle.strings.trans hs, h.replies _ hp _ hreply,
        h.strings _ hs _ hstr⟩
  | ARRAY elements =>
      obtain ⟨hp, ⟨hnil, hreply⟩ | ⟨array, block, harray, hreply, hblock, hall⟩⟩ := ht
      · exact ⟨hle.replies.trans hp, .inl ⟨hnil, h.replies _ hp _ hreply⟩⟩
      · exact ⟨hle.replies.trans hp, .inr ⟨array, block, hle.arrays.trans harray,
          h.replies _ hp _ hreply, h.arrays _ harray _ hblock, RepresentsAll.frame hle h hall⟩⟩

theorem RepresentsAll.frame (hle : old'.Le old) (h : Agrees old m m') {ts : List Reply}
    {block : List (Option Nat)} (hts : RepresentsAll old m ts block) :
    RepresentsAll old' m' ts block := by
  cases ts with
  | nil => exact hts
  | cons t ts =>
      obtain ⟨p, rest, hblock, ht, hrest⟩ := hts
      exact ⟨p, rest, hblock, Represents.frame hle h ht, RepresentsAll.frame hle h hrest⟩

end

theorem kept_newReply (m : Memory) (c : redisReply) : Kept m (m.newReply c).2 where
  replies _ _ _ h := (List.getElem?_append_left (List.getElem?_eq_some_iff.mp h).1).trans h
  strings _ _ _ h := h
  arrays _ _ _ h := h

theorem kept_newString (m : Memory) (str : List UInt8) : Kept m (m.newString str).2 where
  replies _ _ _ h := h
  strings _ _ _ h := (List.getElem?_append_left (List.getElem?_eq_some_iff.mp h).1).trans h
  arrays _ _ _ h := h

theorem kept_newArray (m : Memory) (n : Nat) : Kept m (m.newArray n).2 where
  replies _ _ _ h := h
  strings _ _ _ h := h
  arrays _ _ _ h := (List.getElem?_append_left (List.getElem?_eq_some_iff.mp h).1).trans h

@[simp] theorem getElem?_newReply (m : Memory) (c : redisReply) :
    (m.newReply c).2.replies[m.replies.length]? = some c :=
  List.getElem?_concat_length ..

/-- An element is written into an array that is old. -/
theorem agrees_setElement {dst : Nat} (hdst : dst < old.arrays) (m : Memory) (i c : Nat) :
    Agrees old m (m.setElement dst i c) where
  replies _ _ _ h := h
  strings _ _ _ h := h
  arrays a ha block h := by
    have hne : dst ≠ a := by omega
    simpa [Memory.setElement, List.getElem?_modify, hne] using h

/-- Or into one that is behind all that is kept. -/
theorem kept_setElement {dst : Nat} {m₀ : Memory} (h : Kept m₀ m)
    (hdst : m₀.arrays.length ≤ dst) (i c : Nat) : Kept m₀ (m.setElement dst i c) where
  replies := h.replies
  strings := h.strings
  arrays a ha block hblock := by
    have hlt := (List.getElem?_eq_some_iff.mp hblock).1
    have hne : dst ≠ a := by omega
    simpa [Memory.setElement, List.getElem?_modify, hne] using h.arrays a ha block hblock

end Frame

/-! ## The loop over the elements -/

section Elements

variable {clone : Memory → Nat → Option (Nat × Memory)} {m₀ : Memory} {src dst : Nat}

theorem getElement_append {m : Memory} {front rest : List (Option Nat)} {p : Nat}
    (h : m.arrays[src]? = some (front ++ some p :: rest)) :
    m.getElement src front.length = some p := by
  simp [Memory.getElement, h]

/-- **The loop**, when `clone` is right for each of the elements: `m₀` is what they are read from,
and the blocks that it makes are not in `old`. -/
theorem cloneElements_spec {old : Extent} (hdst : dst < old.arrays)
    (hbehind : m₀.arrays.length ≤ dst) {ts : List Reply}
    (hclone : ∀ t ∈ ts, ∀ m p, Represents {} m t p → ∃ c m', clone m p = some (c, m') ∧
      Kept m m' ∧ Represents m.extent m' t c)
    {m : Memory} {front rest done : List (Option Nat)} (hkept : Kept m₀ m)
    (hold : old.Le m.extent) (hsrc : m₀.arrays[src]? = some (front ++ rest))
    (hrest : RepresentsAll {} m₀ ts rest)
    (hblock : m.arrays[dst]? = some (done ++ List.replicate ts.length none))
    (hdone : done.length = front.length) :
    ∃ m' cs, cloneElements clone src dst ts.length front.length m = some m' ∧
      Kept m₀ m' ∧ Agrees old m m' ∧
      (∀ p : Nat, ∀ r : redisReply, m.replies[p]? = some r → m'.replies[p]? = some r) ∧
      m'.arrays[dst]? = some (done ++ cs) ∧ RepresentsAll old m' ts cs := by
  induction ts generalizing m front rest done with
  | nil =>
      exact ⟨m, [], rfl, hkept, .refl old m, fun _ _ h => h, by simpa using hblock, rfl⟩
  | cons t ts ih =>
      obtain ⟨p, rest, rfl, ht, hrest⟩ := hrest
      have hget : m.getElement src front.length = some p :=
        getElement_append (hkept.arrays _ (Nat.zero_le _) _ hsrc)
      obtain ⟨c, m₁, hcall, hkept₁, hnew⟩ := hclone t List.mem_cons_self m p
        (ht.frame (.refl _) hkept)
      have hblock₁ := hkept₁.arrays _ (Nat.zero_le _) _ hblock
      -- The pointer goes to the place of the first null pointer.
      have hset : (m₁.setElement dst front.length c).arrays[dst]? =
          some (done ++ [some c] ++ List.replicate ts.length none) := by
        simp [Memory.setElement, hblock₁, ← hdone, List.replicate_succ]
      have hold₁ : old.Le (m₁.setElement dst front.length c).extent := by
        have hgrown := hkept₁.extent
        constructor
        · exact hold.replies.trans hgrown.replies
        · exact hold.strings.trans hgrown.strings
        · simpa [Memory.setElement, Memory.extent] using hold.arrays.trans hgrown.arrays
      have hkept₂ : Kept m₀ (m₁.setElement dst front.length c) :=
        kept_setElement (hkept.trans hkept₁) hbehind _ _
      have hagrees : Agrees old m₁ (m₁.setElement dst front.length c) :=
        agrees_setElement hdst m₁ front.length c
      have hsrc' : m₀.arrays[src]? = some (front ++ [some p] ++ rest) := by simpa using hsrc
      obtain ⟨m', cs, hloop, hkept', hagrees', hreplies, harray, hall⟩ :=
        ih (fun t ht => hclone t (List.mem_cons_of_mem _ ht)) hkept₂ hold₁ hsrc' hrest hset
          (by simp [hdone])
      refine ⟨m', some c :: cs, ?_, hkept', (hkept₁.agrees old).trans (hagrees.trans hagrees'),
        fun q r hr => hreplies q r (hkept₁.replies q (Nat.zero_le _) r hr), by simpa using harray,
        ?_⟩
      · rw [List.length_append, List.length_singleton] at hloop
        simp only [List.length_cons, cloneElements, hget, hcall, Option.bind_eq_bind,
          Option.bind_some, hloop]
      · exact ⟨c, cs, rfl, (hnew.frame hold (.refl _ _)).frame (.refl _) (hagrees.trans hagrees'),
          hall⟩

end Elements

/-! ## The clone -/

theorem depth_le_depthAll {t : Reply} {ts : List Reply} (h : t ∈ ts) : t.depth ≤ depthAll ts := by
  induction ts with
  | nil => cases h
  | cons t' ts ih =>
      rw [depthAll]
      rcases List.mem_cons.mp h with rfl | h
      · exact Nat.le_max_left _ _
      · exact (ih h).trans (Nat.le_max_right _ _)

section Clone

variable {m : Memory} {fuel r : Nat}

theorem clone_text {kind : Kind} {str : List UInt8} (h : Represents {} m (.text kind str) r) :
    ∃ c m', RedisReplyClone (fuel + 1) m r = some (c, m') ∧ Kept m m' ∧
      Represents m.extent m' (.text kind str) c := by
  obtain ⟨-, s, -, hreply, hstr⟩ := h
  have hcopy : (str ++ [0]).take str.length ++ [0] = str ++ [0] := by simp
  have hlong : ¬ (str ++ [0]).length < str.length := by simp
  have hnew : Represents m.extent
      ((m.newString (str ++ [0])).2.newReply
        { type := kind.type, str := some m.strings.length, len := str.length }).2
      (.text kind str) m.replies.length := by
    refine ⟨le_rfl, m.strings.length, le_rfl, ?_, ?_⟩
    · exact getElem?_newReply ..
    · exact List.getElem?_concat_length ..
  refine ⟨_, _, ?_, (kept_newString m (str ++ [0])).trans (kept_newReply _ _), hnew⟩
  cases kind <;>
    simp only [RedisReplyClone, hreply, hstr, hcopy, hlong, Option.bind_eq_bind,
      Option.bind_some, Kind.type, REDIS_REPLY_INTEGER, REDIS_REPLY_ARRAY, REDIS_REPLY_ERROR,
      REDIS_REPLY_STATUS, REDIS_REPLY_STRING] <;>
    rfl

/-- An array whose elements are cloned right. -/
theorem clone_array {elements : List Reply} {src : Nat} {block : List (Option Nat)}
    (hreply : m.replies[r]? = some {
      type := REDIS_REPLY_ARRAY
      elements := elements.length
      element := some src })
    (hblock : m.arrays[src]? = some block) (hall : RepresentsAll {} m elements block)
    (hclone : ∀ t ∈ elements, ∀ m p, Represents {} m t p → ∃ c m',
      RedisReplyClone fuel m p = some (c, m') ∧ Kept m m' ∧ Represents m.extent m' t c) :
    ∃ c m', RedisReplyClone (fuel + 1) m r = some (c, m') ∧ Kept m m' ∧
      Represents m.extent m' (.ARRAY elements) c := by
  -- The memory with the new array and the new reply, before the loop.
  obtain ⟨m₁, hm₁⟩ : ∃ m₁, ((m.newArray elements.length).2.newReply {
      type := REDIS_REPLY_ARRAY
      elements := elements.length
      element := some m.arrays.length }).2 = m₁ := ⟨_, rfl⟩
  have hkept : Kept m m₁ := hm₁ ▸ (kept_newArray m elements.length).trans (kept_newReply _ _)
  have hreply₁ : m₁.replies[m.replies.length]? = some {
      type := REDIS_REPLY_ARRAY
      elements := elements.length
      element := some m.arrays.length } := by
    rw [← hm₁]
    exact getElem?_newReply ..
  have hblock₁ : m₁.arrays[m.arrays.length]? =
      some ([] ++ List.replicate elements.length none) := by
    rw [← hm₁]
    exact List.getElem?_concat_length ..
  have hdst : m.arrays.length < m₁.extent.arrays := by
    simp [← hm₁, Memory.extent, Memory.newReply, Memory.newArray]
  obtain ⟨m', cs, hloop, hkept', -, hreplies, harray, hnew⟩ :=
    cloneElements_spec hdst le_rfl hclone hkept (.refl _) (show _ = some ([] ++ block) from hblock)
      hall hblock₁ rfl
  refine ⟨m.replies.length, m', ?_, hkept', le_rfl, .inr ⟨m.arrays.length, cs, le_rfl,
    hreplies _ _ hreply₁, harray, hnew.frame hkept.extent (.refl _ _)⟩⟩
  simp only [RedisReplyClone, hreply, Option.bind_eq_bind, Option.bind_some]
  rw [if_neg (by decide), if_pos trivial]
  have hcall : cloneElements (RedisReplyClone fuel) src (m.newArray elements.length).1
      elements.length 0 ((m.newArray elements.length).2.newReply {
        type := REDIS_REPLY_ARRAY
        elements := elements.length
        element := some (m.newArray elements.length).1 }).2 = some m' := by
    rw [← hloop, ← hm₁]
    rfl
  rw [hcall]
  rfl

/-- **The clone of a finite tree**, by induction on the depth. -/
theorem RedisReplyClone_spec {t : Reply} (h : Represents {} m t r) (hfuel : t.depth ≤ fuel) :
    ∃ c m', RedisReplyClone fuel m r = some (c, m') ∧ Kept m m' ∧
      Represents m.extent m' t c := by
  induction fuel generalizing m t r with
  | zero => cases t <;> simp [Reply.depth] at hfuel
  | succ fuel ih =>
      cases t with
      | NIL =>
          refine ⟨_, _, ?_, kept_newReply m { type := REDIS_REPLY_NIL }, le_rfl,
            getElem?_newReply ..⟩
          simp only [RedisReplyClone, h.2, Option.bind_eq_bind, Option.bind_some]
          rfl
      | INTEGER integer =>
          refine ⟨_, _, ?_, kept_newReply m { type := REDIS_REPLY_INTEGER, integer }, le_rfl,
            getElem?_newReply ..⟩
          simp only [RedisReplyClone, h.2, Option.bind_eq_bind, Option.bind_some]
          rfl
      | null kind len =>
          refine ⟨_, _, ?_, kept_newReply m { type := kind.type, len }, le_rfl,
            getElem?_newReply ..⟩
          simp only [RedisReplyClone, h.2, Option.bind_eq_bind, Option.bind_some]
          cases kind <;> rfl
      | text kind str => exact clone_text h
      | ARRAY elements =>
          obtain ⟨-, ⟨rfl, hreply⟩ | ⟨src, block, -, hreply, hblock, hall⟩⟩ := h
          · refine ⟨_, _, ?_, kept_newReply m { type := REDIS_REPLY_ARRAY }, le_rfl,
              .inl ⟨rfl, getElem?_newReply ..⟩⟩
            simp only [RedisReplyClone, hreply, Option.bind_eq_bind, Option.bind_some]
            rfl
          · exact clone_array hreply hblock hall fun t ht m p hrep => ih hrep (by
              have hle := depth_le_depthAll ht
              rw [Reply.depth] at hfuel
              omega)

end Clone

/-- **`RedisReplyClone` is a deep copy** of every finite reply, and comes to its end when it may go
as deep as the reply is. -/
theorem deepCopy_clone {m : Memory} {t : Reply} {r : Nat} (h : Represents {} m t r) {fuel : Nat}
    (hfuel : t.depth ≤ fuel) :
    ∃ c m', RedisReplyClone fuel m r = some (c, m') ∧ DeepCopy m t r c m' := by
  obtain ⟨c, m', hclone, hkept, hnew⟩ := RedisReplyClone_spec h hfuel
  exact ⟨c, m', hclone, hnew, hkept, h.frame (.refl _) hkept⟩

/-- A status and an empty array in an array. -/
def nested : Memory where
  replies := [
    { type := REDIS_REPLY_ARRAY, elements := 2, element := some 0 },
    { type := REDIS_REPLY_STATUS, len := 2, str := some 0 },
    { type := REDIS_REPLY_ARRAY }]
  strings := [[79, 75, 0]]
  arrays := [[some 1, some 2]]

/-- `deepCopy_clone` for `nested`. -/
theorem deepCopy_clone_nested : ∃ c m', RedisReplyClone 2 nested 0 = some (c, m') ∧
    DeepCopy nested (.ARRAY [.text .STATUS [79, 75], .ARRAY []]) 0 c m' := by
  refine deepCopy_clone (t := .ARRAY [.text .STATUS [79, 75], .ARRAY []]) ?_ (by decide)
  refine ⟨Nat.zero_le _, .inr ⟨0, _, Nat.zero_le _, rfl, rfl, 1, _, rfl, ?_, 2, _, rfl, ?_, rfl⟩⟩
  · exact ⟨Nat.zero_le _, 0, Nat.zero_le _, rfl, rfl⟩
  · exact ⟨Nat.zero_le _, .inl ⟨rfl, rfl⟩⟩

end Redis
end Routn
