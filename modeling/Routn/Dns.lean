import Mathlib.Data.Nat.ModEq
import Mathlib.Tactic

/-!
# `Dns::get`

`get` looks at as many places of the list as there are addresses.  The first place is that of the
seed, and the others are those of the counter `_idx`, which is incremented for each of them.  So the
place of the counter itself, before the call, is looked at only when it is the seed's, and a wrap of
the counter shifts the places.  `getSock` counts up from the seed instead, and does not leave a
place out.

What `AddressItem::getSock` answers is a parameter.
-/

namespace Routn

structure AddressItem (α : Type) where
  addr : α
  valid : Bool
deriving DecidableEq, Repr

structure Dns (α : Type) where
  address : List (AddressItem α)
  idx : UInt32 := 0
deriving DecidableEq, Repr

namespace Dns

variable {α β : Type}

/-- The seed, and the counter, with which the loops start. -/
def seeded (seed idx : UInt32) : UInt32 × UInt32 :=
  if seed = 0xffffffff then (idx + 1, idx + 1) else (seed, idx)

/-- The loop of `get`, with the number of rounds that are left. -/
def getLoop (address : List (AddressItem α)) : Nat → UInt32 → UInt32 → Option α × UInt32
  | 0, _, idx => (none, idx)
  | left + 1, seed, idx =>
      match address[seed.toNat % address.length]? with
      | none => (none, idx)
      | some info =>
          if info.valid then (some info.addr, idx) else getLoop address left (idx + 1) (idx + 1)

def get (dns : Dns α) (seed : UInt32) : Option α × Dns α :=
  let (seed, idx) := seeded seed dns.idx
  let (addr, idx) := getLoop dns.address dns.address.length seed idx
  (addr, { dns with idx := idx })

/-- The loop of `getSock`: the sum of the seed and the index is a `size_t`. -/
def getSock (sockOf : AddressItem α → Option β) (dns : Dns α) (seed : UInt32) : Option β × Dns α :=
  let (seed, idx) := seeded seed dns.idx
  ((List.range dns.address.length).findSome? fun i =>
    (dns.address[(seed.toNat + i) % dns.address.length]?).bind sockOf, { dns with idx := idx })

/-! ## The places that are looked at -/

/-- The place of round `k`. -/
def place (n : Nat) (seed idx : UInt32) (k : Nat) : Nat :=
  (if k = 0 then seed else idx + UInt32.ofNat k).toNat % n

/-- The address there is valid. -/
def ValidAt (address : List (AddressItem α)) (p : Nat) : Prop :=
  ∃ info, address[p]? = some info ∧ info.valid = true

variable {address : List (AddressItem α)} {seed idx : UInt32}

theorem place_succ (n : Nat) (seed idx : UInt32) (k : Nat) :
    place n (idx + 1) (idx + 1) k = place n seed idx (k + 1) := by
  unfold place
  rw [if_neg (Nat.succ_ne_zero k)]
  split
  · next hk =>
      subst hk
      rfl
  · rw [Nat.add_comm, UInt32.ofNat_add, ← UInt32.add_assoc]
    rfl

theorem getLoop_some {left : Nat} {addr : α}
    (h : (getLoop address left seed idx).1 = some addr) :
    ∃ info ∈ address, info.valid = true ∧ addr = info.addr := by
  induction left generalizing seed idx with
  | zero => cases h
  | succ left ih =>
      unfold getLoop at h
      split at h
      · cases h
      · next info hinfo =>
          split at h
          · next hvalid =>
            exact ⟨info, List.mem_of_getElem? hinfo, hvalid, (Option.some.inj h).symm⟩
          · exact ih h

/-- The loop finds nothing when none of its places has a valid address. -/
theorem getLoop_eq_none (hne : address ≠ []) {left : Nat} :
    (getLoop address left seed idx).1 = none ↔
      ∀ k < left, ¬ ValidAt address (place address.length seed idx k) := by
  induction left generalizing seed idx with
  | zero => simp [getLoop]
  | succ left ih =>
      have hlt : seed.toNat % address.length < address.length :=
        Nat.mod_lt _ (List.length_pos_of_ne_nil hne)
      have hfirst : ValidAt address (place address.length seed idx 0) ↔
          (address[seed.toNat % address.length]).valid = true := by
        have hplace : place address.length seed idx 0 = seed.toNat % address.length := rfl
        simp [ValidAt, hplace, List.getElem?_eq_getElem hlt]
      rw [getLoop, List.getElem?_eq_getElem hlt]
      dsimp only
      rw [Nat.forall_lt_succ_left, hfirst]
      by_cases hvalid : (address[seed.toNat % address.length]).valid = true
      · simp [hvalid]
      · rw [if_neg hvalid, ih]
        simp only [← place_succ address.length seed, hvalid, not_false_eq_true, true_and,
          Bool.false_eq_true]

/-! ## When a valid address is found -/

/-- `get` answers with a valid address if there is one, and with `nullptr` otherwise. -/
def Finds (dns : Dns α) (seed : UInt32) : Prop :=
  match (dns.get seed).1 with
  | some addr => ∃ info ∈ dns.address, info.valid = true ∧ addr = info.addr
  | none => ∀ info ∈ dns.address, info.valid = false

/-- **`get` finds a valid address** exactly when there is none, or one stands at the seed's place or
at one of the places of the counter that follow. -/
theorem finds_iff (dns : Dns α) (seed : UInt32) :
    dns.Finds seed ↔ ((∃ info ∈ dns.address, info.valid = true) →
      ∃ k < dns.address.length, ValidAt dns.address
        (place dns.address.length (seeded seed dns.idx).1 (seeded seed dns.idx).2 k)) := by
  have hget : (dns.get seed).1 = (getLoop dns.address dns.address.length
      (seeded seed dns.idx).1 (seeded seed dns.idx).2).1 := rfl
  unfold Finds
  rw [hget]
  cases hloop : (getLoop dns.address dns.address.length (seeded seed dns.idx).1
      (seeded seed dns.idx).2).1 with
  | some addr =>
      refine iff_of_true (getLoop_some hloop) fun h => ?_
      obtain ⟨info, hinfo, -⟩ := h
      by_contra hnot
      have hnone := (getLoop_eq_none (List.ne_nil_of_mem hinfo)).mpr fun k hk hvalid =>
        hnot ⟨k, hk, hvalid⟩
      rw [hnone] at hloop
      cases hloop
  | none =>
      constructor
      · rintro hall ⟨info, hinfo, hvalid⟩
        rw [hall info hinfo] at hvalid
        cases hvalid
      · intro h info hinfo
        by_contra hvalid
        obtain ⟨k, hk, hplace⟩ := h ⟨info, hinfo, by simpa using hvalid⟩
        exact (getLoop_eq_none (List.ne_nil_of_mem hinfo)).mp hloop k hk hplace

/-- One of two addresses is valid, and it is not the one of the seed. -/
def firstOfTwo : Dns Nat := ⟨[⟨1, true⟩, ⟨2, false⟩], 0⟩

/-- **The valid address is not found**: with the seed 1, both rounds look at the second place. -/
theorem not_finds_firstOfTwo : ¬ firstOfTwo.Finds 1 := by
  intro h
  exact absurd (h ⟨1, true⟩ List.mem_cons_self) (by decide)

/-! ## Places that are left out -/

/-- As long as the counter does not wrap, only its own place is not among those that follow. -/
theorem exists_place {n p : Nat} (hwrap : idx.toNat + n ≤ 2 ^ 32) (hp : p < n)
    (hne : p ≠ idx.toNat % n) : ∃ k, 0 < k ∧ k < n ∧ place n seed idx k = p := by
  have hmod : idx.toNat % n < n := Nat.mod_lt _ (by omega)
  have hplace : ∀ k, 0 < k → k < n → place n seed idx k = (idx.toNat % n + k) % n := by
    intro k hk hkn
    have hsum : (idx + UInt32.ofNat k).toNat = idx.toNat + k := by
      rw [UInt32.toNat_add, UInt32.toNat_ofNat_of_lt' (by unfold UInt32.size; omega)]
      exact Nat.mod_eq_of_lt (by omega)
    rw [place, if_neg hk.ne', hsum, Nat.add_mod, Nat.mod_eq_of_lt hkn]
  rcases Nat.lt_or_gt_of_ne hne with hlt | hgt
  · refine ⟨p + n - idx.toNat % n, by omega, by omega, ?_⟩
    rw [hplace _ (by omega) (by omega), show idx.toNat % n + (p + n - idx.toNat % n) = p + n by
      omega, Nat.add_mod_right, Nat.mod_eq_of_lt hp]
  · refine ⟨p - idx.toNat % n, by omega, by omega, ?_⟩
    rw [hplace _ (by omega) (by omega), show idx.toNat % n + (p - idx.toNat % n) = p by omega,
      Nat.mod_eq_of_lt hp]

/-- Without a seed, `get` finds a valid address as long as the counter does not wrap. -/
theorem finds_of_default (dns : Dns α) (hwrap : dns.idx.toNat + 1 + dns.address.length ≤ 2 ^ 32) :
    dns.Finds 0xffffffff := by
  rw [finds_iff]
  rintro ⟨info, hinfo, hvalid⟩
  obtain ⟨p, hp, hget⟩ := List.mem_iff_getElem.mp hinfo
  have hat : ValidAt dns.address p := ⟨info, by rw [List.getElem?_eq_getElem hp, hget], hvalid⟩
  have hnext : (dns.idx + 1).toNat = dns.idx.toNat + 1 := by
    have hone : (1 : UInt32).toNat = 1 := rfl
    rw [UInt32.toNat_add, hone]
    exact Nat.mod_eq_of_lt (by omega)
  by_cases hfirst : p = (dns.idx + 1).toNat % dns.address.length
  · subst hfirst
    exact ⟨0, by omega, hat⟩
  · have hroom : (dns.idx + 1).toNat + dns.address.length ≤ 2 ^ 32 := by omega
    obtain ⟨k, -, hk, hplace⟩ := exists_place hroom hp hfirst
    refine ⟨k, hk, ?_⟩
    rw [← hplace] at hat
    exact hat

/-- **`getSock` leaves no place out.** -/
theorem getSock_isSome (sockOf : AddressItem α → Option β) (dns : Dns α) (seed : UInt32) :
    ((dns.getSock sockOf seed).1).isSome ↔ ∃ info ∈ dns.address, (sockOf info).isSome := by
  unfold getSock
  dsimp only
  rw [List.findSome?_isSome_iff]
  constructor
  · rintro ⟨i, -, hsome⟩
    obtain ⟨sock, hsock⟩ := Option.isSome_iff_exists.mp hsome
    obtain ⟨info, hinfo, hsock⟩ := Option.bind_eq_some_iff.mp hsock
    exact ⟨info, List.mem_of_getElem? hinfo, by rw [hsock]; rfl⟩
  · rintro ⟨info, hinfo, hsome⟩
    obtain ⟨p, hp, hget⟩ := List.mem_iff_getElem.mp hinfo
    let first := (seeded seed dns.idx).1.toNat
    have hmod : first % dns.address.length < dns.address.length := Nat.mod_lt _ (by omega)
    -- The place is that of this index.
    refine ⟨(p + dns.address.length - first % dns.address.length) % dns.address.length,
      List.mem_range.mpr (Nat.mod_lt _ (by omega)), ?_⟩
    have hplace : (first + (p + dns.address.length - first % dns.address.length) %
        dns.address.length) % dns.address.length = p := by
      rw [Nat.add_mod_mod, ← Nat.mod_add_mod, show first % dns.address.length +
        (p + dns.address.length - first % dns.address.length) = p + dns.address.length by omega,
        Nat.add_mod_right, Nat.mod_eq_of_lt hp]
    rw [hplace, List.getElem?_eq_getElem hp, hget]
    exact hsome

end Dns
end Routn
