import Routn.Address.SockAddr

/-!
# Subnets

`CreateMask` makes the mask of the host part, the low bits.  `subnetMask` is its complement and
`broadcastAddress` puts it over the address; `networkAddress` takes it as it is.  The one is shifted
by the bits of the host part, which may be all bits of an `int`, and the byte of an IPv6 address
that the prefix ends in may be the one behind the last.

An address and a mask are compared bit by bit, from the first bit of the first byte on.
-/

namespace Routn
namespace Address

/-- What is not defined: a shift by the width of the type or more, and an index behind the array. -/
inductive Fault
  | shift
  | index
deriving DecidableEq, Repr

/-- `CreateMask<T>(bits)` for a type of `w` bits.  The one is an `int`. -/
def CreateMask (w bits : Nat) : Except Fault (BitVec w) :=
  if bits ≤ w ∧ w - bits < 32 then .ok (((1#32 <<< (w - bits)) - 1#32).setWidth w)
  else .error .shift

/-! ## IPv4 -/

namespace IPv4Address

def broadcastAddress (host : ByteOrder) (_addr : SockAddrIn) (prefix_len : Nat) :
    Except Fault (Option SockAddrIn) :=
  if prefix_len > 32 then .ok none
  else do
    let mask ← CreateMask 32 prefix_len
    return some { _addr with s_addr := _addr.s_addr ||| byteswapWord host mask }

def networkAddress (host : ByteOrder) (_addr : SockAddrIn) (prefix_len : Nat) :
    Except Fault (Option SockAddrIn) :=
  if prefix_len > 32 then .ok none
  else do
    let mask ← CreateMask 32 prefix_len
    return some { _addr with s_addr := _addr.s_addr &&& byteswapWord host mask }

def subnetMask (host : ByteOrder) (prefix_len : Nat) : Except Fault (Option SockAddrIn) := do
  let mask ← CreateMask 32 prefix_len
  return some ⟨AF_INET, 0, ~~~ byteswapWord host mask⟩

/-- The bits of the address, most significant first. -/
def bit (host : ByteOrder) (addr : SockAddrIn) (j : Fin 32) : Bool :=
  (byteswapWord host addr.s_addr).getLsbD (31 - j)

end IPv4Address

/-! ## IPv6 -/

namespace IPv6Address

/-- An assignment to `s6_addr[i]`. -/
def assign (s6_addr : Fin 16 → BitVec 8) (i : Nat) (f : BitVec 8 → BitVec 8) :
    Except Fault (Fin 16 → BitVec 8) :=
  if h : i < 16 then .ok (Function.update s6_addr ⟨i, h⟩ (f (s6_addr ⟨i, h⟩)))
  else .error .index

/-- The loops: the next `n` bytes from `i` on are `v`. -/
def fill (v : BitVec 8) : Nat → Nat → (Fin 16 → BitVec 8) → Except Fault (Fin 16 → BitVec 8)
  | 0, _, s6_addr => .ok s6_addr
  | n + 1, i, s6_addr => do fill v n (i + 1) (← assign s6_addr i fun _ => v)

def broadcastAddress (_addr : SockAddrIn6) (prefix_len : Nat) :
    Except Fault (Option SockAddrIn6) := do
  let mask ← CreateMask 8 (prefix_len % 8)
  let s6_addr ← assign _addr.s6_addr (prefix_len / 8) (· ||| mask)
  let s6_addr ← fill 0xff (16 - (prefix_len / 8 + 1)) (prefix_len / 8 + 1) s6_addr
  return some { _addr with s6_addr }

def networkAddress (_addr : SockAddrIn6) (prefix_len : Nat) :
    Except Fault (Option SockAddrIn6) := do
  let mask ← CreateMask 8 (prefix_len % 8)
  let s6_addr ← assign _addr.s6_addr (prefix_len / 8) (· &&& mask)
  let s6_addr ← fill 0 (16 - (prefix_len / 8 + 1)) (prefix_len / 8 + 1) s6_addr
  return some { _addr with s6_addr }

def subnetMask (prefix_len : Nat) : Except Fault (Option SockAddrIn6) := do
  let mask ← CreateMask 8 (prefix_len % 8)
  let s6_addr ← assign (fun _ => 0) (prefix_len / 8) fun _ => ~~~ mask
  let s6_addr ← fill 0xff (prefix_len / 8) 0 s6_addr
  return some ⟨AF_INET6, 0, s6_addr⟩

/-- The bits of the address, most significant first. -/
def bit (addr : SockAddrIn6) (j : Fin 128) : Bool :=
  (addr.s6_addr ⟨j / 8, by omega⟩).getLsbD (7 - j % 8)

end IPv6Address

/-! ## What is asked of them -/

/-- There is an address, and nothing undefined on the way to it. -/
def Yields {α : Type} (result : Except Fault (Option α)) (P : α → Prop) : Prop :=
  ∃ addr, result = .ok (some addr) ∧ P addr

@[simp] theorem yields_ok {α : Type} (addr : α) (P : α → Prop) :
    Yields (.ok (some addr)) P ↔ P addr := by
  simp [Yields]

@[simp] theorem not_yields_error {α : Type} (fault : Fault) (P : α → Prop) :
    ¬ Yields (.error fault) P := by
  simp [Yields]

namespace IPv4Address

/-- The first `p` bits are set. -/
def IsMask (host : ByteOrder) (p : Nat) (mask : SockAddrIn) : Prop :=
  ∀ j : Fin 32, bit host mask j = decide (j < p)

/-- The address or what is not in the mask. -/
def IsBroadcast (host : ByteOrder) (addr : SockAddrIn) (p : Nat) (broadcast : SockAddrIn) : Prop :=
  broadcast.sin_family = addr.sin_family ∧ broadcast.sin_port = addr.sin_port ∧
    ∀ j : Fin 32, bit host broadcast j = (bit host addr j || !decide (j < p))

/-- The address and the mask. -/
def IsNetwork (host : ByteOrder) (addr : SockAddrIn) (p : Nat) (network : SockAddrIn) : Prop :=
  network.sin_family = addr.sin_family ∧ network.sin_port = addr.sin_port ∧
    ∀ j : Fin 32, bit host network j = (bit host addr j && decide (j < p))

end IPv4Address

namespace IPv6Address

def IsMask (p : Nat) (mask : SockAddrIn6) : Prop :=
  ∀ j : Fin 128, bit mask j = decide (j < p)

def IsBroadcast (addr : SockAddrIn6) (p : Nat) (broadcast : SockAddrIn6) : Prop :=
  broadcast.sin6_family = addr.sin6_family ∧ broadcast.sin6_port = addr.sin6_port ∧
    ∀ j : Fin 128, bit broadcast j = (bit addr j || !decide (j < p))

def IsNetwork (addr : SockAddrIn6) (p : Nat) (network : SockAddrIn6) : Prop :=
  network.sin6_family = addr.sin6_family ∧ network.sin6_port = addr.sin6_port ∧
    ∀ j : Fin 128, bit network j = (bit addr j && decide (j < p))

end IPv6Address

theorem ok_bind {α β : Type} (a : α) (f : α → Except Fault β) : (Except.ok a >>= f) = f a := rfl

theorem error_bind {α β : Type} (fault : Fault) (f : α → Except Fault β) :
    (Except.error fault >>= f) = Except.error fault := rfl

theorem pure_eq {α : Type} (a : α) : (pure a : Except Fault α) = .ok a := rfl

/-! ## The mask of the host part -/

/-- The low `n` bits of a word. -/
def lowBits (w n : Nat) : BitVec w := ((1#32 <<< n) - 1#32).setWidth w

theorem getLsbD_lowBits {w n i : Nat} (hn : n < 32) (hi : i < w) :
    (lowBits w n).getLsbD i = decide (i < n) := by
  have hpow : 2 ^ n < 2 ^ 32 := Nat.pow_lt_pow_right (by decide) hn
  have hone : (1#32 <<< n).toNat = 2 ^ n := by
    simpa [Nat.shiftLeft_eq] using hpow
  have hsub : ((1#32 <<< n) - 1#32).toNat = 2 ^ n - 1 := by
    rw [BitVec.toNat_sub_of_le, hone]
    · rfl
    · simp only [BitVec.le_def, hone]
      exact Nat.one_le_two_pow
  simp [lowBits, BitVec.getLsbD, hsub, hi]

theorem CreateMask_eq {w bits : Nat} (hbits : bits ≤ w) (hshift : w - bits < 32) :
    CreateMask w bits = .ok (lowBits w (w - bits)) := by
  simp [CreateMask, hbits, hshift, lowBits]

/-- The one is shifted out of its type. -/
theorem CreateMask_zero : CreateMask 32 0 = .error .shift := by
  decide

namespace IPv4Address

variable (host : ByteOrder) (addr : SockAddrIn) {p : Nat}

/-- The bits of a word that has passed through the swap. -/
theorem bit_byteswapWord (mask : BitVec 32) (j : Fin 32) :
    (byteswapWord host mask).getLsbD (swappedBit host 32 (31 - j)) = mask.getLsbD (31 - j) := by
  have hdvd : 8 ∣ 32 := by decide
  rw [← getLsbD_byteswapWord _ hdvd (by omega), byteswapWord_byteswapWord _ hdvd]

theorem bit_eq (j : Fin 32) :
    bit host addr j = addr.s_addr.getLsbD (swappedBit host 32 (31 - j)) :=
  getLsbD_byteswapWord _ (by decide) (by omega)

theorem getLsbD_hostPart (hp : 1 ≤ p) (hle : p ≤ 32) (j : Fin 32) :
    (byteswapWord host (lowBits 32 (32 - p))).getLsbD (swappedBit host 32 (31 - j)) =
      !decide (j < p) := by
  rw [bit_byteswapWord, getLsbD_lowBits (by omega) (by omega), ← decide_not, decide_eq_decide]
  omega

theorem subnetMask_iff (hle : p ≤ 32) : Yields (subnetMask host p) (IsMask host p) ↔ 1 ≤ p := by
  by_cases hp : 1 ≤ p
  · have hmask : subnetMask host p =
        .ok (some ⟨AF_INET, 0, ~~~ byteswapWord host (lowBits 32 (32 - p))⟩) := by
      simp [subnetMask, CreateMask_eq hle (by omega : 32 - p < 32)]
    simp only [hmask, yields_ok, hp, iff_true]
    intro j
    have hlt : swappedBit host 32 (31 - j) < 32 := swappedBit_lt host (by decide) (by omega)
    rw [bit_eq, BitVec.getLsbD_not, getLsbD_hostPart host hp hle]
    simp [hlt]
  · obtain rfl : p = 0 := by omega
    simp [subnetMask, CreateMask_zero]

theorem broadcastAddress_iff (hle : p ≤ 32) :
    Yields (broadcastAddress host addr p) (IsBroadcast host addr p) ↔ 1 ≤ p := by
  by_cases hp : 1 ≤ p
  · have hbroadcast : broadcastAddress host addr p = .ok (some { addr with
        s_addr := addr.s_addr ||| byteswapWord host (lowBits 32 (32 - p)) }) := by
      simp [broadcastAddress, Nat.not_lt.mpr hle, CreateMask_eq hle (by omega : 32 - p < 32)]
    simp only [hbroadcast, yields_ok, hp, iff_true]
    refine ⟨rfl, rfl, fun j => ?_⟩
    simp [bit_eq, getLsbD_hostPart host hp hle]
  · obtain rfl : p = 0 := by omega
    simp [broadcastAddress, CreateMask_zero]

/-- An address all of whose bits are clear is zero. -/
theorem eq_zero_iff : addr.s_addr = 0 ↔ ∀ j, bit host addr j = false := by
  have hdvd : 8 ∣ 32 := by decide
  constructor
  · intro h j
    simp [bit_eq, h]
  · intro h
    apply BitVec.eq_of_getLsbD_eq
    intro i hi
    have hlt := swappedBit_lt host hdvd hi
    have hbit := h ⟨31 - swappedBit host 32 i, by omega⟩
    have hback : 31 - (31 - swappedBit host 32 i) = swappedBit host 32 i := by omega
    rw [bit_eq] at hbit
    simpa [hback, swappedBit_swappedBit hdvd hi] using hbit

theorem networkAddress_iff (hle : p ≤ 32) :
    Yields (networkAddress host addr p) (IsNetwork host addr p) ↔ 1 ≤ p ∧ addr.s_addr = 0 := by
  by_cases hp : 1 ≤ p
  · have hnetwork : networkAddress host addr p = .ok (some { addr with
        s_addr := addr.s_addr &&& byteswapWord host (lowBits 32 (32 - p)) }) := by
      simp [networkAddress, Nat.not_lt.mpr hle, CreateMask_eq hle (by omega : 32 - p < 32)]
    rw [hnetwork, yields_ok, eq_zero_iff host]
    -- The bits that are kept are those that are to go.
    have hbits (j : Fin 32) : bit host { addr with
          s_addr := addr.s_addr &&& byteswapWord host (lowBits 32 (32 - p)) } j =
        (bit host addr j && !decide (j < p)) := by
      simp [bit_eq, getLsbD_hostPart host hp hle]
    simp only [IsNetwork, hbits, hp, true_and]
    apply forall_congr'
    intro j
    cases bit host addr j <;> by_cases hj : j < p <;> simp [hj]
  · obtain rfl : p = 0 := by omega
    simp [networkAddress, CreateMask_zero]

end IPv4Address

namespace IPv6Address

variable (addr : SockAddrIn6) {p : Nat}

theorem fill_eq {v : BitVec 8} {n i : Nat} (h : i + n ≤ 16) (s6_addr : Fin 16 → BitVec 8) :
    fill v n i s6_addr = .ok fun k => if i ≤ k ∧ k < i + n then v else s6_addr k := by
  induction n generalizing i s6_addr with
  | zero =>
      simp only [fill, Nat.add_zero, Except.ok.injEq]
      funext k
      have hnot : ¬ (i ≤ k.val ∧ k.val < i) := by omega
      simp [hnot]
  | succ n ih =>
      have hi : i < 16 := by omega
      have hassign : assign s6_addr i (fun _ => v) = .ok (Function.update s6_addr ⟨i, hi⟩ v) := by
        simp [assign, hi]
      rw [fill, hassign]
      refine (ih (by omega) _).trans (congrArg _ ?_)
      funext k
      by_cases hk : k = ⟨i, hi⟩
      · subst hk
        simp
      · have hne : k.val ≠ i := fun h => hk (Fin.ext h)
        have hrange : (i < k.val ∧ k.val < i + 1 + n) ↔ (i ≤ k.val ∧ k.val < i + (n + 1)) := by
          omega
        simp [hk, hrange]

/-- The mask within the byte that the prefix ends in. -/
theorem CreateMask_byte : CreateMask 8 (p % 8) = .ok (lowBits 8 (8 - p % 8)) :=
  CreateMask_eq (by omega) (by omega)

theorem assign_eq {i : Nat} (hi : i < 16) (s6_addr : Fin 16 → BitVec 8)
    (f : BitVec 8 → BitVec 8) :
    assign s6_addr i f = .ok (Function.update s6_addr ⟨i, hi⟩ (f (s6_addr ⟨i, hi⟩))) := by
  simp [assign, hi]

theorem assign_last {i : Nat} (hi : ¬ i < 16) (s6_addr : Fin 16 → BitVec 8)
    (f : BitVec 8 → BitVec 8) : assign s6_addr i f = .error .index := by
  simp [assign, hi]

theorem getLsbD_ff {i : Nat} (hi : i < 8) : (0xff : BitVec 8).getLsbD i = true := by
  have hones : (0xff : BitVec 8) = BitVec.allOnes 8 := by decide
  rw [hones, BitVec.getLsbD_allOnes]
  simpa using hi

/-- Within the byte that the prefix ends in, the mask has what is not in the prefix. -/
theorem getLsbD_hostByte {j : Nat} (hbyte : j / 8 = p / 8) :
    (lowBits 8 (8 - p % 8)).getLsbD (7 - j % 8) = !decide (j < p) := by
  rw [getLsbD_lowBits (by omega) (by omega), ← decide_not, decide_eq_decide]
  omega

theorem subnetMask_iff (hle : p ≤ 128) : Yields (subnetMask p) (IsMask p) ↔ p < 128 := by
  by_cases hp : p < 128
  · have hbyte : p / 8 < 16 := by omega
    simp only [subnetMask, CreateMask_byte, assign_eq hbyte, fill_eq (by omega : 0 + p / 8 ≤ 16),
      ok_bind, pure_eq, yields_ok, hp, iff_true]
    intro j
    simp only [bit, Function.update_apply, Fin.mk.injEq, Nat.zero_le, true_and, Nat.zero_add]
    rcases Nat.lt_trichotomy (j / 8) (p / 8) with hlt | heq | hlt
    · have hbit : j.val < p := by omega
      rw [if_pos hlt, getLsbD_ff (by omega)]
      simp [hbit]
    · rw [if_neg (by omega), if_pos heq, BitVec.getLsbD_not, getLsbD_hostByte heq]
      simp
      omega
    · have hbit : ¬ j.val < p := by omega
      simp [hlt.asymm, hlt.ne', hbit]
  · have hbyte : ¬ p / 8 < 16 := by omega
    simp only [subnetMask, CreateMask_byte, assign_last hbyte, ok_bind, error_bind,
      not_yields_error, hp]

/-- The bytes behind the one that the prefix ends in. -/
theorem fill_behind (hp : p < 128) (v : BitVec 8) (s6_addr : Fin 16 → BitVec 8) :
    fill v (16 - (p / 8 + 1)) (p / 8 + 1) s6_addr =
      .ok fun k => if p / 8 < k then v else s6_addr k := by
  rw [fill_eq (by omega)]
  congr
  funext k
  have hrange : (p / 8 + 1 ≤ k.val ∧ k.val < p / 8 + 1 + (16 - (p / 8 + 1))) ↔ p / 8 < k.val := by
    omega
  simp only [hrange]

theorem broadcastAddress_iff (hle : p ≤ 128) :
    Yields (broadcastAddress addr p) (IsBroadcast addr p) ↔ p < 128 := by
  by_cases hp : p < 128
  · have hbyte : p / 8 < 16 := by omega
    simp only [broadcastAddress, CreateMask_byte, assign_eq hbyte, fill_behind hp, ok_bind,
      pure_eq, yields_ok, hp, iff_true]
    refine ⟨rfl, rfl, fun j => ?_⟩
    simp only [bit, Function.update_apply, Fin.mk.injEq]
    rcases Nat.lt_trichotomy (j / 8) (p / 8) with hlt | heq | hlt
    · have hbit : j.val < p := by omega
      simp [hlt.asymm, hlt.ne, hbit]
    · simp [heq, getLsbD_hostByte heq]
    · have hbit : ¬ j.val < p := by omega
      rw [if_pos hlt, getLsbD_ff (by omega)]
      simp [hbit]
  · have hbyte : ¬ p / 8 < 16 := by omega
    simp only [broadcastAddress, CreateMask_byte, assign_last hbyte, ok_bind, error_bind,
      not_yields_error, hp]

theorem networkAddress_iff (hle : p ≤ 128) :
    Yields (networkAddress addr p) (IsNetwork addr p) ↔
      ∃ h : p < 128, addr.s6_addr ⟨p / 8, by omega⟩ = 0 := by
  by_cases hp : p < 128
  · have hbyte : p / 8 < 16 := by omega
    simp only [networkAddress, CreateMask_byte, assign_eq hbyte, fill_behind hp, ok_bind,
      pure_eq, yields_ok, hp, exists_true_left]
    constructor
    · rintro ⟨-, -, hbits⟩
      apply BitVec.eq_of_getLsbD_eq
      intro i hi
      have hj : (8 * (p / 8) + (7 - i)) / 8 = p / 8 := by omega
      have hmod : 7 - (8 * (p / 8) + (7 - i)) % 8 = i := by omega
      have hbit := hbits ⟨8 * (p / 8) + (7 - i), by omega⟩
      have hmask := getLsbD_hostByte hj
      simp only [bit, hj, hmod, Function.update_self, lt_irrefl, if_false,
        BitVec.getLsbD_and] at hbit hmask
      rw [hmask] at hbit
      revert hbit
      cases (addr.s6_addr ⟨p / 8, hbyte⟩).getLsbD i <;>
        by_cases hlt : 8 * (p / 8) + (7 - i) < p <;> simp [hlt]
    · intro hzero
      refine ⟨rfl, rfl, fun j => ?_⟩
      simp only [bit, Function.update_apply, Fin.mk.injEq]
      rcases Nat.lt_trichotomy (j / 8) (p / 8) with hlt | heq | hlt
      · have hbit : j.val < p := by omega
        simp [hlt.asymm, hlt.ne, hbit]
      · simp [heq, hzero]
      · have hbit : ¬ j.val < p := by omega
        simp [hlt, hbit]
  · have hbyte : ¬ p / 8 < 16 := by omega
    simp [networkAddress, CreateMask_byte, assign_last hbyte, ok_bind, error_bind, hp]

end IPv6Address

/-- **The subnets of an address.**  The mask and the broadcast address are right but where the one
is shifted out or the byte behind the last is written; the network address is right for no others
than those that have nothing where the two masks differ. -/
theorem subnet_iff (host : ByteOrder) (addr4 : SockAddrIn) (addr6 : SockAddrIn6) {p q : Nat}
    (hp : p ≤ 32) (hq : q ≤ 128) :
    ((Yields (IPv4Address.subnetMask host p) (IPv4Address.IsMask host p) ↔ 1 ≤ p) ∧
      (Yields (IPv4Address.broadcastAddress host addr4 p)
        (IPv4Address.IsBroadcast host addr4 p) ↔ 1 ≤ p) ∧
      (Yields (IPv4Address.networkAddress host addr4 p) (IPv4Address.IsNetwork host addr4 p) ↔
        1 ≤ p ∧ addr4.s_addr = 0)) ∧
    (Yields (IPv6Address.subnetMask q) (IPv6Address.IsMask q) ↔ q < 128) ∧
      (Yields (IPv6Address.broadcastAddress addr6 q) (IPv6Address.IsBroadcast addr6 q) ↔
        q < 128) ∧
      (Yields (IPv6Address.networkAddress addr6 q) (IPv6Address.IsNetwork addr6 q) ↔
        ∃ h : q < 128, addr6.s6_addr ⟨q / 8, by omega⟩ = 0) :=
  ⟨⟨IPv4Address.subnetMask_iff host hp, IPv4Address.broadcastAddress_iff host addr4 hp,
      IPv4Address.networkAddress_iff host addr4 hp⟩,
    IPv6Address.subnetMask_iff hq, IPv6Address.broadcastAddress_iff addr6 hq,
    IPv6Address.networkAddress_iff addr6 hq⟩

/-- `subnet_iff` for `10.0.0.1/8` and `::/0`. -/
theorem subnet_iff_ten :
    Yields (IPv4Address.subnetMask .littleEndian 8) (IPv4Address.IsMask .littleEndian 8) ∧
      Yields (IPv6Address.networkAddress ⟨AF_INET6, 0, fun _ => 0⟩ 0)
        (IPv6Address.IsNetwork ⟨AF_INET6, 0, fun _ => 0⟩ 0) := by
  have hboth := subnet_iff .littleEndian ⟨AF_INET, 0, 0x0100000A⟩ ⟨AF_INET6, 0, fun _ => 0⟩
    (p := 8) (q := 0) (by decide) (by decide)
  exact ⟨hboth.1.1.mpr (by decide), hboth.2.2.2.mpr ⟨by decide, rfl⟩⟩

/-- **The network of `192.168.1.1/24`** is `0.0.0.1`. -/
theorem not_isNetwork_24 :
    IPv4Address.networkAddress .littleEndian ⟨AF_INET, 0, 0x0101A8C0⟩ 24 =
        .ok (some ⟨AF_INET, 0, 0x01000000⟩) ∧
      ¬ Yields (IPv4Address.networkAddress .littleEndian ⟨AF_INET, 0, 0x0101A8C0⟩ 24)
        (IPv4Address.IsNetwork .littleEndian ⟨AF_INET, 0, 0x0101A8C0⟩ 24) := by
  have hnetwork : IPv4Address.networkAddress .littleEndian ⟨AF_INET, 0, 0x0101A8C0⟩ 24 =
      .ok (some ⟨AF_INET, 0, 0x01000000⟩) := by decide
  refine ⟨hnetwork, ?_⟩
  rw [hnetwork, yields_ok]
  rintro ⟨-, -, hbits⟩
  exact absurd (hbits 0) (by decide)

end Address
end Routn
