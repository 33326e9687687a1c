import Mathlib.Data.BitVec
import Mathlib.Tactic

set_option autoImplicit false

/-! # IPv6 addresses

The tests on addresses that the address list, the prefix list and the source address selection share,
and the entries of the address list. An address is the number its 16 bytes make up, the first byte
being the most significant one; the `k`-th bit in the order of transmission is `getMsbD k`. -/

namespace Ipv6

abbrev Ipv6Addr := BitVec 128

/-- `IPV6_UNSPECIFIED_ADDR`. -/
def IPV6_UNSPECIFIED_ADDR : Ipv6Addr := 0

/-- `IPV6_LOOPBACK_ADDR`. -/
def IPV6_LOOPBACK_ADDR : Ipv6Addr := 1

/-- `ipAddr->b[i]`. -/
def b (ipAddr : Ipv6Addr) (i : ℕ) : BitVec 8 := ipAddr.extractLsb' (120 - 8 * i) 8

/-- `ipv6IsLinkLocalUnicastAddr`. -/
def ipv6IsLinkLocalUnicastAddr (ipAddr : Ipv6Addr) : Bool :=
  b ipAddr 0 = 0xFE ∧ b ipAddr 1 &&& 0xC0 = 0x80

/-- `ipv6IsSiteLocalUnicastAddr`. -/
def ipv6IsSiteLocalUnicastAddr (ipAddr : Ipv6Addr) : Bool :=
  b ipAddr 0 = 0xFE ∧ b ipAddr 1 &&& 0xC0 = 0xC0

/-- `ipv6IsMulticastAddr`. -/
def ipv6IsMulticastAddr (ipAddr : Ipv6Addr) : Bool := b ipAddr 0 = 0xFF

/-! ## Scopes -/

/-- `IPV6_ADDR_SCOPE_INTERFACE_LOCAL`. -/
def IPV6_ADDR_SCOPE_INTERFACE_LOCAL : ℕ := 1

/-- `IPV6_ADDR_SCOPE_LINK_LOCAL`. -/
def IPV6_ADDR_SCOPE_LINK_LOCAL : ℕ := 2

/-- `IPV6_ADDR_SCOPE_SITE_LOCAL`. -/
def IPV6_ADDR_SCOPE_SITE_LOCAL : ℕ := 5

/-- `IPV6_ADDR_SCOPE_GLOBAL`. -/
def IPV6_ADDR_SCOPE_GLOBAL : ℕ := 14

/-- `ipv6GetMulticastAddrScope`. -/
def ipv6GetMulticastAddrScope (ipAddr : Ipv6Addr) : ℕ :=
  let scope := (b ipAddr 1 &&& 0x0F).toNat
  if scope = 0x0F then IPV6_ADDR_SCOPE_GLOBAL else scope

/-- `ipv6GetAddrScope`. -/
def ipv6GetAddrScope (ipAddr : Ipv6Addr) : ℕ :=
  if ipv6IsMulticastAddr ipAddr then ipv6GetMulticastAddrScope ipAddr
  else if ipAddr = IPV6_LOOPBACK_ADDR then IPV6_ADDR_SCOPE_INTERFACE_LOCAL
  else if ipv6IsLinkLocalUnicastAddr ipAddr then IPV6_ADDR_SCOPE_LINK_LOCAL
  else if ipv6IsSiteLocalUnicastAddr ipAddr then IPV6_ADDR_SCOPE_SITE_LOCAL
  else IPV6_ADDR_SCOPE_GLOBAL

/-! ## Prefixes -/

/-- The bytes are equal from `i` on, with `n` bytes left: the index of the first difference. -/
def byteLoop (ipAddr1 ipAddr2 : Ipv6Addr) : ℕ → ℕ → ℕ
  | 0, i => i
  | n + 1, i => if b ipAddr1 i ≠ b ipAddr2 i then i else byteLoop ipAddr1 ipAddr2 n (i + 1)

/-- The bits of two bytes are equal from `j` on, with `n` bits left: the index of the first
difference. -/
def bitLoop (x y : BitVec 8) : ℕ → ℕ → ℕ
  | 0, j => j
  | n + 1, j =>
      let mask := 1#8 <<< (7 - j)
      if x &&& mask ≠ y &&& mask then j else bitLoop x y n (j + 1)

/-- `ipv6GetCommonPrefixLength`. -/
def ipv6GetCommonPrefixLength (ipAddr1 ipAddr2 : Ipv6Addr) : ℕ :=
  let i := byteLoop ipAddr1 ipAddr2 16 0
  i * 8 + if i < 16 then bitLoop (b ipAddr1 i) (b ipAddr2 i) 8 0 else 0

/-- `ipv6CompPrefix`. -/
def ipv6CompPrefix (ipAddr1 ipAddr2 : Ipv6Addr) (length : ℕ) : Bool :=
  if length > 128 then false
  else
    let n := length / 8
    let m := length % 8
    let mask := (1#8 <<< m - 1#8) <<< (8 - m)
    (∀ i < n, b ipAddr1 i = b ipAddr2 i) ∧
      (m > 0 → b ipAddr1 n &&& mask = b ipAddr2 n &&& mask)

/-! ## The entries of the address list -/

/-- `Ipv6AddrState`. -/
inductive Ipv6AddrState where
  | invalid
  | tentative
  | preferred
  | deprecated
  deriving DecidableEq, Repr

/-- `Ipv6AddrEntry`. -/
structure Ipv6AddrEntry where
  addr : Ipv6Addr
  state : Ipv6AddrState
  duplicate : Bool
  validLifetime : UInt32
  preferredLifetime : UInt32
  permanent : Bool
  timestamp : UInt32
  dadTimeout : UInt32
  dadRetransmitCount : ℕ
  deriving DecidableEq, Repr

/-! ## What the common prefix is -/

section Prefix

variable {a c : Ipv6Addr} {x y : BitVec 8} {i j n : ℕ}

theorem b_getMsbD (a : Ipv6Addr) {i m : ℕ} (hi : i < 16) (hm : m < 8) :
    (b a i).getMsbD m = a.getMsbD (8 * i + m) := by
  simp only [b, BitVec.getMsbD_eq_getLsbD, BitVec.getLsbD_extractLsb']
  have h : 120 - 8 * i + (8 - 1 - m) = 128 - 1 - (8 * i + m) := by omega
  simp only [h, hm, show 8 * i + m < 128 by omega, show 8 - 1 - m < 8 by omega, decide_true,
    Bool.true_and]

/-- One bit of a byte is compared through its mask. -/
theorem mask_eq_iff (x y : BitVec 8) {j : ℕ} (hj : j < 8) :
    x &&& 1#8 <<< (7 - j) = y &&& 1#8 <<< (7 - j) ↔ x.getMsbD j = y.getMsbD j := by
  have hne : BitVec.twoPow 8 (7 - j) ≠ 0#8 := by interval_cases j <;> decide
  rw [← BitVec.twoPow_eq, BitVec.and_twoPow, BitVec.and_twoPow, BitVec.getMsbD_eq_getLsbD,
    BitVec.getMsbD_eq_getLsbD]
  simp only [hj, decide_true, Bool.true_and, show 8 - 1 - j = 7 - j by omega]
  cases x.getLsbD (7 - j) <;> cases y.getLsbD (7 - j) <;> simp [hne, hne.symm]

/-- Where two bytes differ, and that they agree in front of it. -/
theorem bitLoop_spec (x y : BitVec 8) (hn : j + n = 8) :
    j ≤ bitLoop x y n j ∧ bitLoop x y n j ≤ 8 ∧
      (∀ k, j ≤ k → k < bitLoop x y n j → x.getMsbD k = y.getMsbD k) ∧
      (bitLoop x y n j < 8 → x.getMsbD (bitLoop x y n j) ≠ y.getMsbD (bitLoop x y n j)) := by
  induction n generalizing j with
  | zero =>
      obtain rfl : j = 8 := hn
      exact ⟨le_refl _, le_refl _, fun k hk hlt => absurd hlt (Nat.not_lt.2 hk),
        fun h => absurd h (lt_irrefl _)⟩
  | succ n ih =>
      have hj : j < 8 := by omega
      rw [bitLoop]
      simp only [ne_eq, mask_eq_iff x y hj, ite_not]
      split_ifs with h
      · obtain ⟨hle, hub, heq, hne⟩ := ih (show j + 1 + n = 8 by omega)
        refine ⟨by omega, hub, fun k hk hlt => ?_, hne⟩
        rcases Nat.eq_or_lt_of_le hk with rfl | hk
        · exact h
        · exact heq k hk hlt
      · exact ⟨le_refl _, Nat.le_of_lt hj, fun k hk hlt => absurd hlt (Nat.not_lt.2 hk), fun _ => h⟩

/-- Where two addresses differ in a byte, and that they agree in front of it. -/
theorem byteLoop_spec (a c : Ipv6Addr) (i n : ℕ) :
    i ≤ byteLoop a c n i ∧ byteLoop a c n i ≤ i + n ∧
      (∀ k, i ≤ k → k < byteLoop a c n i → b a k = b c k) ∧
      (byteLoop a c n i < i + n → b a (byteLoop a c n i) ≠ b c (byteLoop a c n i)) := by
  induction n generalizing i with
  | zero =>
      exact ⟨le_refl _, le_refl _, fun k hk hlt => absurd hlt (Nat.not_lt.2 hk),
        fun h => absurd h (lt_irrefl _)⟩
  | succ n ih =>
      rw [byteLoop]
      split_ifs with h
      · exact ⟨le_refl _, Nat.le_add_right _ _, fun k hk hlt => absurd hlt (Nat.not_lt.2 hk),
          fun _ => h⟩
      · obtain ⟨hle, hub, heq, hne⟩ := ih (i + 1)
        refine ⟨by omega, by omega, fun k hk hlt => ?_, fun hlt => hne (by omega)⟩
        rcases Nat.eq_or_lt_of_le hk with rfl | hk
        · exact not_not.1 h
        · exact heq k hk hlt

/-- `n` is the length of the longest common prefix of two addresses. -/
structure LongestCommonPrefix (a c : Ipv6Addr) (n : ℕ) : Prop where
  le : n ≤ 128
  common : ∀ k < n, a.getMsbD k = c.getMsbD k
  longest : n < 128 → a.getMsbD n ≠ c.getMsbD n

theorem byte_eq_of_bits (h : ∀ k < 8, x.getMsbD k = y.getMsbD k) : x = y :=
  BitVec.eq_of_getMsbD_eq fun k hk => h k hk

theorem ipv6GetCommonPrefixLength_spec (a c : Ipv6Addr) :
    LongestCommonPrefix a c (ipv6GetCommonPrefixLength a c) := by
  obtain ⟨-, hub, heq, hne⟩ := byteLoop_spec a c 0 16
  have hbits : ∀ k < byteLoop a c 16 0 * 8, a.getMsbD k = c.getMsbD k := fun k hk => by
    have hbyte := heq (k / 8) (Nat.zero_le _) (by omega)
    have hget := congrArg (fun v => BitVec.getMsbD v (k % 8)) hbyte
    simp only [b_getMsbD a (show k / 8 < 16 by omega) (show k % 8 < 8 by omega),
      b_getMsbD c (show k / 8 < 16 by omega) (show k % 8 < 8 by omega), Nat.div_add_mod] at hget
    exact hget
  rw [ipv6GetCommonPrefixLength]
  generalize byteLoop a c 16 0 = i at hub hne hbits ⊢
  split_ifs with hi
  · obtain ⟨-, hub', heq', hne'⟩ := bitLoop_spec (b a i) (b c i) (show 0 + 8 = 8 from rfl)
    generalize bitLoop (b a i) (b c i) 8 0 = j at hub' heq' hne'
    have hbit : ∀ m < 8, a.getMsbD (i * 8 + m) = (b a i).getMsbD m ∧
        c.getMsbD (i * 8 + m) = (b c i).getMsbD m := fun m hm => by
      rw [b_getMsbD a hi hm, b_getMsbD c hi hm, Nat.mul_comm]
      exact ⟨rfl, rfl⟩
    have hj : j < 8 := by
      refine Nat.lt_of_le_of_ne hub' ?_
      rintro rfl
      exact hne (by omega) (byte_eq_of_bits fun k hk => heq' k (Nat.zero_le k) hk)
    refine ⟨by omega, fun k hk => ?_, fun _ => ?_⟩
    · rcases Nat.lt_or_ge k (i * 8) with hlt | hge
      · exact hbits k hlt
      · obtain ⟨m, rfl⟩ : ∃ m, k = i * 8 + m := ⟨k - i * 8, by omega⟩
        rw [(hbit m (by omega)).1, (hbit m (by omega)).2]
        exact heq' m (Nat.zero_le m) (by omega)
    · rw [(hbit j hj).1, (hbit j hj).2]
      exact hne' hj
  · exact ⟨by omega, hbits, fun hlt => by omega⟩

end Prefix

end Ipv6
