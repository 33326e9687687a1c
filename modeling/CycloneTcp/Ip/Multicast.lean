import CycloneTcp.Common.Error
import CycloneTcp.Ip.AddrList
import CycloneTcp.Lib.RefTable
import Mathlib.Algebra.BigOperators.Fin

set_option autoImplicit false

/-! # Multicast filters

The groups that the interfaces have joined, over IPv4 and over IPv6, and the MAC filters that the
groups are mapped to. An interface that runs on top of another one keeps its own MAC filter and adds
to that of its physical interface too. Joining and leaving is the same for both versions, up to the
kind of address: `Family` says what differs. What the network interface controller, IGMP and MLD are
told is left out. -/

namespace Multicast

open Ipv6 (Ipv6Addr Ipv6AddrState Ipv6AddrEntry IPV6_UNSPECIFIED_ADDR IPV6_ADDR_LIST_SIZE b
  ipv6IsMulticastAddr assignEntry)
open RefTable (refs joined Distinct)

abbrev Ipv4Addr := UInt32

abbrev MacAddr := BitVec 48

/-! ## Constants -/

def IPV4_MULTICAST_FILTER_SIZE : ℕ := 4

def IPV6_MULTICAST_FILTER_SIZE : ℕ := 8

def MAC_ADDR_FILTER_SIZE : ℕ := 12

def IPV6_ANYCAST_ADDR_LIST_SIZE : ℕ := 1

def MAC_UNSPECIFIED_ADDR : MacAddr := 0

def MAC_BROADCAST_ADDR : MacAddr := 0xFFFFFFFFFFFF

/-! ## Addresses -/

def ipv4IsMulticastAddr (ipAddr : Ipv4Addr) : Bool := ipAddr &&& 0xF0000000 = 0xE0000000

/-- The low-order 23 bits go into the low-order 23 bits of `01-00-5E-00-00-00`. -/
def ipv4MapMulticastAddrToMac (ipAddr : Ipv4Addr) : MacAddr :=
  0x01005E000000 ||| (ipAddr &&& 0x7FFFFF).toBitVec.setWidth 48

/-- The low-order 32 bits go into the low-order 32 bits of `33-33-00-00-00-00`. -/
def ipv6MapMulticastAddrToMac (ipAddr : Ipv6Addr) : MacAddr :=
  0x333300000000 ||| (ipAddr.setWidth 32).setWidth 48

/-- The low-order 24 bits of a unicast address are appended to `IPV6_SOLICITED_NODE_ADDR_PREFIX`. -/
def ipv6ComputeSolicitedNodeAddr (ipAddr : Ipv6Addr) : Ipv6Addr :=
  0xFF0200000000000000000001FF000000 ||| (ipAddr.setWidth 24).setWidth 128

/-- The group bit of the first byte. -/
def macIsMulticastAddr (macAddr : MacAddr) : Bool := macAddr.getLsbD 40

/-- A kind of address. -/
structure Family (A : Type*) where
  isMulticastAddr : A → Bool
  mapMulticastAddrToMac : A → MacAddr
  unspecified : A

def ipv4Family : Family Ipv4Addr :=
  { isMulticastAddr := ipv4IsMulticastAddr, mapMulticastAddrToMac := ipv4MapMulticastAddrToMac
    unspecified := 0 }

def ipv6Family : Family Ipv6Addr :=
  { isMulticastAddr := ipv6IsMulticastAddr, mapMulticastAddrToMac := ipv6MapMulticastAddrToMac
    unspecified := IPV6_UNSPECIFIED_ADDR }

/-! ## The MAC filters -/

/-- How the interfaces are configured: `nicGetPhysicalInterface`, the MAC address of
`nicGetLogicalInterface`, and whether the physical interface is an Ethernet interface. -/
structure Net (I : Type*) where
  physical : I → I
  logicalMacAddr : I → MacAddr
  ethernet : I → Bool

section Functions

variable {I A : Type*} [DecidableEq I] [DecidableEq A]

/-- Add a unicast/multicast address to the MAC filter table. -/
def ethAcceptMacAddr (interface : I) (macAddr : MacAddr) (mac : I → List (RefEntry MacAddr)) :
    ErrorCode × (I → List (RefEntry MacAddr)) :=
  match RefTable.accept macAddr (mac interface) with
  | some t => (.noError, Function.update mac interface t)
  | none => (.failure, mac)

/-- Remove a unicast/multicast address from the MAC filter table. -/
def ethDropMacAddr (interface : I) (macAddr : MacAddr) (mac : I → List (RefEntry MacAddr)) :
    ErrorCode × (I → List (RefEntry MacAddr)) :=
  match RefTable.drop MAC_UNSPECIFIED_ADDR macAddr (mac interface) with
  | some t => (.noError, Function.update mac interface t)
  | none => (.addressNotFound, mac)

/-- Destination MAC address filtering. -/
def ethCheckDestAddr (net : Net I) (interface : I) (macAddr : MacAddr)
    (mac : I → List (RefEntry MacAddr)) : ErrorCode :=
  if macAddr = net.logicalMacAddr interface then .noError
  else if macAddr = MAC_BROADCAST_ADDR then .noError
  else if macIsMulticastAddr macAddr ∧ (RefTable.find macAddr (mac interface)).isSome then .noError
  else .invalidAddress

/-! ## Joining and leaving -/

/-- The address is added to the MAC filters of the interface and of its physical interface. -/
def acceptMacAddr (net : Net I) (interface : I) (macAddr : MacAddr)
    (mac : I → List (RefEntry MacAddr)) : ErrorCode × (I → List (RefEntry MacAddr)) :=
  let (error, mac) := ethAcceptMacAddr interface macAddr mac
  if error ≠ .noError then (error, mac)
  -- virtual interface?
  else if interface ≠ net.physical interface then
    let (error, mac) := ethAcceptMacAddr (net.physical interface) macAddr mac
    if error ≠ .noError then (error, (ethDropMacAddr interface macAddr mac).2) else (.noError, mac)
  else (.noError, mac)

/-- The address is removed from these MAC filters. -/
def dropMacAddr (net : Net I) (interface : I) (macAddr : MacAddr)
    (mac : I → List (RefEntry MacAddr)) : I → List (RefEntry MacAddr) :=
  let mac := (ethDropMacAddr interface macAddr mac).2
  if interface ≠ net.physical interface then
    (ethDropMacAddr (net.physical interface) macAddr mac).2
  else mac

/-- The multicast filters of the interfaces for one kind of address, and the MAC filters. -/
structure Tables (I A : Type*) where
  filter : I → List (RefEntry A)
  mac : I → List (RefEntry MacAddr)

/-- `ipv4JoinMulticastGroup` and `ipv6JoinMulticastGroup`. -/
def joinMulticastGroup (net : Net I) (family : Family A) (interface : I) (groupAddr : A)
    (t : Tables I A) : ErrorCode × Tables I A :=
  if !family.isMulticastAddr groupAddr then (.invalidAddress, t)
  else
    let filter := t.filter interface
    match RefTable.find groupAddr filter with
    | some n =>
        (.noError, { t with
          filter := Function.update t.filter interface (RefTable.retain n filter) })
    | none =>
        match RefTable.firstFree filter with
        | none => (.failure, t)
        | some n =>
            let (error, mac) :=
              acceptMacAddr net interface (family.mapMulticastAddrToMac groupAddr) t.mac
            if error = .noError then
              (.noError,
                { filter := Function.update t.filter interface (RefTable.insert n groupAddr filter)
                  mac := mac })
            else (error, { t with mac := mac })

/-- `ipv4LeaveMulticastGroup` and `ipv6LeaveMulticastGroup`. -/
def leaveMulticastGroup (net : Net I) (family : Family A) (interface : I) (groupAddr : A)
    (t : Tables I A) : ErrorCode × Tables I A :=
  if !family.isMulticastAddr groupAddr then (.invalidAddress, t)
  else
    let filter := t.filter interface
    match RefTable.find groupAddr filter with
    | none => (.addressNotFound, t)
    | some n =>
        let entry := filter.getD n { addr := family.unspecified, refCount := 0 }
        let filter := RefTable.release family.unspecified n filter
        -- the reference count drops to zero
        if entry.refCount - 1 = 0 then
          (.noError,
            { filter := Function.update t.filter interface filter
              mac := dropMacAddr net interface (family.mapMulticastAddrToMac groupAddr) t.mac })
        else (.noError, { t with filter := Function.update t.filter interface filter })

/-- The group of an address that is replaced is left. -/
def leaveOld (net : Net I) (family : Family A) (interface : I) (old : Option A) (t : Tables I A) :
    Tables I A :=
  match old with
  | some groupAddr => (leaveMulticastGroup net family interface groupAddr t).2
  | none => t

/-- Then the group of the new address is joined. -/
def moveGroup (net : Net I) (family : Family A) (interface : I) (old new : Option A)
    (t : Tables I A) : ErrorCode × Tables I A :=
  let t := leaveOld net family interface old t
  match new with
  | some groupAddr => joinMulticastGroup net family interface groupAddr t
  | none => (.noError, t)

end Functions

/-! ## What the MAC filters count -/

section Counts

variable {I A : Type*} [DecidableEq I] [DecidableEq A]

/-- The tables `mac'` are `mac` with one more reference to `macAddr` at the interfaces `at'`. -/
structure OneMore (places : I → Prop) [DecidablePred places] (macAddr : MacAddr)
    (mac mac' : I → List (RefEntry MacAddr)) : Prop where
  refs : ∀ k m, refs m (mac' k) = refs m (mac k) + if places k ∧ m = macAddr then 1 else 0
  others : ∀ k, ¬places k → mac' k = mac k

/-- The interfaces whose MAC filters are told about a group that is joined on an interface. -/
abbrev Net.Covers (net : Net I) (interface k : I) : Prop :=
  interface = k ∨ net.physical interface = k

section Mac

variable {net : Net I} {interface : I} {macAddr : MacAddr} {mac : I → List (RefEntry MacAddr)}

theorem distinct_update {B : Type*} {tables : I → List (RefEntry B)} {t : List (RefEntry B)}
    (hdistinct : ∀ k, Distinct (tables k)) (ht : Distinct t) (k : I) :
    Distinct (Function.update tables interface t k) := by
  by_cases hk : k = interface
  · subst hk
    rwa [Function.update_self]
  · rw [Function.update_of_ne hk]
    exact hdistinct k

theorem oneMore_update {t : List (RefEntry MacAddr)}
    (hrefs : ∀ m, refs m t = refs m (mac interface) + if m = macAddr then 1 else 0) :
    OneMore (interface = ·) macAddr mac (Function.update mac interface t) := by
  refine ⟨fun k m => ?_, fun k hk => Function.update_of_ne (Ne.symm hk) _ _⟩
  by_cases hk : interface = k
  · subst hk
    rw [Function.update_self, hrefs]
    simp only [true_and]
  · rw [Function.update_of_ne (Ne.symm hk), if_neg fun h => hk h.1, Nat.add_zero]

theorem ethAcceptMacAddr_cases (hdistinct : ∀ k, Distinct (mac k))
    (hlt : refs macAddr (mac interface) + 1 < 2 ^ 32) :
    (ethAcceptMacAddr interface macAddr mac = (.failure, mac) ∧
        ¬RefTable.HasRoom macAddr (mac interface)) ∨
      ∃ mac', ethAcceptMacAddr interface macAddr mac = (.noError, mac') ∧
        (∀ k, Distinct (mac' k)) ∧ OneMore (interface = ·) macAddr mac mac' := by
  unfold ethAcceptMacAddr
  cases haccept : RefTable.accept macAddr (mac interface) with
  | none =>
      refine Or.inl ⟨rfl, fun hroom => ?_⟩
      rw [← RefTable.accept_isSome_iff, haccept] at hroom
      cases hroom
  | some t =>
      obtain ⟨ht, hrefs⟩ := RefTable.accept_some (hdistinct interface) hlt haccept
      exact Or.inr ⟨_, rfl, distinct_update hdistinct ht, oneMore_update hrefs⟩

/-- What is left of the MAC filters when an address that is in use at some interfaces is dropped
there. -/
structure OneLess (places : I → Prop) [DecidablePred places] (macAddr : MacAddr)
    (mac mac' : I → List (RefEntry MacAddr)) : Prop where
  distinct : ∀ k, Distinct (mac' k)
  more : OneMore places macAddr mac' mac
  room : ∀ k m, RefTable.HasRoom m (mac k) ∨ places k ∧ refs macAddr (mac k) = 1 →
    RefTable.HasRoom m (mac' k)

theorem ethDropMacAddr_oneLess (hdistinct : ∀ k, Distinct (mac k))
    (hpos : 0 < refs macAddr (mac interface)) :
    OneLess (interface = ·) macAddr mac (ethDropMacAddr interface macAddr mac).2 := by
  obtain ⟨t, hdrop, ht, hrefs, hroom⟩ :=
    RefTable.drop_eq_some (hdistinct interface) hpos MAC_UNSPECIFIED_ADDR
  have heq : (ethDropMacAddr interface macAddr mac).2 = Function.update mac interface t := by
    unfold ethDropMacAddr
    simp only [hdrop]
  rw [heq]
  refine ⟨distinct_update hdistinct ht, ⟨fun k m => ?_, fun k hk => ?_⟩, fun k m h => ?_⟩
  · by_cases hk : interface = k
    · subst hk
      rw [Function.update_self, hrefs]
      simp only [true_and]
    · rw [Function.update_of_ne (Ne.symm hk), if_neg fun h => hk h.1, Nat.add_zero]
  · exact (Function.update_of_ne (Ne.symm hk) _ _).symm
  · by_cases hk : interface = k
    · subst hk
      rw [Function.update_self]
      exact hroom m (h.imp_right And.right)
    · rw [Function.update_of_ne (Ne.symm hk)]
      exact h.resolve_right fun h => hk h.1

/-- An address is accepted at the interface and at its physical interface, or nowhere. -/
theorem acceptMacAddr_cases (net : Net I) (hdistinct : ∀ k, Distinct (mac k))
    (hlt : ∀ k, net.Covers interface k → refs macAddr (mac k) + 1 < 2 ^ 32) :
    (∃ mac', acceptMacAddr net interface macAddr mac = (.failure, mac') ∧
        (∀ k, Distinct (mac' k)) ∧ (∀ k m, refs m (mac' k) = refs m (mac k)) ∧
        ∃ k, net.Covers interface k ∧ ¬RefTable.HasRoom macAddr (mac k)) ∨
      ∃ mac', acceptMacAddr net interface macAddr mac = (.noError, mac') ∧
        (∀ k, Distinct (mac' k)) ∧ OneMore (net.Covers interface) macAddr mac mac' := by
  unfold acceptMacAddr
  rcases ethAcceptMacAddr_cases hdistinct (hlt interface (Or.inl rfl)) with
    ⟨haccept, hroom⟩ | ⟨mac₁, haccept, hdistinct₁, hmore₁⟩
  · rw [haccept]
    exact Or.inl ⟨mac, rfl, hdistinct, fun _ _ => rfl, interface, Or.inl rfl, hroom⟩
  rw [haccept]
  simp only [ne_eq, not_true_eq_false, if_false]
  by_cases hvirtual : interface = net.physical interface
  · rw [if_neg (not_not.2 hvirtual)]
    refine Or.inr ⟨mac₁, rfl, hdistinct₁, fun k m => ?_, fun k hk => ?_⟩
    · rw [hmore₁.refs]
      simp only [Net.Covers, ← hvirtual, or_self]
    · exact hmore₁.others k fun h => hk (Or.inl h)
  rw [if_pos hvirtual]
  -- the physical interface's own filter has not been touched yet
  have hsame : mac₁ (net.physical interface) = mac (net.physical interface) :=
    hmore₁.others _ hvirtual
  have hlt₁ : refs macAddr (mac₁ (net.physical interface)) + 1 < 2 ^ 32 := by
    rw [hsame]
    exact hlt _ (Or.inr rfl)
  rcases ethAcceptMacAddr_cases hdistinct₁ hlt₁ with
    ⟨haccept₂, hroom⟩ | ⟨mac₂, haccept₂, hdistinct₂, hmore₂⟩
  · rw [haccept₂]
    have hpos : 0 < refs macAddr (mac₁ interface) := by
      rw [hmore₁.refs, if_pos ⟨rfl, rfl⟩]
      exact Nat.succ_pos _
    have hless := ethDropMacAddr_oneLess hdistinct₁ hpos
    refine Or.inl ⟨_, rfl, hless.distinct, fun k m => ?_, net.physical interface, Or.inr rfl, ?_⟩
    · have hdown := hless.more.refs k m
      rw [hmore₁.refs] at hdown
      exact (Nat.add_right_cancel hdown).symm
    · rwa [hsame] at hroom
  · rw [haccept₂]
    refine Or.inr ⟨mac₂, rfl, hdistinct₂, fun k m => ?_, fun k hk => ?_⟩
    · rw [hmore₂.refs, hmore₁.refs]
      by_cases hk : interface = k
      · subst hk
        simp [Net.Covers, Ne.symm hvirtual]
      · simp [Net.Covers, hk]
    · rw [hmore₂.others k fun h => hk (Or.inr h), hmore₁.others k fun h => hk (Or.inl h)]

theorem dropMacAddr_oneLess (net : Net I) (hdistinct : ∀ k, Distinct (mac k))
    (hpos : ∀ k, net.Covers interface k → 0 < refs macAddr (mac k)) :
    OneLess (net.Covers interface) macAddr mac (dropMacAddr net interface macAddr mac) := by
  have hless₁ := ethDropMacAddr_oneLess hdistinct (hpos interface (Or.inl rfl))
  unfold dropMacAddr
  generalize (ethDropMacAddr interface macAddr mac).2 = mac₁ at hless₁ ⊢
  simp only [ne_eq]
  by_cases hvirtual : interface = net.physical interface
  · rw [if_neg (not_not.2 hvirtual)]
    refine ⟨hless₁.distinct, ⟨fun k m => ?_, fun k hk => ?_⟩, fun k m h => ?_⟩
    · rw [hless₁.more.refs]
      simp only [Net.Covers, ← hvirtual, or_self]
    · exact hless₁.more.others k fun h => hk (Or.inl h)
    · simp only [Net.Covers, ← hvirtual, or_self] at h
      exact hless₁.room k m h
  rw [if_pos hvirtual]
  have hsame : mac (net.physical interface) = mac₁ (net.physical interface) :=
    hless₁.more.others _ hvirtual
  have hless₂ := ethDropMacAddr_oneLess hless₁.distinct
    (hsame ▸ hpos (net.physical interface) (Or.inr rfl))
  refine ⟨hless₂.distinct, ⟨fun k m => ?_, fun k hk => ?_⟩, fun k m h => ?_⟩
  · rw [hless₁.more.refs, hless₂.more.refs]
    by_cases hk : interface = k
    · subst hk
      simp [Net.Covers, Ne.symm hvirtual]
    · simp [Net.Covers, hk]
  · rw [hless₁.more.others k fun h => hk (Or.inl h), hless₂.more.others k fun h => hk (Or.inr h)]
  · refine hless₂.room k m ?_
    rcases h with hroom | ⟨hk | hk, hlast⟩
    · exact Or.inl (hless₁.room k m (Or.inl hroom))
    · exact Or.inl (hless₁.room k m (Or.inr ⟨hk, hlast⟩))
    · subst hk
      exact Or.inr ⟨rfl, hsame ▸ hlast⟩

end Mac

/-! ## Groups that are joined and MAC addresses that are accepted -/

section Groups

variable [Fintype I] {net : Net I} {family : Family A} {interface : I} {groupAddr : A}

/-- The number of groups joined on an interface that are mapped to a MAC address. -/
def mappedOn (family : Family A) (filter : I → List (RefEntry A)) (j : I) (m : MacAddr) : ℕ :=
  joined (fun a => family.mapMulticastAddrToMac a = m) (filter j)

/-- The number of groups that are mapped to a MAC address, among those that are joined on the
interfaces that the MAC filter of `k` serves. `other` counts those of the other kind. -/
def mapped (net : Net I) (family : Family A) (filter : I → List (RefEntry A))
    (other : I → MacAddr → ℕ) (k : I) (m : MacAddr) : ℕ :=
  ∑ j, if net.Covers j k then mappedOn family filter j m + other j m else 0

/-- One filter has changed. -/
theorem mapped_adds {n d : ℕ} {filter filter' : I → List (RefEntry A)} {other : I → MacAddr → ℕ}
    (hothers : ∀ j, j ≠ interface → filter' j = filter j)
    (hadds : RefTable.Adds groupAddr d n (filter interface) (filter' interface)) (k : I)
    (m : MacAddr) : mapped net family filter' other k m = mapped net family filter other k m +
      if net.Covers interface k ∧ m = family.mapMulticastAddrToMac groupAddr then n else 0 := by
  have hsum : ∀ j, (if net.Covers j k then mappedOn family filter' j m + other j m else 0) =
      (if net.Covers j k then mappedOn family filter j m + other j m else 0) +
      if j = interface then
        if net.Covers interface k ∧ m = family.mapMulticastAddrToMac groupAddr then n else 0
      else 0 := by
    intro j
    by_cases hj : j = interface
    · subst hj
      rw [if_pos (rfl : j = j), mappedOn, mappedOn, hadds.joined]
      by_cases hk : net.Covers j k
      · simp only [hk, if_true, true_and, decide_eq_true_eq, eq_comm (a := m)]
        omega
      · simp only [hk, if_false, false_and]
    · rw [if_neg hj, mappedOn, mappedOn, hothers j hj, Nat.add_zero]
  unfold mapped
  rw [Finset.sum_congr rfl fun j _ => hsum j, Finset.sum_add_distrib,
    Finset.sum_ite_eq' Finset.univ, if_pos (Finset.mem_univ _)]

/-- The MAC address of a group that is joined is counted wherever it is told. -/
theorem mapped_pos {filter : I → List (RefEntry A)} (other : I → MacAddr → ℕ) {k : I}
    (hpos : 0 < refs groupAddr (filter interface)) (hk : net.Covers interface k) :
    0 < mapped net family filter other k (family.mapMulticastAddrToMac groupAddr) := by
  refine Finset.sum_pos' (fun _ _ => Nat.zero_le _) ⟨interface, Finset.mem_univ _, ?_⟩
  rw [if_pos hk]
  exact Nat.add_pos_left (RefTable.joined_pos_iff.2 ⟨groupAddr, hpos, decide_eq_true rfl⟩) _

/-- No name has two entries, and every MAC address has as many references as there are groups that
are mapped to it. -/
structure Tallied (net : Net I) (family : Family A) (other : I → MacAddr → ℕ) (t : Tables I A) :
    Prop where
  filter : ∀ i, Distinct (t.filter i)
  mac : ∀ k, Distinct (t.mac k)
  refs : ∀ k m, refs m (t.mac k) = mapped net family t.filter other k m

omit [DecidableEq A] in
/-- The two kinds of group count alike. -/
theorem Tallied.swap {B : Type*} [DecidableEq B] {familyB : Family B} {t : Tables I A}
    {u : Tables I B} (h : Tallied net family (mappedOn familyB u.filter) t)
    (hfilter : ∀ i, Distinct (u.filter i)) (hmac : u.mac = t.mac) :
    Tallied net familyB (mappedOn family t.filter) u := by
  refine ⟨hfilter, fun k => hmac ▸ h.mac k, fun k m => ?_⟩
  rw [hmac, h.refs]
  exact Finset.sum_congr rfl fun j _ => by rw [Nat.add_comm]

/-- The only reference to a name is going to be removed. -/
def lastRef {B : Type*} [DecidableEq B] (left : Option B) (t : List (RefEntry B)) : Bool :=
  left.any fun a => refs a t = 1

/-- There is room for a group in the filters, once the group `left` has been left. -/
def HasRoom (net : Net I) (family : Family A) (interface : I) (left : Option A) (groupAddr : A)
    (t : Tables I A) : Prop :=
  (RefTable.find groupAddr (t.filter interface)).isSome ∨
    ((RefTable.firstFree (t.filter interface)).isSome ∨ lastRef left (t.filter interface)) ∧
      ∀ k, net.Covers interface k →
        RefTable.HasRoom (family.mapMulticastAddrToMac groupAddr) (t.mac k) ∨
          lastRef left (t.filter interface) ∧
            lastRef (left.map family.mapMulticastAddrToMac) (t.mac k)

/-- The counts that joining a group raises are not at their limit. -/
def Below (net : Net I) (family : Family A) (interface : I) (groupAddr : A) (t : Tables I A) :
    Prop :=
  refs groupAddr (t.filter interface) + 1 < 2 ^ 32 ∧ ∀ k, net.Covers interface k →
    refs (family.mapMulticastAddrToMac groupAddr) (t.mac k) + 1 < 2 ^ 32

instance (net : Net I) (family : Family A) (interface : I) (left : Option A) (groupAddr : A)
    (t : Tables I A) : Decidable (HasRoom net family interface left groupAddr t) :=
  inferInstanceAs (Decidable (_ ∨ _ ∧ ∀ _, _ → _))

instance (net : Net I) (family : Family A) (interface : I) (groupAddr : A) (t : Tables I A) :
    Decidable (Below net family interface groupAddr t) :=
  inferInstanceAs (Decidable (_ ∧ ∀ _, _ → _))

/-- The references to the groups, after a reference has been added. -/
def OneMoreGroup (interface : I) (groupAddr : A) (filter filter' : I → List (RefEntry A)) : Prop :=
  ∀ j a, refs a (filter' j) = refs a (filter j) + if j = interface ∧ a = groupAddr then 1 else 0

variable {other : I → MacAddr → ℕ} {t : Tables I A}

omit [Fintype I] in
theorem oneMoreGroup_update {n : ℕ} {filter filter' : I → List (RefEntry A)}
    (hothers : ∀ j, j ≠ interface → filter' j = filter j)
    (hadds : RefTable.Adds groupAddr 1 n (filter interface) (filter' interface)) :
    OneMoreGroup interface groupAddr filter filter' := by
  intro j a
  by_cases hj : j = interface
  · subst hj
    rw [hadds.refs]
    simp only [true_and]
  · rw [hothers j hj, if_neg fun h => hj h.1, Nat.add_zero]

theorem joinMulticastGroup_cases (h : Tallied net family other t)
    (hmulticast : family.isMulticastAddr groupAddr = true)
    (hbelow : Below net family interface groupAddr t) :
    (∃ t', joinMulticastGroup net family interface groupAddr t = (.failure, t') ∧
        Tallied net family other t' ∧ t'.filter = t.filter ∧
        ¬HasRoom net family interface none groupAddr t) ∨
      ∃ t', joinMulticastGroup net family interface groupAddr t = (.noError, t') ∧
        Tallied net family other t' ∧ OneMoreGroup interface groupAddr t.filter t'.filter := by
  have hothers : ∀ filter j, j ≠ interface →
      Function.update t.filter interface filter j = t.filter j :=
    fun filter j hj => Function.update_of_ne hj _ _
  unfold joinMulticastGroup
  simp only [hmulticast, Bool.not_true, Bool.false_eq_true, if_false]
  cases hfind : RefTable.find groupAddr (t.filter interface) with
  | some n =>
      have hretain := RefTable.retain_adds (h.filter interface) hfind hbelow.1
      have hadds : RefTable.Adds groupAddr 1 0 (t.filter interface) (Function.update t.filter
          interface (RefTable.retain n (t.filter interface)) interface) := by
        rwa [Function.update_self]
      refine Or.inr ⟨_, rfl, ⟨fun j => ?_, h.mac, fun k m => ?_⟩,
        oneMoreGroup_update (hothers _) hadds⟩
      · exact distinct_update h.filter hretain.distinct j
      · rw [mapped_adds (hothers _) hadds, ite_self, Nat.add_zero]
        exact h.refs k m
  | none =>
      simp only
      cases hfree : RefTable.firstFree (t.filter interface) with
      | none =>
          refine Or.inl ⟨t, rfl, h, rfl, fun hroom => ?_⟩
          rcases hroom with hroom | ⟨hroom | hroom, -⟩
          · rw [hfind] at hroom
            cases hroom
          · rw [hfree] at hroom
            cases hroom
          · cases hroom
      | some n =>
          have hinsert := RefTable.insert_adds (h.filter interface) hfind hfree
          have hadds : RefTable.Adds groupAddr 1 1 (t.filter interface) (Function.update t.filter
              interface (RefTable.insert n groupAddr (t.filter interface)) interface) := by
            rwa [Function.update_self]
          rcases acceptMacAddr_cases net h.mac hbelow.2 with
            ⟨mac, haccept, hdistinct, hrefs, k, hk, hfull⟩ | ⟨mac, haccept, hdistinct, hmore⟩
          · simp only [haccept]
            refine Or.inl ⟨_, rfl, ⟨h.filter, hdistinct, fun k m => ?_⟩, rfl, fun hroom => ?_⟩
            · exact (hrefs k m).trans (h.refs k m)
            · rcases hroom with hroom | ⟨-, hroom⟩
              · rw [hfind] at hroom
                cases hroom
              · rcases hroom k hk with hroom | ⟨hroom, -⟩
                · exact hfull hroom
                · cases hroom
          · simp only [haccept, if_true]
            refine Or.inr ⟨_, rfl, ⟨fun j => ?_, hdistinct, fun k m => ?_⟩,
              oneMoreGroup_update (hothers _) hadds⟩
            · exact distinct_update h.filter hinsert.distinct j
            · rw [mapped_adds (hothers _) hadds, hmore.refs, h.refs]

omit [Fintype I] in
theorem leaveMulticastGroup_none (hnot : ¬(family.isMulticastAddr groupAddr = true ∧
    0 < refs groupAddr (t.filter interface))) :
    (leaveMulticastGroup net family interface groupAddr t).1 ≠ .noError ∧
      (leaveMulticastGroup net family interface groupAddr t).2 = t := by
  unfold leaveMulticastGroup
  split
  · exact ⟨fun h => (by cases h), rfl⟩
  · rename_i hmulticast
    have hzero : refs groupAddr (t.filter interface) = 0 := by
      by_contra hne
      exact hnot ⟨by simpa using hmulticast, Nat.pos_of_ne_zero hne⟩
    simp only [RefTable.refs_eq_zero_iff.1 hzero]
    exact ⟨fun h => (by cases h), trivial⟩

/-- What is left when a group that is in use has been left. -/
structure Left (net : Net I) (family : Family A) (other : I → MacAddr → ℕ) (interface : I)
    (groupAddr : A) (t t' : Tables I A) : Prop where
  tallied : Tallied net family other t'
  more : OneMoreGroup interface groupAddr t'.filter t.filter
  mac : ∀ k m, refs m (t'.mac k) ≤ refs m (t.mac k)
  room : ∀ g, HasRoom net family interface (some groupAddr) g t →
    HasRoom net family interface none g t'

theorem leaveMulticastGroup_left (h : Tallied net family other t)
    (hmulticast : family.isMulticastAddr groupAddr = true)
    (hpos : 0 < refs groupAddr (t.filter interface)) :
    ∃ t', leaveMulticastGroup net family interface groupAddr t = (.noError, t') ∧
      Left net family other interface groupAddr t t' := by
  obtain ⟨n, hfind⟩ := Option.isSome_iff_exists.1 (RefTable.find_isSome_iff.2 hpos)
  obtain ⟨filter, hfilter⟩ : ∃ filter, RefTable.release family.unspecified n (t.filter interface) =
      filter := ⟨_, rfl⟩
  have hadds := RefTable.release_adds (h.filter interface) hfind family.unspecified
  have hreleased := RefTable.release_distinct (h.filter interface) hfind family.unspecified
  have hstays := RefTable.release_firstFree (h.filter interface) hfind family.unspecified
  rw [hfilter] at hadds hreleased hstays
  have hothers : ∀ j, j ≠ interface → t.filter j = Function.update t.filter interface filter j :=
    fun j hj => (Function.update_of_ne hj _ _).symm
  have hself : Function.update t.filter interface filter interface = filter :=
    Function.update_self _ _ _
  rw [← hself] at hadds
  have hdistinct : ∀ j, Distinct (Function.update t.filter interface filter j) :=
    distinct_update h.filter hreleased
  have hmore := oneMoreGroup_update hothers hadds
  have hmapped : ∀ k m, mapped net family t.filter other k m =
      mapped net family (Function.update t.filter interface filter) other k m +
        if net.Covers interface k ∧ m = family.mapMulticastAddrToMac groupAddr then
          if refs groupAddr (t.filter interface) = 1 then 1 else 0
        else 0 := mapped_adds hothers hadds
  obtain ⟨e, he, hepos, headdr⟩ := RefTable.find_some hfind
  have hlast : (t.filter interface).getD n { addr := family.unspecified, refCount := 0 } = e := by
    rw [List.getD_eq_getElem?_getD, he, Option.getD_some]
  have hrefs : refs groupAddr (t.filter interface) = e.refCount :=
    headdr ▸ (h.filter interface).refs_of_getElem he hepos
  unfold leaveMulticastGroup
  simp only [hmulticast, Bool.not_true, Bool.false_eq_true, if_false, hfind, hlast, hfilter]
  by_cases hone : e.refCount - 1 = 0
  · have hone' : refs groupAddr (t.filter interface) = 1 := by omega
    rw [if_pos hone]
    rw [if_pos hone'] at hmapped
    have hless := dropMacAddr_oneLess net h.mac fun k hk =>
      (h.refs k _).symm ▸ mapped_pos other hpos hk
    refine ⟨_, rfl, ⟨hdistinct, hless.distinct, fun k m => ?_⟩, hmore, fun k m => ?_,
      fun g hroom => ?_⟩
    · have hdown := hless.more.refs k m
      have hcount := hmapped k m
      have hbefore := h.refs k m
      simp only at hcount ⊢
      omega
    · have hdown := hless.more.refs k m
      simp only
      omega
    · have hfree :
          (RefTable.firstFree (Function.update t.filter interface filter interface)).isSome := by
        rw [hself]
        exact hstays (Or.inr hone')
      refine Or.inr ⟨Or.inl hfree, fun k hk => Or.inl (hless.room k _ ?_)⟩
      rcases hroom with hg | ⟨-, hall⟩
      · refine Or.inl (Or.inl (RefTable.find_isSome_iff.2 ?_))
        rw [h.refs]
        exact mapped_pos other (RefTable.find_isSome_iff.1 hg) hk
      · rcases hall k hk with hroom | ⟨-, hlastMac⟩
        · exact Or.inl hroom
        · exact Or.inr ⟨hk, of_decide_eq_true hlastMac⟩
  · have hmany : refs groupAddr (t.filter interface) ≠ 1 := by omega
    rw [if_neg hone]
    simp only [if_neg hmany, ite_self, Nat.add_zero] at hmapped
    refine ⟨_, rfl, ⟨hdistinct, h.mac, fun k m => ?_⟩, hmore, fun k m => le_rfl, fun g hroom => ?_⟩
    · rw [h.refs, hmapped]
    · have hnotLast : ¬lastRef (some groupAddr) (t.filter interface) = true := fun hlast =>
        hmany (of_decide_eq_true hlast)
      rcases hroom with hg | ⟨hfree, hall⟩
      · have hgrefs := hmore interface g
        have hgpos := RefTable.find_isSome_iff.1 hg
        refine Or.inl (RefTable.find_isSome_iff.2 ?_)
        simp only at hgrefs ⊢
        split_ifs at hgrefs with hsame
        · obtain ⟨-, rfl⟩ := hsame
          omega
        · omega
      · refine Or.inr ⟨Or.inl ?_, fun k hk => Or.inl ?_⟩
        · simp only [hself]
          exact hstays (Or.inl (hfree.resolve_right hnotLast))
        · exact (hall k hk).resolve_right fun hlast => hnotLast hlast.1

/-! ## The counts after a call -/

/-- A group has one more reference if it has been joined. -/
theorem joinMulticastGroup_counts (h : Tallied net family other t)
    (hbelow : Below net family interface groupAddr t) :
    Tallied net family other (joinMulticastGroup net family interface groupAddr t).2 ∧
      ∀ j a, refs a ((joinMulticastGroup net family interface groupAddr t).2.filter j) =
        refs a (t.filter j) + if (j = interface ∧ a = groupAddr) ∧
          (joinMulticastGroup net family interface groupAddr t).1 = .noError then 1 else 0 := by
  by_cases hmulticast : family.isMulticastAddr groupAddr = true
  · rcases joinMulticastGroup_cases h hmulticast hbelow with
      ⟨t', hjoin, htallied, hsame, -⟩ | ⟨t', hjoin, htallied, hmore⟩
    · rw [hjoin]
      refine ⟨htallied, fun j a => ?_⟩
      rw [hsame, if_neg fun hif => (by cases hif.2), Nat.add_zero]
    · rw [hjoin]
      refine ⟨htallied, fun j a => ?_⟩
      rw [hmore j a]
      simp only [and_true]
  · unfold joinMulticastGroup
    rw [if_pos (by simpa using hmulticast)]
    exact ⟨h, fun j a => by rw [if_neg fun hif => (by cases hif.2), Nat.add_zero]⟩

/-- A group has one reference less if it has been left. -/
theorem leaveMulticastGroup_counts (h : Tallied net family other t) (interface : I)
    (groupAddr : A) :
    Tallied net family other (leaveMulticastGroup net family interface groupAddr t).2 ∧
      ∀ j a, refs a (t.filter j) =
        refs a ((leaveMulticastGroup net family interface groupAddr t).2.filter j) +
          if (j = interface ∧ a = groupAddr) ∧
            (leaveMulticastGroup net family interface groupAddr t).1 = .noError then 1 else 0 := by
  by_cases hleft : family.isMulticastAddr groupAddr = true ∧ 0 < refs groupAddr (t.filter interface)
  · obtain ⟨t', hleave, hleft⟩ := leaveMulticastGroup_left h hleft.1 hleft.2
    rw [hleave]
    refine ⟨hleft.tallied, fun j a => ?_⟩
    rw [hleft.more j a]
    simp only [and_true]
  · obtain ⟨herror, hsame⟩ := leaveMulticastGroup_none (I := I) hleft
    rw [hsame]
    exact ⟨h, fun j a => by rw [if_neg fun hif => herror hif.2, Nat.add_zero]⟩

/-! ## From one group to another -/

/-- What the tables are after `moveGroup`. -/
structure Moved (net : Net I) (family : Family A) (other : I → MacAddr → ℕ) (interface : I)
    (old new : Option A) (t : Tables I A) (result : ErrorCode × Tables I A) : Prop where
  tallied : Tallied net family other result.2
  refs : ∀ j a, refs a (result.2.filter j) + (if j = interface ∧ old = some a then 1 else 0) =
    refs a (t.filter j) +
      if j = interface ∧ new = some a ∧ result.1 = .noError then 1 else 0
  ok : (∀ g ∈ new, HasRoom net family interface old g t) → result.1 = .noError

theorem moveGroup_moved (h : Tallied net family other t) {old new : Option A}
    (hold : ∀ g ∈ old, family.isMulticastAddr g = true ∧ 0 < refs g (t.filter interface))
    (hnew : ∀ g ∈ new, family.isMulticastAddr g = true ∧ Below net family interface g t) :
    Moved net family other interface old new t (moveGroup net family interface old new t) := by
  -- the tables when the old group has been left
  obtain ⟨t₁, hleave, htallied, hrefs, hmac, hroom⟩ : ∃ t₁,
      leaveOld net family interface old t = t₁ ∧ Tallied net family other t₁ ∧
      (∀ j a, refs a (t₁.filter j) + (if j = interface ∧ old = some a then 1 else 0) =
        refs a (t.filter j)) ∧
      (∀ k m, refs m (t₁.mac k) ≤ refs m (t.mac k)) ∧
      ∀ g, HasRoom net family interface old g t → HasRoom net family interface none g t₁ := by
    cases old with
    | none => exact ⟨t, rfl, h, fun j a => by simp, fun _ _ => le_rfl, fun _ h => h⟩
    | some groupAddr =>
        obtain ⟨hmulticast, hpos⟩ := hold groupAddr rfl
        obtain ⟨t₁, hleave, hleft⟩ := leaveMulticastGroup_left h hmulticast hpos
        refine ⟨t₁, by rw [leaveOld, hleave], hleft.tallied, fun j a => ?_, hleft.mac, hleft.room⟩
        rw [hleft.more j a]
        simp only [Option.some.injEq, eq_comm (a := a)]
  unfold moveGroup
  rw [hleave]
  cases new with
  | none =>
      refine ⟨htallied, fun j a => ?_, fun _ => rfl⟩
      simpa using hrefs j a
  | some groupAddr =>
      obtain ⟨hmulticast, hbelow⟩ := hnew groupAddr rfl
      have hbelow₁ : Below net family interface groupAddr t₁ := by
        refine ⟨?_, fun k hk => ?_⟩
        · have hle := hrefs interface groupAddr
          have hlt := hbelow.1
          omega
        · have hle := hmac k (family.mapMulticastAddrToMac groupAddr)
          have hlt := hbelow.2 k hk
          omega
      simp only
      rcases joinMulticastGroup_cases htallied hmulticast hbelow₁ with
        ⟨t₂, hjoin, htallied₂, hsame, hfull⟩ | ⟨t₂, hjoin, htallied₂, hmore⟩
      · rw [hjoin]
        refine ⟨htallied₂, fun j a => ?_, fun hall => absurd (hroom _ (hall _ rfl)) hfull⟩
        simpa [hsame] using hrefs j a
      · rw [hjoin]
        refine ⟨htallied₂, fun j a => ?_, fun _ => rfl⟩
        have hdown := hrefs j a
        have hup := hmore j a
        simp only [Option.some.injEq, and_true, eq_comm (a := groupAddr)]
        omega

end Groups

end Counts

end Multicast
