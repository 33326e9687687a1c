import CycloneTcp.Common.Error
import CycloneTcp.Ip.Arp
import CycloneTcp.Ip.Ipv6Addr

set_option autoImplicit false

/-! # The list of IPv6 addresses

The addresses of an interface, how they are assigned and how the periodic tick manages their
lifetimes. Entry 0 holds the link-local address. What joining the Solicited-Node group of an address
returns is an input, and so are the readings of the clock; the Neighbor Solicitations that duplicate
address detection sends are left out. -/

namespace Ipv6

open Arp (timeCompare)

/-! ## Constants -/

def IPV6_ADDR_LIST_SIZE : ℕ := 3

def NDP_INFINITE_LIFETIME : UInt32 := 0xFFFFFFFF

def INFINITE_DELAY : UInt32 := 0xFFFFFFFF

def MAX_DELAY : UInt32 := INFINITE_DELAY / 2

/-! ## The interface -/

/-- What the address list depends on, of `NetInterface`, of its NDP context and of its SLAAC context.
`eui64` is that of the logical interface, and `running` is false when there is no SLAAC context. -/
structure NetInterface where
  addrList : Fin IPV6_ADDR_LIST_SIZE → Ipv6AddrEntry
  linkState : Bool
  eui64 : BitVec 64
  dupAddrDetectTransmits : ℕ
  retransTimer : UInt32
  running : Bool

/-- Entry 0 of the address list. -/
def linkLocalIndex : Fin IPV6_ADDR_LIST_SIZE := ⟨0, by decide⟩

/-- `ipv6GetLinkLocalAddrState`. -/
def ipv6GetLinkLocalAddrState (s : NetInterface) : Ipv6AddrState := (s.addrList linkLocalIndex).state

/-- What `ipv6SetAddr` makes of an entry, where `error` tells whether the Solicited-Node group has
been joined. -/
def assignEntry (addr : Ipv6Addr) (state : Ipv6AddrState) (validLifetime preferredLifetime : UInt32)
    (permanent : Bool) (error : ErrorCode) (now : UInt32) (entry : Ipv6AddrEntry) : Ipv6AddrEntry :=
  -- the current address is no more valid
  let entry := { entry with
    state := .invalid, validLifetime := 0, preferredLifetime := 0, permanent := false, addr := addr }
  if addr ≠ IPV6_UNSPECIFIED_ADDR then
    let entry :=
      if error = .noError then
        { entry with
          state := state, duplicate := false, preferredLifetime := preferredLifetime
          validLifetime := validLifetime, timestamp := now, dadTimeout := 0, dadRetransmitCount := 0 }
      else entry
    { entry with permanent := permanent }
  else entry

/-- `ipv6SetAddr`, on the entry that the index selects. -/
def ipv6SetAddrEntry (addr : Ipv6Addr) (state : Ipv6AddrState)
    (validLifetime preferredLifetime : UInt32) (permanent : Bool) (join : ErrorCode) (now : UInt32)
    (entry : Ipv6AddrEntry) : ErrorCode × Ipv6AddrEntry :=
  if ipv6IsMulticastAddr addr then (.invalidAddress, entry)
  else
    let error := if addr ≠ IPV6_UNSPECIFIED_ADDR ∧ state ≠ .invalid then join else .noError
    (error, assignEntry addr state validLifetime preferredLifetime permanent error now entry)

/-- Assign an address to an entry of the list. `join` is what `ipv6JoinMulticastGroup` returns. -/
def ipv6SetAddr (index : ℕ) (addr : Ipv6Addr) (state : Ipv6AddrState)
    (validLifetime preferredLifetime : UInt32) (permanent : Bool) (join : ErrorCode) (now : UInt32)
    (s : NetInterface) : ErrorCode × NetInterface :=
  if h : index < IPV6_ADDR_LIST_SIZE then
    let result := ipv6SetAddrEntry addr state validLifetime preferredLifetime permanent join now
      (s.addrList ⟨index, h⟩)
    (result.1, { s with addrList := Function.update s.addrList ⟨index, h⟩ result.2 })
  else (.outOfRange, s)

/-- Whether duplicate address detection is performed on a new address. -/
def newAddrState (s : NetInterface) : Ipv6AddrState :=
  if s.dupAddrDetectTransmits > 0 then .tentative else .preferred

/-- Assign link-local address. -/
def ipv6SetLinkLocalAddr (addr : Ipv6Addr) (join : ErrorCode) (now : UInt32) (s : NetInterface) :
    ErrorCode × NetInterface :=
  ipv6SetAddr 0 addr (newAddrState s) NDP_INFINITE_LIFETIME NDP_INFINITE_LIFETIME true join now s

/-- Assign global address. -/
def ipv6SetGlobalAddr (index : UInt32) (addr : Ipv6Addr) (join : ErrorCode) (now : UInt32)
    (s : NetInterface) : ErrorCode × NetInterface :=
  ipv6SetAddr (index + 1).toNat addr (newAddrState s) NDP_INFINITE_LIFETIME NDP_INFINITE_LIFETIME true
    join now s

/-! ## The tick -/

/-- Duplicate address detection, on a tentative entry. `first` tells the entry of the link-local
address, whose first solicitation is delayed by `rand`. -/
def ndpUpdateTentative (s : NetInterface) (first : Bool) (linkLocalState : Ipv6AddrState)
    (time now rand : UInt32) (entry : Ipv6AddrEntry) : Ipv6AddrEntry :=
  if !s.linkState then entry
  else if entry.dadRetransmitCount = 0 then
    let entry := { entry with timestamp := time }
    if s.dupAddrDetectTransmits > 0 then
      if first then { entry with dadTimeout := rand, dadRetransmitCount := 1 }
      else if linkLocalState = .preferred then
        { entry with dadTimeout := 0, dadRetransmitCount := 1 }
      else entry
    else { entry with state := .preferred }
  else if timeCompare time (entry.timestamp + entry.dadTimeout) ≥ 0 then
    if entry.duplicate then
      -- a manually assigned address is preserved, but it is not valid
      if entry.permanent then (ipv6SetAddrEntry entry.addr .invalid 0 0 true .noError now entry).2
      else (ipv6SetAddrEntry IPV6_UNSPECIFIED_ADDR .invalid 0 0 false .noError now entry).2
    else if entry.dadRetransmitCount ≤ s.dupAddrDetectTransmits then
      { entry with
        dadTimeout := entry.dadTimeout + s.retransTimer
        dadRetransmitCount := entry.dadRetransmitCount + 1 }
    else { entry with state := .preferred }
  else entry

/-- `ndpUpdateAddrList`, for one entry. -/
def ndpUpdateAddrEntry (s : NetInterface) (first : Bool) (linkLocalState : Ipv6AddrState)
    (time now rand : UInt32) (entry : Ipv6AddrEntry) : Ipv6AddrEntry :=
  match entry.state with
  | .tentative => ndpUpdateTentative s first linkLocalState time now rand entry
  | .preferred =>
      -- an infinite preferred lifetime is never timed out
      if entry.preferredLifetime ≠ NDP_INFINITE_LIFETIME ∧
          timeCompare time (entry.timestamp + entry.preferredLifetime) ≥ 0 then
        { entry with state := .deprecated }
      else entry
  | .deprecated =>
      -- nor is an infinite valid lifetime
      if entry.validLifetime ≠ NDP_INFINITE_LIFETIME ∧
          timeCompare time (entry.timestamp + entry.validLifetime) ≥ 0 then
        (ipv6SetAddrEntry IPV6_UNSPECIFIED_ADDR .invalid 0 0 false .noError now entry).2
      else entry
  | .invalid => entry

/-- Manage the lifetime of IPv6 addresses. `time` is read first, `now` and `rand` are what an entry
reads of the clock and of the random numbers. Entry 0 comes first: the others look at its new state.
-/
def ndpUpdateAddrList (time : UInt32) (now rand : Fin IPV6_ADDR_LIST_SIZE → UInt32)
    (s : NetInterface) : NetInterface :=
  let updated := fun linkLocalState i =>
    ndpUpdateAddrEntry s (i = linkLocalIndex) linkLocalState time (now i) (rand i) (s.addrList i)
  let linkLocal := updated (ipv6GetLinkLocalAddrState s) linkLocalIndex
  { s with
    addrList := fun i => if i = linkLocalIndex then linkLocal else updated linkLocal.state i }

/-! ## Lemmas -/

section Lemmas

variable {s : NetInterface} {i : Fin IPV6_ADDR_LIST_SIZE}

/-- An entry is looked at on its own, up to the state of the link-local address. -/
theorem ndpUpdateAddrList_addrList (time : UInt32) (now rand : Fin IPV6_ADDR_LIST_SIZE → UInt32)
    (s : NetInterface) (i : Fin IPV6_ADDR_LIST_SIZE) :
    ∃ linkLocalState, (ndpUpdateAddrList time now rand s).addrList i =
      ndpUpdateAddrEntry s (i = linkLocalIndex) linkLocalState time (now i) (rand i)
        (s.addrList i) := by
  simp only [ndpUpdateAddrList]
  by_cases hi : i = linkLocalIndex
  · subst hi
    exact ⟨ipv6GetLinkLocalAddrState s, if_pos rfl⟩
  · exact ⟨_, if_neg hi⟩

/-- Only the entry that the index selects is assigned. -/
theorem ipv6SetAddr_addrList_of_ne {index : ℕ} (addr : Ipv6Addr) (state : Ipv6AddrState)
    (validLifetime preferredLifetime : UInt32) (permanent : Bool) (join : ErrorCode) (now : UInt32)
    (h : i.val ≠ index) :
    (ipv6SetAddr index addr state validLifetime preferredLifetime permanent join now s).2.addrList i =
      s.addrList i := by
  unfold ipv6SetAddr
  split
  · exact Function.update_of_ne (fun h' => h (congrArg Fin.val h')) _ _
  · rfl

/-- What a call that assigns an address leaves in its entry. -/
theorem ipv6SetAddr_entry {addr : Ipv6Addr} {state : Ipv6AddrState}
    {validLifetime preferredLifetime : UInt32} {permanent : Bool} {join : ErrorCode} {now : UInt32}
    (haddr : addr ≠ IPV6_UNSPECIFIED_ADDR)
    (hok : (ipv6SetAddr i.val addr state validLifetime preferredLifetime permanent join now s).1 =
      .noError) :
    (ipv6SetAddr i.val addr state validLifetime preferredLifetime permanent join now s).2.addrList i =
      { addr := addr, state := state, duplicate := false, validLifetime := validLifetime
        preferredLifetime := preferredLifetime, permanent := permanent, timestamp := now
        dadTimeout := 0, dadRetransmitCount := 0 } := by
  simp only [ipv6SetAddr, i.isLt, dite_true, Function.update_self] at hok ⊢
  unfold ipv6SetAddrEntry at hok ⊢
  split at hok
  · cases hok
  · rename_i hmulticast
    simp only at hok
    rw [if_neg hmulticast]
    simp only [hok]
    simp only [assignEntry, ne_eq, haddr, not_false_eq_true, if_true]

end Lemmas

end Ipv6
