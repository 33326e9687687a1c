import CycloneTcp.Common.Error
import CycloneTcp.Ip.AddrList
import CycloneTcp.Lib.Runs
import Mathlib.Data.List.GetD
import Mathlib.Data.List.Rotate

set_option autoImplicit false

/-! # The Destination cache and the Default Router List

Next-hop determination, and the operations that add, replace and remove default routers. The Prefix
List and the Neighbor cache come in as what they answer: whether a destination is on-link, and
whether a router is reachable or probably reachable. Redirect messages are left out. -/

namespace DestCache

open Arp (timeCompare)
open Ipv6 (Ipv6Addr IPV6_UNSPECIFIED_ADDR IPV6_LOOPBACK_ADDR INFINITE_DELAY ipv6IsMulticastAddr)

/-! ## Constants -/

def IPV6_ROUTER_LIST_SIZE : ℕ := 2

def NDP_DEST_CACHE_SIZE : ℕ := 8

/-! ## The lists -/

structure Ipv6RouterEntry where
  addr : Ipv6Addr
  lifetime : UInt32
  preference : UInt8
  permanent : Bool
  timestamp : UInt32
  deriving DecidableEq

structure NdpDestCacheEntry where
  destAddr : Ipv6Addr
  nextHop : Ipv6Addr
  pathMtu : ℕ
  timestamp : UInt32
  deriving DecidableEq

/-- The Default Router List and the Destination cache of an interface. -/
structure NetInterface where
  routerList : List Ipv6RouterEntry
  destCache : List NdpDestCacheEntry
  linkMtu : ℕ

/-- What next-hop determination asks: `ipv6IsOnLink`, and whether the Neighbor cache has an entry in
a state other than INCOMPLETE. -/
structure Answers where
  onLink : Ipv6Addr → Bool
  reachable : Ipv6Addr → Bool

/-- `memset(entry, 0, sizeof(NdpDestCacheEntry))`. -/
def emptyDestEntry : NdpDestCacheEntry :=
  { destAddr := IPV6_UNSPECIFIED_ADDR, nextHop := IPV6_UNSPECIFIED_ADDR, pathMtu := 0, timestamp := 0 }

def emptyRouterEntry : Ipv6RouterEntry :=
  { addr := IPV6_UNSPECIFIED_ADDR, lifetime := 0, preference := 0, permanent := false, timestamp := 0 }

/-- The lists once the interface is initialized. -/
def ipv6Init (linkMtu : ℕ) : NetInterface :=
  { routerList := List.replicate IPV6_ROUTER_LIST_SIZE emptyRouterEntry
    destCache := List.replicate NDP_DEST_CACHE_SIZE emptyDestEntry, linkMtu := linkMtu }

/-! ## The Destination cache -/

/-- Flush Destination cache. -/
def ndpFlushDestCache (s : NetInterface) : NetInterface :=
  { s with destCache := s.destCache.map fun _ => emptyDestEntry }

/-- Search the Destination cache for a given destination address. -/
def ndpFindDestCacheEntry (entries : List NdpDestCacheEntry) (destAddr : Ipv6Addr) : Option ℕ :=
  entries.findIdx? fun entry => entry.destAddr = destAddr

/-- The loop of `ndpCreateDestCacheEntry`. -/
def createLoop (time : UInt32) (oldest : ℕ) (oldestTimestamp : UInt32) :
    ℕ → List NdpDestCacheEntry → ℕ
  | _, [] => oldest
  | i, entry :: entries =>
      if entry.destAddr = IPV6_UNSPECIFIED_ADDR then i
      else if time - entry.timestamp > time - oldestTimestamp then
        createLoop time i entry.timestamp (i + 1) entries
      else createLoop time oldest oldestTimestamp (i + 1) entries

/-- Where `ndpCreateDestCacheEntry` creates an entry. -/
def ndpCreateDestCacheEntry (time : UInt32) (entries : List NdpDestCacheEntry) : ℕ :=
  createLoop time 0 (entries.headD emptyDestEntry).timestamp 0 entries

/-! ## Next-hop determination -/

/-- A router of the list is in use. -/
def Ipv6RouterEntry.live (entry : Ipv6RouterEntry) : Bool := entry.lifetime ≠ 0

/-- Default Router Selection: the search starts behind the router that is unreachable. -/
def ndpSelectDefaultRouter (answers : Answers) (unreachableAddr : Option Ipv6Addr)
    (routerList : List Ipv6RouterEntry) : Except ErrorCode Ipv6Addr :=
  let i :=
    match unreachableAddr with
    | some addr =>
        match routerList.findIdx? fun entry => entry.live ∧ entry.addr = addr with
        | some j => j + 1
        | none => 0
    | none => 0
  let routers := routerList.rotate i
  match routers.find? fun entry => entry.live ∧ answers.reachable entry.addr with
  | some entry => .ok entry.addr
  | none =>
      match routers.find? fun entry => entry.live with
      | some entry => .ok entry.addr
      | none => .error .noRoute

/-- Next-hop determination. -/
def ndpSelectNextHop (answers : Answers) (destAddr : Ipv6Addr) (unreachableNextHop : Option Ipv6Addr)
    (routerList : List Ipv6RouterEntry) : Except ErrorCode Ipv6Addr :=
  if ipv6IsMulticastAddr destAddr then .ok destAddr
  else if answers.onLink destAddr then .ok destAddr
  else ndpSelectDefaultRouter answers unreachableNextHop routerList

/-- `ndpUpdateNextHop`, for one entry. -/
def updateNextHop (answers : Answers) (unreachableNextHop : Ipv6Addr)
    (routerList : List Ipv6RouterEntry) (entry : NdpDestCacheEntry) : NdpDestCacheEntry :=
  if entry.nextHop = unreachableNextHop then
    match ndpSelectNextHop answers entry.destAddr (some entry.nextHop) routerList with
    | .ok nextHop => { entry with nextHop := nextHop }
    | .error _ => { entry with destAddr := IPV6_UNSPECIFIED_ADDR }
  else entry

/-- Update next-hop field of Destination cache entries. -/
def ndpUpdateNextHop (answers : Answers) (unreachableNextHop : Ipv6Addr) (s : NetInterface) :
    NetInterface :=
  { s with destCache := s.destCache.map (updateNextHop answers unreachableNextHop s.routerList) }

/-- The next hop that `ipv6SendPacket` determines. `time` and `now` are two readings of the clock. -/
def ipv6SendPacket (answers : Answers) (srcAddr destAddr : Ipv6Addr) (time now : UInt32)
    (s : NetInterface) : Except ErrorCode Ipv6Addr × NetInterface :=
  if destAddr = IPV6_UNSPECIFIED_ADDR then (.error .invalidAddress, s)
  else if destAddr = IPV6_LOOPBACK_ADDR ∧ srcAddr ≠ IPV6_LOOPBACK_ADDR then
    (.error .invalidAddress, s)
  else
    match ndpFindDestCacheEntry s.destCache destAddr with
    | some i =>
        let entry := s.destCache.getD i emptyDestEntry
        (.ok entry.nextHop, { s with destCache := s.destCache.set i { entry with timestamp := now } })
    | none =>
        match ndpSelectNextHop answers destAddr none s.routerList with
        | .ok nextHop =>
            let entry : NdpDestCacheEntry :=
              { destAddr := destAddr, nextHop := nextHop, pathMtu := s.linkMtu, timestamp := now }
            (.ok nextHop, { s with
              destCache := s.destCache.set (ndpCreateDestCacheEntry time s.destCache) entry })
        | .error error => (.error error, s)

/-! ## The Default Router List -/

/-- The entry is timed out. -/
def timeOut (entry : Ipv6RouterEntry) : Ipv6RouterEntry :=
  { entry with addr := IPV6_UNSPECIFIED_ADDR, lifetime := 0 }

/-- The entries that `expired` selects are timed out, and the Destination cache is flushed if there
are any. -/
def timeOutRouters (expired : Ipv6RouterEntry → Bool) (s : NetInterface) : NetInterface :=
  let s' := { s with
    routerList := s.routerList.map fun entry => if expired entry then timeOut entry else entry }
  if s.routerList.any expired then ndpFlushDestCache s' else s'

/-- Periodically update Default Router List. -/
def ndpUpdateDefaultRouterList (time : UInt32) (s : NetInterface) : NetInterface :=
  timeOutRouters (fun entry => 0 < entry.lifetime ∧ entry.lifetime < INFINITE_DELAY ∧
    timeCompare time (entry.timestamp + entry.lifetime) ≥ 0) s

/-- Remove an entry from the Default Router List. -/
def ipv6RemoveDefaultRouter (addr : Ipv6Addr) (s : NetInterface) : NetInterface :=
  timeOutRouters (fun entry => entry.live ∧ entry.addr = addr ∧ !entry.permanent) s

/-- Where `ipv6AddDefaultRouter` puts a router: its own entry, or the first free one. -/
def routerIndex (addr : Ipv6Addr) (routerList : List Ipv6RouterEntry) : Option ℕ :=
  match routerList.findIdx? fun entry => entry.live ∧ entry.addr = addr with
  | some i => some i
  | none => routerList.findIdx? fun entry => !entry.live ∧ !entry.permanent

/-- Add a new entry to the Default Router List. -/
def ipv6AddDefaultRouter (addr : Ipv6Addr) (lifetime : UInt16) (preference : UInt8) (now : UInt32)
    (s : NetInterface) : NetInterface :=
  match routerIndex addr s.routerList with
  | some i =>
      let entry := s.routerList.getD i emptyRouterEntry
      if entry.permanent then s
      else
        let entry := { entry with
          addr := addr, lifetime := lifetime.toUInt32 * 1000, preference := preference
          timestamp := now }
        { s with routerList := s.routerList.set i entry }
  | none => s

/-- Configure default router. -/
def ipv6SetDefaultRouter (index : ℕ) (addr : Ipv6Addr) (s : NetInterface) :
    ErrorCode × NetInterface :=
  if index ≥ IPV6_ROUTER_LIST_SIZE then (.outOfRange, s)
  else if ipv6IsMulticastAddr addr then (.invalidAddress, s)
  else
    let entry := s.routerList.getD index emptyRouterEntry
    let entry :=
      if addr ≠ IPV6_UNSPECIFIED_ADDR then
        -- manually assigned routers have infinite lifetime
        { entry with addr := addr, preference := 0, lifetime := INFINITE_DELAY, permanent := true }
      else { entry with addr := addr, preference := 0, lifetime := 0, permanent := false }
    (.noError, { s with routerList := s.routerList.set index entry })

/-- Flush the Default Router List. -/
def ipv6FlushDefaultRouterList (s : NetInterface) : NetInterface :=
  { s with
    routerList := s.routerList.map fun entry =>
      if 0 < entry.lifetime ∧ !entry.permanent then timeOut entry else entry }

/-! ## Events -/

/-- Router Advertisement message processing. `mtu` is that of the MTU option, if it is used. -/
def ndpProcessRouterAdv (srcAddr : Ipv6Addr) (routerLifetime : UInt16) (prf : UInt8)
    (mtu : Option ℕ) (now : UInt32) (s : NetInterface) : NetInterface :=
  let s :=
    if routerLifetime ≠ 0 then ipv6AddDefaultRouter srcAddr routerLifetime prf now s
    else ipv6RemoveDefaultRouter srcAddr s
  { s with linkMtu := mtu.getD s.linkMtu }

/-- NDP timer handler. `unreachable` is the neighbors whose probes have failed, one after the other,
each with what is answered then. -/
def ndpTick (unreachable : List (Ipv6Addr × Answers)) (time : UInt32) (s : NetInterface) :
    NetInterface :=
  ndpUpdateDefaultRouterList time
    (unreachable.foldl (fun s n => ndpUpdateNextHop n.2 n.1 s) s)

/-- Callback function for link change event. -/
def ipv6LinkChangeEvent (mtu : ℕ) (s : NetInterface) : NetInterface :=
  ndpFlushDestCache (ipv6FlushDefaultRouterList { s with linkMtu := mtu })

inductive DestEvent where
  | sendPacket (answers : Answers) (srcAddr destAddr : Ipv6Addr) (time now : UInt32)
  | routerAdv (srcAddr : Ipv6Addr) (routerLifetime : UInt16) (prf : UInt8) (mtu : Option ℕ)
      (now : UInt32)
  | tick (unreachable : List (Ipv6Addr × Answers)) (time : UInt32)
  /-- An advertisement that clears the router flag of a neighbor. -/
  | neighborAdv (ipAddr : Ipv6Addr)
  | setDefaultRouter (index : ℕ) (addr : Ipv6Addr)
  | linkChange (mtu : ℕ)

/-- One event on the lists. -/
def step (s : NetInterface) : DestEvent → NetInterface
  | .sendPacket answers srcAddr destAddr time now =>
      (ipv6SendPacket answers srcAddr destAddr time now s).2
  | .routerAdv srcAddr routerLifetime prf mtu now =>
      ndpProcessRouterAdv srcAddr routerLifetime prf mtu now s
  | .tick unreachable time => ndpTick unreachable time s
  | .neighborAdv ipAddr => ipv6RemoveDefaultRouter ipAddr s
  | .setDefaultRouter index addr => (ipv6SetDefaultRouter index addr s).2
  | .linkChange mtu => ipv6LinkChangeEvent mtu s

/-! ## Next hops that can be used -/

/-- `nextHop` is the destination itself or a default router. -/
def NextHopFor (routerList : List Ipv6RouterEntry) (destAddr nextHop : Ipv6Addr) : Prop :=
  nextHop = destAddr ∨ ∃ r ∈ routerList, r.live ∧ r.addr = nextHop

/-- Every entry of the Destination cache in use has such a next hop. -/
def Usable (s : NetInterface) : Prop :=
  ∀ entry ∈ s.destCache, entry.destAddr ≠ IPV6_UNSPECIFIED_ADDR →
    NextHopFor s.routerList entry.destAddr entry.nextHop

/-- No entry of the Destination cache in use goes through the router that `ipv6SetDefaultRouter`
replaces, unless the new router or another one of the list has its address. -/
def Keeps (s : NetInterface) : DestEvent → Prop
  | .setDefaultRouter index addr =>
      index < IPV6_ROUTER_LIST_SIZE → ipv6IsMulticastAddr addr = false →
        ∀ entry ∈ s.destCache, entry.destAddr ≠ IPV6_UNSPECIFIED_ADDR →
          entry.nextHop ≠ entry.destAddr →
          addr ≠ IPV6_UNSPECIFIED_ADDR ∧ addr = entry.nextHop ∨
            ∃ j, j ≠ index ∧ ∃ r, s.routerList[j]? = some r ∧ r.live ∧ r.addr = entry.nextHop
  | _ => True

section Proofs

variable {s : NetInterface} {answers : Answers} {routerList : List Ipv6RouterEntry}
  {destAddr nextHop : Ipv6Addr}

theorem ndpSelectDefaultRouter_ok {unreachableAddr : Option Ipv6Addr}
    (h : ndpSelectDefaultRouter answers unreachableAddr routerList = .ok nextHop) :
    ∃ r ∈ routerList, r.live ∧ r.addr = nextHop := by
  unfold ndpSelectDefaultRouter at h
  simp only at h
  split at h
  · rename_i r hfind
    have hlive := List.find?_some hfind
    exact ⟨r, List.mem_rotate.1 (List.mem_of_find?_eq_some hfind), (of_decide_eq_true hlive).1,
      Except.ok.inj h⟩
  · split at h
    · rename_i r hfind
      exact ⟨r, List.mem_rotate.1 (List.mem_of_find?_eq_some hfind), List.find?_some hfind,
        Except.ok.inj h⟩
    · cases h

theorem ndpSelectNextHop_ok {unreachableNextHop : Option Ipv6Addr}
    (h : ndpSelectNextHop answers destAddr unreachableNextHop routerList = .ok nextHop) :
    NextHopFor routerList destAddr nextHop := by
  unfold ndpSelectNextHop at h
  split_ifs at h
  · exact Or.inl (Except.ok.inj h).symm
  · exact Or.inl (Except.ok.inj h).symm
  · exact Or.inr (ndpSelectDefaultRouter_ok h)

/-- More routers do no harm. -/
theorem Usable.mono {routerList : List Ipv6RouterEntry} (h : Usable s)
    (hsub : ∀ r ∈ s.routerList, r.live → ∃ r' ∈ routerList, r'.live ∧ r'.addr = r.addr) :
    Usable { s with routerList := routerList } := by
  intro entry hentry huse
  rcases h entry hentry huse with hdest | ⟨r, hr, hlive, haddr⟩
  · exact Or.inl hdest
  · obtain ⟨r', hr', hlive', haddr'⟩ := hsub r hr hlive
    exact Or.inr ⟨r', hr', hlive', haddr'.trans haddr⟩

theorem Usable.set (h : Usable s) {entry : NdpDestCacheEntry} (i : ℕ)
    (hentry : entry.destAddr ≠ IPV6_UNSPECIFIED_ADDR →
      NextHopFor s.routerList entry.destAddr entry.nextHop) :
    Usable { s with destCache := s.destCache.set i entry } := by
  intro entry' hentry' huse
  rcases List.mem_or_eq_of_mem_set hentry' with hmem | rfl
  · exact h entry' hmem huse
  · exact hentry huse

theorem usable_flush (s : NetInterface) : Usable (ndpFlushDestCache s) := by
  intro entry hentry huse
  obtain ⟨_, -, rfl⟩ := List.mem_map.1 hentry
  exact absurd rfl huse

theorem Usable.sendPacket (h : Usable s) (srcAddr destAddr : Ipv6Addr) (time now : UInt32) :
    Usable (ipv6SendPacket answers srcAddr destAddr time now s).2 := by
  unfold ipv6SendPacket
  split_ifs with hunspecified
  · exact h
  · exact h
  · cases hfind : ndpFindDestCacheEntry s.destCache destAddr with
    | some i =>
        obtain ⟨hi, -, -⟩ := List.findIdx?_eq_some_iff_getElem.1 hfind
        refine h.set i ?_
        rw [List.getD_eq_getElem _ _ hi]
        exact h s.destCache[i] (List.getElem_mem hi)
    | none =>
        simp only
        cases hselect : ndpSelectNextHop answers destAddr none s.routerList with
        | ok nextHop => exact h.set _ fun _ => ndpSelectNextHop_ok hselect
        | error error => exact h

theorem Usable.updateNextHop (h : Usable s) (answers : Answers) (unreachableNextHop : Ipv6Addr) :
    Usable (ndpUpdateNextHop answers unreachableNextHop s) := by
  intro entry hentry huse
  obtain ⟨old, hold, rfl⟩ := List.mem_map.1 hentry
  unfold DestCache.updateNextHop at huse ⊢
  by_cases hnextHop : old.nextHop = unreachableNextHop
  · rw [if_pos hnextHop] at huse ⊢
    cases hselect : ndpSelectNextHop answers old.destAddr (some old.nextHop) s.routerList with
    | ok nextHop =>
        simp only
        exact ndpSelectNextHop_ok hselect
    | error error =>
        rw [hselect] at huse
        exact absurd rfl huse
  · rw [if_neg hnextHop] at huse ⊢
    exact h old hold huse

theorem Usable.timeOutRouters (h : Usable s) (expired : Ipv6RouterEntry → Bool) :
    Usable (timeOutRouters expired s) := by
  unfold DestCache.timeOutRouters
  simp only
  split_ifs with hany
  · exact usable_flush _
  · refine h.mono fun r hr hlive => ⟨r, List.mem_map.2 ⟨r, hr, if_neg ?_⟩, hlive, rfl⟩
    intro hexpired
    exact hany (List.any_eq_true.2 ⟨r, hr, hexpired⟩)

theorem lifetime_live {lifetime : UInt16} (h : lifetime ≠ 0) : lifetime.toUInt32 * 1000 ≠ 0 := by
  intro hzero
  have htoNat := congrArg UInt32.toNat hzero
  have hlt := lifetime.toNat_lt
  rw [UInt32.toNat_mul, UInt16.toNat_toUInt32, show (1000 : UInt32).toNat = 1000 from rfl] at htoNat
  have hzero' : (0 : UInt32).toNat = 0 := rfl
  exact h (UInt16.toNat_inj.1 (by rw [show (0 : UInt16).toNat = 0 from rfl]; omega))

theorem routerIndex_some {addr : Ipv6Addr} {i : ℕ} (h : routerIndex addr routerList = some i) :
    ∃ r, routerList[i]? = some r ∧ (r.live → r.addr = addr) := by
  unfold routerIndex at h
  split at h
  · rename_i j hfind
    obtain rfl := Option.some.inj h
    obtain ⟨hi, hfound, -⟩ := List.findIdx?_eq_some_iff_getElem.1 hfind
    exact ⟨_, List.getElem?_eq_getElem hi, fun _ => (of_decide_eq_true hfound).2⟩
  · obtain ⟨hi, hfound, -⟩ := List.findIdx?_eq_some_iff_getElem.1 h
    refine ⟨_, List.getElem?_eq_getElem hi, fun hlive => ?_⟩
    rw [hlive] at hfound
    exact absurd hfound (by simp)

/-- A router that is added takes the place of its own entry or of one that is free. -/
theorem Usable.addDefaultRouter (h : Usable s) (addr : Ipv6Addr) {lifetime : UInt16}
    (hlifetime : lifetime ≠ 0) (preference : UInt8) (now : UInt32) :
    Usable (ipv6AddDefaultRouter addr lifetime preference now s) := by
  unfold ipv6AddDefaultRouter
  split
  · rename_i i hindex
    obtain ⟨old, hold, haddr⟩ := routerIndex_some hindex
    simp only
    split_ifs
    · exact h
    · refine h.mono fun r hr hlive => ?_
      obtain ⟨j, hj, rfl⟩ := List.getElem_of_mem hr
      by_cases hji : i = j
      · subst hji
        rw [List.getElem?_eq_getElem hj] at hold
        obtain rfl := Option.some.inj hold
        exact ⟨_, List.mem_set hj _, decide_eq_true (lifetime_live hlifetime), (haddr hlive).symm⟩
      · refine ⟨s.routerList[j], ?_, hlive, rfl⟩
        rw [List.mem_iff_getElem?]
        exact ⟨j, by rw [List.getElem?_set_ne hji, List.getElem?_eq_getElem hj]⟩
  · exact h

theorem Usable.routerAdv (h : Usable s) (srcAddr : Ipv6Addr) (routerLifetime : UInt16) (prf : UInt8)
    (mtu : Option ℕ) (now : UInt32) :
    Usable (ndpProcessRouterAdv srcAddr routerLifetime prf mtu now s) := by
  unfold ndpProcessRouterAdv
  by_cases hlifetime : routerLifetime = 0
  · rw [if_neg (not_not.2 hlifetime)]
    exact h.timeOutRouters _
  · rw [if_pos hlifetime]
    exact h.addDefaultRouter srcAddr hlifetime prf now

theorem Usable.tick (h : Usable s) (unreachable : List (Ipv6Addr × Answers)) (time : UInt32) :
    Usable (ndpTick unreachable time s) := by
  refine Usable.timeOutRouters ?_ _
  induction unreachable generalizing s with
  | nil => exact h
  | cons n unreachable ih => exact ih (h.updateNextHop n.2 n.1)

/-- After a router has been set, the next hops are usable if those of the entries that go through a
router are still in the list. -/
theorem usable_setDefaultRouter (h : Usable s) (hlength : s.routerList.length = IPV6_ROUTER_LIST_SIZE)
    (index : ℕ) (addr : Ipv6Addr) :
    Usable (ipv6SetDefaultRouter index addr s).2 ↔ Keeps s (.setDefaultRouter index addr) := by
  unfold ipv6SetDefaultRouter Keeps
  by_cases hindex : index < IPV6_ROUTER_LIST_SIZE
  swap
  · rw [if_pos (Nat.le_of_not_lt hindex)]
    exact iff_of_true h fun hlt => absurd hlt hindex
  rw [if_neg (Nat.not_le.2 hindex)]
  by_cases hmulticast : ipv6IsMulticastAddr addr = true
  · rw [if_pos hmulticast]
    refine iff_of_true h fun _ hnot => ?_
    rw [hmulticast] at hnot
    cases hnot
  rw [if_neg hmulticast]
  simp only [hindex, Bool.not_eq_true _ ▸ hmulticast, forall_const]
  set entry : Ipv6RouterEntry := if addr ≠ IPV6_UNSPECIFIED_ADDR then
      { s.routerList.getD index emptyRouterEntry with
        addr := addr, preference := 0, lifetime := INFINITE_DELAY, permanent := true }
    else { s.routerList.getD index emptyRouterEntry with
        addr := addr, preference := 0, lifetime := 0, permanent := false } with hentry
  have haddr : entry.addr = addr := by
    rw [hentry]
    split <;> rfl
  have hlive : entry.live ↔ addr ≠ IPV6_UNSPECIFIED_ADDR := by
    rw [hentry]
    split_ifs with hne
    · exact iff_of_true rfl hne
    · exact iff_of_false Bool.false_ne_true hne
  have hnew : ∀ nextHop, (∃ r ∈ s.routerList.set index entry, r.live ∧ r.addr = nextHop) ↔
      addr ≠ IPV6_UNSPECIFIED_ADDR ∧ addr = nextHop ∨
        ∃ j, j ≠ index ∧ ∃ r, s.routerList[j]? = some r ∧ r.live ∧ r.addr = nextHop := by
    intro nextHop
    constructor
    · rintro ⟨r, hr, hrlive, rfl⟩
      obtain ⟨j, hj⟩ := List.mem_iff_getElem?.1 hr
      by_cases hji : j = index
      · subst hji
        rw [List.getElem?_set_self (hlength ▸ hindex)] at hj
        obtain rfl := Option.some.inj hj
        exact Or.inl ⟨hlive.1 hrlive, haddr.symm⟩
      · rw [List.getElem?_set_ne (Ne.symm hji)] at hj
        exact Or.inr ⟨j, hji, r, hj, hrlive, rfl⟩
    · rintro (⟨hne, rfl⟩ | ⟨j, hji, r, hj, hrlive, rfl⟩)
      · exact ⟨entry, List.mem_set (hlength ▸ hindex) _, hlive.2 hne, haddr⟩
      · refine ⟨r, List.mem_iff_getElem?.2 ⟨j, ?_⟩, hrlive, rfl⟩
        rw [List.getElem?_set_ne (Ne.symm hji), hj]
  constructor
  · intro husable e he huse hne
    exact (hnew e.nextHop).1 ((husable e he huse).resolve_left hne)
  · intro hkeeps e he huse
    by_cases hne : e.nextHop = e.destAddr
    · exact Or.inl hne
    · exact Or.inr ((hnew e.nextHop).2 (hkeeps e he huse hne))

/-- What an event needs for the next hops to stay usable. -/
theorem usable_step (hlength : s.routerList.length = IPV6_ROUTER_LIST_SIZE) (h : Usable s)
    (e : DestEvent) : Usable (step s e) ↔ Keeps s e := by
  cases e with
  | sendPacket answers srcAddr destAddr time now =>
      exact iff_of_true (h.sendPacket srcAddr destAddr time now) trivial
  | routerAdv srcAddr routerLifetime prf mtu now =>
      exact iff_of_true (h.routerAdv srcAddr routerLifetime prf mtu now) trivial
  | tick unreachable time => exact iff_of_true (h.tick unreachable time) trivial
  | neighborAdv ipAddr => exact iff_of_true (h.timeOutRouters _) trivial
  | setDefaultRouter index addr => exact usable_setDefaultRouter h hlength index addr
  | linkChange mtu => exact iff_of_true (usable_flush _) trivial

theorem timeOutRouters_length (expired : Ipv6RouterEntry → Bool) (s : NetInterface) :
    (timeOutRouters expired s).routerList.length = s.routerList.length := by
  unfold timeOutRouters
  simp only
  split <;> exact List.length_map _

theorem step_length (s : NetInterface) (e : DestEvent) :
    (step s e).routerList.length = s.routerList.length := by
  cases e with
  | sendPacket answers srcAddr destAddr time now =>
      show (ipv6SendPacket answers srcAddr destAddr time now s).2.routerList.length = _
      unfold ipv6SendPacket
      split_ifs
      · rfl
      · rfl
      · split
        · rfl
        · split <;> rfl
  | routerAdv srcAddr routerLifetime prf mtu now =>
      show (ndpProcessRouterAdv srcAddr routerLifetime prf mtu now s).routerList.length = _
      unfold ndpProcessRouterAdv
      simp only
      split
      · unfold ipv6AddDefaultRouter
        split
        · simp only
          split
          · rfl
          · exact List.length_set
        · rfl
      · exact timeOutRouters_length _ _
  | tick unreachable time =>
      refine (timeOutRouters_length _ _).trans ?_
      induction unreachable generalizing s with
      | nil => rfl
      | cons n unreachable ih => exact ih (ndpUpdateNextHop n.2 n.1 s)
  | neighborAdv ipAddr => exact timeOutRouters_length _ _
  | setDefaultRouter index addr =>
      show (ipv6SetDefaultRouter index addr s).2.routerList.length = _
      unfold ipv6SetDefaultRouter
      split_ifs
      · rfl
      · rfl
      · exact List.length_set
      · exact List.length_set
  | linkChange mtu => exact List.length_map _

end Proofs

/-- The next hops are usable in every state that a run reaches if and only if no call of
`ipv6SetDefaultRouter` takes away a router that an entry of the Destination cache goes through. -/
theorem destCache_run (linkMtu : ℕ) (es : List DestEvent) :
    Along (fun s e => Usable (step s e)) step (ipv6Init linkMtu) es ↔
      Along Keeps step (ipv6Init linkMtu) es := by
  refine Along.iff_of_invariant (J := fun s => s.routerList.length = IPV6_ROUTER_LIST_SIZE)
    (fun s e h => (step_length s e).trans h) (fun s e hlength h => usable_step hlength h e) ?_ ?_ es
  · rfl
  intro entry hentry huse
  obtain rfl := List.eq_of_mem_replicate hentry
  exact absurd rfl huse

/-- A packet is sent through the router `fe80::1`, which is then replaced by `fe80::2`. -/
theorem destCache_counterexample : ¬ ∀ (linkMtu : ℕ) (es : List DestEvent),
    Along (fun s e => Usable (step s e)) step (ipv6Init linkMtu) es := by
  intro h
  let answers : Answers := { onLink := fun _ => false, reachable := fun _ => false }
  have hrun := h 1500 [.setDefaultRouter 0 0xFE800000000000000000000000000001,
    .sendPacket answers 0x20010DB8000000000000000000000001 0x20010DB8000100000000000000000001 0 0,
    .setDefaultRouter 0 0xFE800000000000000000000000000002]
  have hentry := hrun.2.2.1
    { destAddr := 0x20010DB8000100000000000000000001
      nextHop := 0xFE800000000000000000000000000001, pathMtu := 1500, timestamp := 0 } (by decide)
    (by decide)
  rcases hentry with hdest | ⟨r, hr, hlive, haddr⟩
  · exact absurd hdest (by decide)
  · have hnone : ∀ r ∈ (run step (ipv6Init 1500)
        [.setDefaultRouter 0 0xFE800000000000000000000000000002]).routerList,
        r.live → r.addr ≠ 0xFE800000000000000000000000000001 := by decide
    exact hnone r hr hlive haddr

end DestCache
