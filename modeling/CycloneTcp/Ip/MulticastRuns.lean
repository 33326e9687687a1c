import CycloneTcp.Ip.Multicast
import CycloneTcp.Lib.Runs

set_option autoImplicit false

/-! # Holders of multicast groups

Over every run of calls that join and leave groups and that assign unicast and anycast addresses,
the reference count of a group is the number of its holders: the successful joins that have not been
undone, and over IPv6 the addresses whose Solicited-Node group it is. -/

namespace Multicast

open Ipv6 (Ipv6Addr Ipv6AddrState Ipv6AddrEntry IPV6_UNSPECIFIED_ADDR IPV6_ADDR_LIST_SIZE b
  ipv6IsMulticastAddr assignEntry)
open RefTable (refs joined Distinct)

/-! ## The interfaces -/

/-- The filters and the addresses of the interfaces. -/
structure State (I : Type*) where
  ipv4Filter : I → List (RefEntry Ipv4Addr)
  ipv6Filter : I → List (RefEntry Ipv6Addr)
  macAddrFilter : I → List (RefEntry MacAddr)
  addrList : I → Fin IPV6_ADDR_LIST_SIZE → Ipv6AddrEntry
  anycastAddrList : I → Fin IPV6_ANYCAST_ADDR_LIST_SIZE → Ipv6Addr

/-- After `ethInit`, `ipv4Init` and `ipv6Init`. -/
def init (I : Type*) : State I :=
  { ipv4Filter := fun _ => List.replicate IPV4_MULTICAST_FILTER_SIZE { addr := 0, refCount := 0 }
    ipv6Filter := fun _ => List.replicate IPV6_MULTICAST_FILTER_SIZE { addr := 0, refCount := 0 }
    macAddrFilter := fun _ => List.replicate MAC_ADDR_FILTER_SIZE { addr := 0, refCount := 0 }
    addrList := fun _ _ =>
      { addr := 0, state := .invalid, duplicate := false, timestamp := 0, validLifetime := 0
        preferredLifetime := 0, permanent := false, dadTimeout := 0, dadRetransmitCount := 0 }
    anycastAddrList := fun _ _ => 0 }

section Calls

variable {I : Type*}

def State.ipv4Tables (s : State I) : Tables I Ipv4Addr :=
  { filter := s.ipv4Filter, mac := s.macAddrFilter }

def State.ipv6Tables (s : State I) : Tables I Ipv6Addr :=
  { filter := s.ipv6Filter, mac := s.macAddrFilter }

def State.setIpv4Tables (s : State I) (t : Tables I Ipv4Addr) : State I :=
  { s with ipv4Filter := t.filter, macAddrFilter := t.mac }

def State.setIpv6Tables (s : State I) (t : Tables I Ipv6Addr) : State I :=
  { s with ipv6Filter := t.filter, macAddrFilter := t.mac }

/-- The Solicited-Node group of an address of the list. -/
def addrGroup (net : Net I) (interface : I) (addr : Ipv6Addr) (state : Ipv6AddrState) :
    Option Ipv6Addr :=
  if addr ≠ IPV6_UNSPECIFIED_ADDR ∧ state ≠ .invalid ∧ net.ethernet interface then
    some (ipv6ComputeSolicitedNodeAddr addr)
  else none

/-- The Solicited-Node group of an anycast address. -/
def anycastGroup (net : Net I) (interface : I) (addr : Ipv6Addr) : Option Ipv6Addr :=
  if addr ≠ IPV6_UNSPECIFIED_ADDR ∧ net.ethernet interface then
    some (ipv6ComputeSolicitedNodeAddr addr)
  else none

variable [DecidableEq I]

def ipv4JoinMulticastGroup (net : Net I) (interface : I) (groupAddr : Ipv4Addr) (s : State I) :
    ErrorCode × State I :=
  let (error, t) := joinMulticastGroup net ipv4Family interface groupAddr s.ipv4Tables
  (error, s.setIpv4Tables t)

def ipv4LeaveMulticastGroup (net : Net I) (interface : I) (groupAddr : Ipv4Addr) (s : State I) :
    ErrorCode × State I :=
  let (error, t) := leaveMulticastGroup net ipv4Family interface groupAddr s.ipv4Tables
  (error, s.setIpv4Tables t)

def ipv6JoinMulticastGroup (net : Net I) (interface : I) (groupAddr : Ipv6Addr) (s : State I) :
    ErrorCode × State I :=
  let (error, t) := joinMulticastGroup net ipv6Family interface groupAddr s.ipv6Tables
  (error, s.setIpv6Tables t)

def ipv6LeaveMulticastGroup (net : Net I) (interface : I) (groupAddr : Ipv6Addr) (s : State I) :
    ErrorCode × State I :=
  let (error, t) := leaveMulticastGroup net ipv6Family interface groupAddr s.ipv6Tables
  (error, s.setIpv6Tables t)

/-- Assign an address to an entry of the list. -/
def ipv6SetAddr (net : Net I) (interface : I) (index : ℕ) (addr : Ipv6Addr) (state : Ipv6AddrState)
    (validLifetime preferredLifetime : UInt32) (permanent : Bool) (now : UInt32) (s : State I) :
    ErrorCode × State I :=
  if h : index < IPV6_ADDR_LIST_SIZE then
    if ipv6IsMulticastAddr addr then (.invalidAddress, s)
    else
      let entry := s.addrList interface ⟨index, h⟩
      let (error, t) := moveGroup net ipv6Family interface
        (addrGroup net interface entry.addr entry.state) (addrGroup net interface addr state)
        s.ipv6Tables
      let entry :=
        assignEntry addr state validLifetime preferredLifetime permanent error now entry
      (error, { s.setIpv6Tables t with
        addrList := Function.update s.addrList interface
          (Function.update (s.addrList interface) ⟨index, h⟩ entry) })
  else (.outOfRange, s)

/-- Assign an anycast address. The address is stored whatever joining its group returns. -/
def ipv6SetAnycastAddr (net : Net I) (interface : I) (index : ℕ) (addr : Ipv6Addr) (s : State I) :
    ErrorCode × State I :=
  if h : index < IPV6_ANYCAST_ADDR_LIST_SIZE then
    if ipv6IsMulticastAddr addr then (.invalidAddress, s)
    else
      let (error, t) := moveGroup net ipv6Family interface
        (anycastGroup net interface (s.anycastAddrList interface ⟨index, h⟩))
        (anycastGroup net interface addr) s.ipv6Tables
      (error, { s.setIpv6Tables t with
        anycastAddrList := Function.update s.anycastAddrList interface
          (Function.update (s.anycastAddrList interface) ⟨index, h⟩ addr) })
  else (.outOfRange, s)

/-! ## Runs -/

/-- The interfaces, with the successful joins of each group that have not been undone by a call that
leaves it. -/
structure History (I : Type*) where
  state : State I
  ipv4Joins : I → Ipv4Addr → ℕ
  ipv6Joins : I → Ipv6Addr → ℕ

def start (I : Type*) : History I :=
  { state := init I, ipv4Joins := fun _ _ => 0, ipv6Joins := fun _ _ => 0 }

/-- A call. -/
inductive Call (I : Type*) where
  | ipv4Join (interface : I) (groupAddr : Ipv4Addr)
  | ipv4Leave (interface : I) (groupAddr : Ipv4Addr)
  | ipv6Join (interface : I) (groupAddr : Ipv6Addr)
  | ipv6Leave (interface : I) (groupAddr : Ipv6Addr)
  | setAddr (interface : I) (index : ℕ) (addr : Ipv6Addr) (state : Ipv6AddrState)
      (validLifetime preferredLifetime : UInt32) (permanent : Bool) (now : UInt32)
  | setAnycastAddr (interface : I) (index : ℕ) (addr : Ipv6Addr)

/-- The joins of a group, after a call about the group that returns `error`. -/
def record {A : Type*} [DecidableEq A] (f : ℕ → ℕ) (error : ErrorCode) (interface : I)
    (groupAddr : A) (joins : I → A → ℕ) : I → A → ℕ :=
  fun j a => if (j = interface ∧ a = groupAddr) ∧ error = .noError then f (joins j a) else joins j a

def step (net : Net I) (h : History I) : Call I → History I
  | .ipv4Join interface groupAddr =>
      let (error, s) := ipv4JoinMulticastGroup net interface groupAddr h.state
      { h with state := s, ipv4Joins := record Nat.succ error interface groupAddr h.ipv4Joins }
  | .ipv4Leave interface groupAddr =>
      let (error, s) := ipv4LeaveMulticastGroup net interface groupAddr h.state
      { h with state := s, ipv4Joins := record Nat.pred error interface groupAddr h.ipv4Joins }
  | .ipv6Join interface groupAddr =>
      let (error, s) := ipv6JoinMulticastGroup net interface groupAddr h.state
      { h with state := s, ipv6Joins := record Nat.succ error interface groupAddr h.ipv6Joins }
  | .ipv6Leave interface groupAddr =>
      let (error, s) := ipv6LeaveMulticastGroup net interface groupAddr h.state
      { h with state := s, ipv6Joins := record Nat.pred error interface groupAddr h.ipv6Joins }
  | .setAddr interface index addr state validLifetime preferredLifetime permanent now =>
      { h with state :=
          (ipv6SetAddr net interface index addr state validLifetime preferredLifetime permanent now
            h.state).2 }
  | .setAnycastAddr interface index addr =>
      { h with state := (ipv6SetAnycastAddr net interface index addr h.state).2 }

end Calls

/-! ## Holders -/

section Holders

variable {I : Type*}

/-- The number of elements of an interface's list whose group is `a`. -/
def holding {N E A : Type*} [Fintype N] [DecidableEq A] (group : I → E → Option A)
    (list : I → N → E) (j : I) (a : A) : ℕ :=
  (Finset.univ.filter fun y => group j (list j y) = some a).card

/-- The addresses, unicast and anycast, whose Solicited-Node group it is. -/
def addrHolders (net : Net I) (s : State I) (j : I) (a : Ipv6Addr) : ℕ :=
  holding (fun j entry => addrGroup net j entry.addr entry.state) s.addrList j a +
    holding (anycastGroup net) s.anycastAddrList j a

/-- The holders of an IPv6 group. -/
def ipv6Holders (net : Net I) (h : History I) (j : I) (a : Ipv6Addr) : ℕ :=
  h.ipv6Joins j a + addrHolders net h.state j a

variable [DecidableEq I] [Fintype I]

/-- The books are balanced: every name has at most one entry, every group as many references as
holders, every MAC address as many as groups that are held and mapped to it, and multicast frames
are accepted for the groups that are held. -/
structure Balanced (net : Net I) (h : History I) : Prop where
  distinct : ∀ i, Distinct (h.state.ipv4Filter i) ∧ Distinct (h.state.ipv6Filter i) ∧
    Distinct (h.state.macAddrFilter i)
  ipv4 : ∀ i g, refs g (h.state.ipv4Filter i) = h.ipv4Joins i g
  ipv6 : ∀ i g, refs g (h.state.ipv6Filter i) = ipv6Holders net h i g
  mac : ∀ k m, refs m (h.state.macAddrFilter k) =
    ∑ j, if net.Covers j k then
      {g | 0 < h.ipv4Joins j g ∧ ipv4MapMulticastAddrToMac g = m}.ncard +
        {g | 0 < ipv6Holders net h j g ∧ ipv6MapMulticastAddrToMac g = m}.ncard
    else 0
  accepts : ∀ k m, macIsMulticastAddr m → m ≠ net.logicalMacAddr k → m ≠ MAC_BROADCAST_ADDR →
    (ethCheckDestAddr net k m h.state.macAddrFilter = .noError ↔
      ∃ j, net.Covers j k ∧
        ((∃ g, 0 < h.ipv4Joins j g ∧ ipv4MapMulticastAddrToMac g = m) ∨
          ∃ g, 0 < ipv6Holders net h j g ∧ ipv6MapMulticastAddrToMac g = m))

/-- A call keeps the books. An IPv6 group is left by who has joined it; when an anycast address is
assigned, there is room for its Solicited-Node group; and no count that is raised is at its limit.
-/
def Keeps (net : Net I) (h : History I) : Call I → Prop
  | .ipv4Join interface groupAddr => Below net ipv4Family interface groupAddr h.state.ipv4Tables
  | .ipv4Leave _ _ => True
  | .ipv6Join interface groupAddr => Below net ipv6Family interface groupAddr h.state.ipv6Tables
  | .ipv6Leave interface groupAddr =>
      0 < refs groupAddr (h.state.ipv6Filter interface) → 0 < h.ipv6Joins interface groupAddr
  | .setAddr interface _ addr state _ _ _ _ =>
      ∀ g ∈ addrGroup net interface addr state, Below net ipv6Family interface g h.state.ipv6Tables
  | .setAnycastAddr interface index addr =>
      ∀ g ∈ anycastGroup net interface addr,
        Below net ipv6Family interface g h.state.ipv6Tables ∧
          ∀ hindex : index < IPV6_ANYCAST_ADDR_LIST_SIZE, ipv6IsMulticastAddr addr = false →
            HasRoom net ipv6Family interface
              (anycastGroup net interface (h.state.anycastAddrList interface ⟨index, hindex⟩)) g
              h.state.ipv6Tables

instance (net : Net I) (h : History I) : (call : Call I) → Decidable (Keeps net h call)
  | .ipv4Join _ _ => inferInstanceAs (Decidable (Below _ _ _ _ _))
  | .ipv4Leave _ _ => isTrue trivial
  | .ipv6Join _ _ => inferInstanceAs (Decidable (Below _ _ _ _ _))
  | .ipv6Leave _ _ => inferInstanceAs (Decidable (_ → _))
  | .setAddr interface _ addr state _ _ _ _ =>
      Option.decidableForallMem (addrGroup net interface addr state)
  | .setAnycastAddr interface _ addr => Option.decidableForallMem (anycastGroup net interface addr)

end Holders

/-! ## Every call keeps the books -/

section Groups

theorem solicitedNode_isMulticastAddr (ipAddr : Ipv6Addr) :
    ipv6IsMulticastAddr (ipv6ComputeSolicitedNodeAddr ipAddr) = true := by
  have hlow : ((ipAddr.setWidth 24).setWidth 128).extractLsb' 120 8 = 0 := by
    ext i hi
    simp
    omega
  have hbyte : b (ipv6ComputeSolicitedNodeAddr ipAddr) 0 = 0xFF := by
    rw [b, ipv6ComputeSolicitedNodeAddr, BitVec.extractLsb'_or, hlow]
    rfl
  exact decide_eq_true hbyte

theorem record_succ {I A : Type*} [DecidableEq I] [DecidableEq A] (error : ErrorCode) (i : I)
    (g : A) (joins : I → A → ℕ) (j : I) (a : A) : record Nat.succ error i g joins j a =
      joins j a + if (j = i ∧ a = g) ∧ error = .noError then 1 else 0 := by
  unfold record
  split_ifs <;> rfl

theorem record_pred {I A : Type*} [DecidableEq I] [DecidableEq A] {error : ErrorCode} {i : I}
    {g : A} {joins : I → A → ℕ} (hpos : error = .noError → 0 < joins i g) (j : I) (a : A) :
    joins j a = record Nat.pred error i g joins j a +
      if (j = i ∧ a = g) ∧ error = .noError then 1 else 0 := by
  unfold record
  split_ifs with h
  · obtain ⟨⟨rfl, rfl⟩, herror⟩ := h
    exact (Nat.succ_pred_eq_of_pos (hpos herror)).symm
  · rfl

variable {I : Type*}

/-- What is stored in the list of unicast addresses holds the group if it could be joined. -/
theorem addrGroup_assignEntry (net : Net I) (interface : I) (addr : Ipv6Addr)
    (state : Ipv6AddrState) (validLifetime preferredLifetime : UInt32) (permanent : Bool) (error : ErrorCode) (now : UInt32)
    (entry : Ipv6AddrEntry) (a : Ipv6Addr) :
    (addrGroup net interface
        (assignEntry addr state validLifetime preferredLifetime permanent error now entry).addr
        (assignEntry addr state validLifetime preferredLifetime permanent error now entry).state =
      some a) ↔ addrGroup net interface addr state = some a ∧ error = .noError := by
  unfold assignEntry
  by_cases haddr : addr = IPV6_UNSPECIFIED_ADDR
  · simp [addrGroup, haddr]
  · by_cases herror : error = .noError
    · simp [haddr, herror]
    · simp [addrGroup, haddr, herror]

theorem addrGroup_isMulticastAddr {net : Net I} {interface : I} {addr g : Ipv6Addr}
    {state : Ipv6AddrState} (h : g ∈ addrGroup net interface addr state) :
    ipv6Family.isMulticastAddr g = true := by
  unfold addrGroup at h
  split at h
  · obtain rfl := Option.some.inj h
    exact solicitedNode_isMulticastAddr addr
  · cases h

theorem anycastGroup_isMulticastAddr {net : Net I} {interface : I} {addr g : Ipv6Addr}
    (h : g ∈ anycastGroup net interface addr) : ipv6Family.isMulticastAddr g = true := by
  unfold anycastGroup at h
  split at h
  · obtain rfl := Option.some.inj h
    exact solicitedNode_isMulticastAddr addr
  · cases h

/-- An element of a list holds its group. -/
theorem holding_pos {N E A : Type*} [Fintype N] [DecidableEq A] (group : I → E → Option A)
    (list : I → N → E) {j : I} {x : N} {a : A} (h : group j (list j x) = some a) :
    0 < holding group list j a :=
  Finset.card_pos.2 ⟨x, Finset.mem_filter.2 ⟨Finset.mem_univ x, h⟩⟩

variable [DecidableEq I]

/-- One element of one list has changed. -/
theorem holding_update {N E A : Type*} [Fintype N] [DecidableEq N] [DecidableEq A]
    (group : I → E → Option A) (list : I → N → E) (i : I) (x : N) (e : E) (j : I) (a : A) :
    holding group (Function.update list i (Function.update (list i) x e)) j a +
        (if j = i ∧ group i (list i x) = some a then 1 else 0) =
      holding group list j a + if j = i ∧ group i e = some a then 1 else 0 := by
  by_cases hj : j = i
  swap
  · simp only [holding, Function.update_of_ne hj, hj, false_and, if_false]
  subst hj
  simp only [holding, Function.update_self, true_and, Finset.card_filter]
  rw [← Finset.add_sum_erase _ _ (Finset.mem_univ x), ← Finset.add_sum_erase Finset.univ
    (fun y => if group j (list j y) = some a then 1 else 0) (Finset.mem_univ x)]
  have hrest : ∀ y ∈ Finset.univ.erase x,
      (if group j (Function.update (list j) x e y) = some a then 1 else 0) =
        if group j (list j y) = some a then 1 else 0 := by
    intro y hy
    rw [Function.update_of_ne (Finset.ne_of_mem_erase hy)]
  rw [Finset.sum_congr rfl hrest, Function.update_self]
  omega

end Groups

section Proofs

variable {I : Type*} [DecidableEq I] [Fintype I] {net : Net I} {h : History I}

/-- What the calls keep. -/
structure Inv (net : Net I) (h : History I) : Prop where
  tallied : Tallied net ipv6Family (mappedOn ipv4Family h.state.ipv4Filter) h.state.ipv6Tables
  ipv4Distinct : ∀ i, Distinct (h.state.ipv4Filter i)
  ipv4 : ∀ i g, refs g (h.state.ipv4Filter i) = h.ipv4Joins i g
  ipv6 : ∀ i g, refs g (h.state.ipv6Filter i) = ipv6Holders net h i g

theorem Inv.talliedIpv4 (hinv : Inv net h) :
    Tallied net ipv4Family (mappedOn ipv6Family h.state.ipv6Filter) h.state.ipv4Tables :=
  hinv.tallied.swap (u := h.state.ipv4Tables) hinv.ipv4Distinct rfl

theorem Inv.balanced (hinv : Inv net h) : Balanced net h := by
  have hipv4 : ∀ j m, mappedOn ipv4Family h.state.ipv4Filter j m =
      {g | 0 < h.ipv4Joins j g ∧ ipv4MapMulticastAddrToMac g = m}.ncard := by
    intro j m
    rw [mappedOn, (hinv.ipv4Distinct j).joined_eq]
    simp only [hinv.ipv4, decide_eq_true_eq]
    rfl
  have hipv6 : ∀ j m, mappedOn ipv6Family h.state.ipv6Filter j m =
      {g | 0 < ipv6Holders net h j g ∧ ipv6MapMulticastAddrToMac g = m}.ncard := by
    intro j m
    have hdistinct : Distinct (h.state.ipv6Filter j) := hinv.tallied.filter j
    rw [mappedOn, hdistinct.joined_eq]
    simp only [hinv.ipv6, decide_eq_true_eq]
    rfl
  have hmac : ∀ k m, refs m (h.state.macAddrFilter k) =
      ∑ j, if net.Covers j k then mappedOn ipv4Family h.state.ipv4Filter j m +
        mappedOn ipv6Family h.state.ipv6Filter j m else 0 := by
    intro k m
    refine (hinv.tallied.refs k m).trans (Finset.sum_congr rfl fun j _ => ?_)
    rw [Nat.add_comm]
    rfl
  refine ⟨fun i => ⟨hinv.ipv4Distinct i, hinv.tallied.filter i, hinv.tallied.mac i⟩, hinv.ipv4,
    hinv.ipv6, fun k m => ?_, fun k m hmulticast hlogical hbroadcast => ?_⟩
  · simp only [hmac, hipv4, hipv6]
  · have hcheck : ethCheckDestAddr net k m h.state.macAddrFilter = .noError ↔
        0 < refs m (h.state.macAddrFilter k) := by
      rw [← RefTable.find_isSome_iff]
      unfold ethCheckDestAddr
      rw [if_neg hlogical, if_neg hbroadcast]
      split_ifs with hfind
      · exact iff_of_true rfl hfind.2
      · exact iff_of_false (fun h => by cases h) fun hsome => hfind ⟨hmulticast, hsome⟩
    rw [hcheck, hmac, Finset.sum_pos_iff]
    refine exists_congr fun j => ?_
    simp only [Finset.mem_univ, true_and]
    by_cases hk : net.Covers j k
    · rw [if_pos hk, Nat.add_pos_iff_pos_or_pos, mappedOn, mappedOn, RefTable.joined_pos_iff,
        RefTable.joined_pos_iff]
      simp only [hk, true_and, hinv.ipv4, hinv.ipv6, decide_eq_true_eq]
      rfl
    · rw [if_neg hk]
      exact iff_of_false (lt_irrefl 0) fun h => hk h.1

/-- A group that an address holds is in use. -/
theorem Inv.refs_pos (hinv : Inv net h) {interface : I} {g : Ipv6Addr}
    (hpos : 0 < addrHolders net h.state interface g) :
    0 < refs g (h.state.ipv6Tables.filter interface) := by
  have hrefs := hinv.ipv6 interface g
  unfold ipv6Holders at hrefs
  have hsame : h.state.ipv6Tables.filter = h.state.ipv6Filter := rfl
  rw [hsame]
  omega

/-- An entry of the list of addresses is replaced, and its group with it. -/
theorem ipv6SetAddr_inv (hinv : Inv net h) (interface : I) (index : ℕ) (addr : Ipv6Addr)
    (state : Ipv6AddrState) (validLifetime preferredLifetime : UInt32) (permanent : Bool)
    (now : UInt32)
    (hbelow : ∀ g ∈ addrGroup net interface addr state,
      Below net ipv6Family interface g h.state.ipv6Tables) :
    Inv net { h with state :=
      (ipv6SetAddr net interface index addr state validLifetime preferredLifetime permanent now
        h.state).2 } := by
  unfold ipv6SetAddr
  split_ifs with hindex
  · exact hinv
  · have hold : ∀ g ∈ addrGroup net interface (h.state.addrList interface ⟨index, hindex⟩).addr
        (h.state.addrList interface ⟨index, hindex⟩).state,
        0 < addrHolders net h.state interface g := fun g hg =>
      Nat.add_pos_left (holding_pos (fun j (entry : Ipv6AddrEntry) =>
        addrGroup net j entry.addr entry.state) h.state.addrList hg) _
    have hmoved := moveGroup_moved hinv.tallied
      (fun g hg => ⟨addrGroup_isMulticastAddr hg, hinv.refs_pos (hold g hg)⟩)
      (fun g hg => ⟨addrGroup_isMulticastAddr hg, hbelow g hg⟩)
    simp only
    generalize moveGroup net ipv6Family interface _ _ h.state.ipv6Tables = result at hmoved ⊢
    refine ⟨hmoved.tallied, hinv.ipv4Distinct, hinv.ipv4, fun j a => ?_⟩
    have hrefs := hmoved.refs j a
    have hbefore := hinv.ipv6 j a
    have hcount := holding_update (fun j entry => addrGroup net j entry.addr entry.state)
      h.state.addrList interface ⟨index, hindex⟩
      (assignEntry addr state validLifetime preferredLifetime permanent result.1 now
        (h.state.addrList interface ⟨index, hindex⟩)) j a
    simp only [addrGroup_assignEntry] at hcount
    unfold ipv6Holders addrHolders at hbefore ⊢
    simp only [State.setIpv6Tables, State.ipv6Tables] at hrefs ⊢
    omega
  · exact hinv

/-- So is an anycast address; its group must be joined. -/
theorem ipv6SetAnycastAddr_inv (hinv : Inv net h) {interface : I} {index : ℕ} {addr : Ipv6Addr}
    (hkeeps : Keeps net h (.setAnycastAddr interface index addr)) :
    Inv net { h with state := (ipv6SetAnycastAddr net interface index addr h.state).2 } := by
  unfold ipv6SetAnycastAddr
  split_ifs with hindex hmulticast
  · exact hinv
  · have hold : ∀ g ∈ anycastGroup net interface
        (h.state.anycastAddrList interface ⟨index, hindex⟩), 0 < addrHolders net h.state interface g := fun g hg =>
      Nat.add_pos_right _ (holding_pos (anycastGroup net) h.state.anycastAddrList hg)
    have hmoved := moveGroup_moved hinv.tallied
      (fun g hg => ⟨anycastGroup_isMulticastAddr hg, hinv.refs_pos (hold g hg)⟩)
      (fun g hg => ⟨anycastGroup_isMulticastAddr hg, (hkeeps g hg).1⟩)
    have hok := hmoved.ok fun g hg => (hkeeps g hg).2 hindex (Bool.eq_false_iff.2 hmulticast)
    simp only
    generalize moveGroup net ipv6Family interface _ _ h.state.ipv6Tables = result at hmoved hok ⊢
    refine ⟨hmoved.tallied, hinv.ipv4Distinct, hinv.ipv4, fun j a => ?_⟩
    have hrefs := hmoved.refs j a
    have hbefore := hinv.ipv6 j a
    have hcount := holding_update (anycastGroup net) h.state.anycastAddrList interface
      ⟨index, hindex⟩ addr j a
    unfold ipv6Holders addrHolders at hbefore ⊢
    simp only [State.setIpv6Tables, State.ipv6Tables, hok, and_true] at hrefs ⊢
    omega
  · exact hinv

/-- A call that keeps the books keeps the invariant. -/
theorem Inv.step (hinv : Inv net h) {call : Call I} (hkeeps : Keeps net h call) :
    Inv net (step net h call) := by
  cases call with
  | ipv4Join interface groupAddr =>
      obtain ⟨htallied, hrefs⟩ := joinMulticastGroup_counts hinv.talliedIpv4 hkeeps
      refine ⟨htallied.swap (u := ⟨h.state.ipv6Filter, _⟩) hinv.tallied.filter rfl, htallied.filter,
        fun j a => ?_, hinv.ipv6⟩
      refine Eq.trans (hrefs j a) (Eq.trans ?_ (record_succ _ _ _ _ _ _).symm)
      rw [← hinv.ipv4 j a]
      rfl
  | ipv4Leave interface groupAddr =>
      obtain ⟨htallied, hrefs⟩ :=
        leaveMulticastGroup_counts hinv.talliedIpv4 interface groupAddr
      refine ⟨htallied.swap (u := ⟨h.state.ipv6Filter, _⟩) hinv.tallied.filter rfl, htallied.filter,
        fun j a => ?_, hinv.ipv6⟩
      have hpos : (leaveMulticastGroup net ipv4Family interface groupAddr h.state.ipv4Tables).1 =
          .noError → 0 < h.ipv4Joins interface groupAddr := by
        intro herror
        have hone := hrefs interface groupAddr
        rw [if_pos ⟨⟨rfl, rfl⟩, herror⟩] at hone
        have hbefore : refs groupAddr (h.state.ipv4Tables.filter interface) = _ :=
          hinv.ipv4 interface groupAddr
        omega
      have hcount := record_pred hpos j a
      have hbefore : refs a (h.state.ipv4Tables.filter j) = _ := hinv.ipv4 j a
      rw [hrefs j a, hcount] at hbefore
      exact Nat.add_right_cancel hbefore
  | ipv6Join interface groupAddr =>
      obtain ⟨htallied, hrefs⟩ := joinMulticastGroup_counts hinv.tallied hkeeps
      refine ⟨htallied, hinv.ipv4Distinct, hinv.ipv4, fun j a => ?_⟩
      have hcount := record_succ
        (joinMulticastGroup net ipv6Family interface groupAddr h.state.ipv6Tables).1 interface
        groupAddr h.ipv6Joins j a
      have hbefore : refs a (h.state.ipv6Tables.filter j) = h.ipv6Joins j a + _ := hinv.ipv6 j a
      refine (hrefs j a).trans
        (Eq.trans ?_ (congrArg (· + addrHolders net h.state j a) hcount.symm))
      rw [hbefore]
      exact Nat.add_right_comm _ _ _
  | ipv6Leave interface groupAddr =>
      obtain ⟨htallied, hrefs⟩ := leaveMulticastGroup_counts hinv.tallied interface groupAddr
      refine ⟨htallied, hinv.ipv4Distinct, hinv.ipv4, fun j a => ?_⟩
      have hpos : (leaveMulticastGroup net ipv6Family interface groupAddr h.state.ipv6Tables).1 =
          .noError → 0 < h.ipv6Joins interface groupAddr := by
        intro herror
        have hone := hrefs interface groupAddr
        rw [if_pos ⟨⟨rfl, rfl⟩, herror⟩] at hone
        exact hkeeps (hone ▸ Nat.succ_pos _)
      have hcount := record_pred hpos j a
      have hbefore : refs a (h.state.ipv6Tables.filter j) = h.ipv6Joins j a + _ := hinv.ipv6 j a
      rw [hrefs j a, hcount, Nat.add_right_comm] at hbefore
      exact Nat.add_right_cancel hbefore
  | setAddr interface index addr state validLifetime preferredLifetime permanent now =>
      exact ipv6SetAddr_inv hinv interface index addr state validLifetime preferredLifetime
        permanent now hkeeps
  | setAnycastAddr interface index addr => exact ipv6SetAnycastAddr_inv hinv hkeeps

theorem start_inv (net : Net I) : Inv net (start I) := by
  have hfree : ∀ {A : Type} (n : ℕ) (a : A),
      ∀ e ∈ List.replicate n ({ addr := a, refCount := 0 } : RefEntry A), e.refCount = 0 :=
    fun n a e he => by rw [List.eq_of_mem_replicate he]
  refine ⟨⟨fun _ => RefTable.distinct_of_free (hfree _ _),
    fun _ => RefTable.distinct_of_free (hfree _ _), fun k m => ?_⟩, fun _ => RefTable.distinct_of_free (hfree _ _),
    fun _ g => RefTable.refs_of_free (hfree _ _) g, fun j g => ?_⟩
  · refine (RefTable.refs_of_free (hfree _ _) m).trans (Finset.sum_eq_zero fun j _ => ?_).symm
    split_ifs
    · exact congrArg₂ (· + ·) (RefTable.joined_of_free (hfree _ _) _)
        (RefTable.joined_of_free (hfree _ _) _)
    · rfl
  · refine (RefTable.refs_of_free (hfree _ _) g).trans ?_
    have hunicast : holding
        (fun j (entry : Ipv6AddrEntry) => addrGroup net j entry.addr entry.state) (start I).state.addrList j g = 0 := by
      refine Finset.card_eq_zero.2 (Finset.filter_eq_empty_iff.2 fun x _ hx => ?_)
      cases hx
    have hanycast : holding (anycastGroup net) (start I).state.anycastAddrList j g = 0 := by
      refine Finset.card_eq_zero.2 (Finset.filter_eq_empty_iff.2 fun x _ hx => ?_)
      cases hx
    rw [ipv6Holders, addrHolders, hunicast, hanycast]
    rfl

end Proofs

/-! ## Every run -/

/-- The books are balanced in every run of calls that keep them. -/
theorem balanced_run {I : Type*} [DecidableEq I] [Fintype I] (net : Net I) {calls : List (Call I)}
    (h : Along (Keeps net) (step net) (start I) calls) :
    Balanced net (run (step net) (start I) calls) :=
  (run_invariant (I := Inv net) (fun _ _ hinv hkeeps => hinv.step hkeeps) (start_inv net)
    h).balanced

/-- A physical interface, and one that runs on top of it (`true`). -/
def stacked : Net Bool :=
  { physical := fun _ => false, logicalMacAddr := fun _ => 0x020000000001
    ethernet := fun _ => true }

/-- A unicast and an anycast address share a Solicited-Node group, which is joined as well. -/
theorem balanced_run_virtual : Balanced stacked (run (step stacked) (start Bool)
    [.ipv4Join true 0xE00000FB,
      .setAddr true 0 0xFE800000000000000000000000000001 .preferred 0 0 true 0,
      .ipv6Join true 0xFF0200000000000000000001FF000001,
      .setAnycastAddr true 0 0x20010DB8000000000000000000000001,
      .ipv6Leave true 0xFF0200000000000000000001FF000001, .ipv4Leave true 0xE00000FB]) :=
  balanced_run stacked (by decide +kernel)

/-- A single interface. -/
def alone : Net Unit :=
  { physical := id, logicalMacAddr := fun _ => 0x020000000001, ethernet := fun _ => true }

/-- Eight groups fill the multicast filter, and an anycast address is assigned. -/
def crowded : List (Call Unit) :=
  (List.range 8).map
      (fun n => .ipv6Join () (0xFF050000000000000000000000001000 + BitVec.ofNat 128 n)) ++
    [.setAnycastAddr () 0 0x20010DB8000000000000000000000001]

/-- The address is stored, and its group is not joined. -/
theorem balanced_counterexample : ¬Balanced alone (run (step alone) (start Unit) crowded) := by
  intro h
  have hrefs := h.ipv6 () 0xFF0200000000000000000001FF000001
  revert hrefs
  decide +kernel

end Multicast
