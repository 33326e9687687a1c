import CycloneTcp.Ip.Ipv6Addr
import CycloneTcp.Ip.Multicast
import CycloneTcp.Lib.Serial

set_option autoImplicit false

/-! # Reporting groups

What an interface tells the routers about the groups it has joined, with IGMP over IPv4 and with MLD
over IPv6. The two protocols have the same states, timers and rules; `Protocol` says what differs.
An entry that is in use is never in the Non-Member state, which its type says. A message for which
there is no memory counts as lost on its way. -/

namespace GroupReports

open Ipv6 (Ipv6Addr ipv6IsMulticastAddr ipv6IsLinkLocalUnicastAddr IPV6_UNSPECIFIED_ADDR)
open Multicast (Ipv4Addr ipv4IsMulticastAddr)

/-! ## Entries and messages -/

/-- `IgmpState` and `MldState`. -/
inductive HostState
  | nonMember
  | delayingMember
  | idleMember
  deriving DecidableEq

/-- `Ipv4FilterEntry` and `Ipv6FilterEntry`. The entry is in use if `refCount` is not zero. -/
structure FilterEntry (A : Type*) extends RefEntry A where
  state : HostState
  flag : Bool
  timer : UInt32
  member : refCount ≠ 0 → state ≠ .nonMember
  deriving DecidableEq

/-- A message that is sent: a report, of version 1 or not, or a Leave Group or Done message. -/
inductive Sent (A : Type*)
  | report (version1 : Bool) (groupAddr : A)
  | leave (groupAddr : A)
  deriving DecidableEq

/-- What a query asks for: groups, and the time in milliseconds within which to answer. -/
structure Query (A : Type*) where
  version1 : Bool
  groupAddr : A
  maxRespTime : UInt32
  short : maxRespTime.toNat < 2 ^ 20

/-- What a protocol with messages `M` says about addresses and messages. Only IGMP has a mode of
compatibility with routers of version 1. -/
structure Protocol (A M : Type*) where
  isMulticastAddr : A → Bool
  unspecifiedAddr : A
  allNodesAddr : A
  unsolicitedReportInterval : UInt32
  compatibility : Bool
  queried : M → Option (Query A)
  reported : M → Option A

structure NetInterface (A : Type*) where
  linkState : Bool
  igmpv1RouterPresent : Bool
  igmpv1RouterPresentTimer : UInt32
  multicastFilter : List (FilterEntry A)
  deriving DecidableEq

def IGMP_V1_ROUTER_PRESENT_TIMEOUT : UInt32 := 400000

/-- `timeCompare`. -/
abbrev timeCompare (t1 t2 : UInt32) : ℤ := Serial.cmp t1 t2

section Functions

variable {A M G : Type*} [DecidableEq A]

/-! ## Sending -/

/-- `igmpSendReportMessage` and `mldSendListenerReport`. -/
def sendReport (p : Protocol A M) (igmpv1RouterPresent : Bool) (ipAddr : A) : List (Sent A) :=
  if !p.isMulticastAddr ipAddr then []
  else if ipAddr = p.allNodesAddr then []
  else [.report (p.compatibility && igmpv1RouterPresent) ipAddr]

/-- `igmpSendLeaveGroupMessage` and `mldSendListenerDone`. -/
def sendLeave (p : Protocol A M) (igmpv1RouterPresent : Bool) (ipAddr : A) : List (Sent A) :=
  if !p.isMulticastAddr ipAddr then []
  else if ipAddr = p.allNodesAddr then []
  -- the querier is running IGMPv1
  else if p.compatibility && igmpv1RouterPresent then []
  else [.leave ipAddr]

/-! ## Joining and leaving -/

/-- `igmpJoinGroup` and `mldStartListening`, for a free entry that has just got its address and one
reference. -/
def joinGroup (p : Protocol A M) (interface : NetInterface A) (time : UInt32) (groupAddr : A)
    (entry : FilterEntry A) : FilterEntry A × List (Sent A) :=
  if groupAddr = p.allNodesAddr then
    ({ entry with
      addr := groupAddr, refCount := 1, flag := false, state := .idleMember
      member := fun _ => by decide }, [])
  else if interface.linkState then
    ({ entry with
      addr := groupAddr, refCount := 1, flag := true
      timer := time + p.unsolicitedReportInterval, state := .delayingMember
      member := fun _ => by decide }, sendReport p interface.igmpv1RouterPresent groupAddr)
  else
    ({ entry with
      addr := groupAddr, refCount := 1, flag := false, state := .idleMember
      member := fun _ => by decide }, [])

/-- `igmpLeaveGroup` and `mldStopListening`, for an entry without references, that gets free. -/
def leaveGroup (p : Protocol A M) (interface : NetInterface A) (entry : FilterEntry A) :
    FilterEntry A × List (Sent A) :=
  ({ entry with
      addr := p.unspecifiedAddr, refCount := 0, state := .nonMember
      member := fun h => absurd rfl h },
    if interface.linkState then
      if entry.flag then sendLeave p interface.igmpv1RouterPresent entry.addr else []
    else [])

/-- The entry of a group. -/
def find (groupAddr : A) (filter : List (FilterEntry A)) : Option ℕ :=
  filter.findIdx? fun e => 0 < e.refCount ∧ e.addr = groupAddr

/-- The reference count of an entry in use becomes `n`. -/
def FilterEntry.recount (e : FilterEntry A) (n : ℕ) : FilterEntry A :=
  if h : e.refCount = 0 then e else { e with refCount := n, member := fun _ => e.member h }

/-- `ipv4JoinMulticastGroup` and `ipv6JoinMulticastGroup`: the reports. `accepted` says whether the
MAC filters have room for the address. -/
def joinMulticastGroup (p : Protocol A M) (interface : NetInterface A) (groupAddr : A)
    (accepted : Bool) (time : UInt32) : NetInterface A × List (Sent A) :=
  if !p.isMulticastAddr groupAddr then (interface, [])
  else
    match find groupAddr interface.multicastFilter with
    | some i =>
        match interface.multicastFilter[i]? with
        | none => (interface, [])
        | some entry =>
            ({ interface with
              multicastFilter :=
                interface.multicastFilter.set i (entry.recount ((entry.refCount + 1) % 2 ^ 32)) },
              [])
    | none =>
        match interface.multicastFilter.findIdx? fun e => e.refCount = 0 with
        | none => (interface, [])
        | some i =>
            match interface.multicastFilter[i]? with
            | none => (interface, [])
            | some entry =>
                if accepted then
                  let (entry, sent) := joinGroup p interface time groupAddr entry
                  ({ interface with
                    multicastFilter := interface.multicastFilter.set i entry }, sent)
                else (interface, [])

/-- `ipv4LeaveMulticastGroup` and `ipv6LeaveMulticastGroup`: the reports. -/
def leaveMulticastGroup (p : Protocol A M) (interface : NetInterface A) (groupAddr : A) :
    NetInterface A × List (Sent A) :=
  if !p.isMulticastAddr groupAddr then (interface, [])
  else
    match find groupAddr interface.multicastFilter with
    | none => (interface, [])
    | some i =>
        match interface.multicastFilter[i]? with
        | none => (interface, [])
        | some entry =>
            -- the reference count drops to zero
            if entry.refCount - 1 = 0 then
              let (entry, sent) := leaveGroup p interface entry
              ({ interface with
                multicastFilter := interface.multicastFilter.set i entry }, sent)
            else
              ({ interface with
                multicastFilter :=
                  interface.multicastFilter.set i (entry.recount (entry.refCount - 1)) }, [])

/-! ## Timers and the link -/

/-- One entry, when the timers are checked. -/
def tickEntry (p : Protocol A M) (igmpv1RouterPresent : Bool) (time : UInt32)
    (entry : FilterEntry A) : FilterEntry A × List (Sent A) :=
  if entry.refCount > 0 then
    if entry.state = .delayingMember then
      if timeCompare time entry.timer ≥ 0 then
        ({ entry with flag := true, state := .idleMember, member := fun _ => by decide },
          sendReport p igmpv1RouterPresent entry.addr)
      else (entry, [])
    else (entry, [])
  else (entry, [])

/-- Every entry is replaced, and the messages of the entries are sent in the order of the table. -/
def forEach (f : FilterEntry A → FilterEntry A × List (Sent A)) (interface : NetInterface A) :
    NetInterface A × List (Sent A) :=
  ({ interface with multicastFilter := interface.multicastFilter.map fun e => (f e).1 },
    interface.multicastFilter.flatMap fun e => (f e).2)

/-- `igmpTick` and `mldTick`. -/
def tick (p : Protocol A M) (interface : NetInterface A) (time : UInt32) :
    NetInterface A × List (Sent A) :=
  let interface :=
    if p.compatibility ∧ timeCompare time interface.igmpv1RouterPresentTimer ≥ 0 then
      { interface with igmpv1RouterPresent := false }
    else interface
  forEach (tickEntry p interface.igmpv1RouterPresent time) interface

/-- One entry, when the link comes up. -/
def linkUpEntry (p : Protocol A M) (igmpv1RouterPresent : Bool) (time : UInt32)
    (entry : FilterEntry A) : FilterEntry A × List (Sent A) :=
  if entry.refCount > 0 then
    if entry.addr ≠ p.allNodesAddr then
      ({ entry with
        flag := true, timer := time + p.unsolicitedReportInterval, state := .delayingMember
        member := fun _ => by decide }, sendReport p igmpv1RouterPresent entry.addr)
    else (entry, [])
  else (entry, [])

/-- One entry, when the link goes down. -/
def linkDownEntry (entry : FilterEntry A) : FilterEntry A × List (Sent A) :=
  if entry.refCount > 0 then
    ({ entry with flag := false, state := .idleMember, member := fun _ => by decide }, [])
  else (entry, [])

/-- `igmpLinkChangeEvent` and `mldLinkChangeEvent`, when the link has got the state `up`. -/
def linkChangeEvent (p : Protocol A M) (interface : NetInterface A) (up : Bool) (time : UInt32) :
    NetInterface A × List (Sent A) :=
  let interface := { interface with linkState := up }
  if up then
    let interface :=
      if p.compatibility then
        { interface with
          igmpv1RouterPresent := false
          igmpv1RouterPresentTimer := time + IGMP_V1_ROUTER_PRESENT_TIMEOUT }
      else interface
    forEach (linkUpEntry p interface.igmpv1RouterPresent time) interface
  else forEach linkDownEntry interface

/-! ## Queries and reports -/

/-- `igmpRand` and `mldRand`. `netGetRand` draws the next number. -/
def rand (netGetRand : G → UInt32 × G) (max : UInt32) (g : G) : UInt32 × G :=
  ((netGetRand g).1 % (max + 1), (netGetRand g).2)

/-- The entry is left with its report due after a random amount of time. -/
def restart (netGetRand : G → UInt32 × G) (maxRespTime time : UInt32) (entry : FilterEntry A)
    (g : G) : FilterEntry A × G :=
  let (delay, g) := rand netGetRand maxRespTime g
  ({ entry with
    timer := time + delay, state := .delayingMember, member := fun _ => by decide }, g)

/-- One entry, when a query has been received. -/
def queryEntry (p : Protocol A M) (netGetRand : G → UInt32 × G) (q : Query A) (time : UInt32)
    (entry : FilterEntry A) (g : G) : FilterEntry A × G :=
  if entry.refCount > 0 then
    if entry.addr ≠ p.allNodesAddr then
      if q.groupAddr = p.unspecifiedAddr ∨ q.groupAddr = entry.addr then
        match entry.state with
        | .delayingMember =>
            if timeCompare time entry.timer < 0 then
              -- only if the maximum is less than the remaining value of the running timer
              if q.maxRespTime < entry.timer - time then
                restart netGetRand q.maxRespTime time entry g
              else (entry, g)
            else (entry, g)
        | .idleMember => restart netGetRand q.maxRespTime time entry g
        | .nonMember => (entry, g)
      else (entry, g)
    else (entry, g)
  else (entry, g)

/-- The loop over the table. -/
def queryLoop (p : Protocol A M) (netGetRand : G → UInt32 × G) (q : Query A) (time : UInt32) :
    List (FilterEntry A) → G → List (FilterEntry A) × G
  | [], g => ([], g)
  | entry :: filter, g =>
      let (entry, g) := queryEntry p netGetRand q time entry g
      let (filter, g) := queryLoop p netGetRand q time filter g
      (entry :: filter, g)

/-- `igmpProcessQueryMessage` and `mldProcessListenerQuery`. -/
def processQuery (p : Protocol A M) (netGetRand : G → UInt32 × G) (interface : NetInterface A)
    (message : M) (time : UInt32) (g : G) : NetInterface A × G :=
  match p.queried message with
  | none => (interface, g)
  | some q =>
      let interface :=
        if q.version1 then
          { interface with
            igmpv1RouterPresent := true
            igmpv1RouterPresentTimer := time + IGMP_V1_ROUTER_PRESENT_TIMEOUT }
        else interface
      let (filter, g) := queryLoop p netGetRand q time interface.multicastFilter g
      ({ interface with multicastFilter := filter }, g)

/-- One entry, when a report for a group has been received. -/
def reportEntry (groupAddr : A) (entry : FilterEntry A) : FilterEntry A × List (Sent A) :=
  if entry.refCount > 0 then
    if entry.state = .delayingMember then
      if groupAddr = entry.addr then
        ({ entry with flag := false, state := .idleMember, member := fun _ => by decide }, [])
      else (entry, [])
    else (entry, [])
  else (entry, [])

/-- `igmpProcessReportMessage` and `mldProcessListenerReport`. -/
def processReport (p : Protocol A M) (interface : NetInterface A) (message : M) :
    NetInterface A :=
  match p.reported message with
  | none => interface
  | some groupAddr => (forEach (reportEntry groupAddr) interface).1

end Functions

/-! ## IGMP -/

def IGMP_ALL_SYSTEMS_ADDR : Ipv4Addr := 0xE0000001

def IGMP_UNSOLICITED_REPORT_INTERVAL : UInt32 := 10000

def IGMP_V1_MAX_RESPONSE_TIME : UInt32 := 10000

/-- `maxRespTime` and `groupAddr` of a message. -/
structure IgmpMessage where
  maxRespTime : UInt8
  groupAddr : Ipv4Addr
  deriving DecidableEq

/-- A Max Resp Time of 0 is an IGMPv1 query. -/
def igmpQuery (message : IgmpMessage) : Query Ipv4Addr :=
  if message.maxRespTime = 0 then
    { version1 := true, groupAddr := message.groupAddr, maxRespTime := IGMP_V1_MAX_RESPONSE_TIME
      short := by decide }
  else
    { version1 := false, groupAddr := message.groupAddr
      maxRespTime := message.maxRespTime.toUInt32 * 10
      short := by
        have hlt := message.maxRespTime.toNat_lt
        rw [UInt32.toNat_mul, UInt8.toNat_toUInt32]
        exact Nat.lt_of_le_of_lt (Nat.mod_le _ _) (by show _ * 10 < _; omega) }

def igmp : Protocol Ipv4Addr IgmpMessage :=
  { isMulticastAddr := ipv4IsMulticastAddr, unspecifiedAddr := 0
    allNodesAddr := IGMP_ALL_SYSTEMS_ADDR
    unsolicitedReportInterval := IGMP_UNSOLICITED_REPORT_INTERVAL, compatibility := true
    queried := fun message => some (igmpQuery message)
    reported := fun message => some message.groupAddr }

section Igmp

variable {G : Type*}

def igmpJoinGroup := joinGroup igmp

def igmpLeaveGroup := leaveGroup igmp

def igmpTick := tick igmp

def igmpLinkChangeEvent := linkChangeEvent igmp

def igmpProcessQueryMessage (netGetRand : G → UInt32 × G) := processQuery igmp netGetRand

def igmpProcessReportMessage := processReport igmp

end Igmp

/-! ## MLD -/

def IPV6_LINK_LOCAL_ALL_NODES_ADDR : Ipv6Addr := 0xFF020000000000000000000000000001

def MLD_UNSOLICITED_REPORT_INTERVAL : UInt32 := 10000

def MLD_HOP_LIMIT : UInt8 := 1

/-- `sizeof(MldMessage)`. -/
def MLD_MESSAGE_SIZE : ℕ := 24

/-- `maxRespDelay` and `multicastAddr` of a message. The delay is the number that a little-endian
processor reads from the two octets. -/
structure MldMessage where
  maxRespDelay : UInt16
  multicastAddr : Ipv6Addr
  deriving DecidableEq

/-- What is checked of a message that has been received: how long it is, the message itself unless
the buffer is too short for it, and the source address and the Hop Limit of the packet. -/
structure MldPacket where
  length : ℕ
  message : Option MldMessage
  srcAddr : Ipv6Addr
  hopLimit : UInt8
  deriving DecidableEq

/-- The checks of `mldProcessListenerQuery` and `mldProcessListenerReport`. -/
def mldCheck (packet : MldPacket) : Option MldMessage :=
  if packet.length < MLD_MESSAGE_SIZE then none
  else
    match packet.message with
    | none => none
    | some message =>
        if !ipv6IsLinkLocalUnicastAddr packet.srcAddr then none
        else if packet.hopLimit ≠ MLD_HOP_LIMIT then none
        else some message

def mldQuery (message : MldMessage) : Query Ipv6Addr :=
  { version1 := false, groupAddr := message.multicastAddr
    maxRespTime := message.maxRespDelay.toUInt32 * 10
    short := by
      have hlt := message.maxRespDelay.toNat_lt
      rw [UInt32.toNat_mul, UInt16.toNat_toUInt32]
      exact Nat.lt_of_le_of_lt (Nat.mod_le _ _) (by show _ * 10 < _; omega) }

def mld : Protocol Ipv6Addr MldPacket :=
  { isMulticastAddr := ipv6IsMulticastAddr, unspecifiedAddr := IPV6_UNSPECIFIED_ADDR
    allNodesAddr := IPV6_LINK_LOCAL_ALL_NODES_ADDR
    unsolicitedReportInterval := MLD_UNSOLICITED_REPORT_INTERVAL, compatibility := false
    queried := fun packet => (mldCheck packet).map mldQuery
    reported := fun packet => (mldCheck packet).map MldMessage.multicastAddr }

section Mld

variable {G : Type*}

def mldStartListening := joinGroup mld

def mldStopListening := leaveGroup mld

def mldTick := tick mld

def mldLinkChangeEvent := linkChangeEvent mld

def mldProcessListenerQuery (netGetRand : G → UInt32 × G) := processQuery mld netGetRand

def mldProcessListenerReport := processReport mld

end Mld

/-! ## Answering queries -/

section Queries

variable {A M G : Type*} [DecidableEq A] {p : Protocol A M} {netGetRand : G → UInt32 × G}
variable {q : Query A} {time : UInt32} {g : G}

/-- The query addresses the entry, and the group is not that of all nodes. -/
def Addressed (p : Protocol A M) (groupAddr : A) (e : FilterEntry A) : Prop :=
  0 < e.refCount ∧ e.addr ≠ p.allNodesAddr ∧
    (groupAddr = p.unspecifiedAddr ∨ groupAddr = e.addr)

instance (groupAddr : A) (e : FilterEntry A) : Decidable (Addressed p groupAddr e) :=
  inferInstanceAs (Decidable (_ ∧ _ ∧ _))

/-- What a query for a group does to an entry: the report of a group that is addressed is pending,
and if it was pending before then it is not postponed. -/
structure Answered (p : Protocol A M) (groupAddr : A) (time : UInt32) (e e' : FilterEntry A) :
    Prop where
  group : e'.addr = e.addr ∧ e'.refCount = e.refCount ∧ e'.flag = e.flag
  pending : Addressed p groupAddr e → e'.state = .delayingMember
  sooner : e.state = .delayingMember → e'.timer = e.timer ∨
    (timeCompare time e.timer < 0 ∧ e'.timer - time < e.timer - time)
  others : ¬ Addressed p groupAddr e → e' = e

/-- The report of the entry is due within `d` milliseconds. -/
def DueWithin (time : UInt32) (d : ℕ) (e : FilterEntry A) : Prop :=
  timeCompare e.timer time ≤ d

theorem rand_le (netGetRand : G → UInt32 × G) {max : UInt32} (hshort : max.toNat < 2 ^ 20)
    (g : G) : (rand netGetRand max g).1.toNat ≤ max.toNat := by
  have hsucc : (max + 1).toNat = max.toNat + 1 := by
    rw [UInt32.toNat_add]
    exact Nat.mod_eq_of_lt (by show _ + 1 < _; omega)
  rw [rand, UInt32.toNat_mod, hsucc]
  exact Nat.le_of_lt_succ (Nat.mod_lt _ (Nat.succ_pos _))

/-- A distance of less than half a turn ahead, as a signed number. -/
theorem timeCompare_ahead {t : UInt32} {d : ℕ} (h : (t - time).toNat ≤ d) :
    timeCompare t time ≤ d := by
  rw [timeCompare, Serial.cmp, BitVec.toInt_eq_toNat_cond, UInt32.toNat_toBitVec]
  split <;> omega

theorem timeCompare_past {t : UInt32} (h : 0 ≤ timeCompare time t) : timeCompare t time ≤ 0 := by
  have hlt := (Serial.cmp_nonneg time t).1 h
  have ht := t.toNat_lt
  have htime := time.toNat_lt
  rw [UInt32.toNat_sub] at hlt
  rw [timeCompare, Serial.cmp, BitVec.toInt_eq_toNat_cond, UInt32.toNat_toBitVec, UInt32.toNat_sub]
  split <;> omega

omit [DecidableEq A] in
/-- The entry's report becomes due in `delay` milliseconds, not more than the query allows. -/
theorem restart_eq (netGetRand : G → UInt32 × G) (q : Query A) (time : UInt32)
    (e : FilterEntry A) (g : G) : ∃ delay : UInt32, delay.toNat ≤ q.maxRespTime.toNat ∧
      (restart netGetRand q.maxRespTime time e g).1 =
        { e with timer := time + delay, state := .delayingMember, member := fun _ => by decide } :=
  ⟨_, rand_le netGetRand q.short g, rfl⟩

theorem add_sub_left (time delay : UInt32) : time + delay - time = delay := by
  rw [UInt32.add_comm, UInt32.add_sub_cancel]

/-- One entry: it is not addressed, or its report is due in time already, or the timer restarts. -/
theorem queryEntry_cases (p : Protocol A M) (netGetRand : G → UInt32 × G) (q : Query A)
    (time : UInt32) (e : FilterEntry A) (g : G) :
    (¬ Addressed p q.groupAddr e ∧ (queryEntry p netGetRand q time e g).1 = e) ∨
    (Addressed p q.groupAddr e ∧ e.state = .delayingMember ∧
      (0 ≤ timeCompare time e.timer ∨ (e.timer - time).toNat ≤ q.maxRespTime.toNat) ∧
      (queryEntry p netGetRand q time e g).1 = e) ∨
    (Addressed p q.groupAddr e ∧
      (e.state = .delayingMember → timeCompare time e.timer < 0 ∧
        q.maxRespTime.toNat < (e.timer - time).toNat) ∧
      (queryEntry p netGetRand q time e g).1 = (restart netGetRand q.maxRespTime time e g).1) := by
  by_cases haddressed : Addressed p q.groupAddr e
  · obtain ⟨hpos, hall, hgroup⟩ := id haddressed
    rw [queryEntry, if_pos hpos, if_pos hall, if_pos hgroup]
    cases hstate : e.state with
    | nonMember => exact absurd hstate (e.member (Nat.pos_iff_ne_zero.1 hpos))
    | idleMember => exact Or.inr (Or.inr ⟨haddressed, nofun, rfl⟩)
    | delayingMember =>
        by_cases hrunning : timeCompare time e.timer < 0
        · rw [if_pos hrunning]
          by_cases hless : q.maxRespTime < e.timer - time
          · rw [if_pos hless]
            exact Or.inr (Or.inr ⟨haddressed, fun _ => ⟨hrunning, hless⟩, rfl⟩)
          · rw [if_neg hless]
            exact Or.inr (Or.inl ⟨haddressed, rfl, Or.inr (Nat.le_of_not_lt hless), rfl⟩)
        · rw [if_neg hrunning]
          exact Or.inr (Or.inl ⟨haddressed, rfl, Or.inl (not_lt.1 hrunning), rfl⟩)
  · refine Or.inl ⟨haddressed, ?_⟩
    rw [queryEntry]
    by_cases hpos : 0 < e.refCount
    · rw [if_pos hpos]
      by_cases hall : e.addr ≠ p.allNodesAddr
      · rw [if_pos hall, if_neg fun hgroup => haddressed ⟨hpos, hall, hgroup⟩]
      · rw [if_neg hall]
    · rw [if_neg hpos]

theorem queryEntry_answered (p : Protocol A M) (netGetRand : G → UInt32 × G) (q : Query A)
    (time : UInt32) (e : FilterEntry A) (g : G) :
    Answered p q.groupAddr time e (queryEntry p netGetRand q time e g).1 ∧
      (Addressed p q.groupAddr e →
        DueWithin time q.maxRespTime.toNat (queryEntry p netGetRand q time e g).1) := by
  rcases queryEntry_cases p netGetRand q time e g with
    ⟨hnot, heq⟩ | ⟨haddressed, hstate, hdue, heq⟩ | ⟨haddressed, hlate, heq⟩
  · rw [heq]
    exact ⟨⟨⟨rfl, rfl, rfl⟩, fun h => absurd h hnot, fun _ => Or.inl rfl, fun _ => rfl⟩,
      fun h => absurd h hnot⟩
  · rw [heq]
    refine ⟨⟨⟨rfl, rfl, rfl⟩, fun _ => hstate, fun _ => Or.inl rfl, fun _ => rfl⟩, fun _ => ?_⟩
    rcases hdue with hpast | hahead
    · exact le_trans (timeCompare_past hpast) (Int.natCast_nonneg _)
    · exact timeCompare_ahead hahead
  · obtain ⟨delay, hdelay, hrestart⟩ := restart_eq netGetRand q time e g
    rw [heq, hrestart]
    refine ⟨⟨⟨rfl, rfl, rfl⟩, fun _ => rfl, fun hstate => Or.inr ?_, fun h => absurd haddressed h⟩,
      fun _ => ?_⟩
    · obtain ⟨hrunning, hless⟩ := hlate hstate
      refine ⟨hrunning, ?_⟩
      show (time + delay - time).toNat < (e.timer - time).toNat
      rw [add_sub_left]
      exact Nat.lt_of_le_of_lt hdelay hless
    · refine timeCompare_ahead (?_ : (time + delay - time).toNat ≤ _)
      rwa [add_sub_left]

theorem queryLoop_answered (p : Protocol A M) (netGetRand : G → UInt32 × G) (q : Query A)
    (time : UInt32) (filter : List (FilterEntry A)) (g : G) :
    List.Forall₂ (fun e e' => Answered p q.groupAddr time e e' ∧
      (Addressed p q.groupAddr e → DueWithin time q.maxRespTime.toNat e'))
      filter (queryLoop p netGetRand q time filter g).1 := by
  induction filter generalizing g with
  | nil => exact List.Forall₂.nil
  | cons e filter ih =>
      exact List.Forall₂.cons (queryEntry_answered p netGetRand q time e g) (ih _)

/-- The table after a message that is a query. -/
theorem processQuery_filter {message : M} (hq : p.queried message = some q)
    (interface : NetInterface A) :
    (processQuery p netGetRand interface message time g).1.multicastFilter =
      (queryLoop p netGetRand q time interface.multicastFilter g).1 := by
  rw [processQuery, hq]
  by_cases hversion : q.version1 = true
  · simp only [hversion, if_true]
  · simp only [hversion, if_false, Bool.false_eq_true]

end Queries

end GroupReports
