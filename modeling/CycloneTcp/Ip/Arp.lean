import CycloneTcp.Common.Error
import CycloneTcp.Lib.Pending
import CycloneTcp.Lib.Runs
import CycloneTcp.Lib.Serial

set_option autoImplicit false

/-! # The ARP cache

The cache of one interface as a state machine: `arpResolve`, `arpEnqueuePacket`, `arpProcessPacket`,
`arpTick` and `arpFlushCache` are its events. What the system clock shows, and whether memory can be
allocated, comes with the event.

Three things are recorded that the code does not store: the packets that have been accepted, those
that have been released and how, and for every entry the number of requests that have been sent
since it is in its state. Conflicts of addresses that are reported and replies that are sent are
left out. -/

namespace Arp

/-! ## Constants -/

def ARP_CACHE_SIZE : ℕ := 8

def ARP_MAX_PENDING_PACKETS : ℕ := 2

def ARP_MAX_REQUESTS : ℕ := 3

def ARP_REQUEST_TIMEOUT : UInt32 := 1000

def ARP_MAX_PROBES : ℕ := 2

def ARP_PROBE_TIMEOUT : UInt32 := 60000

def ARP_REACHABLE_TIME : UInt32 := 60000

def ARP_DELAY_FIRST_PROBE_TIME : UInt32 := 5000

def ARP_HARDWARE_TYPE_ETH : UInt16 := 0x0001

def ARP_PROTOCOL_TYPE_IPV4 : UInt16 := 0x0800

def ARP_OPCODE_ARP_REPLY : UInt16 := 2

/-- `sizeof(ArpPacket)`. -/
def arpPacketSize : ℕ := 28

def IPV4_UNSPECIFIED_ADDR : UInt32 := 0

def IPV4_BROADCAST_ADDR : UInt32 := 0xFFFFFFFF

def IPV4_MULTICAST_PREFIX : UInt32 := 0xE0000000

def IPV4_MULTICAST_MASK : UInt32 := 0xF0000000

def MAC_UNSPECIFIED_ADDR : BitVec 48 := 0

def MAC_BROADCAST_ADDR : BitVec 48 := 0xFFFFFFFFFFFF

/-- `timeCompare(t1, t2)`: the sign of the difference of two clock readings. -/
def timeCompare (t1 t2 : UInt32) : ℤ := Serial.cmp t1 t2

/-! ## The cache -/

/-- ARP cache entry states. -/
inductive ArpState where
  | none
  | incomplete
  | reachable
  | stale
  | delay
  | probe
  | permanent
  deriving DecidableEq, Repr

/-- ARP cache entry. `queue` is the packets waiting for address resolution to complete, the oldest
one first; `requests` counts the requests sent since the entry is in its state. -/
structure ArpCacheEntry (P : Type*) where
  state : ArpState
  ipAddr : UInt32
  macAddr : BitVec 48
  timestamp : UInt32
  timeout : UInt32
  retransmitCount : ℕ
  queue : List P
  requests : ℕ
  deriving DecidableEq

/-- What became of a packet. -/
inductive Release where
  | sent (macAddr : BitVec 48)
  | overflowed
  | failed
  | flushed
  | recycled
  deriving DecidableEq, Repr

/-- A packet that has been released. -/
structure Released (P : Type*) where
  ipAddr : UInt32
  packet : P
  how : Release
  deriving DecidableEq

/-- The cache of an interface, and the packets that have been accepted and released so far. -/
structure ArpCache (P : Type*) where
  entries : List (ArpCacheEntry P)
  accepted : List (UInt32 × P)
  released : List (Released P)

/-- ARP packet. -/
structure ArpPacket where
  hrd : UInt16
  pro : UInt16
  hln : UInt8
  pln : UInt8
  op : UInt16
  sha : BitVec 48
  spa : UInt32
  tpa : UInt32

inductive Ipv4AddrState where
  | invalid
  | tentative
  | valid
  deriving DecidableEq, Repr

/-- What ARP reads of the IPv4 context, and the address of the logical interface. -/
structure Ipv4Context where
  addr : UInt32
  addrState : Ipv4AddrState
  subnetMask : UInt32
  macAddr : BitVec 48

section Functions

variable {P : Type*}

/-- `memset(entry, 0, sizeof(ArpCacheEntry))`. -/
def emptyEntry : ArpCacheEntry P :=
  { state := .none, ipAddr := 0, macAddr := 0, timestamp := 0, timeout := 0, retransmitCount := 0
    queue := [], requests := 0 }

/-- ARP cache initialization. -/
def arpInit : ArpCache P :=
  { entries := List.replicate ARP_CACHE_SIZE emptyEntry, accepted := [], released := [] }

/-- The queue is emptied. The buffers are released in the INCOMPLETE state only. -/
def releaseQueue (how : Release) (entry : ArpCacheEntry P) : ArpCacheEntry P × List (Released P) :=
  ({ entry with queue := [] },
    if entry.state = .incomplete then entry.queue.map fun packet => ⟨entry.ipAddr, packet, how⟩
    else [])

/-- Send packets that are waiting for address resolution. -/
def arpSendQueuedPackets (entry : ArpCacheEntry P) : ArpCacheEntry P × List (Released P) :=
  releaseQueue (.sent entry.macAddr) entry

/-- Flush packet queue. -/
def arpFlushQueuedPackets (how : Release) (entry : ArpCacheEntry P) :
    ArpCacheEntry P × List (Released P) :=
  releaseQueue how entry

/-- Search the ARP cache for a given IPv4 address. -/
def arpFindEntry (entries : List (ArpCacheEntry P)) (ipAddr : UInt32) : Option ℕ :=
  entries.findIdx? fun entry => entry.state ≠ .none ∧ entry.ipAddr = ipAddr

/-- The loop of `arpCreateEntry`: the entry to use, and whether it is in use. -/
def createLoop (time : UInt32) : ℕ → UInt32 → ℕ → List (ArpCacheEntry P) → ℕ × Bool :=
  Slots.recycleLoop (fun entry => entry.state = .none) ArpCacheEntry.timestamp time

/-- Where `arpCreateEntry` creates an entry, and whether it drops the oldest one for it. -/
def arpCreateEntry (time : UInt32) (entries : List (ArpCacheEntry P)) : ℕ × Bool :=
  createLoop time 0 (entries.headD emptyEntry).timestamp 0 entries

/-- The entry that `arpResolve` makes, once the first request has been sent. -/
def newEntry (ipAddr now : UInt32) : ArpCacheEntry P :=
  { (emptyEntry : ArpCacheEntry P) with
    state := .incomplete, ipAddr := ipAddr, retransmitCount := 0, queue := [], timestamp := now
    timeout := ARP_REQUEST_TIMEOUT, requests := 1 }

/-- Address resolution using ARP protocol. `time` and `now` are two readings of the clock. -/
def arpResolve (ipAddr time now : UInt32) (s : ArpCache P) :
    Except ErrorCode (BitVec 48) × ArpCache P :=
  match arpFindEntry s.entries ipAddr with
  | some i =>
      let entry := s.entries.getD i emptyEntry
      if entry.state = .incomplete then (.error .inProgress, s)
      else if entry.state = .stale then
        let entry' := { entry with
          timestamp := now, timeout := ARP_DELAY_FIRST_PROBE_TIME, state := .delay, requests := 0 }
        (.ok entry.macAddr, { s with entries := s.entries.set i entry' })
      else (.ok entry.macAddr, s)
  | none =>
      let (i, inUse) := arpCreateEntry time s.entries
      let dropped :=
        if inUse then (arpFlushQueuedPackets .recycled (s.entries.getD i emptyEntry)).2 else []
      (.error .inProgress, { s with
        entries := s.entries.set i (newEntry ipAddr now)
        released := s.released ++ dropped })

/-- Enqueue an IPv4 packet waiting for address resolution. `alloc` tells whether memory can be
allocated. -/
def arpEnqueuePacket (ipAddr : UInt32) (packet : P) (alloc : Bool) (s : ArpCache P) :
    ErrorCode × ArpCache P :=
  match arpFindEntry s.entries ipAddr with
  | some i =>
      let entry := s.entries.getD i emptyEntry
      if entry.state = .incomplete then
        -- when the queue overflows, the new arrival should replace the oldest entry
        let (queue, dropped) :=
          if ARP_MAX_PENDING_PACKETS ≤ entry.queue.length then
            (entry.queue.drop 1, (entry.queue.take 1).map fun packet =>
              (⟨entry.ipAddr, packet, .overflowed⟩ : Released P))
          else (entry.queue, [])
        if alloc then
          (.noError, {
            entries := s.entries.set i { entry with queue := queue ++ [packet] }
            accepted := s.accepted ++ [(ipAddr, packet)]
            released := s.released ++ dropped })
        else
          (.outOfMemory, { s with
            entries := s.entries.set i { entry with queue := queue }
            released := s.released ++ dropped })
      else (.unexpectedState, s)
  | none => (.notFound, s)

/-- `arpTick`, for one entry. `now` is another reading of the clock. -/
def arpTickEntry (time now : UInt32) (entry : ArpCacheEntry P) :
    ArpCacheEntry P × List (Released P) :=
  if timeCompare time (entry.timestamp + entry.timeout) ≥ 0 then
    match entry.state with
    | .incomplete =>
        let entry := { entry with retransmitCount := entry.retransmitCount + 1 }
        if entry.retransmitCount < ARP_MAX_REQUESTS then
          ({ entry with
            timestamp := time, timeout := ARP_REQUEST_TIMEOUT, requests := entry.requests + 1 }, [])
        else
          let (entry, dropped) := arpFlushQueuedPackets .failed entry
          ({ entry with state := .none, requests := 0 }, dropped)
    | .reachable => ({ entry with timestamp := now, state := .stale, requests := 0 }, [])
    | .delay =>
        -- the first probe is sent
        ({ entry with
          timestamp := time, timeout := ARP_PROBE_TIMEOUT, state := .probe, requests := 1 }, [])
    | .probe =>
        let entry := { entry with retransmitCount := entry.retransmitCount + 1 }
        if entry.retransmitCount < ARP_MAX_PROBES then
          ({ entry with
            timestamp := time, timeout := ARP_PROBE_TIMEOUT, requests := entry.requests + 1 }, [])
        else ({ entry with state := .none, requests := 0 }, [])
    | _ => (entry, [])
  else (entry, [])

/-- ARP timer handler. `now i` is what the clock shows when entry `i` is looked at. -/
def arpTick (time : UInt32) (now : ℕ → UInt32) (s : ArpCache P) : ArpCache P :=
  let results := s.entries.mapIdx fun i entry => arpTickEntry time (now i) entry
  { s with
    entries := results.map Prod.fst
    released := s.released ++ results.flatMap Prod.snd }

/-- `arpFlushCache`, for one entry. -/
def arpFlushEntry (entry : ArpCacheEntry P) : ArpCacheEntry P × List (Released P) :=
  let (entry, dropped) := arpFlushQueuedPackets .flushed entry
  ({ entry with state := .none, requests := 0 }, dropped)

/-- Flush ARP cache. -/
def arpFlushCache (s : ArpCache P) : ArpCache P :=
  let results := s.entries.map arpFlushEntry
  { s with
    entries := results.map Prod.fst
    released := s.released ++ results.flatMap Prod.snd }

/-! ## Replies -/

def ipv4IsOnLocalSubnet (context : Ipv4Context) (ipAddr : UInt32) : Bool :=
  ipAddr &&& context.subnetMask = context.addr &&& context.subnetMask

/-- Check whether an IPv4 address is a broadcast address. -/
def ipv4IsBroadcastAddr (context : Ipv4Context) (ipAddr : UInt32) : Bool :=
  ipAddr = IPV4_BROADCAST_ADDR ∨
    ipv4IsOnLocalSubnet context ipAddr ∧ context.subnetMask ≠ IPV4_BROADCAST_ADDR ∧
      ipAddr ||| context.subnetMask = IPV4_BROADCAST_ADDR

def ipv4IsMulticastAddr (ipAddr : UInt32) : Bool :=
  ipAddr &&& IPV4_MULTICAST_MASK = IPV4_MULTICAST_PREFIX

def ipv4IsTentativeAddr (context : Ipv4Context) (ipAddr : UInt32) : Bool :=
  context.addrState = .tentative ∧ context.addr = ipAddr

/-- The group bit of the first byte. -/
def macIsMulticastAddr (macAddr : BitVec 48) : Bool := macAddr.getLsbD 40

/-- What `arpProcessReply` does with the entry of the sender. -/
def arpReplyEntry (sha : BitVec 48) (spa now : UInt32) (entry : ArpCacheEntry P) :
    ArpCacheEntry P × List (Released P) :=
  match entry.state with
  | .incomplete =>
      let (entry, sent) := arpSendQueuedPackets { entry with macAddr := sha }
      ({ entry with
        timestamp := now, timeout := ARP_REACHABLE_TIME, state := .reachable, requests := 0 }, sent)
  | .reachable =>
      -- different link-layer address than cached
      (if sha ≠ entry.macAddr then { entry with state := .stale, requests := 0 } else entry, [])
  | .probe =>
      ({ entry with
        ipAddr := spa, macAddr := sha, timestamp := now, timeout := ARP_REACHABLE_TIME
        state := .reachable, requests := 0 }, [])
  | _ => (entry, [])

/-- Incoming ARP reply processing. -/
def arpProcessReply (context : Ipv4Context) (arpReply : ArpPacket) (now : UInt32) (s : ArpCache P) :
    ArpCache P :=
  if arpReply.spa = IPV4_UNSPECIFIED_ADDR ∨ ipv4IsBroadcastAddr context arpReply.spa ∨
      ipv4IsMulticastAddr arpReply.spa ∨ arpReply.sha = MAC_UNSPECIFIED_ADDR ∨
      arpReply.sha = MAC_BROADCAST_ADDR ∨ macIsMulticastAddr arpReply.sha ∨
      ipv4IsTentativeAddr context arpReply.tpa then s
  else
    match arpFindEntry s.entries arpReply.spa with
    | none => s
    | some i =>
        let (entry, sent) :=
          arpReplyEntry arpReply.sha arpReply.spa now (s.entries.getD i emptyEntry)
        { s with entries := s.entries.set i entry, released := s.released ++ sent }

/-- Incoming ARP packet processing. -/
def arpProcessPacket (context : Ipv4Context) (arpPacket : ArpPacket) (length : ℕ) (now : UInt32)
    (s : ArpCache P) : ArpCache P :=
  if length < arpPacketSize then s
  else if arpPacket.hrd ≠ ARP_HARDWARE_TYPE_ETH ∨ arpPacket.pro ≠ ARP_PROTOCOL_TYPE_IPV4 ∨
      arpPacket.hln ≠ 6 ∨ arpPacket.pln ≠ 4 then s
  -- an address conflict
  else if context.addrState = .tentative ∧ arpPacket.spa = context.addr then s
  else if context.addrState = .valid ∧ arpPacket.spa = context.addr ∧
      arpPacket.sha ≠ context.macAddr then s
  else if arpPacket.tpa ≠ context.addr then s
  else if arpPacket.op = ARP_OPCODE_ARP_REPLY then arpProcessReply context arpPacket now s
  else s

/-! ## Runs -/

inductive ArpEvent (P : Type*) where
  | resolve (ipAddr time now : UInt32)
  | enqueue (ipAddr : UInt32) (packet : P) (alloc : Bool)
  | packet (context : Ipv4Context) (arpPacket : ArpPacket) (length : ℕ) (now : UInt32)
  | tick (time : UInt32) (now : ℕ → UInt32)
  | flush

/-- One event on the cache. -/
def step (s : ArpCache P) : ArpEvent P → ArpCache P
  | .resolve ipAddr time now => (arpResolve ipAddr time now s).2
  | .enqueue ipAddr packet alloc => (arpEnqueuePacket ipAddr packet alloc s).2
  | .packet context arpPacket length now => arpProcessPacket context arpPacket length now s
  | .tick time now => arpTick time now s
  | .flush => arpFlushCache s

end Functions

end Arp
