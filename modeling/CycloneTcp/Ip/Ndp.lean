import CycloneTcp.Ip.Arp

set_option autoImplicit false

/-! # The Neighbor cache

The Neighbor cache of one interface as a state machine, as the ARP cache is. The messages that come
in as events are those that pass the checks of the code, each with what is read of it: the checks
themselves do not look at the cache. The `IsRouter` flag, the Destination cache and the messages that
are sent are left out.

Three things are recorded that the code does not store: the packets that have been accepted, those
that have been released and how, and for every entry the number of solicitations that have been sent
since it is in its state. Packets come from this host: those that a router forwards, whose sender is
told when resolution fails, are left out. -/

namespace Ndp

open Arp (Release timeCompare)

/-! ## Constants -/

def NDP_NEIGHBOR_CACHE_SIZE : ℕ := 8

def NDP_MAX_PENDING_PACKETS : ℕ := 2

def NDP_MAX_MULTICAST_SOLICIT : ℕ := 3

def NDP_MAX_UNICAST_SOLICIT : ℕ := 3

def NDP_REACHABLE_TIME : UInt32 := 30000

def NDP_RETRANS_TIMER : UInt32 := 1000

def NDP_DELAY_FIRST_PROBE_TIME : UInt32 := 5000

def IPV6_UNSPECIFIED_ADDR : BitVec 128 := 0

/-! ## The cache -/

/-- Neighbor cache entry states. -/
inductive NdpState where
  | none
  | incomplete
  | reachable
  | stale
  | delay
  | probe
  | permanent
  deriving DecidableEq, Repr

/-- Neighbor cache entry. `requests` counts the solicitations sent since the entry is in its state.
-/
structure NdpNeighborCacheEntry (P : Type*) where
  state : NdpState
  ipAddr : BitVec 128
  macAddr : BitVec 48
  timestamp : UInt32
  timeout : UInt32
  retransmitCount : ℕ
  queue : List P
  requests : ℕ
  deriving DecidableEq

/-- A packet that has been released. -/
structure Released (P : Type*) where
  ipAddr : BitVec 128
  packet : P
  how : Release
  deriving DecidableEq

/-- The Neighbor cache of an interface, the times that routers advertise, and the packets that have
been accepted and released so far. -/
structure NdpContext (P : Type*) where
  neighborCache : List (NdpNeighborCacheEntry P)
  reachableTime : UInt32
  retransTimer : UInt32
  accepted : List (BitVec 128 × P)
  released : List (Released P)

section Functions

variable {P : Type*}

/-- `memset(entry, 0, sizeof(NdpNeighborCacheEntry))`. -/
def emptyEntry : NdpNeighborCacheEntry P :=
  { state := .none, ipAddr := 0, macAddr := 0, timestamp := 0, timeout := 0, retransmitCount := 0
    queue := [], requests := 0 }

/-- Neighbor cache initialization. -/
def ndpInit : NdpContext P :=
  { neighborCache := List.replicate NDP_NEIGHBOR_CACHE_SIZE emptyEntry
    reachableTime := NDP_REACHABLE_TIME, retransTimer := NDP_RETRANS_TIMER, accepted := []
    released := [] }

/-- The queue is emptied. The buffers are released in the INCOMPLETE state only. -/
def releaseQueue (how : Release) (entry : NdpNeighborCacheEntry P) :
    NdpNeighborCacheEntry P × List (Released P) :=
  ({ entry with queue := [] },
    if entry.state = .incomplete then entry.queue.map fun packet => ⟨entry.ipAddr, packet, how⟩
    else [])

/-- Send packets that are waiting for address resolution. The code returns how many there are. -/
def ndpSendQueuedPackets (entry : NdpNeighborCacheEntry P) :
    NdpNeighborCacheEntry P × List (Released P) :=
  releaseQueue (.sent entry.macAddr) entry

/-- Flush packet queue. -/
def ndpFlushQueuedPackets (how : Release) (entry : NdpNeighborCacheEntry P) :
    NdpNeighborCacheEntry P × List (Released P) :=
  releaseQueue how entry

/-- Search the Neighbor cache for a given IPv6 address. -/
def ndpFindNeighborCacheEntry (entries : List (NdpNeighborCacheEntry P)) (ipAddr : BitVec 128) :
    Option ℕ :=
  entries.findIdx? fun entry => entry.state ≠ .none ∧ entry.ipAddr = ipAddr

/-- The loop of `ndpCreateNeighborCacheEntry`: the entry to use, and whether it is in use. -/
def createLoop (time : UInt32) : ℕ → UInt32 → ℕ → List (NdpNeighborCacheEntry P) → ℕ × Bool :=
  Slots.recycleLoop (fun entry => entry.state = .none) NdpNeighborCacheEntry.timestamp time

/-- Where `ndpCreateNeighborCacheEntry` creates an entry, and whether it drops the oldest one for it.
-/
def ndpCreateNeighborCacheEntry (time : UInt32) (entries : List (NdpNeighborCacheEntry P)) :
    ℕ × Bool :=
  createLoop time 0 (entries.headD emptyEntry).timestamp 0 entries

/-- `entry` takes the place that `ndpCreateNeighborCacheEntry` finds for it. -/
def createEntry (time : UInt32) (entry : NdpNeighborCacheEntry P) (s : NdpContext P) : NdpContext P :=
  let (i, inUse) := ndpCreateNeighborCacheEntry time s.neighborCache
  let dropped :=
    if inUse then (ndpFlushQueuedPackets .recycled (s.neighborCache.getD i emptyEntry)).2 else []
  { s with neighborCache := s.neighborCache.set i entry, released := s.released ++ dropped }

/-- The entry that `ndpResolve` makes, once the first solicitation has been sent. -/
def newEntry (ipAddr : BitVec 128) (retransTimer now : UInt32) : NdpNeighborCacheEntry P :=
  { (emptyEntry : NdpNeighborCacheEntry P) with
    ipAddr := ipAddr, retransmitCount := 0, queue := [], timestamp := now, timeout := retransTimer
    state := .incomplete, requests := 1 }

/-- Address resolution using Neighbor Discovery protocol. -/
def ndpResolve (ipAddr : BitVec 128) (time now : UInt32) (s : NdpContext P) :
    Except ErrorCode (BitVec 48) × NdpContext P :=
  match ndpFindNeighborCacheEntry s.neighborCache ipAddr with
  | some i =>
      let entry := s.neighborCache.getD i emptyEntry
      if entry.state = .incomplete then (.error .inProgress, s)
      else if entry.state = .stale then
        let entry' := { entry with
          timestamp := now, timeout := NDP_DELAY_FIRST_PROBE_TIME, state := .delay, requests := 0 }
        (.ok entry.macAddr, { s with neighborCache := s.neighborCache.set i entry' })
      else (.ok entry.macAddr, s)
  | none =>
      (.error .inProgress, createEntry time (newEntry ipAddr s.retransTimer now) s)

/-- Enqueue an IPv6 packet waiting for address resolution. `alloc` tells whether memory can be
allocated. -/
def ndpEnqueuePacket (ipAddr : BitVec 128) (packet : P) (alloc : Bool) (s : NdpContext P) :
    ErrorCode × NdpContext P :=
  match ndpFindNeighborCacheEntry s.neighborCache ipAddr with
  | some i =>
      let entry := s.neighborCache.getD i emptyEntry
      if entry.state = .incomplete then
        -- when the queue overflows, the new arrival should replace the oldest entry
        let (queue, dropped) :=
          if NDP_MAX_PENDING_PACKETS ≤ entry.queue.length then
            (entry.queue.drop 1, (entry.queue.take 1).map fun packet =>
              (⟨entry.ipAddr, packet, .overflowed⟩ : Released P))
          else (entry.queue, [])
        if alloc then
          (.noError, { s with
            neighborCache := s.neighborCache.set i { entry with queue := queue ++ [packet] }
            accepted := s.accepted ++ [(ipAddr, packet)]
            released := s.released ++ dropped })
        else
          (.outOfMemory, { s with
            neighborCache := s.neighborCache.set i { entry with queue := queue }
            released := s.released ++ dropped })
      else (.unexpectedState, s)
  | none => (.notFound, s)

/-- `ndpUpdateNeighborCache`, for one entry. `now` is another reading of the clock. -/
def ndpUpdateEntry (retransTimer time now : UInt32) (entry : NdpNeighborCacheEntry P) :
    NdpNeighborCacheEntry P × List (Released P) :=
  if timeCompare time (entry.timestamp + entry.timeout) ≥ 0 then
    match entry.state with
    | .incomplete =>
        let entry := { entry with retransmitCount := entry.retransmitCount + 1 }
        if entry.retransmitCount < NDP_MAX_MULTICAST_SOLICIT then
          ({ entry with
            timestamp := time, timeout := retransTimer, requests := entry.requests + 1 }, [])
        else
          let (entry, dropped) := ndpFlushQueuedPackets .failed entry
          ({ entry with state := .none, requests := 0 }, dropped)
    | .reachable => ({ entry with timestamp := now, state := .stale, requests := 0 }, [])
    | .delay =>
        -- the first unicast solicitation is sent
        ({ entry with timestamp := time, timeout := retransTimer, state := .probe, requests := 1 }, [])
    | .probe =>
        let entry := { entry with retransmitCount := entry.retransmitCount + 1 }
        if entry.retransmitCount < NDP_MAX_UNICAST_SOLICIT then
          ({ entry with
            timestamp := time, timeout := retransTimer, requests := entry.requests + 1 }, [])
        else ({ entry with state := .none, requests := 0 }, [])
    | _ => (entry, [])
  else (entry, [])

/-- Periodically update Neighbor cache. `now i` is what the clock shows when entry `i` is looked at.
-/
def ndpUpdateNeighborCache (time : UInt32) (now : ℕ → UInt32) (s : NdpContext P) : NdpContext P :=
  let results :=
    s.neighborCache.mapIdx fun i entry => ndpUpdateEntry s.retransTimer time (now i) entry
  { s with
    neighborCache := results.map Prod.fst
    released := s.released ++ results.flatMap Prod.snd }

/-- `ndpFlushNeighborCache`, for one entry. -/
def ndpFlushEntry (entry : NdpNeighborCacheEntry P) : NdpNeighborCacheEntry P × List (Released P) :=
  let (entry, dropped) := ndpFlushQueuedPackets .flushed entry
  ({ entry with state := .none, requests := 0 }, dropped)

/-- Flush Neighbor cache. -/
def ndpFlushNeighborCache (s : NdpContext P) : NdpContext P :=
  let results := s.neighborCache.map ndpFlushEntry
  { s with
    neighborCache := results.map Prod.fst
    released := s.released ++ results.flatMap Prod.snd }

/-! ## Messages -/

/-- What becomes of an entry when a link-layer address option is received for it. -/
def updateLinkLayerAddr (linkLayerAddr : BitVec 48) (now : UInt32) (entry : NdpNeighborCacheEntry P) :
    NdpNeighborCacheEntry P × List (Released P) :=
  if entry.state = .incomplete then
    let (entry, sent) := ndpSendQueuedPackets { entry with macAddr := linkLayerAddr }
    if sent.length > 0 then
      ({ entry with
        timestamp := now, timeout := NDP_DELAY_FIRST_PROBE_TIME, state := .delay, requests := 0 },
        sent)
    else ({ entry with timestamp := now, state := .stale, requests := 0 }, sent)
  -- different link-layer address than cached
  else if entry.macAddr ≠ linkLayerAddr then
    ({ entry with macAddr := linkLayerAddr, timestamp := now, state := .stale, requests := 0 }, [])
  else (entry, [])

/-- A link-layer address option is received: an entry is created or updated. -/
def recordLinkLayerAddr (ipAddr : BitVec 128) (linkLayerAddr : BitVec 48) (time now : UInt32)
    (s : NdpContext P) : NdpContext P :=
  match ndpFindNeighborCacheEntry s.neighborCache ipAddr with
  | none =>
      createEntry time { (emptyEntry : NdpNeighborCacheEntry P) with
        ipAddr := ipAddr, macAddr := linkLayerAddr, timestamp := now, state := .stale } s
  | some i =>
      let (entry, sent) := updateLinkLayerAddr linkLayerAddr now (s.neighborCache.getD i emptyEntry)
      { s with neighborCache := s.neighborCache.set i entry, released := s.released ++ sent }

/-- Router Advertisement message processing. -/
def ndpProcessRouterAdv (srcAddr : BitVec 128) (linkLayerAddrOption : Option (BitVec 48))
    (reachableTime retransTimer time now : UInt32) (s : NdpContext P) : NdpContext P :=
  let s := if reachableTime ≠ 0 then { s with reachableTime := reachableTime } else s
  let s := if retransTimer ≠ 0 then { s with retransTimer := retransTimer } else s
  match linkLayerAddrOption with
  | none => s
  | some linkLayerAddr => recordLinkLayerAddr srcAddr linkLayerAddr time now s

/-- Router Solicitation message processing. `time` is read first, and is the time of the entry. -/
def ndpProcessRouterSol (srcAddr : BitVec 128) (option : Option (BitVec 48)) (time time' : UInt32)
    (s : NdpContext P) : NdpContext P :=
  match option with
  | none => s
  | some linkLayerAddr =>
      if srcAddr = IPV6_UNSPECIFIED_ADDR then s
      else recordLinkLayerAddr srcAddr linkLayerAddr time' time s

/-- Neighbor Solicitation message processing. -/
def ndpProcessNeighborSol (srcAddr : BitVec 128) (option : Option (BitVec 48)) (time now : UInt32)
    (s : NdpContext P) : NdpContext P :=
  match option with
  | none => s
  | some linkLayerAddr =>
      if srcAddr = IPV6_UNSPECIFIED_ADDR then s
      else recordLinkLayerAddr srcAddr linkLayerAddr time now s

/-- Redirect message processing. -/
def ndpProcessRedirect (targetAddr : BitVec 128) (option : Option (BitVec 48)) (time now : UInt32)
    (s : NdpContext P) : NdpContext P :=
  match option with
  | none => s
  | some linkLayerAddr => recordLinkLayerAddr targetAddr linkLayerAddr time now s

/-- What becomes of the entry of a Neighbor Advertisement. `solicited` and `override` are its flags.
-/
def advertisedEntry (option : Option (BitVec 48)) (solicited override : Bool)
    (reachableTime now : UInt32) (entry : NdpNeighborCacheEntry P) :
    NdpNeighborCacheEntry P × List (Released P) :=
  let differentLinkLayerAddr := option.any (· ≠ entry.macAddr)
  if entry.state = .incomplete then
    match option with
    | none => (entry, [])
    | some linkLayerAddr =>
        let (entry, sent) := ndpSendQueuedPackets { entry with macAddr := linkLayerAddr }
        if solicited then
          ({ entry with
            timestamp := now, timeout := reachableTime, state := .reachable, requests := 0 }, sent)
        else if sent.length > 0 then
          ({ entry with
            timestamp := now, timeout := NDP_DELAY_FIRST_PROBE_TIME, state := .delay, requests := 0 },
            sent)
        else ({ entry with timestamp := now, state := .stale, requests := 0 }, sent)
  else if !override && differentLinkLayerAddr then
    (if entry.state = .reachable then { entry with timestamp := now, state := .stale, requests := 0 }
    else entry, [])
  else if solicited then
    ({ entry with
      macAddr := option.getD entry.macAddr
      timestamp := now, timeout := reachableTime, state := .reachable, requests := 0 }, [])
  else if differentLinkLayerAddr then
    ({ entry with
      macAddr := option.getD entry.macAddr, timestamp := now, state := .stale, requests := 0 }, [])
  else (entry, [])

/-- Neighbor Advertisement message processing. -/
def ndpProcessNeighborAdv (targetAddr : BitVec 128) (option : Option (BitVec 48))
    (solicited override : Bool) (now : UInt32) (s : NdpContext P) : NdpContext P :=
  match ndpFindNeighborCacheEntry s.neighborCache targetAddr with
  | none => s
  | some i =>
      let (entry, sent) := advertisedEntry option solicited override s.reachableTime now
        (s.neighborCache.getD i emptyEntry)
      { s with neighborCache := s.neighborCache.set i entry, released := s.released ++ sent }

/-- Callback function for link change event. -/
def ndpLinkChangeEvent (s : NdpContext P) : NdpContext P :=
  ndpFlushNeighborCache
    { s with reachableTime := NDP_REACHABLE_TIME, retransTimer := NDP_RETRANS_TIMER }

/-! ## Runs -/

inductive NdpEvent (P : Type*) where
  | resolve (ipAddr : BitVec 128) (time now : UInt32)
  | enqueue (ipAddr : BitVec 128) (packet : P) (alloc : Bool)
  | routerAdv (srcAddr : BitVec 128) (option : Option (BitVec 48))
      (reachableTime retransTimer time now : UInt32)
  | routerSol (srcAddr : BitVec 128) (option : Option (BitVec 48)) (time time' : UInt32)
  | neighborSol (srcAddr : BitVec 128) (option : Option (BitVec 48)) (time now : UInt32)
  | neighborAdv (targetAddr : BitVec 128) (option : Option (BitVec 48)) (solicited override : Bool)
      (now : UInt32)
  | redirect (targetAddr : BitVec 128) (option : Option (BitVec 48)) (time now : UInt32)
  | tick (time : UInt32) (now : ℕ → UInt32)
  | linkChange

/-- One event on the cache. -/
def step (s : NdpContext P) : NdpEvent P → NdpContext P
  | .resolve ipAddr time now => (ndpResolve ipAddr time now s).2
  | .enqueue ipAddr packet alloc => (ndpEnqueuePacket ipAddr packet alloc s).2
  | .routerAdv srcAddr option reachableTime retransTimer time now =>
      ndpProcessRouterAdv srcAddr option reachableTime retransTimer time now s
  | .routerSol srcAddr option time time' => ndpProcessRouterSol srcAddr option time time' s
  | .neighborSol srcAddr option time now => ndpProcessNeighborSol srcAddr option time now s
  | .neighborAdv targetAddr option solicited override now =>
      ndpProcessNeighborAdv targetAddr option solicited override now s
  | .redirect targetAddr option time now => ndpProcessRedirect targetAddr option time now s
  | .tick time now => ndpUpdateNeighborCache time now s
  | .linkChange => ndpLinkChangeEvent s

end Functions

end Ndp
