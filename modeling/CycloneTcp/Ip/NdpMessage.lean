import CycloneTcp.Lib.Reading
import CycloneTcp.Ip.DestCache
import CycloneTcp.Ip.Ndp
import CycloneTcp.Ip.Slaac

set_option autoImplicit false

/-! # Neighbor Discovery messages in memory

Router Advertisements, Neighbor Solicitations, Neighbor Advertisements and Redirects as they are
read from the memory that holds them, and what they do to the interface. A message starts at offset
0. The Neighbor cache, the Destination cache with the routers, and the address list are those of
their own modules; the other fields that the messages write are added here. The user callback of
SLAAC and the traces are left out. -/

namespace NdpMessage

open Reads (byte number stuck)
open Ipv6 (Ipv6Addr IPV6_UNSPECIFIED_ADDR IPV6_ADDR_LIST_SIZE IPV6_LINK_LOCAL_ADDR_PREFIX
  NdpPrefixInfoOption ipv6CompPrefix ipv6IsMulticastAddr ipv6IsLinkLocalUnicastAddr checkLifetime)

/-! ## Constants -/

def NDP_HOP_LIMIT : UInt8 := 255

def NDP_OPT_SOURCE_LINK_LAYER_ADDR : UInt8 := 1

def NDP_OPT_TARGET_LINK_LAYER_ADDR : UInt8 := 2

def NDP_OPT_PREFIX_INFORMATION : UInt8 := 3

def NDP_OPT_MTU : UInt8 := 5

def NDP_OPT_RECURSIVE_DNS_SERVER : UInt8 := 25

def NDP_OPT_ANY : UInt8 := 255

def IPV6_DNS_SERVER_LIST_SIZE : ℕ := 2

def IPV6_DEFAULT_MTU : ℕ := 1280

/-- `sizeof(NdpOption)`. -/
def sizeofNdpOption : ℕ := 2

/-- `sizeof(NdpRouterAdvMessage)`. -/
def sizeofNdpRouterAdvMessage : ℕ := 16

/-- `sizeof(NdpNeighborSolMessage)`. -/
def sizeofNdpNeighborSolMessage : ℕ := 24

/-- `sizeof(NdpNeighborAdvMessage)`. -/
def sizeofNdpNeighborAdvMessage : ℕ := 24

/-- `sizeof(NdpRedirectMessage)`. -/
def sizeofNdpRedirectMessage : ℕ := 40

/-- `ipv6IsSolicitedNodeAddr`. -/
def ipv6IsSolicitedNodeAddr (ipAddr : Ipv6Addr) : Bool :=
  ipv6CompPrefix ipAddr 0xFF0200000000000000000001FF000000 104

/-! ## The interface -/

structure Ipv6PrefixEntry where
  addrPrefix : Ipv6Addr
  prefixLen : ℕ
  onLinkFlag : Bool
  autonomousFlag : Bool
  validLifetime : UInt32
  preferredLifetime : UInt32
  permanent : Bool
  timestamp : UInt32
  deriving DecidableEq

/-- What the messages depend on and change. `isRouter` is the `IsRouter` flag of each entry of the
Neighbor cache, and `mtu` that of the driver of the physical interface. -/
structure NetInterface (P : Type) where
  ndp : Ndp.NdpContext P
  isRouter : List Bool
  dest : DestCache.NetInterface
  addr : Ipv6.NetInterface
  anycastAddrList : List Ipv6Addr
  prefixList : List Ipv6PrefixEntry
  dnsServerList : List Ipv6Addr
  manualDnsConfig : Bool
  curHopLimit : UInt8
  rtrSolicitationCount : ℕ
  rtrAdvReceived : Bool
  sixLowpan : Bool
  mtu : ℕ

/-- What is read of the rest of the system: the clock, and for each Prefix Information option what
SLAAC meets. -/
structure Env where
  time : UInt32
  now : UInt32
  slaac : ℕ → UInt32 × UInt32 × ErrorCode

/-- What a message leaves behind: the interface, with the packets that waited in the Neighbor cache
and are released, the target and the destination of an advertisement that is sent, and the options
that are used, each as its offset and its size. -/
structure Outcome (P : Type) where
  interface : NetInterface P
  advertised : Option (Ipv6Addr × Ipv6Addr)
  used : List (ℕ × ℕ)

/-- The message is discarded. -/
def discard {P : Type} (s : NetInterface P) : Outcome P :=
  { interface := s, advertised := none, used := [] }

/-! ## Options -/

/-- The loop of `ndpGetOption`. -/
def getOptionLoop (options length : ℕ) (type : UInt8) : ℕ → ℕ → Reads (Option ℕ)
  | 0, _ => stuck
  | fuel + 1, i =>
      if i + sizeofNdpOption ≤ length then do
        let optionLength ← byte (options + i + 1)
        if optionLength = 0 then pure none
        else if i + optionLength.toNat * 8 > length then pure none
        else do
          let optionType ← byte (options + i)
          if optionType = type ∨ type = NDP_OPT_ANY then pure (some (options + i))
          else getOptionLoop options length type fuel (i + optionLength.toNat * 8)
      else pure none

/-- Find a specified option in a NDP message. `options` is where the Options field starts. -/
def ndpGetOption (options length : ℕ) (type : UInt8) : Reads (Option ℕ) :=
  getOptionLoop options length type (length + 1) 0

/-- The loop of `ndpCheckOptions`. -/
def checkOptionsLoop (options length : ℕ) : ℕ → ℕ → Reads ErrorCode
  | 0, _ => stuck
  | fuel + 1, i =>
      if i + sizeofNdpOption ≤ length then do
        let optionLength ← byte (options + i + 1)
        if optionLength = 0 then pure .invalidOption
        else checkOptionsLoop options length fuel (i + optionLength.toNat * 8)
      else pure .noError

/-- Check NDP message options. -/
def ndpCheckOptions (options length : ℕ) : Reads ErrorCode :=
  checkOptionsLoop options length (length + 1) 0

def readAddr (i : ℕ) : Reads Ipv6Addr := do
  let x ← number i 16
  pure (BitVec.ofNat 128 x)

/-- The link-layer address of an option that has been found, if its length is right. -/
def readLinkLayerAddr : Option ℕ → Reads (Option (ℕ × BitVec 48))
  | none => pure none
  | some option => do
      let optionLength ← byte (option + 1)
      if optionLength = 1 then do
        let x ← number (option + 2) 6
        pure (some (option, BitVec.ofNat 48 x))
      else pure none

/-- The bytes of such an option. -/
def linkLayerAddrSpan (linkLayerAddr : Option (ℕ × BitVec 48)) : List (ℕ × ℕ) :=
  linkLayerAddr.toList.map fun l => (l.1, 8)

/-- The MTU option, if its length is right. -/
def readMtuOption (options length : ℕ) : Reads (Option (ℕ × ℕ)) := do
  match ← ndpGetOption options length NDP_OPT_MTU with
  | none => pure none
  | some option => do
      let optionLength ← byte (option + 1)
      if optionLength = 1 then do
        let mtu ← number (option + 4) 4
        pure (some (option, mtu))
      else pure none

/-- A Prefix Information option, with its On-link flag and its offset. -/
structure PrefixInfo where
  option : NdpPrefixInfoOption
  l : Bool
  offset : ℕ

/-- The fields of a Prefix Information option. They are read if the length is right. -/
def readPrefixInfoOption (option : ℕ) : Reads (Option PrefixInfo) := do
  let optionLength ← byte (option + 1)
  if optionLength ≠ 4 then pure none
  else do
    let prefixLength ← byte (option + 2)
    let flags ← byte (option + 3)
    let validLifetime ← number (option + 4) 4
    let preferredLifetime ← number (option + 8) 4
    let addrPrefix ← readAddr (option + 16)
    pure (some
      { option :=
          { length := optionLength, prefixLength := prefixLength, a := flags.toBitVec.getLsbD 6
            validLifetime := UInt32.ofNat validLifetime
            preferredLifetime := UInt32.ofNat preferredLifetime, addrPrefix := addrPrefix }
        l := flags.toBitVec.getLsbD 7, offset := option })

/-- The loop that searches for Prefix Information options. -/
def prefixInfoLoop (options length : ℕ) : ℕ → ℕ → Reads (List PrefixInfo)
  | 0, _ => stuck
  | fuel + 1, n => do
      match ← ndpGetOption (options + n) (length - n) NDP_OPT_PREFIX_INFORMATION with
      | none => pure []
      | some option => do
          let info ← readPrefixInfoOption option
          let optionLength ← byte (option + 1)
          let rest ← prefixInfoLoop options length fuel (option - options + optionLength.toNat * 8)
          pure (info.toList ++ rest)

def prefixInfoOptions (options length : ℕ) : Reads (List PrefixInfo) :=
  prefixInfoLoop options length (length + 1) 0

/-- The loop that records DNS server addresses, with `k` servers left. -/
def dnsServerLoop (option : ℕ) : ℕ → ℕ → List Ipv6Addr → Reads (List Ipv6Addr)
  | 0, _, servers => pure servers
  | k + 1, i, servers =>
      if i < IPV6_DNS_SERVER_LIST_SIZE then do
        let address ← readAddr (option + 8 + i * 16)
        dnsServerLoop option k (i + 1) (servers.set i address)
      else pure servers

/-- The Recursive DNS Server option. -/
def readRdnssOption (options length : ℕ) (servers : List Ipv6Addr) : Reads (List Ipv6Addr) := do
  match ← ndpGetOption options length NDP_OPT_RECURSIVE_DNS_SERVER with
  | none => pure servers
  | some option => do
      let optionLength ← byte (option + 1)
      if optionLength ≥ 1 then dnsServerLoop option ((optionLength.toNat - 1) / 2) 0 servers
      else pure servers

/-- The DNS servers, unless they are configured manually. -/
def readDnsServers (options length : ℕ) (manualDnsConfig : Bool) (servers : List Ipv6Addr) :
    Reads (List Ipv6Addr) :=
  if !manualDnsConfig then readRdnssOption options length servers else pure servers

/-! ## The prefix list -/

/-- `ipv6AddPrefix`. -/
def ipv6AddPrefix (info : PrefixInfo) (now : UInt32) (prefixList : List Ipv6PrefixEntry) :
    List Ipv6PrefixEntry :=
  let length := info.option.prefixLength.toNat
  let found := prefixList.findIdx? fun entry => entry.validLifetime ≠ 0 ∧ entry.prefixLen = length ∧
    ipv6CompPrefix entry.addrPrefix info.option.addrPrefix length
  let free := prefixList.findIdx? fun entry => entry.validLifetime = 0 ∧ !entry.permanent
  match found <|> free with
  | none => prefixList
  | some i => prefixList.modify i fun entry =>
      -- a prefix that has been manually assigned is preserved
      if entry.permanent then entry
      else
        { entry with
          addrPrefix := info.option.addrPrefix, prefixLen := length, onLinkFlag := info.l
          autonomousFlag := info.option.a, validLifetime := checkLifetime info.option.validLifetime
          preferredLifetime := checkLifetime info.option.preferredLifetime, timestamp := now }

/-- `ipv6RemovePrefix`. -/
def ipv6RemovePrefix (info : PrefixInfo) (prefixList : List Ipv6PrefixEntry) :
    List Ipv6PrefixEntry :=
  let length := info.option.prefixLength.toNat
  prefixList.map fun entry =>
    if entry.validLifetime ≠ 0 ∧ entry.prefixLen = length ∧
        ipv6CompPrefix entry.addrPrefix info.option.addrPrefix length ∧ !entry.permanent then
      { entry with addrPrefix := IPV6_UNSPECIFIED_ADDR, prefixLen := 0, validLifetime := 0 }
    else entry

/-- Parse Prefix Information Option. -/
def ndpParsePrefixInfoOption (now : UInt32) (prefixList : List Ipv6PrefixEntry)
    (info : PrefixInfo) : List Ipv6PrefixEntry :=
  if info.option.length ≠ 4 then prefixList
  else if !info.l then prefixList
  else if ipv6CompPrefix info.option.addrPrefix IPV6_LINK_LOCAL_ADDR_PREFIX 10 then prefixList
  else if info.option.preferredLifetime > info.option.validLifetime then prefixList
  else if info.option.validLifetime ≠ 0 then ipv6AddPrefix info now prefixList
  else ipv6RemovePrefix info prefixList

section Messages

variable {P : Type}

/-! ## Router Advertisements -/

/-- The fields of a Router Advertisement. -/
structure RouterAdvHeader where
  code : UInt8
  curHopLimit : UInt8
  prf : UInt8
  routerLifetime : UInt16
  reachableTime : UInt32
  retransTimer : UInt32

def readRouterAdvHeader : Reads RouterAdvHeader := do
  let code ← byte 1
  let curHopLimit ← byte 4
  let flags ← byte 5
  let routerLifetime ← number 6 2
  let reachableTime ← number 8 4
  let retransTimer ← number 12 4
  pure
    { code := code, curHopLimit := curHopLimit, prf := flags >>> 3 &&& 3
      routerLifetime := UInt16.ofNat routerLifetime, reachableTime := UInt32.ofNat reachableTime
      retransTimer := UInt32.ofNat retransTimer }

/-- The options of a Router Advertisement. SLAAC searches for its options by itself. -/
structure RouterAdvOptions where
  linkLayerAddr : Option (ℕ × BitVec 48)
  mtu : Option (ℕ × ℕ)
  prefixInfo : List PrefixInfo
  slaac : List PrefixInfo
  dnsServerList : List Ipv6Addr

def readRouterAdvOptions (s : NetInterface P) (options length : ℕ) : Reads RouterAdvOptions := do
  let option ← ndpGetOption options length NDP_OPT_SOURCE_LINK_LAYER_ADDR
  let linkLayerAddr ← readLinkLayerAddr option
  let mtu ← readMtuOption options length
  let prefixInfo ← prefixInfoOptions options length
  if s.addr.running ∧ Ipv6.ipv6GetLinkLocalAddrState s.addr = .preferred then do
    let slaac ← prefixInfoOptions options length
    let dnsServerList ← readDnsServers options length s.manualDnsConfig s.dnsServerList
    pure
      { linkLayerAddr := linkLayerAddr, mtu := mtu, prefixInfo := prefixInfo, slaac := slaac
        dnsServerList := dnsServerList }
  else
    pure
      { linkLayerAddr := linkLayerAddr, mtu := mtu, prefixInfo := prefixInfo, slaac := []
        dnsServerList := s.dnsServerList }

/-- The `IsRouter` flags, once the sender of a Router Advertisement is known to be a router. -/
def routerAdvFlags (env : Env) (srcAddr : Ipv6Addr) (linkLayerAddr : Option (ℕ × BitVec 48))
    (s : NetInterface P) : List Bool :=
  match Ndp.ndpFindNeighborCacheEntry s.ndp.neighborCache srcAddr with
  | some i => s.isRouter.set i true
  | none =>
      if linkLayerAddr.isSome then
        s.isRouter.set (Ndp.ndpCreateNeighborCacheEntry env.time s.ndp.neighborCache).1 true
      else s.isRouter

/-- What a valid Router Advertisement does. -/
def processRouterAdv (env : Env) (srcAddr : Ipv6Addr) (header : RouterAdvHeader)
    (options : RouterAdvOptions) (s : NetInterface P) : Outcome P :=
  let linkLayerAddr := options.linkLayerAddr.map Prod.snd
  -- the option's value is copied if it lies between the minimum IPv6 MTU and that of the interface
  let mtu := (options.mtu.map Prod.snd).filter fun mtu => IPV6_DEFAULT_MTU ≤ mtu ∧ mtu ≤ s.mtu
  let inputs := options.slaac.mapIdx fun i info =>
    { option := info.option, time := (env.slaac i).1, now := (env.slaac i).2.1
      join := (env.slaac i).2.2 : Ipv6.OptionInput }
  { interface := { s with
      ndp := Ndp.ndpProcessRouterAdv srcAddr linkLayerAddr header.reachableTime header.retransTimer
        env.time env.now s.ndp
      isRouter := routerAdvFlags env srcAddr options.linkLayerAddr s
      dest := DestCache.ndpProcessRouterAdv srcAddr header.routerLifetime header.prf mtu env.now
        s.dest
      addr := Ipv6.ndpProcessRouterAdv header.retransTimer inputs s.addr
      prefixList := options.prefixInfo.foldl (ndpParsePrefixInfoOption env.now) s.prefixList
      dnsServerList := options.dnsServerList
      curHopLimit := if header.curHopLimit ≠ 0 then header.curHopLimit else s.curHopLimit
      rtrAdvReceived := s.rtrAdvReceived ||
        (header.routerLifetime ≠ 0 && s.rtrSolicitationCount > 1) || s.sixLowpan }
    advertised := none
    used := linkLayerAddrSpan options.linkLayerAddr ++ options.mtu.toList.map (fun o => (o.1, 8)) ++
      (options.prefixInfo ++ options.slaac).map fun info => (info.offset, 32) }

/-- Router Advertisement message processing. -/
def ndpProcessRouterAdv (env : Env) (srcAddr : Ipv6Addr) (hopLimit : UInt8) (length : ℕ)
    (s : NetInterface P) : Reads (Outcome P) :=
  if length < sizeofNdpRouterAdvMessage then pure (discard s)
  else do
    let header ← readRouterAdvHeader
    if !ipv6IsLinkLocalUnicastAddr srcAddr ∨ hopLimit ≠ NDP_HOP_LIMIT ∨ header.code ≠ 0 then
      pure (discard s)
    else do
      let length := length - sizeofNdpRouterAdvMessage
      let error ← ndpCheckOptions sizeofNdpRouterAdvMessage length
      if error ≠ .noError then pure (discard s)
      else do
        let options ← readRouterAdvOptions s sizeofNdpRouterAdvMessage length
        pure (processRouterAdv env srcAddr header options s)

/-! ## Neighbor Solicitations -/

/-- `ipv6IsAnycastAddr`. -/
def ipv6IsAnycastAddr (s : NetInterface P) (ipAddr : Ipv6Addr) : Bool :=
  s.anycastAddrList.any fun addr => addr ≠ IPV6_UNSPECIFIED_ADDR ∧ addr = ipAddr

/-- The entry of the address list that a solicitation or an advertisement is about. -/
def findTarget (s : NetInterface P) (targetAddr : Ipv6Addr) : Option (Fin IPV6_ADDR_LIST_SIZE) :=
  (List.finRange IPV6_ADDR_LIST_SIZE).find? fun i =>
    (s.addr.addrList i).addr = targetAddr ∧ (s.addr.addrList i).state ≠ .invalid

/-- The address of an entry is a duplicate. -/
def setDuplicate (i : Fin IPV6_ADDR_LIST_SIZE) (s : NetInterface P) : NetInterface P :=
  { s with
    addr := { s.addr with
      addrList :=
        Function.update s.addr.addrList i { s.addr.addrList i with duplicate := true } } }

/-- The Neighbor cache, when the link-layer address of a neighbor is received in a Neighbor
Solicitation: the flag of a new entry is clear. -/
def processNeighborSol (env : Env) (srcAddr targetAddr : Ipv6Addr) (linkLayerAddr : ℕ × BitVec 48)
    (s : NetInterface P) : Outcome P :=
  { interface := { s with
      ndp := Ndp.ndpProcessNeighborSol srcAddr (some linkLayerAddr.2) env.time env.now s.ndp
      isRouter :=
        match Ndp.ndpFindNeighborCacheEntry s.ndp.neighborCache srcAddr with
        | some _ => s.isRouter
        | none =>
            s.isRouter.set (Ndp.ndpCreateNeighborCacheEntry env.time s.ndp.neighborCache).1 false }
    advertised := some (targetAddr, srcAddr)
    used := linkLayerAddrSpan (some linkLayerAddr) }

/-- Neighbor Solicitation message processing. -/
def ndpProcessNeighborSol (env : Env) (srcAddr destAddr : Ipv6Addr) (hopLimit : UInt8) (length : ℕ)
    (s : NetInterface P) : Reads (Outcome P) :=
  if length < sizeofNdpNeighborSolMessage then pure (discard s)
  else do
    let code ← byte 1
    let targetAddr ← readAddr 8
    if hopLimit ≠ NDP_HOP_LIMIT ∨ code ≠ 0 then pure (discard s)
    else if srcAddr = IPV6_UNSPECIFIED_ADDR ∧ !ipv6IsSolicitedNodeAddr destAddr then
      pure (discard s)
    else do
      let length := length - sizeofNdpNeighborSolMessage
      let error ← ndpCheckOptions sizeofNdpNeighborSolMessage length
      if error ≠ .noError then pure (discard s)
      else do
        let option ← ndpGetOption sizeofNdpNeighborSolMessage length NDP_OPT_SOURCE_LINK_LAYER_ADDR
        match findTarget s targetAddr with
        | some i =>
            if (s.addr.addrList i).state = .tentative then
              -- the solicitation is from a node that performs duplicate address detection
              if srcAddr = IPV6_UNSPECIFIED_ADDR ∧ option = none then
                pure (discard (setDuplicate i s))
              else pure (discard s)
            else answer targetAddr option
        | none =>
            if !ipv6IsAnycastAddr s targetAddr then pure (discard s) else answer targetAddr option
where
  /-- The target address is valid. -/
  answer (targetAddr : Ipv6Addr) (option : Option ℕ) : Reads (Outcome P) := do
    match ← readLinkLayerAddr option with
    | some linkLayerAddr =>
        if srcAddr = IPV6_UNSPECIFIED_ADDR then pure (discard s)
        else pure (processNeighborSol env srcAddr targetAddr linkLayerAddr s)
    | none =>
        if srcAddr ≠ IPV6_UNSPECIFIED_ADDR ∧ ipv6IsMulticastAddr destAddr then pure (discard s)
        else pure { discard s with advertised := some (targetAddr, srcAddr) }

/-! ## Neighbor Advertisements -/

/-- What a Neighbor Advertisement does to the entry `i` of the Neighbor cache. -/
def processNeighborAdv (env : Env) (targetAddr : Ipv6Addr) (flags : UInt8) (i : ℕ)
    (linkLayerAddr : Option (ℕ × BitVec 48)) (s : NetInterface P) : Outcome P :=
  let router := flags.toBitVec.getLsbD 7
  let solicited := flags.toBitVec.getLsbD 6
  let override := flags.toBitVec.getLsbD 5
  let option := linkLayerAddr.map Prod.snd
  { interface := { s with
      ndp := Ndp.ndpProcessNeighborAdv targetAddr option solicited override env.now s.ndp
      isRouter := s.isRouter.set i router
      dest :=
        -- the neighbor is no longer a router
        if !router ∧ s.isRouter.getD i false then
          DestCache.ipv6RemoveDefaultRouter targetAddr s.dest
        else s.dest }
    advertised := none
    used := linkLayerAddrSpan linkLayerAddr }

/-- Neighbor Advertisement message processing. -/
def ndpProcessNeighborAdv (env : Env) (destAddr : Ipv6Addr) (hopLimit : UInt8) (length : ℕ)
    (s : NetInterface P) : Reads (Outcome P) :=
  if length < sizeofNdpNeighborAdvMessage then pure (discard s)
  else do
    let code ← byte 1
    let flags ← byte 4
    let targetAddr ← readAddr 8
    if hopLimit ≠ NDP_HOP_LIMIT ∨ code ≠ 0 then pure (discard s)
    else if ipv6IsMulticastAddr targetAddr then pure (discard s)
    else if ipv6IsMulticastAddr destAddr ∧ flags.toBitVec.getLsbD 6 then pure (discard s)
    else do
      let length := length - sizeofNdpNeighborAdvMessage
      let error ← ndpCheckOptions sizeofNdpNeighborAdvMessage length
      if error ≠ .noError then pure (discard s)
      else
        match findTarget s targetAddr with
        | some i => pure (discard (setDuplicate i s))
        | none =>
            match Ndp.ndpFindNeighborCacheEntry s.ndp.neighborCache targetAddr with
            | none => pure (discard s)
            | some i => do
                let option ←
                  ndpGetOption sizeofNdpNeighborAdvMessage length NDP_OPT_TARGET_LINK_LAYER_ADDR
                let linkLayerAddr ← readLinkLayerAddr option
                pure (processNeighborAdv env targetAddr flags i linkLayerAddr s)

/-! ## Redirects -/

/-- `ndpIsFirstHopRouter`. -/
def ndpIsFirstHopRouter (s : DestCache.NetInterface) (destAddr nextHop : Ipv6Addr) : Bool :=
  match DestCache.ndpFindDestCacheEntry s.destCache destAddr with
  | some i => (s.destCache.getD i DestCache.emptyDestEntry).nextHop = nextHop
  | none => s.routerList.any fun entry => entry.live ∧ entry.addr = nextHop

/-- The checks that a Redirect has to pass before its options are parsed. -/
def acceptsRedirect (srcAddr : Ipv6Addr) (hopLimit code : UInt8) (targetAddr destAddr : Ipv6Addr)
    (s : NetInterface P) : Bool :=
  hopLimit = NDP_HOP_LIMIT ∧ code = 0 ∧ ipv6IsLinkLocalUnicastAddr srcAddr ∧
    ndpIsFirstHopRouter s.dest destAddr srcAddr ∧ !ipv6IsMulticastAddr destAddr ∧
    (ipv6IsLinkLocalUnicastAddr targetAddr ∨ targetAddr = destAddr)

/-- The Destination cache after a Redirect. -/
def redirectDest (env : Env) (targetAddr destAddr : Ipv6Addr) (s : DestCache.NetInterface) :
    DestCache.NetInterface :=
  { s with
    destCache :=
      match DestCache.ndpFindDestCacheEntry s.destCache destAddr with
      | some i => s.destCache.modify i fun entry =>
          { entry with nextHop := targetAddr, timestamp := env.now }
      | none => s.destCache.set (DestCache.ndpCreateDestCacheEntry env.time s.destCache)
          { destAddr := destAddr, nextHop := targetAddr, pathMtu := s.linkMtu
            timestamp := env.now } }

/-- The `IsRouter` flags after a Redirect with a link-layer address. -/
def redirectFlags (env : Env) (targetAddr destAddr : Ipv6Addr) (s : NetInterface P) : List Bool :=
  match Ndp.ndpFindNeighborCacheEntry s.ndp.neighborCache targetAddr with
  | none => s.isRouter.set (Ndp.ndpCreateNeighborCacheEntry env.time s.ndp.neighborCache).1 false
  | some i => if targetAddr ≠ destAddr then s.isRouter.set i true else s.isRouter

/-- What a valid Redirect does. -/
def processRedirect (env : Env) (targetAddr destAddr : Ipv6Addr)
    (linkLayerAddr : Option (ℕ × BitVec 48)) (s : NetInterface P) : Outcome P :=
  let option := linkLayerAddr.map Prod.snd
  { interface := { s with
      ndp := Ndp.ndpProcessRedirect targetAddr option env.time env.now s.ndp
      isRouter :=
        if linkLayerAddr.isSome then redirectFlags env targetAddr destAddr s else s.isRouter
      dest := redirectDest env targetAddr destAddr s.dest }
    advertised := none
    used := linkLayerAddrSpan linkLayerAddr }

/-- Redirect message processing. What is subtracted from the length is the size of the header of
another message. -/
def ndpProcessRedirect (env : Env) (srcAddr : Ipv6Addr) (hopLimit : UInt8) (length : ℕ)
    (s : NetInterface P) : Reads (Outcome P) :=
  if length < sizeofNdpRedirectMessage then pure (discard s)
  else do
    let code ← byte 1
    let targetAddr ← readAddr 8
    let destAddr ← readAddr 24
    if !acceptsRedirect srcAddr hopLimit code targetAddr destAddr s then pure (discard s)
    else do
      let length := length - sizeofNdpNeighborAdvMessage
      let error ← ndpCheckOptions sizeofNdpRedirectMessage length
      if error ≠ .noError then pure (discard s)
      else do
        let option ← ndpGetOption sizeofNdpRedirectMessage length NDP_OPT_TARGET_LINK_LAYER_ADDR
        let linkLayerAddr ← readLinkLayerAddr option
        pure (processRedirect env targetAddr destAddr linkLayerAddr s)

/-! ## Messages -/

inductive Kind where
  | routerAdv
  | neighborSol
  | neighborAdv
  | redirect
  deriving DecidableEq

/-- A message of `length` bytes is received from `srcAddr` for `destAddr`. -/
def process (kind : Kind) (env : Env) (srcAddr destAddr : Ipv6Addr) (hopLimit : UInt8) (length : ℕ)
    (s : NetInterface P) : Reads (Outcome P) :=
  match kind with
  | .routerAdv => ndpProcessRouterAdv env srcAddr hopLimit length s
  | .neighborSol => ndpProcessNeighborSol env srcAddr destAddr hopLimit length s
  | .neighborAdv => ndpProcessNeighborAdv env destAddr hopLimit length s
  | .redirect => ndpProcessRedirect env srcAddr hopLimit length s

end Messages

end NdpMessage
