import CycloneTcp.Dns.Client
import CycloneTcp.Nbns.Name

set_option autoImplicit false

/-! # The resolver

The cache of host names, shared by the DNS and the NBNS client, and the table of the callback
functions for UDP datagrams, of which a DNS query in progress holds one entry. A step is what the
code does without giving up its mutex. The environment says what the clock, the random numbers, the
memory and the network do; `sentTo` is not a field of the source, it lists the servers that queries
have been sent to since the entry was created. -/

namespace Dns.Resolver

open CString

def DNS_MAX_NAME_LEN : ℕ := 63

def DNS_CLIENT_MAX_TIMEOUT : UInt32 := 5000

def NBNS_CLIENT_MAX_RETRIES : ℕ := 3

def NBNS_CLIENT_INIT_TIMEOUT : UInt32 := 1000

def NBNS_CLIENT_MAX_TIMEOUT : UInt32 := 1000

/-- `IPV4_DNS_SERVER_LIST_SIZE` and `IPV6_DNS_SERVER_LIST_SIZE`. -/
def DNS_SERVER_LIST_SIZE : ℕ := 2

def DNS_PORT : UInt16 := 53

def NBNS_PORT : UInt16 := 137

def DNS_RR_TYPE_NB : UInt16 := 32

/-! ## Callback functions -/

/-- A function for received datagrams: that of the DNS client, or another one. -/
inductive UdpRxCallback
  | dnsProcessResponse
  | other (n : ℕ)
  deriving DecidableEq

/-- An entry of the callback table. It is free if there is no `callback`; without an `interface` it
is for datagrams from any interface. -/
structure UdpRxCallbackDesc (I : Type*) where
  interface : Option I
  port : UInt16
  callback : Option UdpRxCallback
  deriving DecidableEq

section Callbacks

variable {I : Type*} [DecidableEq I]

/-- Register a callback function. There is no table when it is full. -/
def udpAttachRxCallback (interface : I) (port : UInt16) (callback : UdpRxCallback)
    (udpCallbackTable : List (UdpRxCallbackDesc I)) : Option (List (UdpRxCallbackDesc I)) :=
  match udpCallbackTable.findIdx? fun entry => entry.callback = none with
  | none => none
  | some i => some (udpCallbackTable.set i
      { interface := some interface, port := port, callback := some callback })

/-- One entry, when a callback function is unregistered. -/
def detachEntry (interface : I) (port : UInt16) (entry : UdpRxCallbackDesc I) :
    UdpRxCallbackDesc I :=
  if entry.callback ≠ none then
    if entry.port = port ∧ entry.interface = some interface then { entry with callback := none }
    else entry
  else entry

/-- Unregister a callback function. -/
def udpDetachRxCallback (interface : I) (port : UInt16)
    (udpCallbackTable : List (UdpRxCallbackDesc I)) : List (UdpRxCallbackDesc I) :=
  udpCallbackTable.map (detachEntry interface port)

end Callbacks

/-! ## The cache -/

/-- DNS cache entry, with its network interface. `name` is the whole array of characters. -/
structure CacheEntry (I : Type*) extends DnsCacheEntry where
  interface : I
  sentTo : List ℕ
  deriving DecidableEq

structure System (I : Type*) where
  dnsCache : List (CacheEntry I)
  udpCallbackTable : List (UdpRxCallbackDesc I)
  deriving DecidableEq

/-- A query that is sent. -/
structure Query (I : Type*) where
  interface : I
  srcPort : UInt16
  destIpAddr : List UInt8
  destPort : UInt16
  message : List UInt8
  deriving DecidableEq

/-- What a step finds: the clock, the lists of DNS servers, with `none` for the unspecified address,
the broadcast addresses, and what becomes of a query for an entry. `transport` is `noError` when
there is memory for the query and it can be sent. -/
structure Env (I : Type*) where
  time : UInt32
  dnsServerList : I → HostType → ℕ → Option (List UInt8)
  broadcastAddr : I → List UInt8
  transport : ℕ → ErrorCode

section Cache

variable {I : Type*} [DecidableEq I]

/-- The string in an array. -/
def str (name : List UInt8) : List UInt8 := name.takeWhile (· ≠ 0)

/-- `strcpy` to an array of `size` characters that are NUL. There is no result when it writes behind
the array. -/
def strcpy (size : ℕ) (name : List UInt8) : Option (List UInt8) :=
  if name.length + 1 ≤ size then some (name ++ List.replicate (size - name.length) 0) else none

/-- Delete the specified DNS cache entry. -/
def dnsDeleteEntry (entry : CacheEntry I) (udpCallbackTable : List (UdpRxCallbackDesc I)) :
    CacheEntry I × List (UdpRxCallbackDesc I) :=
  ({ entry with state := .none },
    if entry.protocol = .dns then
      if entry.state = .inProgress then
        udpDetachRxCallback entry.interface entry.port udpCallbackTable
      else udpCallbackTable
    else udpCallbackTable)

/-- A loop over the cache that changes the entries one by one; `i` is the index of the first one. -/
def eachEntry (f : ℕ → CacheEntry I → List (UdpRxCallbackDesc I) →
      CacheEntry I × List (UdpRxCallbackDesc I) × List (Query I)) :
    ℕ → List (CacheEntry I) → List (UdpRxCallbackDesc I) →
      List (CacheEntry I) × List (UdpRxCallbackDesc I) × List (Query I)
  | _, [], table => ([], table, [])
  | i, entry :: entries, table =>
      let (entry, table, sent) := f i entry table
      let (entries, table, sents) := eachEntry f (i + 1) entries table
      (entry :: entries, table, sent ++ sents)

/-- Flush DNS cache. -/
def dnsFlushCache (interface : I) (s : System I) : System I :=
  let (dnsCache, udpCallbackTable, _) := eachEntry (fun _ entry table =>
    if entry.state ≠ .none then
      if entry.interface = interface then
        let (entry, table) := dnsDeleteEntry entry table
        (entry, table, [])
      else (entry, table, [])
    else (entry, table, [])) 0 s.dnsCache s.udpCallbackTable
  { dnsCache := dnsCache, udpCallbackTable := udpCallbackTable }

/-- The index of the oldest entry, from the entry of index `i` on. `best` is the oldest so far. -/
def oldestLoop (time : UInt32) : ℕ → List (CacheEntry I) → ℕ → UInt32 → ℕ
  | _, [], best, _ => best
  | i, entry :: entries, best, timestamp =>
      if time - entry.timestamp > time - timestamp then
        oldestLoop time (i + 1) entries i entry.timestamp
      else oldestLoop time (i + 1) entries best timestamp

/-- The index that `dnsCreateEntry` takes: of the first free entry, or of the oldest one. -/
def createIndex (time : UInt32) (dnsCache : List (CacheEntry I)) : ℕ :=
  match dnsCache.findIdx? fun entry => entry.state = .none with
  | some i => i
  | none =>
      match dnsCache with
      | [] => 0
      | entry :: entries => oldestLoop time 1 entries 0 entry.timestamp

/-- Does the entry match? Names are compared without regard to case. -/
def Matches (interface : I) (name : List UInt8) (type : HostType) (protocol : HostnameResolver)
    (entry : CacheEntry I) : Prop :=
  entry.state ≠ .none ∧ entry.interface = interface ∧ (entry.type = type ∨ type = .any) ∧
    (entry.protocol = protocol ∨ protocol = .any) ∧ EqFold (str entry.name) name

instance (interface : I) (name : List UInt8) (type : HostType) (protocol : HostnameResolver)
    (entry : CacheEntry I) : Decidable (Matches interface name type protocol entry) :=
  inferInstanceAs (Decidable (_ ∧ _ ∧ _ ∧ _ ∧ _))

/-- Search the DNS cache for a given domain name. -/
def dnsFindEntry (interface : I) (name : List UInt8) (type : HostType)
    (protocol : HostnameResolver) (dnsCache : List (CacheEntry I)) : Option (CacheEntry I) :=
  dnsCache.find? fun entry => Matches interface name type protocol entry

/-! ## Queries -/

/-- `htons`. -/
def htons (x : UInt16) : List UInt8 := [(x >>> 8).toUInt8, x.toUInt8]

/-- The header of a query, which contains one question. `flags` are the two octets behind the
identifier. -/
def queryHeader (id : UInt16) (flags : List UInt8) : List UInt8 :=
  htons id ++ flags ++ htons 1 ++ htons 0 ++ htons 0 ++ htons 0

/-- The name of an entry as the encoder writes it, with the length that it returns. -/
def encodedName (name : List UInt8) : List UInt8 :=
  let (n, mem) := dnsEncodeName (fun _ => 0) (str name) (some 0)
  mem.read 0 n

/-- Send a DNS query message. -/
def dnsSendQuery (env : Env I) (transport : ErrorCode) (entry : CacheEntry I) :
    ErrorCode × List (Query I) :=
  if entry.type = .any then (.invalidParameter, [])
  -- out of range index?
  else if entry.dnsServerNum ≥ DNS_SERVER_LIST_SIZE then (.noDnsServer, [])
  else
    match env.dnsServerList entry.interface entry.type entry.dnsServerNum with
    | none => (.noDnsServer, [])
    | some destIpAddr =>
        if transport ≠ .noError then (transport, [])
        else
          (.noError, [{ interface := entry.interface, srcPort := entry.port
                        destIpAddr := destIpAddr, destPort := DNS_PORT
                        -- `rd` is set
                        message := queryHeader entry.id [0x01, 0x00] ++ encodedName entry.name ++
                          htons (if entry.type = .ipv4 then DNS_RR_TYPE_A else DNS_RR_TYPE_AAAA) ++
                          htons DNS_RR_CLASS_IN }])

/-- Send a NBNS query message. -/
def nbnsSendQuery (env : Env I) (transport : ErrorCode) (entry : CacheEntry I) :
    ErrorCode × List (Query I) :=
  if transport ≠ .noError then (transport, [])
  else
    (.noError, [{ interface := entry.interface, srcPort := NBNS_PORT
                  destIpAddr := env.broadcastAddr entry.interface, destPort := NBNS_PORT
                  -- `b` is set
                  message := queryHeader entry.id [0x00, 0x10] ++
                    Nbns.nbnsEncodeName (str entry.name) ++ htons DNS_RR_TYPE_NB ++
                    htons DNS_RR_CLASS_IN }])

/-- The query for an entry, over the protocol of the entry. -/
def sendQuery (env : Env I) (transport : ErrorCode) (entry : CacheEntry I) :
    ErrorCode × List (Query I) :=
  match entry.protocol with
  | .dns => dnsSendQuery env transport entry
  | .nbns => nbnsSendQuery env transport entry
  | _ => (.failure, [])

/-! ## Resolving names -/

/-- A new cache entry. -/
def newEntry (name : List UInt8) (type : HostType) (protocol : HostnameResolver) (interface : I)
    (port id : UInt16) : CacheEntry I :=
  { state := .none, type := type, protocol := protocol, dnsServerNum := 0, port := port, id := id
    name := name, ipAddr := [], timestamp := 0, timeout := 0, maxTimeout := 0
    retransmitCount := 0, interface := interface, sentTo := [] }

/-- `dnsResolve`, up to where it begins to wait. `port` is what `udpGetDynamicPort` returns and `id`
is the random identifier. There is no result when the name is written behind the entry. -/
def dnsResolve (env : Env I) (interface : I) (name : List UInt8) (type : HostType)
    (port id : UInt16) (s : System I) :
    Option (ErrorCode × Option (List UInt8) × System I × List (Query I)) :=
  match dnsFindEntry interface name type .dns s.dnsCache with
  | some entry =>
      if entry.state = .resolved ∨ entry.state = .permanent then
        some (.noError, some entry.ipAddr, s, [])
      else some (.inProgress, none, s, [])
  | none =>
      let i := createIndex env.time s.dnsCache
      match s.dnsCache[i]? with
      | none => none
      | some old =>
          let table := (dnsDeleteEntry old s.udpCallbackTable).2
          match strcpy (DNS_MAX_NAME_LEN + 1) name with
          | none => none
          | some array =>
              let entry := newEntry array type .dns interface port id
              match udpAttachRxCallback interface port .dnsProcessResponse table with
              | none => some (.outOfResources, none,
                  { dnsCache := s.dnsCache.set i entry, udpCallbackTable := table }, [])
              | some table =>
                  let entry := { entry with retransmitCount := DNS_CLIENT_MAX_RETRIES }
                  let (error, sent) := dnsSendQuery env (env.transport i) entry
                  if error = .noError then
                    let entry := { entry with
                      timestamp := env.time
                      timeout := DNS_CLIENT_INIT_TIMEOUT
                      maxTimeout := DNS_CLIENT_MAX_TIMEOUT
                      retransmitCount := entry.retransmitCount - 1
                      state := .inProgress
                      sentTo := [entry.dnsServerNum] }
                    some (.inProgress, none,
                      { dnsCache := s.dnsCache.set i entry, udpCallbackTable := table }, sent)
                  else
                    some (error, none,
                      { dnsCache := s.dnsCache.set i entry
                        udpCallbackTable := udpDetachRxCallback interface port table }, sent)

/-- `nbnsResolve`, up to where it begins to wait. -/
def nbnsResolve (env : Env I) (interface : I) (name : List UInt8) (s : System I) :
    Option (ErrorCode × Option (List UInt8) × System I × List (Query I)) :=
  match dnsFindEntry interface name .ipv4 .nbns s.dnsCache with
  | some entry =>
      if entry.state = .resolved ∨ entry.state = .permanent then
        some (.noError, some entry.ipAddr, s, [])
      else some (.inProgress, none, s, [])
  | none =>
      let i := createIndex env.time s.dnsCache
      match s.dnsCache[i]? with
      | none => none
      | some old =>
          let table := (dnsDeleteEntry old s.udpCallbackTable).2
          match strcpy (DNS_MAX_NAME_LEN + 1) name with
          | none => none
          | some array =>
              -- neither a port nor an identifier is set
              let entry := { newEntry array .ipv4 .nbns interface 0 0 with
                retransmitCount := NBNS_CLIENT_MAX_RETRIES }
              let (error, sent) := nbnsSendQuery env (env.transport i) entry
              if error = .noError then
                let entry := { entry with
                  timestamp := env.time
                  timeout := NBNS_CLIENT_INIT_TIMEOUT
                  maxTimeout := NBNS_CLIENT_MAX_TIMEOUT
                  retransmitCount := entry.retransmitCount - 1
                  state := .inProgress }
                some (.inProgress, none,
                  { dnsCache := s.dnsCache.set i entry, udpCallbackTable := table }, sent)
              else
                some (error, none,
                  { dnsCache := s.dnsCache.set i entry, udpCallbackTable := table }, sent)

/-! ## The timer -/

/-- `dnsTick`, for the entry of index `i`: its request has timed out. -/
def tickTimedOut (env : Env I) (i : ℕ) (entry : CacheEntry I)
    (table : List (UdpRxCallbackDesc I)) :
    CacheEntry I × List (UdpRxCallbackDesc I) × List (Query I) :=
  if entry.retransmitCount > 0 then
    let (error, sent) := sendQuery env (env.transport i) entry
    if error = .noError then
      ({ entry with
        timestamp := env.time
        timeout := min (entry.timeout * 2) entry.maxTimeout
        retransmitCount := entry.retransmitCount - 1
        sentTo := entry.sentTo ++ [entry.dnsServerNum] }, table, sent)
    else
      let (entry, table) := dnsDeleteEntry entry table
      (entry, table, sent)
  else if entry.protocol = .dns then
    -- select the next DNS server
    let entry := { entry with
      dnsServerNum := entry.dnsServerNum + 1
      retransmitCount := DNS_CLIENT_MAX_RETRIES }
    let (error, sent) := dnsSendQuery env (env.transport i) entry
    if error = .noError then
      ({ entry with
        timestamp := env.time
        timeout := DNS_CLIENT_INIT_TIMEOUT
        retransmitCount := entry.retransmitCount - 1
        sentTo := entry.sentTo ++ [entry.dnsServerNum] }, table, sent)
    else
      let (entry, table) := dnsDeleteEntry entry table
      (entry, table, sent)
  else
    let (entry, table) := dnsDeleteEntry entry table
    (entry, table, [])

/-- `dnsTick`, for the entry of index `i`. -/
def tickEntry (env : Env I) (i : ℕ) (entry : CacheEntry I) (table : List (UdpRxCallbackDesc I)) :
    CacheEntry I × List (UdpRxCallbackDesc I) × List (Query I) :=
  match entry.state with
  | .inProgress =>
      if timeCompare env.time (entry.timestamp + entry.timeout) ≥ 0 then
        tickTimedOut env i entry table
      else (entry, table, [])
  | .resolved =>
      if timeCompare env.time (entry.timestamp + entry.timeout) ≥ 0 then
        let (entry, table) := dnsDeleteEntry entry table
        (entry, table, [])
      else (entry, table, [])
  | _ => (entry, table, [])

/-- DNS timer handler. -/
def dnsTick (env : Env I) (s : System I) : System I × List (Query I) :=
  let (dnsCache, udpCallbackTable, sent) :=
    eachEntry (tickEntry env) 0 s.dnsCache s.udpCallbackTable
  ({ dnsCache := dnsCache, udpCallbackTable := udpCallbackTable }, sent)

/-! ## Responses -/

/-- `Dns.processEntry`. `outside` is the result of a comparison that reads behind the array. -/
def processEntry (message : List UInt8) (time : UInt32) (outside : ℤ) (entry : DnsCacheEntry) :
    Option DnsCacheEntry := do
  let id ← read16 message 0
  if id ≠ entry.id then return entry
  let (pos, _) ← dnsParseName message dnsHeaderSize none 0
  if pos = 0 then return entry
  if message.length < pos + dnsQuestionSize then return entry
  if (dnsCompareName message dnsHeaderSize entry.name 0).getD outside ≠ 0 then return entry
  let qtype ← read16 message pos
  let qclass ← read16 message (pos + 2)
  if qclass ≠ DNS_RR_CLASS_IN then return entry
  if entry.type = .ipv4 ∧ qtype ≠ DNS_RR_TYPE_A then return entry
  if entry.type = .ipv6 ∧ qtype ≠ DNS_RR_TYPE_AAAA then return entry
  let flags ← message[3]?
  if flags &&& 0x0F ≠ 0 then return Dns.dnsDeleteEntry entry
  let ancount ← read16 message 6
  let (found, _) ← answersLoop message entry.type ancount.toNat (pos + dnsQuestionSize)
  match found with
  | none => return entry
  | some record => storeAnswer message time entry record

/-- What the entry that waits on the port of the response becomes, and whether its callback function
is unregistered: `dnsDeleteEntry` does that on the interface of the entry, and a successful
resolution on the interface of the response. -/
def respondEntry (message : List UInt8) (interface : I) (time : UInt32) (outside : ℤ)
    (entry : CacheEntry I) (table : List (UdpRxCallbackDesc I)) :
    Option (CacheEntry I × List (UdpRxCallbackDesc I)) :=
  match processEntry message time outside entry.toDnsCacheEntry with
  | none => none
  | some next =>
      match next.state with
      | .none => some ({ entry with toDnsCacheEntry := next }, (dnsDeleteEntry entry table).2)
      | .resolved => some ({ entry with toDnsCacheEntry := next },
          udpDetachRxCallback interface entry.port table)
      | _ => some ({ entry with toDnsCacheEntry := next }, table)

/-- The loop over the cache entries ends with the first entry that waits on the port. -/
def respondLoop (message : List UInt8) (interface : I) (destPort : UInt16) (time : UInt32)
    (outside : ℤ) :
    List (CacheEntry I) → List (UdpRxCallbackDesc I) →
      Option (List (CacheEntry I) × List (UdpRxCallbackDesc I))
  | [], table => some ([], table)
  | entry :: entries, table =>
      if entry.state = .inProgress ∧ entry.protocol = .dns ∧ entry.port = destPort then
        match respondEntry message interface time outside entry table with
        | none => none
        | some (entry, table) => some (entry :: entries, table)
      else
        match respondLoop message interface destPort time outside entries table with
        | none => none
        | some (entries, table) => some (entry :: entries, table)

/-- Process incoming DNS response message. -/
def dnsProcessResponse (message : List UInt8) (interface : I) (destPort : UInt16) (time : UInt32)
    (outside : ℤ) (s : System I) : Option (System I) :=
  if message.length < dnsHeaderSize ∨ DNS_MESSAGE_MAX_SIZE < message.length then some s
  else
    match message[2]?, read16 message 4 with
    | some flags, some qdcount =>
        if flags &&& 0x80 = 0 ∨ qdcount ≠ 1 then some s
        else
          match respondLoop message interface destPort time outside s.dnsCache
            s.udpCallbackTable with
          | none => none
          | some (dnsCache, udpCallbackTable) =>
              some { dnsCache := dnsCache, udpCallbackTable := udpCallbackTable }
    | _, _ => none

/-- The loop of `udpInvokeRxCallback` over the table, from the entry of index `i` on; `k` entries are
left. The functions of others leave the resolver alone. -/
def invokeLoop (message : List UInt8) (interface : I) (destPort : UInt16) (time : UInt32)
    (outside : ℤ) :
    ℕ → ℕ → System I → Option (System I)
  | 0, _, s => some s
  | k + 1, i, s =>
      match s.udpCallbackTable[i]? with
      | none => some s
      | some entry =>
          if entry.callback = some .dnsProcessResponse ∧
              (entry.interface = none ∨ entry.interface = some interface) ∧
              entry.port = destPort then
            match dnsProcessResponse message interface destPort time outside s with
            | none => none
            | some s => invokeLoop message interface destPort time outside k (i + 1) s
          else invokeLoop message interface destPort time outside k (i + 1) s

/-- A datagram arrives. -/
def udpInvokeRxCallback (message : List UInt8) (interface : I) (destPort : UInt16) (time : UInt32)
    (outside : ℤ) (s : System I) : Option (System I) :=
  invokeLoop message interface destPort time outside s.udpCallbackTable.length 0 s

/-! ## The entries without interface and callback functions -/

/-- The timer does to an entry what it does without the callback table. -/
theorem tickEntry_client (env : Env I) (i : ℕ) (entry : CacheEntry I)
    (table : List (UdpRxCallbackDesc I)) :
    (tickEntry env i entry table).1.toDnsCacheEntry =
      dnsTickEntry (fun e => (sendQuery env (env.transport i)
        { entry with toDnsCacheEntry := e }).1) env.time entry.toDnsCacheEntry := by
  obtain ⟨⟨state, type, protocol, dnsServerNum, port, id, name, ipAddr, timestamp, timeout, maxTimeout,
    retransmitCount⟩, interface, sentTo⟩ := entry
  cases state with
  | none => rfl
  | permanent => rfl
  | resolved =>
      dsimp only [tickEntry, dnsTickEntry]
      split_ifs <;> rfl
  | inProgress =>
      dsimp only [tickEntry, dnsTickEntry, tickTimedOut]
      simp only [apply_ite Prod.fst, apply_ite CacheEntry.toDnsCacheEntry]
      by_cases hdns : protocol = .dns
      · subst hdns
        rfl
      · rw [if_neg hdns, if_neg hdns]
        rfl

omit [DecidableEq I] in
/-- Nothing is different where the comparison stays inside the array. -/
theorem processEntry_client {message : List UInt8} {time : UInt32} {entry next : DnsCacheEntry}
    (h : Dns.processEntry message time entry = some next) (outside : ℤ) :
    processEntry message time outside entry = some next := by
  simp only [Dns.processEntry, processEntry, Option.bind_eq_bind, Option.pure_def] at h ⊢
  obtain ⟨id, hid, h⟩ := Option.bind_eq_some_iff.1 h
  rw [hid, Option.bind_some]
  by_cases hne : id ≠ entry.id
  · rwa [if_pos hne] at h ⊢
  rw [if_neg hne] at h ⊢
  obtain ⟨⟨pos, out⟩, hparse, h⟩ := Option.bind_eq_some_iff.1 h
  rw [hparse, Option.bind_some]
  dsimp only at h ⊢
  by_cases hpos : pos = 0
  · rwa [if_pos hpos] at h ⊢
  rw [if_neg hpos] at h ⊢
  by_cases hlength : message.length < pos + dnsQuestionSize
  · rwa [if_pos hlength] at h ⊢
  rw [if_neg hlength] at h ⊢
  obtain ⟨res, hres, h⟩ := Option.bind_eq_some_iff.1 h
  rw [hres, Option.getD_some]
  exact h

end Cache

end Dns.Resolver
