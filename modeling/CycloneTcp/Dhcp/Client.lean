import CycloneTcp.Dhcp.Common

/-! # The DHCP client

The state machine of the client: the timer handler with one function per state, the three messages
it reacts to, and the link change callback. Every handler reads the clock once, into `time`; what
`netGetRand` and `netGetRandRange` return is given to the timer handler as `Random`. Sending a
message does not change the context, and what sending returns is ignored, so the messages sent do
not appear. -/

set_option autoImplicit false

namespace Dhcp

/-! ## Constants -/

def DHCP_CLIENT_TICK_INTERVAL : ℕ := 200
def DHCP_CLIENT_DISCOVER_INIT_RT : UInt32 := 4000
def DHCP_CLIENT_DISCOVER_MAX_RT : UInt32 := 16000
def DHCP_CLIENT_REQUEST_MAX_RC : UInt32 := 4
def DHCP_CLIENT_REQUEST_INIT_RT : UInt32 := 4000
def DHCP_CLIENT_REQUEST_MAX_RT : UInt32 := 64000
def DHCP_CLIENT_REQUEST_MIN_DELAY : UInt32 := 60000
def DHCP_CLIENT_PROBE_NUM : UInt32 := 1
def DHCP_CLIENT_PROBE_DELAY : UInt32 := 1000

def IPV4_DNS_SERVER_LIST_SIZE : ℕ := 2
def IPV4_MINIMUM_MTU : UInt16 := 68

/-! ## The context -/

/-- `DhcpState`. -/
inductive DhcpState where
  | init
  | selecting
  | requesting
  | initReboot
  | rebooting
  | probing
  | bound
  | renewing
  | rebinding
  deriving DecidableEq, Repr

/-- The value of the enumerator. -/
def DhcpState.val : DhcpState → ℕ
  | init => 0
  | selecting => 1
  | requesting => 2
  | initReboot => 3
  | rebooting => 4
  | probing => 5
  | bound => 6
  | renewing => 7
  | rebinding => 8

/-- `Ipv4AddrState`. -/
inductive Ipv4AddrState where
  | invalid
  | tentative
  | valid
  deriving DecidableEq, Repr

/-- The interface being configured. `mtu` is what the driver of the physical interface allows. -/
structure NetInterface where
  linkState : Bool
  macAddr : BitVec 48
  mtu : UInt16
  addr : UInt32
  addrState : Ipv4AddrState
  addrConflict : Bool
  subnetMask : UInt32
  defaultGateway : UInt32
  dnsServerList : Fin IPV4_DNS_SERVER_LIST_SIZE → UInt32
  linkMtu : UInt16

/-- `DhcpClientSettings`. `timeoutEvent` tells whether a callback is registered. -/
structure DhcpClientSettings where
  rapidCommit : Bool
  manualDnsConfig : Bool
  timeout : UInt32
  timeoutEvent : Bool

/-- `DhcpClientContext`, with the interface its settings point to. -/
structure DhcpClientContext where
  settings : DhcpClientSettings
  interface : NetInterface
  running : Bool
  state : DhcpState
  timeoutEventDone : Bool
  timestamp : UInt32
  timeout : UInt32
  retransmitTimeout : UInt32
  retransmitCount : UInt32
  serverIpAddr : UInt32
  requestedIpAddr : UInt32
  transactionId : UInt32
  configStartTime : UInt32
  leaseStartTime : UInt32
  leaseTime : UInt32
  t1 : UInt32
  t2 : UInt32

/-- What the random number generator returns while the timer handler runs: a transaction identifier,
the initial delay, and the randomization of the retransmission timeout. -/
structure Random where
  id : UInt32
  delay : UInt32
  factor : UInt32

/-! ## Operations shared by the states -/

/-- `dhcpClientChangeState(context, newState, delay)`. -/
def dhcpClientChangeState (context : DhcpClientContext) (time : UInt32) (newState : DhcpState)
    (delay : UInt32) : DhcpClientContext :=
  { context with timestamp := time, timeout := delay, retransmitCount := 0, state := newState }

/-- `dhcpClientCheckTimeout(context)`. -/
def dhcpClientCheckTimeout (context : DhcpClientContext) (time : UInt32) : DhcpClientContext :=
  if context.settings.timeoutEvent = true ∧
      timeCompare time (context.configStartTime + context.settings.timeout) ≥ 0 ∧
      context.timeoutEventDone = false then
    { context with timeoutEventDone := true }
  else context

/-- The host address is no longer valid, and the subnet mask is cleared. -/
def NetInterface.withdraw (interface : NetInterface) : NetInterface :=
  { interface with
    addr := IPV4_UNSPECIFIED_ADDR, addrState := .invalid, subnetMask := IPV4_UNSPECIFIED_ADDR }

/-- Seconds to milliseconds, with `MAX_DELAY` for what is too long. -/
def toMilliseconds (t : UInt32) : UInt32 :=
  if t < MAX_DELAY / 1000 then t * 1000 else MAX_DELAY

/-- Wait for the link to be up, then for a random time. -/
def startConfig (context : DhcpClientContext) (time : UInt32) (newState : DhcpState)
    (rand : Random) : DhcpClientContext :=
  if context.running = true then
    if context.interface.linkState = true then
      let context := { context with configStartTime := time, timeoutEventDone := false }
      dhcpClientChangeState context time newState rand.delay
    else context
  else context

/-- Send a DHCPREQUEST message, up to `DHCP_CLIENT_REQUEST_MAX_RC` times with a timeout that
doubles. -/
def sendRequests (context : DhcpClientContext) (time : UInt32) (rand : Random) :
    DhcpClientContext :=
  let context :=
    if timeCompare time (context.timestamp + context.timeout) ≥ 0 then
      if context.retransmitCount = 0 then
        { context with
          transactionId := rand.id
          retransmitTimeout := DHCP_CLIENT_REQUEST_INIT_RT
          timestamp := time
          timeout := DHCP_CLIENT_REQUEST_INIT_RT + rand.factor
          retransmitCount := context.retransmitCount + 1 }
      else if context.retransmitCount < DHCP_CLIENT_REQUEST_MAX_RC then
        let retransmitTimeout :=
          if context.retransmitTimeout * 2 > DHCP_CLIENT_REQUEST_MAX_RT then
            DHCP_CLIENT_REQUEST_MAX_RT
          else context.retransmitTimeout * 2
        { context with
          retransmitTimeout := retransmitTimeout
          timestamp := time
          timeout := retransmitTimeout + rand.factor
          retransmitCount := context.retransmitCount + 1 }
      else dhcpClientChangeState context time .init 0
    else context
  dhcpClientCheckTimeout context time

/-- Send DHCPREQUEST messages until `limit` milliseconds have passed since the lease was obtained,
waiting one half of the remaining time after each, down to a minimum. -/
def extendLease (context : DhcpClientContext) (time limit : UInt32) (rand : Random)
    (expired : DhcpClientContext) : DhcpClientContext :=
  if timeCompare time (context.timestamp + context.timeout) ≥ 0 then
    if timeCompare time (context.leaseStartTime + limit) < 0 then
      let remaining := context.leaseStartTime + limit - time
      { context with
        transactionId := if context.retransmitCount = 0 then rand.id else context.transactionId
        timestamp := time
        timeout :=
          if remaining > 2 * DHCP_CLIENT_REQUEST_MIN_DELAY then remaining / 2 else remaining
        retransmitCount := context.retransmitCount + 1 }
    else expired
  else context

/-! ## The states -/

/-- `dhcpClientStateInit(context)`. -/
def dhcpClientStateInit (context : DhcpClientContext) (time : UInt32) (rand : Random) :
    DhcpClientContext :=
  startConfig context time .selecting rand

/-- `dhcpClientStateSelecting(context)`. -/
def dhcpClientStateSelecting (context : DhcpClientContext) (time : UInt32) (rand : Random) :
    DhcpClientContext :=
  let context :=
    if timeCompare time (context.timestamp + context.timeout) ≥ 0 then
      let transactionId := if context.retransmitCount = 0 then rand.id else context.transactionId
      let retransmitTimeout :=
        if context.retransmitCount = 0 then DHCP_CLIENT_DISCOVER_INIT_RT
        else if context.retransmitTimeout * 2 > DHCP_CLIENT_DISCOVER_MAX_RT then
          DHCP_CLIENT_DISCOVER_MAX_RT
        else context.retransmitTimeout * 2
      { context with
        transactionId := transactionId
        retransmitTimeout := retransmitTimeout
        timestamp := time
        timeout := retransmitTimeout + rand.factor
        retransmitCount := context.retransmitCount + 1 }
    else context
  dhcpClientCheckTimeout context time

/-- `dhcpClientStateRequesting(context)`. -/
def dhcpClientStateRequesting (context : DhcpClientContext) (time : UInt32) (rand : Random) :
    DhcpClientContext :=
  sendRequests context time rand

/-- `dhcpClientStateInitReboot(context)`. -/
def dhcpClientStateInitReboot (context : DhcpClientContext) (time : UInt32) (rand : Random) :
    DhcpClientContext :=
  startConfig context time .rebooting rand

/-- `dhcpClientStateRebooting(context)`. -/
def dhcpClientStateRebooting (context : DhcpClientContext) (time : UInt32) (rand : Random) :
    DhcpClientContext :=
  sendRequests context time rand

/-- `dhcpClientStateProbing(context)`. -/
def dhcpClientStateProbing (context : DhcpClientContext) (time : UInt32) : DhcpClientContext :=
  if timeCompare time (context.timestamp + context.timeout) ≥ 0 then
    if context.interface.addrConflict = true then dhcpClientChangeState context time .init 0
    else if context.retransmitCount < DHCP_CLIENT_PROBE_NUM then
      { context with
        timestamp := time
        timeout := DHCP_CLIENT_PROBE_DELAY
        retransmitCount := context.retransmitCount + 1 }
    else
      dhcpClientChangeState
        { context with interface := { context.interface with addrState := .valid } } time .bound 0
  else context

/-- `dhcpClientStateBound(context)`. -/
def dhcpClientStateBound (context : DhcpClientContext) (time : UInt32) : DhcpClientContext :=
  if context.t1 ≠ DHCP_INFINITE_TIME then
    if timeCompare time (context.leaseStartTime + toMilliseconds context.t1) ≥ 0 then
      dhcpClientChangeState { context with configStartTime := time } time .renewing 0
    else context
  else context

/-- `dhcpClientStateRenewing(context)`. -/
def dhcpClientStateRenewing (context : DhcpClientContext) (time : UInt32) (rand : Random) :
    DhcpClientContext :=
  extendLease context time (toMilliseconds context.t2) rand
    (dhcpClientChangeState context time .rebinding 0)

/-- `dhcpClientStateRebinding(context)`. -/
def dhcpClientStateRebinding (context : DhcpClientContext) (time : UInt32) (rand : Random) :
    DhcpClientContext :=
  extendLease context time (toMilliseconds context.leaseTime) rand
    (dhcpClientChangeState { context with interface := context.interface.withdraw } time .init 0)

/-- `dhcpClientTick(context)`. -/
def dhcpClientTick (context : DhcpClientContext) (time : UInt32) (rand : Random) :
    DhcpClientContext :=
  match context.state with
  | .init => dhcpClientStateInit context time rand
  | .selecting => dhcpClientStateSelecting context time rand
  | .requesting => dhcpClientStateRequesting context time rand
  | .initReboot => dhcpClientStateInitReboot context time rand
  | .rebooting => dhcpClientStateRebooting context time rand
  | .probing => dhcpClientStateProbing context time
  | .bound => dhcpClientStateBound context time
  | .renewing => dhcpClientStateRenewing context time rand
  | .rebinding => dhcpClientStateRebinding context time rand

/-! ## Messages -/

/-- The Server Identifier option, which every message of a server carries. -/
def serverIdOption (message : DhcpMessage) : Option UInt32 :=
  dhcpGetOption32 message DHCP_OPT_SERVER_IDENTIFIER

/-- `dhcpClientParseOffer(context, message, length)`. -/
def dhcpClientParseOffer (context : DhcpClientContext) (time : UInt32) (message : DhcpMessage) :
    DhcpClientContext :=
  if message.xid = context.transactionId ∧ message.yiaddr ≠ IPV4_UNSPECIFIED_ADDR ∧
      message.chaddr = context.interface.macAddr ∧ context.state = .selecting then
    match serverIdOption message with
    | none => context
    | some serverId =>
        let context :=
          { context with serverIpAddr := serverId, requestedIpAddr := message.yiaddr }
        dhcpClientChangeState context time .requesting 0
  else context

/-- May a message of this server be accepted in the current state? DHCPACK and DHCPNAK messages are
both accepted in four states, in two of them from the server that was asked only. -/
def checkServer (context : DhcpClientContext) (serverId : UInt32) : Bool :=
  match context.state with
  | .requesting | .renewing => serverId = context.serverIpAddr
  | .rebooting | .rebinding => true
  | _ => false

/-- Rapid commit: a DHCPACK message in the SELECTING state. -/
def checkRapidCommit (context : DhcpClientContext) (message : DhcpMessage) : Bool :=
  context.settings.rapidCommit &&
    match dhcpGetOption message DHCP_OPT_RAPID_COMMIT with
    | some value => value.length = 0
    | none => false

/-- The checks of `dhcpClientParseAck` that come before anything is recorded. -/
def acceptsAck (context : DhcpClientContext) (message : DhcpMessage) : Bool :=
  message.xid = context.transactionId && message.yiaddr ≠ IPV4_UNSPECIFIED_ADDR &&
    message.chaddr = context.interface.macAddr &&
    match serverIdOption message with
    | none => false
    | some serverId =>
        (if context.state = .selecting then checkRapidCommit context message
          else checkServer context serverId) &&
          (dhcpGetOption32 message DHCP_OPT_IP_ADDRESS_LEASE_TIME).isSome

/-- The lease time and the two timers that a DHCPACK message sets. -/
def parseTimers (context : DhcpClientContext) (message : DhcpMessage) : DhcpClientContext :=
  let leaseTime := (dhcpGetOption32 message DHCP_OPT_IP_ADDRESS_LEASE_TIME).getD context.leaseTime
  let t1 :=
    match dhcpGetOption32 message DHCP_OPT_RENEWAL_TIME_VALUE with
    | some t1 => t1
    | none => if leaseTime ≠ DHCP_INFINITE_TIME then leaseTime / 2 else DHCP_INFINITE_TIME
  let t2 :=
    match dhcpGetOption32 message DHCP_OPT_REBINDING_TIME_VALUE with
    | some t2 => t2
    | none => if leaseTime ≠ DHCP_INFINITE_TIME then leaseTime * 7 / 8 else DHCP_INFINITE_TIME
  { context with leaseTime := leaseTime, t1 := t1, t2 := t2 }

/-- The other parameters of the interface that a DHCPACK message sets. -/
def parseInterface (settings : DhcpClientSettings) (interface : NetInterface)
    (message : DhcpMessage) : NetInterface :=
  let subnetMask := (dhcpGetOption32 message DHCP_OPT_SUBNET_MASK).getD interface.subnetMask
  let defaultGateway :=
    match dhcpGetOption message DHCP_OPT_ROUTER with
    | some value =>
        if value.length % 4 = 0 ∧ 4 ≤ value.length then LOAD32BE value else interface.defaultGateway
    | none => interface.defaultGateway
  let dnsServerList :=
    match settings.manualDnsConfig, dhcpGetOption message DHCP_OPT_DNS_SERVER with
    | false, some value => fun i =>
        if value.length % 4 = 0 ∧ i.val < value.length / 4 then LOAD32BE (value.drop (i.val * 4))
        else interface.dnsServerList i
    | _, _ => interface.dnsServerList
  let linkMtu :=
    match dhcpGetOption message DHCP_OPT_INTERFACE_MTU with
    | some value =>
        if value.length = 2 ∧ LOAD16BE value ≥ IPV4_MINIMUM_MTU ∧ LOAD16BE value ≤ interface.mtu then
          LOAD16BE value
        else interface.linkMtu
    | none => interface.linkMtu
  { interface with
    subnetMask := subnetMask
    defaultGateway := defaultGateway
    dnsServerList := dnsServerList
    linkMtu := linkMtu }

/-- The end of `dhcpClientParseAck`: the address is probed first, or assigned at once. -/
def assignAddress (context : DhcpClientContext) (time : UInt32) (yiaddr : UInt32) :
    DhcpClientContext :=
  if context.state = .requesting ∨ context.state = .rebooting then
    let interface :=
      { context.interface with addr := yiaddr, addrState := .tentative, addrConflict := false }
    dhcpClientChangeState { context with interface := interface } time .probing 0
  else
    let interface := { context.interface with addr := yiaddr, addrState := .valid }
    dhcpClientChangeState { context with interface := interface } time .bound 0

/-- `dhcpClientParseAck(context, message, length)`. -/
def dhcpClientParseAck (context : DhcpClientContext) (time : UInt32) (message : DhcpMessage) :
    DhcpClientContext :=
  if acceptsAck context message = true then
    let context := parseTimers context message
    let context :=
      { context with
        interface := parseInterface context.settings context.interface message
        serverIpAddr := (serverIdOption message).getD context.serverIpAddr
        requestedIpAddr := message.yiaddr
        leaseStartTime := time }
    assignAddress context time message.yiaddr
  else context

/-- `dhcpClientParseNak(context, message, length)`. -/
def dhcpClientParseNak (context : DhcpClientContext) (time : UInt32) (message : DhcpMessage) :
    DhcpClientContext :=
  if message.xid = context.transactionId ∧ message.chaddr = context.interface.macAddr then
    match serverIdOption message with
    | none => context
    | some serverId =>
        if checkServer context serverId = true then
          dhcpClientChangeState { context with interface := context.interface.withdraw } time .init 0
        else context
  else context

/-- The checks of `dhcpClientProcessMessage` that end with the message type. -/
def messageType (message : DhcpMessage) : Option UInt8 :=
  if message.length ≤ DHCP_MAX_MSG_SIZE ∧ message.op = DHCP_OPCODE_BOOTREPLY ∧
      message.htype = DHCP_HARDWARE_TYPE_ETH ∧ message.hlen = 6 ∧
      message.magicCookie = DHCP_MAGIC_COOKIE then
    match dhcpGetOption message DHCP_OPT_DHCP_MESSAGE_TYPE with
    | some [type] => some type
    | _ => none
  else none

/-- `dhcpClientProcessMessage(interface, pseudoHeader, udpHeader, buffer, offset, param)`. -/
def dhcpClientProcessMessage (context : DhcpClientContext) (time : UInt32)
    (message : DhcpMessage) : DhcpClientContext :=
  match messageType message with
  | none => context
  | some type =>
      if type = DHCP_MESSAGE_TYPE_OFFER then dhcpClientParseOffer context time message
      else if type = DHCP_MESSAGE_TYPE_ACK then dhcpClientParseAck context time message
      else if type = DHCP_MESSAGE_TYPE_NAK then dhcpClientParseNak context time message
      else context

/-! ## Start and link changes -/

/-- `dhcpClientStart(context)`. -/
def dhcpClientStart (context : DhcpClientContext) : DhcpClientContext :=
  { context with interface := context.interface.withdraw, running := true, state := .init }

/-- `dhcpClientLinkChangeEvent(context)`. -/
def dhcpClientLinkChangeEvent (context : DhcpClientContext) : DhcpClientContext :=
  let context :=
    if context.running = true then { context with interface := context.interface.withdraw }
    else context
  if context.state.val ≥ DhcpState.initReboot.val then { context with state := .initReboot }
  else { context with state := .init }

end Dhcp
