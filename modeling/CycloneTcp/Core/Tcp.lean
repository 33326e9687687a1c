import CycloneTcp.Core.TcpTimer

set_option autoImplicit false

/-! # User calls

A call holds the network mutex except where it waits for an event. It is therefore a sequence of
sections, each of which runs without interruption: a section ends when the call returns or when it
blocks, and `Call` is what a blocked call still has to do. A wait for an event that has been
signalled already does not release the mutex, so the section goes on. -/

namespace Tcp

/-- A call that waits for an event. -/
inductive Call where
  /-- `tcpConnect`, for the connection to be established. -/
  | connect
  /-- `tcpSend`, for room in the send buffer; `data` is what has not been copied yet. -/
  | send (data : List UInt8) (flags : SocketFlags)
  /-- `tcpSend` with `SOCKET_FLAG_WAIT_ACK`, for the acknowledgment. -/
  | sendAck
  /-- `tcpReceive`, for data; `received` bytes of `size` have been read. -/
  | receive (size received : ℕ) (flags : SocketFlags)
  /-- `tcpShutdown`, in the call of `tcpSend` that flushes the send buffer. The FIN is to take the
  connection to the state `next`. -/
  | flush (how : SocketShutdown) (next : TcpState)
  /-- `tcpShutdown`, for all the data to be sent. -/
  | sendFin (how : SocketShutdown) (next : TcpState)
  /-- `tcpShutdown`, for the FIN to be acknowledged. -/
  | finAcked (how : SocketShutdown)
  /-- `tcpShutdown`, for the FIN of the peer. -/
  | finReceived (how : SocketShutdown)
  deriving DecidableEq, Repr

/-- How a section ends. -/
inductive Outcome where
  | blocks (call : Call)
  | returns (error : ErrorCode)
  deriving DecidableEq, Repr

/-! ## Opening and aborting -/

/-- A cleared socket. -/
def Socket.cleared (net : Network) (history : History) : Socket :=
  { type := .unused, ownedFlag := false, interface := none
    localIpAddr := .unspecified, localPort := 0, remoteIpAddr := .unspecified, remotePort := 0
    state := .closed, closedFlag := false, resetFlag := false
    rcv :=
      { rmss := 0, irs := 0, rcvNxt := 0, rcvUser := 0, rcvWnd := 0, rxBuffer := .empty
        rxBufferSize := 0, sackBlock := [] }
    snd :=
      { smss := 0, iss := 0, sndUna := 0, sndNxt := 0, sndUser := 0, sndWnd := 0, maxSndWnd := 0
        sndWl1 := 0, sndWl2 := 0, rttBusy := false, rttSeqNum := 0, congestState := .idle
        cwnd := 0, ssthresh := 0, dupAckCount := 0, n := 0, recover := 0, txBuffer := .empty
        txBufferSize := 0, retransmitQueue := [], retransmitTimer := false, retransmitCount := 0
        wndProbeCount := 0, wndProbeInterval := 0, persistTimer := false, overrideTimer := false }
    finWait2Timer := false, timeWaitTimer := false, synQueue := [], synQueueSize := 0
    net := net, history := history }

/-- A socket as `socketOpen` leaves it. -/
def socketOpen (socket : Socket) (type : SocketType) (port : UInt16) : Socket :=
  let socket := Socket.cleared socket.net socket.history.restart
  { socket with
    type := type, localPort := port
    snd := { socket.snd with
      txBufferSize := min TCP_DEFAULT_TX_BUFFER_SIZE TCP_MAX_TX_BUFFER_SIZE }
    rcv := { socket.rcv with
      rxBufferSize := min TCP_DEFAULT_RX_BUFFER_SIZE TCP_MAX_RX_BUFFER_SIZE } }

/-- Specify the size of the send buffer. -/
def socketSetTxBufferSize (socket : Socket) (size : ℕ) : ErrorCode × Socket :=
  if size < 1 ∨ TCP_MAX_TX_BUFFER_SIZE < size then (.invalidParameter, socket)
  else if socket.type ≠ .stream ∨ socket.state ≠ .closed then (.invalidSocket, socket)
  else (.noError, { socket with snd := { socket.snd with txBufferSize := size } })

/-- Specify the size of the receive buffer. -/
def socketSetRxBufferSize (socket : Socket) (size : ℕ) : ErrorCode × Socket :=
  if size < 1 ∨ TCP_MAX_RX_BUFFER_SIZE < size then (.invalidParameter, socket)
  else if socket.type ≠ .stream ∨ socket.state ≠ .closed then (.invalidSocket, socket)
  else (.noError, { socket with rcv := { socket.rcv with rxBufferSize := size } })

/-- Abort the connection and release the socket, unless it is in the TIME-WAIT state. -/
def tcpAbort (socket : Socket) : ErrorCode × Socket :=
  match socket.state with
  | .synReceived | .established | .finWait1 | .finWait2 | .closeWait =>
      let (error, socket) := tcpSendSegment socket { rst := true } socket.snd.sndNxt 0 0 false
      (error, disposeSocket (tcpChangeState socket .closed))
  | .timeWait => (.noError, { socket with ownedFlag := false })
  | _ => (.noError, disposeSocket (tcpChangeState socket .closed))

/-! ## Establishing connections -/

/-- Allocate the send and receive buffers. -/
def allocBuffers (socket : Socket) : Socket :=
  { socket with
    snd := { socket.snd with
      txBuffer := { socket.snd.txBuffer with length := socket.snd.txBufferSize } }
    rcv := { socket.rcv with
      rxBuffer := { socket.rcv.rxBuffer with length := socket.rcv.rxBufferSize } } }

/-- Initialize the control block; the initial receive sequence number is not known yet. -/
def initControlBlock (socket : Socket) (smss : UInt16) (iss : UInt32) : Socket :=
  { socket with
    snd := { socket.snd with
      smss := smss, iss := iss, sndUna := iss, sndNxt := iss + 1
      cwnd := initialCwnd smss socket.snd.txBufferSize, ssthresh := 65535, recover := iss }
    rcv := { socket.rcv with
      rmss := UInt16.ofNat (min socket.rcv.rxBufferSize TCP_MAX_MSS)
      rcvUser := 0, rcvWnd := UInt16.ofNat socket.rcv.rxBufferSize } }

/-- What the environment contributes to `tcpConnect`: the interface and the source address, whether
the buffers can be had, and the random initial sequence number. -/
structure ConnectEnv where
  source : Except ErrorCode (ℕ × IpAddr)
  memory : Bool
  iss : UInt32

/-- The control block of a connection that is opened actively. -/
def activeBlock (socket : Socket) (iss : UInt32) : Socket :=
  let socket := initControlBlock (allocBuffers socket)
    (UInt16.ofNat (min TCP_DEFAULT_MSS TCP_MAX_MSS)) iss
  { socket with snd := { socket.snd with congestState := .idle } }

/-- Send a SYN segment and switch to the SYN-SENT state. -/
def sendSyn (socket : Socket) : ErrorCode × Socket :=
  let (error, socket) := tcpSendSegment socket { syn := true } socket.snd.iss 0 0 true
  if error ≠ .noError then (error, socket) else (.noError, tcpChangeState socket .synSent)

/-- `tcpConnect` on a socket in the CLOSED state, up to the wait. -/
def openConnection (socket : Socket) (remoteIpAddr : IpAddr) (remotePort : UInt16)
    (env : ConnectEnv) : ErrorCode × Socket :=
  let socket := { socket with
    remoteIpAddr := remoteIpAddr, remotePort := remotePort, history := socket.history.restart }
  match env.source with
  | .error error => (error, socket)
  | .ok (interface, addr) =>
      let socket := { socket with interface := some interface, localIpAddr := addr }
      if addr = .unspecified then (.notConfigured, socket)
      else
        let socket := { socket with ownedFlag := true }
        if env.memory = false then (.outOfMemory, tcpDeleteControlBlock socket)
        else sendSyn (activeBlock socket env.iss)

/-- Wait for the connection to be established. -/
def awaitConnected (socket : Socket) : Outcome :=
  if socket.connected then .returns .noError
  else if socket.closed then .returns .connectionFailed
  else .blocks .connect

/-- Establish a TCP connection. -/
def tcpConnect (socket : Socket) (remoteIpAddr : IpAddr) (remotePort : UInt16)
    (env : ConnectEnv) : Socket × Outcome :=
  if socket.state = .closed then
    let (error, socket) := openConnection socket remoteIpAddr remotePort env
    if error ≠ .noError then (socket, .returns error) else (socket, awaitConnected socket)
  else (socket, awaitConnected socket)

/-- Place a socket in the listening state. -/
def tcpListen (socket : Socket) (backlog : ℕ) : ErrorCode × Socket :=
  if socket.state ≠ .closed then (.alreadyConnected, socket)
  else
    let size := if 0 < backlog then backlog else TCP_DEFAULT_SYN_QUEUE_SIZE
    let socket := { socket with synQueueSize := min size TCP_MAX_SYN_QUEUE_SIZE }
    (.noError, tcpChangeState socket .listen)

/-- The control block of a connection that is opened by a request to the listening socket
`socket`. -/
def passiveBlock (socket newSocket : Socket) (queueItem : TcpSynQueueItem) (iss : UInt32) :
    Socket :=
  let newSocket := { allocBuffers newSocket with
    interface := some queueItem.interface
    localIpAddr := queueItem.destAddr, localPort := socket.localPort
    remoteIpAddr := queueItem.srcAddr, remotePort := queueItem.srcPort }
  let newSocket := initControlBlock newSocket queueItem.mss iss
  { newSocket with rcv := { newSocket.rcv with
    irs := queueItem.isn, rcvNxt := queueItem.isn + 1 } }

/-- Send a SYN ACK segment and switch to the SYN-RECEIVED state, or dispose of the socket. -/
def sendSynAck (newSocket : Socket) : ErrorCode × Socket :=
  let (error, newSocket) := tcpSendSegment newSocket { syn := true, ack := true }
    newSocket.snd.iss newSocket.rcv.rcvNxt 0 true
  if error ≠ .noError then (error, (tcpAbort newSocket).2)
  else (.noError, tcpChangeState newSocket .synReceived)

/-- Give the new socket to the user, with the buffer sizes of the listening socket `socket`. -/
def inheritSettings (socket newSocket : Socket) : Socket :=
  { newSocket with
    ownedFlag := true
    snd := { newSocket.snd with txBufferSize := socket.snd.txBufferSize }
    rcv := { newSocket.rcv with rxBufferSize := socket.rcv.rxBufferSize } }

/-- What `tcpAccept` does with the new socket that it has opened for a connection request to the
listening socket `socket`: the connection is set up, or the new socket is aborted. -/
def acceptConnection (socket newSocket : Socket) (queueItem : TcpSynQueueItem) (memory : Bool)
    (iss : UInt32) : ErrorCode × Socket :=
  let newSocket := inheritSettings socket newSocket
  if memory = false then (.outOfMemory, (tcpAbort newSocket).2)
  else sendSynAck (passiveBlock socket newSocket queueItem iss)

/-! ## Sending data -/

/-- The result of a call that finds the connection closed. -/
def closedError (socket : Socket) : ErrorCode :=
  if socket.resetFlag then .connectionReset else .notConnected

/-- Copy the first `n` bytes of user data to the send buffer. -/
def copyUserData (socket : Socket) (data : List UInt8) (n : ℕ) : Socket :=
  if 0 < n then
    let snd := tcpWriteTxBuffer socket.snd
      (socket.snd.sndNxt + socket.snd.sndUser.toUInt32) data n
    let snd := { snd with sndUser := snd.sndUser + UInt16.ofNat n }
    { socket with
      snd := { snd with
        overrideTimer := if snd.sndUser.toNat = n then true else snd.overrideTimer }
      history := { socket.history with written := socket.history.written ++ data.take n } }
  else socket

/-- `tcpSend` once the data has been acknowledged or the connection closed. -/
def sendAcked (socket : Socket) : Outcome :=
  match socket.state with
  | .established | .closeWait => .returns .noError
  | _ => .returns .notConnected

/-- The end of `tcpSend`. -/
def awaitAck (socket : Socket) (flags : SocketFlags) : Outcome :=
  if flags.waitAck then if socket.txAcked then sendAcked socket else .blocks .sendAck
  else .returns .noError

/-- Send as much data as possible. Every round but the last copies at least one byte. Gives the
bytes that were copied, too. -/
def tcpSendLoop (flags : SocketFlags) :
    ℕ → Socket → List UInt8 → Socket × List UInt8 × Outcome
  | 0, socket, _ => (socket, [], .returns .failure)
  | fuel + 1, socket, data =>
      if socket.txReady = false then (socket, [], .blocks (.send data flags))
      else
        match socket.state with
        | .established | .closeWait =>
            if socket.snd.txBufferSize ≤ socket.snd.pending.toNat then
              (socket, [], .returns .failure)
            else
              let n := min (socket.snd.txBufferSize - socket.snd.pending.toNat) data.length
              let socket := (tcpNagleAlgo (copyUserData socket data n) flags).2
              if n < data.length then
                let (socket, copied, outcome) := tcpSendLoop flags fuel socket (data.drop n)
                (socket, data.take n ++ copied, outcome)
              else (socket, data.take n, awaitAck socket flags)
        | .lastAck | .finWait1 | .finWait2 | .closing | .timeWait =>
            (socket, [], .returns .connectionClosing)
        | _ => (socket, [], .returns (closedError socket))

/-- Send data to a TCP socket. -/
def tcpSend (socket : Socket) (data : List UInt8) (flags : SocketFlags) :
    Socket × List UInt8 × Outcome :=
  if socket.state = .listen then (socket, [], .returns .notConnected)
  else tcpSendLoop flags (data.length + 1) socket data

/-! ## Receiving data -/

/-- The sequence number of the first byte to read, or the result of a call that does not read. -/
def firstUnread (socket : Socket) (received : ℕ) : Except ErrorCode UInt32 :=
  let rcv := socket.rcv
  let atEnd := if 0 < received then ErrorCode.noError else .endOfStream
  match socket.state with
  | .established | .finWait1 | .finWait2 =>
      if rcv.rcvUser = 0 then .error .failure else .ok (rcv.rcvNxt - rcv.rcvUser.toUInt32)
  | .closeWait | .lastAck | .closing | .timeWait =>
      if rcv.rcvUser = 0 then .error atEnd
      else .ok (rcv.rcvNxt - 1 - rcv.rcvUser.toUInt32)
  | _ =>
      if socket.resetFlag then .error .connectionReset
      else if socket.closedFlag = false then .error .notConnected
      else if rcv.rcvUser = 0 then .error atEnd
      else .ok (rcv.rcvNxt - 1 - rcv.rcvUser.toUInt32)

/-- Copy up to `n` bytes from the receive buffer, up to the break character if one is given. -/
def copyReceived (socket : ReceiveSide) (seqNum : UInt32) (n : ℕ) (flags : SocketFlags) :
    List UInt8 :=
  let data := (tcpReadRxBuffer socket seqNum (fun _ => 0) 0 n).read 0 n
  match flags.breakChar with
  | some c => data.take (data.findIdx (· == c) + 1)
  | none => data

/-- `data` has been read: more can be received. -/
def consume (socket : Socket) (data : List UInt8) : Socket :=
  tcpUpdateReceiveWindow { socket with
    rcv := { socket.rcv with rcvUser := socket.rcv.rcvUser - UInt16.ofNat data.length }
    history := { socket.history with delivered := socket.history.delivered ++ data } }

/-- Whether `tcpReceive` is content with the data it has just read. -/
def receiveStops (data : List UInt8) (flags : SocketFlags) : Bool :=
  match flags.breakChar with
  | some c => data.getLast? = some c
  | none => !flags.waitAll

/-- Read as much data as possible. Every round but the last reads at least one byte. Gives the bytes
that were read, too. -/
def tcpReceiveLoop (flags : SocketFlags) (size : ℕ) :
    ℕ → Socket → ℕ → Socket × List UInt8 × Outcome
  | 0, socket, _ => (socket, [], .returns .failure)
  | fuel + 1, socket, received =>
      if size ≤ received then (socket, [], .returns .noError)
      else if socket.rxReady = false then (socket, [], .blocks (.receive size received flags))
      else
        match firstUnread socket received with
        | .error error => (socket, [], .returns error)
        | .ok seqNum =>
            let n := min socket.rcv.rcvUser.toNat (size - received)
            let data := copyReceived socket.rcv seqNum n flags
            let socket := consume socket data
            if receiveStops data flags then (socket, data, .returns .noError)
            else
              let (socket, more, outcome) :=
                tcpReceiveLoop flags size fuel socket (received + data.length)
              (socket, data ++ more, outcome)

/-- Receive data from a TCP socket. -/
def tcpReceive (socket : Socket) (size : ℕ) (flags : SocketFlags) :
    Socket × List UInt8 × Outcome :=
  if socket.state = .listen then (socket, [], .returns .notConnected)
  else tcpReceiveLoop flags size (size + 1) socket 0

/-! ## Shutting down -/

/-- Disable reception: wait for the FIN of the peer. -/
def shutdownReceive (socket : Socket) (how : SocketShutdown) : Outcome :=
  if how = .send then .returns .noError
  else
    match socket.state with
    | .closed | .listen => .returns .notConnected
    | .synSent | .synReceived | .established | .finWait1 | .finWait2 =>
        if socket.rxShutdown then .returns .noError else .blocks (.finReceived how)
    | _ => .returns .noError

/-- Wait for the FIN to be acknowledged. -/
def awaitFinAcked (socket : Socket) (how : SocketShutdown) : Outcome :=
  if socket.txShutdown then shutdownReceive socket how else .blocks (.finAcked how)

/-- Send a FIN segment and switch to the state `next`. -/
def sendFin (socket : Socket) (how : SocketShutdown) (next : TcpState) : Socket × Outcome :=
  let (error, socket) := tcpSendSegment socket { fin := true, ack := true } socket.snd.sndNxt
    socket.rcv.rcvNxt 0 true
  if error ≠ .noError then (socket, .returns error)
  else
    let socket := { socket with snd := { socket.snd with sndNxt := socket.snd.sndNxt + 1 } }
    let socket := tcpChangeState socket next
    (socket, awaitFinAcked socket how)

/-- Wait for all the data to be sent, then send the FIN. -/
def awaitTxDone (socket : Socket) (how : SocketShutdown) (next : TcpState) : Socket × Outcome :=
  if socket.txDone then sendFin socket how next else (socket, .blocks (.sendFin how next))

/-- Flush the send buffer. -/
def flush (socket : Socket) (how : SocketShutdown) (next : TcpState) : Socket × Outcome :=
  match tcpSendLoop { noDelay := true } 1 socket [] with
  | (socket, _, .blocks _) => (socket, .blocks (.flush how next))
  | (socket, _, .returns .noError) => awaitTxDone socket how next
  | (socket, _, .returns error) => (socket, .returns error)

/-- Shutdown gracefully reception, transmission, or both. Where the transmission needs no shutdown,
what is left of `SOCKET_SD_BOTH` is `SOCKET_SD_RECEIVE`. -/
def tcpShutdown (socket : Socket) (how : SocketShutdown) : Socket × Outcome :=
  if how = .receive then (socket, shutdownReceive socket how)
  else
    match socket.state with
    | .closed | .listen => (socket, .returns .notConnected)
    | .synReceived | .established => flush socket how .finWait1
    | .closeWait => flush socket how .lastAck
    | .finWait1 | .closing | .lastAck => (socket, awaitFinAcked socket how)
    | _ => (socket, shutdownReceive socket (if how = .both then .receive else how))

/-! ## Resuming -/

/-- Go on with a blocked call once the event it waits for has been signalled; otherwise the wait has
timed out. Gives the bytes that were copied from and to the user, too. -/
def resumeCall (socket : Socket) : Call → Socket × List UInt8 × Outcome
  | .connect =>
      (socket, [], match awaitConnected socket with
        | .blocks _ => .returns .timeout
        | outcome => outcome)
  | .send data flags =>
      if socket.txReady then tcpSendLoop flags (data.length + 1) socket data
      else (socket, [], .returns .timeout)
  | .sendAck => (socket, [], if socket.txAcked then sendAcked socket else .returns .timeout)
  | .receive size received flags =>
      if socket.rxReady then tcpReceiveLoop flags size (size + 1) socket received
      else (socket, [], .returns .timeout)
  | .flush how next =>
      if socket.txReady then
        let (socket, outcome) := flush socket how next
        (socket, [], outcome)
      else (socket, [], .returns .timeout)
  | .sendFin how next =>
      if socket.txDone then
        let (socket, outcome) := sendFin socket how next
        (socket, [], outcome)
      else (socket, [], .returns .timeout)
  | .finAcked how =>
      (socket, [], if socket.txShutdown then shutdownReceive socket how else .returns .timeout)
  | .finReceived _ =>
      (socket, [], if socket.rxShutdown then .returns .noError else .returns .timeout)

end Tcp
