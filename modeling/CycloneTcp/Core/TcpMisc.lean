import CycloneTcp.Core.TcpBuffer

set_option autoImplicit false

/-! # Helper functions of the connection logic

What the state machine, the user calls and the timers share: sending and retransmitting segments,
the checks of an incoming segment, acknowledgments with the congestion control behind them, incoming
data with the blocks received out of order, and the windows. Events are not stored: whether a call
that waits may go on is computed from the state (`txReady` and the like), as `tcpUpdateEvents` does
whenever the state has changed. -/

namespace Tcp

/-! ## Events -/

/-- `SOCKET_EVENT_CONNECTED`. -/
def Socket.connected (socket : Socket) : Bool :=
  match socket.state with
  | .established | .finWait1 | .finWait2 | .closeWait | .lastAck | .closing => true
  | _ => false

/-- `SOCKET_EVENT_CLOSED`. -/
def Socket.closed (socket : Socket) : Bool :=
  match socket.state with
  | .timeWait | .closed => true
  | _ => false

/-- `SOCKET_EVENT_TX_SHUTDOWN`. -/
def Socket.txShutdown (socket : Socket) : Bool :=
  match socket.state with
  | .finWait2 | .timeWait | .closed => true
  | _ => false

/-- `SOCKET_EVENT_RX_SHUTDOWN`. -/
def Socket.rxShutdown (socket : Socket) : Bool :=
  match socket.state with
  | .closeWait | .lastAck | .closing | .timeWait | .closed => true
  | _ => false

/-- Amount of data in the send buffer. -/
def SendSide.pending (socket : SendSide) : UInt32 :=
  socket.sndUser.toUInt32 + socket.sndNxt - socket.sndUna

/-- `SOCKET_EVENT_TX_READY`. -/
def Socket.txReady (socket : Socket) : Bool :=
  match socket.state with
  | .established | .closeWait => socket.snd.pending.toNat < socket.snd.txBufferSize
  | .synSent | .synReceived | .listen => false
  | _ => true

/-- `SOCKET_EVENT_TX_DONE`. -/
def Socket.txDone (socket : Socket) : Bool :=
  match socket.state with
  | .established | .closeWait => socket.snd.sndUser = 0
  | .listen => false
  | _ => true

/-- `SOCKET_EVENT_TX_ACKED`. -/
def Socket.txAcked (socket : Socket) : Bool :=
  match socket.state with
  | .established | .closeWait =>
      socket.snd.sndUser = 0 && 0 ≤ tcpCmpSeq socket.snd.sndUna socket.snd.sndNxt
  | .listen => false
  | _ => true

/-- `SOCKET_EVENT_RX_READY`. -/
def Socket.rxReady (socket : Socket) : Bool :=
  match socket.state with
  | .established | .finWait1 | .finWait2 => 0 < socket.rcv.rcvUser
  | .listen => !socket.synQueue.isEmpty
  | .synSent | .synReceived => false
  | _ => true

/-- Update the FSM state. -/
def tcpChangeState (socket : Socket) (newState : TcpState) : Socket :=
  let socket :=
    if newState = .closed then
      if socket.state = .lastAck ∨ socket.state = .timeWait then { socket with closedFlag := true }
      else { socket with resetFlag := true }
    else socket
  { socket with
    state := newState
    history := { socket.history with
      changes := socket.history.changes ++ [(socket.state, newState)] } }

/-! ## Sending segments -/

/-- Hand a segment of a connection in the given state to the network. -/
def Network.send (net : Network) (state : TcpState) (segment : OutSegment) : Network :=
  { net with sent := net.sent ++ [(state, segment)] }

/-- The answers from the next one on. -/
def Network.next (net : Network) : Network :=
  { net with outcomes := fun i => net.outcomes (i + 1) }

/-- Add a segment to the retransmission queue. -/
def SendSide.enqueue (socket : SendSide) (header : TcpHeader) (length : ℕ) : SendSide :=
  let item := { header := header, length := length, sacked := false : TcpQueueItem }
  let socket := { socket with retransmitQueue := socket.retransmitQueue ++ [item] }
  let socket :=
    if socket.rttBusy then socket
    else { socket with rttSeqNum := header.seqNum, rttBusy := true, n := 0 }
  if socket.retransmitTimer then socket
  else { socket with retransmitTimer := true, retransmitCount := 0 }

/-- The header of an outgoing segment. -/
def Socket.header (socket : Socket) (flags : TcpFlags) (seqNum ackNum : UInt32) : TcpHeader :=
  { flags := flags, seqNum := seqNum, ackNum := if flags.ack then ackNum else 0,
    window := socket.rcv.rcvWnd, mss := if flags.syn then some socket.rcv.rmss else none }

/-- The data of an outgoing segment. -/
def SendSide.payload (socket : SendSide) (chunks : Bool) (seqNum : UInt32) (length : ℕ) :
    ErrorCode × FlatBuffer :=
  if length = 0 then (.noError, .empty)
  else if chunks = false then (.failure, .empty)
  else tcpReadTxBuffer socket seqNum .empty length

/-- Send a TCP segment. -/
def tcpSendSegment (socket : Socket) (flags : TcpFlags) (seqNum ackNum : UInt32) (length : ℕ)
    (addToQueue : Bool) : ErrorCode × Socket :=
  let outcome := socket.net.outcomes 0
  let net := socket.net.next
  if outcome.buffer = false then (.outOfMemory, { socket with net := net })
  else
    let header := socket.header flags seqNum ackNum
    let payload := socket.snd.payload outcome.chunks seqNum length
    if payload.1 ≠ .noError then (payload.1, { socket with net := net })
    else if socket.remoteIpAddr = .unspecified then (.invalidAddress, { socket with net := net })
    else if addToQueue = true ∧ outcome.item = false then (.outOfMemory, { socket with net := net })
    else
      (outcome.ip,
        { socket with
          snd := if addToQueue then socket.snd.enqueue header length else socket.snd
          net := net.send socket.state { header := header, data := payload.2.data } })

/-- Send an ACK segment without data. -/
def tcpSendAck (socket : Socket) : Socket :=
  (tcpSendSegment socket { ack := true } socket.snd.sndNxt socket.rcv.rcvNxt 0 false).2

/-- The segments of the queue that fit in one MSS, the first `length` bytes of which have been
sent. -/
def retransmitLoop (state : TcpState) (snd : SendSide) :
    Network → ℕ → List TcpQueueItem → ErrorCode × Network
  | net, _, [] => (.noError, net)
  | net, length, queueItem :: queue =>
      let length := length + queueItem.length
      let outcome := net.outcomes 0
      let (error, data) := tcpReadTxBuffer snd queueItem.header.seqNum .empty queueItem.length
      if snd.smss.toNat < length then (.noError, net)
      else if outcome.buffer = false then (.outOfMemory, net.next)
      else if outcome.chunks = false then (.failure, net.next)
      else if error ≠ .noError then (error, net.next)
      else
        let net := net.next.send state { header := queueItem.header, data := data.data }
        if outcome.ip ≠ .noError then (outcome.ip, net) else retransmitLoop state snd net length queue

/-- Retransmit the earliest segments that have not been acknowledged. -/
def tcpRetransmitSegment (socket : Socket) : Socket :=
  { socket with
    net := (retransmitLoop socket.state socket.snd socket.net 0 socket.snd.retransmitQueue).2 }

/-! ## Checks of an incoming segment -/

/-- The acceptability test. -/
def acceptable (socket : ReceiveSide) (segment : Segment) : Bool :=
  if segment.length = 0 ∧ socket.rcvWnd = 0 then segment.seqNum = socket.rcvNxt
  else if segment.length = 0 then
    0 ≤ tcpCmpSeq segment.seqNum socket.rcvNxt &&
      tcpCmpSeq segment.seqNum (socket.rcvNxt + socket.rcvWnd.toUInt32) < 0
  else if socket.rcvWnd ≠ 0 then
    let last := segment.seqNum + UInt32.ofNat segment.length - 1
    (0 ≤ tcpCmpSeq segment.seqNum socket.rcvNxt &&
      tcpCmpSeq segment.seqNum (socket.rcvNxt + socket.rcvWnd.toUInt32) < 0) ||
    (0 ≤ tcpCmpSeq last socket.rcvNxt &&
      tcpCmpSeq last (socket.rcvNxt + socket.rcvWnd.toUInt32) < 0)
  else false

/-- Test the sequence number of an incoming segment. -/
def tcpCheckSequenceNumber (socket : Socket) (segment : Segment) : ErrorCode × Socket :=
  if acceptable socket.rcv segment then (.noError, socket)
  else (.failure, if segment.flags.rst then socket else tcpSendAck socket)

/-- Check the SYN bit of an incoming segment. -/
def tcpCheckSyn (socket : Socket) (segment : Segment) : ErrorCode × Socket :=
  if segment.flags.syn then
    if segment.flags.ack then
      (.failure, (tcpSendSegment socket { rst := true } segment.ackNum 0 0 false).2)
    else
      (.failure, (tcpSendSegment socket { rst := true, ack := true } 0
        (segment.seqNum + UInt32.ofNat segment.length + 1) 0 false).2)
  else (.noError, socket)

/-- Test whether the incoming SYN segment is a duplicate. -/
def tcpIsDuplicateSyn (socket : Socket) (segment : Segment) : Bool :=
  socket.synQueue.any fun queueItem =>
    queueItem.srcAddr = segment.srcAddr && queueItem.destAddr = segment.destAddr &&
      queueItem.srcPort = segment.srcPort

/-- Test whether the incoming acknowledgment is a duplicate. -/
def tcpIsDuplicateAck (socket : SendSide) (segment : Segment) : Bool :=
  !socket.retransmitQueue.isEmpty && segment.length = 0 &&
    !(segment.flags.syn || segment.flags.fin) && segment.ackNum = socket.sndUna &&
    segment.window = socket.sndWnd

/-! ## Acknowledgments -/

/-- Length of a queued segment. -/
def TcpQueueItem.segmentLength (queueItem : TcpQueueItem) : ℕ :=
  if queueItem.header.flags.syn then 1
  else if queueItem.header.flags.fin then queueItem.length + 1
  else queueItem.length

/-- The segment has been acknowledged entirely. -/
def acknowledged (sndUna : UInt32) (queueItem : TcpQueueItem) : Bool :=
  0 ≤ tcpCmpSeq sndUna (queueItem.header.seqNum + UInt32.ofNat queueItem.segmentLength)

/-- Remove acknowledged segments from the retransmission queue. -/
def tcpUpdateRetransmitQueue (socket : SendSide) : SendSide :=
  let queue := socket.retransmitQueue.filter (fun item => !acknowledged socket.sndUna item)
  let socket :=
    if socket.retransmitQueue.any (acknowledged socket.sndUna) then
      { socket with retransmitTimer := true, retransmitCount := 0 }
    else socket
  { socket with
    retransmitQueue := queue
    retransmitTimer := if queue.isEmpty then false else socket.retransmitTimer }

/-- Compute the retransmission timeout; tells whether a measurement is complete. -/
def tcpComputeRto (socket : SendSide) : Bool × SendSide :=
  if socket.rttBusy = true ∧ 0 < tcpCmpSeq socket.sndUna socket.rttSeqNum then
    (true, { socket with rttBusy := false })
  else (false, socket)

/-- Update the send window. -/
def tcpUpdateSendWindow (socket : SendSide) (segment : Segment) : SendSide :=
  if segment.seqNum = socket.sndWl1 ∧ segment.ackNum = socket.sndWl2 then
    if socket.sndWnd < segment.window then
      { socket with
        sndWnd := segment.window, sndWl1 := segment.seqNum, sndWl2 := segment.ackNum
        maxSndWnd := max socket.maxSndWnd segment.window }
    else socket
  else if 0 ≤ tcpCmpSeq segment.seqNum socket.sndWl1 ∧
      0 ≤ tcpCmpSeq segment.ackNum socket.sndWl2 then
    let socket :=
      if segment.window = 0 ∧ socket.sndWnd ≠ 0 then
        { socket with
          wndProbeCount := 0, wndProbeInterval := TCP_DEFAULT_PROBE_INTERVAL, persistTimer := true }
      else socket
    { socket with
      sndWnd := segment.window, sndWl1 := segment.seqNum, sndWl2 := segment.ackNum
      maxSndWnd := max socket.maxSndWnd segment.window }
  else socket

/-- Amount of data that has been sent but not yet acknowledged. -/
def SendSide.flightSize (socket : SendSide) : UInt32 := socket.sndNxt - socket.sndUna

/-- The congestion window is at most as large as the send buffer. -/
def SendSide.limitCwnd (socket : SendSide) : SendSide :=
  { socket with cwnd := UInt16.ofNat (min socket.cwnd.toNat socket.txBufferSize) }

/-- Fast retransmit. -/
def tcpFastRetransmit (socket : Socket) : Socket :=
  let snd := socket.snd
  let socket := { socket with snd := { snd with
    ssthresh := UInt16.ofNat (max (snd.flightSize.toNat / 2) (2 * snd.smss.toNat))
    recover := snd.sndNxt - 1 } }
  let socket := tcpRetransmitSegment socket
  let snd := socket.snd
  { socket with snd := { snd with
    cwnd := UInt16.ofNat (snd.ssthresh.toNat + TCP_FAST_RETRANSMIT_THRES * snd.smss.toNat)
    congestState := .recovery } }

/-- Fast recovery; `n` is the number of bytes acknowledged. -/
def tcpFastRecovery (socket : Socket) (segment : Segment) (n : UInt32) : Socket :=
  if 0 < tcpCmpSeq segment.ackNum socket.snd.recover then
    { socket with snd := { socket.snd with cwnd := socket.snd.ssthresh, congestState := .idle } }
  else
    let socket := tcpRetransmitSegment socket
    let snd := socket.snd
    let cwnd := if n.toNat < snd.cwnd.toNat then snd.cwnd - n.toUInt16 else snd.cwnd
    let cwnd := if snd.smss.toNat ≤ n.toNat then cwnd + snd.smss else cwnd
    { socket with snd := { snd with cwnd := cwnd, congestState := .recovery } }

/-- Fast loss recovery. -/
def tcpFastLossRecovery (socket : Socket) (segment : Segment) : Socket :=
  if 0 < tcpCmpSeq segment.ackNum socket.snd.recover then
    { socket with snd := { socket.snd with congestState := .idle } }
  else
    let socket := tcpRetransmitSegment socket
    { socket with snd := { socket.snd with congestState := .lossRecovery } }

/-- The number of bytes an ACK acknowledges; the SYN is none. -/
def SendSide.bytesAcked (socket : SendSide) (ackNum : UInt32) : UInt32 :=
  let n := ackNum - socket.sndUna
  if socket.sndUna = socket.iss then n - 1 else n

/-- Update SND.UNA, the round-trip measurement, which may be complete, and the queue. -/
def SendSide.takeAck (socket : SendSide) (ackNum : UInt32) : Bool × SendSide :=
  let (updateFlag, socket) :=
    tcpComputeRto { socket with n := socket.n + socket.bytesAcked ackNum, sndUna := ackNum }
  (updateFlag, tcpUpdateRetransmitQueue socket)

/-- Slow start and congestion avoidance. -/
def SendSide.growCwnd (socket : SendSide) (n : UInt32) (updateFlag : Bool) : SendSide :=
  if socket.cwnd < socket.ssthresh then
    { socket with cwnd := socket.cwnd + UInt16.ofNat (min n.toNat socket.smss.toNat) }
  else if updateFlag then
    { socket with cwnd := socket.cwnd + UInt16.ofNat (min socket.n.toNat socket.smss.toNat) }
  else socket

/-- Congestion control on an ACK for `n` bytes. -/
def congestionOnAck (socket : Socket) (segment : Segment) (n : UInt32) (updateFlag : Bool) :
    Socket :=
  if socket.snd.congestState = .recovery then tcpFastRecovery socket segment n
  else
    let socket := { socket with snd := { socket.snd with dupAckCount := 0 } }
    let socket :=
      if socket.snd.congestState = .lossRecovery then tcpFastLossRecovery socket segment else socket
    { socket with snd := socket.snd.growCwnd n updateFlag }

/-- `tcpCheckAck` on an ACK that acknowledges new data. -/
def ackNewData (socket : Socket) (segment : Segment) : Socket :=
  let n := socket.snd.bytesAcked segment.ackNum
  let (updateFlag, snd) := socket.snd.takeAck segment.ackNum
  let socket := congestionOnAck { socket with snd := snd } segment n updateFlag
  { socket with snd := socket.snd.limitCwnd }

/-- The number of duplicate ACKs that triggers fast retransmit. -/
def dupAckThreshold (socket : SendSide) : ℕ :=
  let ownd := socket.flightSize.toNat
  if socket.sndUser = 0 ∨ socket.sndWnd.toNat ≤ ownd then
    if ownd ≤ 3 * socket.smss.toNat then 1
    else if ownd ≤ 4 * socket.smss.toNat then 2
    else TCP_FAST_RETRANSMIT_THRES
  else TCP_FAST_RETRANSMIT_THRES

/-- Congestion control on an ACK that acknowledges nothing new. -/
def congestionOnDupAck (socket : Socket) (segment : Segment) (duplicateFlag : Bool) : Socket :=
  match socket.snd.congestState with
  | .idle =>
      if dupAckThreshold socket.snd ≤ socket.snd.dupAckCount.toNat ∧
          0 < tcpCmpSeq segment.ackNum (socket.snd.recover + 1) then tcpFastRetransmit socket
      else socket
  | .recovery =>
      if duplicateFlag then
        { socket with snd := { socket.snd with cwnd := socket.snd.cwnd + socket.snd.smss } }
      else socket
  | .lossRecovery => socket

/-- `tcpCheckAck` on an ACK that acknowledges nothing new. -/
def ackNoData (socket : Socket) (segment : Segment) (duplicateFlag : Bool) : Socket :=
  let socket := { socket with snd := { socket.snd with
    dupAckCount := if duplicateFlag then socket.snd.dupAckCount + 1 else 0 } }
  let socket := congestionOnDupAck socket segment duplicateFlag
  { socket with snd := socket.snd.limitCwnd }

/-- Check the ACK field of an incoming segment. -/
def tcpCheckAck (socket : Socket) (segment : Segment) : ErrorCode × Socket :=
  if segment.flags.ack = false then (.failure, socket)
  else if tcpCmpSeq segment.ackNum socket.snd.sndUna < 0 then (.noError, socket)
  else if 0 < tcpCmpSeq segment.ackNum socket.snd.sndNxt then (.failure, tcpSendAck socket)
  else
    let duplicateFlag := tcpIsDuplicateAck socket.snd segment
    let socket := { socket with snd := tcpUpdateSendWindow socket.snd segment }
    if 0 < tcpCmpSeq segment.ackNum socket.snd.sndUna then (.noError, ackNewData socket segment)
    else (.noError, ackNoData socket segment duplicateFlag)

/-! ## Incoming data -/

/-- Merge the range with the blocks that it touches, and keep the other blocks. -/
def mergeSackBlocks (leftEdge rightEdge : UInt32) :
    List TcpSackBlock → UInt32 × UInt32 × List TcpSackBlock
  | [] => (leftEdge, rightEdge, [])
  | block :: blocks =>
      if 0 ≤ tcpCmpSeq rightEdge block.leftEdge ∧ tcpCmpSeq leftEdge block.rightEdge ≤ 0 then
        mergeSackBlocks (min leftEdge block.leftEdge) (max rightEdge block.rightEdge) blocks
      else
        let (leftEdge, rightEdge, rest) := mergeSackBlocks leftEdge rightEdge blocks
        (leftEdge, rightEdge, block :: rest)

/-- Update the list of non-contiguous blocks. -/
def tcpUpdateSackBlocks (socket : ReceiveSide) (leftEdge rightEdge : UInt32) :
    UInt32 × UInt32 × ReceiveSide :=
  let (leftEdge, rightEdge, blocks) := mergeSackBlocks leftEdge rightEdge socket.sackBlock
  let blocks :=
    if 0 < tcpCmpSeq leftEdge socket.rcvNxt then
      ({ leftEdge := leftEdge, rightEdge := rightEdge } :: blocks).take TCP_MAX_SACK_BLOCKS
    else blocks
  (leftEdge, rightEdge, { socket with sackBlock := blocks })

/-- Advance RCV.NXT over contiguous data. -/
def ReceiveSide.advance (socket : ReceiveSide) (length : UInt32) : ReceiveSide :=
  { socket with
    rcvNxt := socket.rcvNxt + length
    rcvUser := socket.rcvUser + length.toUInt16
    rcvWnd := socket.rcvWnd - length.toUInt16 }

/-- The receive side's part of `tcpProcessSegmentData`. -/
def receiveData (socket : ReceiveSide) (segment : Segment) : ReceiveSide :=
  let leftEdge := segment.seqNum
  let rightEdge := segment.seqNum + UInt32.ofNat segment.length
  -- data outside the window is ignored, on both sides
  let (offset, leftEdge) :=
    if tcpCmpSeq leftEdge socket.rcvNxt < 0 then
      (segment.offset + (socket.rcvNxt - leftEdge).toNat, socket.rcvNxt)
    else (segment.offset, leftEdge)
  let rightEdge :=
    if 0 < tcpCmpSeq rightEdge (socket.rcvNxt + socket.rcvWnd.toUInt32) then
      socket.rcvNxt + socket.rcvWnd.toUInt32
    else rightEdge
  let socket :=
    tcpWriteRxBuffer socket leftEdge segment.buffer offset (rightEdge - leftEdge).toNat
  let (leftEdge, rightEdge, socket) := tcpUpdateSackBlocks socket leftEdge rightEdge
  if 0 < tcpCmpSeq leftEdge socket.rcvNxt then socket
  else socket.advance (rightEdge - leftEdge)

/-- Process the segment text. The data is acknowledged at once, in order or not. -/
def tcpProcessSegmentData (socket : Socket) (segment : Segment) : Socket :=
  tcpSendAck { socket with rcv := receiveData socket.rcv segment }

/-- Release the resources of a connection. -/
def tcpDeleteControlBlock (socket : Socket) : Socket :=
  { socket with
    synQueue := []
    snd := { socket.snd with
      retransmitQueue := [], retransmitTimer := false
      txBuffer := socket.snd.txBuffer.netBufferRelease }
    rcv := { socket.rcv with rxBuffer := socket.rcv.rxBuffer.netBufferRelease } }

/-- The smallest window worth advertising. -/
def ReceiveSide.threshold (socket : ReceiveSide) : ℕ :=
  min socket.rmss.toNat (socket.rxBufferSize / 2)

/-- Advertise the space that is available, unless that would still be a small window. -/
def ReceiveSide.openWindow (socket : ReceiveSide) : ReceiveSide :=
  let reduction := UInt16.ofNat socket.rxBufferSize - socket.rcvUser - socket.rcvWnd
  if socket.threshold ≤ socket.rcvWnd.toNat + reduction.toNat then
    { socket with rcvWnd := socket.rcvWnd + reduction }
  else socket

/-- Update the receive window. An ACK advertises a window that was too small before. -/
def tcpUpdateReceiveWindow (socket : Socket) : Socket :=
  let rcv := socket.rcv
  let reduction := UInt16.ofNat rcv.rxBufferSize - rcv.rcvUser - rcv.rcvWnd
  let socket := { socket with rcv := rcv.openWindow }
  if rcv.threshold ≤ rcv.rcvWnd.toNat + reduction.toNat ∧ rcv.rcvWnd.toNat < rcv.threshold then
    tcpSendAck socket
  else socket

/-! ## Sending data -/

/-- Move `n` bytes from unsent to sent. -/
def SendSide.advance (socket : SendSide) (n : ℕ) : SendSide :=
  { socket with
    sndNxt := socket.sndNxt + UInt32.ofNat n
    sndUser := socket.sndUser - UInt16.ofNat n }

/-- The usable window: what the windows admit less what is in flight. -/
def SendSide.usableWindow (socket : SendSide) : UInt32 :=
  UInt32.ofNat (min (min socket.sndWnd.toNat socket.txBufferSize) socket.cwnd.toNat)
    - (socket.sndNxt - socket.sndUna)

/-- Send segments as long as there is data, the window is open and `sends` allows a segment of `n`
bytes. Every segment takes at least one byte, so `sndUser` rounds are enough. -/
def sendLoop (sends : SendSide → UInt32 → ℕ → Bool) : ℕ → UInt32 → Socket → ErrorCode × Socket
  | 0, _, socket => (.noError, socket)
  | fuel + 1, u, socket =>
      if socket.snd.sndUser = 0 ∨ u.toBitVec.toInt ≤ 0 then (.noError, socket)
      else
        let n := min (min u.toNat socket.snd.sndUser.toNat) socket.snd.smss.toNat
        if sends socket.snd u n then
          let (error, socket) := tcpSendSegment socket { psh := true, ack := true }
            socket.snd.sndNxt socket.rcv.rcvNxt n true
          if error ≠ .noError then (error, socket)
          else
            sendLoop sends fuel (u - UInt32.ofNat n) { socket with snd := socket.snd.advance n }
        else (.noError, socket)

/-- Whether the Nagle algorithm lets a segment of `n` bytes go. -/
def nagleSends (flags : SocketFlags) (socket : SendSide) (u : UInt32) (n : ℕ) : Bool :=
  let ready := min socket.sndUser.toNat u.toNat
  if flags.noDelay then 0 < n
  else if flags.delay then socket.smss.toNat ≤ ready
  else
    socket.smss.toNat ≤ ready ||
    (socket.sndNxt = socket.sndUna && socket.sndUser.toNat ≤ u.toNat) ||
    socket.maxSndWnd.toNat / 2 ≤ ready

/-- Nagle algorithm. -/
def tcpNagleAlgo (socket : Socket) (flags : SocketFlags) : ErrorCode × Socket :=
  sendLoop (nagleSends flags) socket.snd.sndUser.toNat socket.snd.usableWindow socket

end Tcp
