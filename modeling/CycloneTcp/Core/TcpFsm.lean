import CycloneTcp.Core.TcpMisc

set_option autoImplicit false

/-! # The TCP state machine

One function for each state, for the segment that the socket table has found to belong to the
socket. -/

namespace Tcp

/-- The smallest segment size that is used when the peer announces `mss`. -/
def clampMss (mss : UInt16) : UInt16 :=
  max (min mss (UInt16.ofNat TCP_MAX_MSS)) (UInt16.ofNat TCP_MIN_MSS)

/-- The LISTEN state: the connection request is queued, the rest is up to `tcpAccept`. `memory`
tells whether the queue item can be had. A reset in reply to an ACK is sent without the socket. -/
def tcpStateListen (socket : Socket) (segment : Segment) (memory : Bool) : Socket :=
  if segment.flags.rst then socket
  else if segment.flags.ack then socket
  else if segment.flags.syn then
    if tcpIsDuplicateSyn socket segment then socket
    else if socket.synQueue ≠ [] ∧ socket.synQueueSize ≤ socket.synQueue.length then socket
    else if memory = false then socket
    else
      let queueItem : TcpSynQueueItem :=
        { interface := segment.interface, srcAddr := segment.srcAddr, srcPort := segment.srcPort
          destAddr := segment.destAddr, isn := segment.seqNum
          mss := match segment.mss with
            | some mss => clampMss mss
            | none => UInt16.ofNat (min TCP_DEFAULT_MSS TCP_MAX_MSS) }
      { socket with synQueue := socket.synQueue ++ [queueItem] }
  else socket

/-- The congestion window a connection starts with. -/
def initialCwnd (smss : UInt16) (txBufferSize : ℕ) : UInt16 :=
  UInt16.ofNat (min (TCP_INITIAL_WINDOW * smss.toNat) txBufferSize)

/-- Set the send window as the connection enters the ESTABLISHED state. -/
def SendSide.openWindow (socket : SendSide) (segment : Segment) : SendSide :=
  { socket with
    sndWnd := segment.window, sndWl1 := segment.seqNum, sndWl2 := segment.ackNum
    maxSndWnd := segment.window }

/-- Set the sender maximum segment size to what the peer announces. -/
def SendSide.setMss (socket : SendSide) (mss : Option UInt16) : SendSide :=
  match mss with
  | some mss => { socket with smss := clampMss mss }
  | none => socket

/-- What the SYN of the peer changes on the send side. -/
def SendSide.takeSyn (socket : SendSide) (segment : Segment) : SendSide :=
  let socket := if segment.flags.ack then { socket with sndUna := segment.ackNum } else socket
  let socket := tcpUpdateRetransmitQueue (tcpComputeRto socket).2
  let socket := socket.setMss segment.mss
  { socket with cwnd := initialCwnd socket.smss socket.txBufferSize }

/-- What the SYN of the peer changes in the SYN-SENT state. -/
def receiveSyn (socket : Socket) (segment : Segment) : Socket :=
  { socket with
    rcv := { socket.rcv with irs := segment.seqNum, rcvNxt := segment.seqNum + 1 }
    snd := socket.snd.takeSyn segment }

/-- The SYN-SENT state. -/
def tcpStateSynSent (socket : Socket) (segment : Segment) : Socket :=
  if segment.flags.ack = true ∧ segment.ackNum ≠ socket.snd.sndNxt then
    if segment.flags.rst then socket
    else (tcpSendSegment socket { rst := true } segment.ackNum 0 0 false).2
  else if segment.flags.rst then
    if segment.flags.ack then tcpChangeState socket .closed else socket
  else if segment.flags.syn then
    let socket := receiveSyn socket segment
    if 0 < tcpCmpSeq socket.snd.sndUna socket.snd.iss then
      let socket := tcpSendAck { socket with snd := socket.snd.openWindow segment }
      tcpChangeState socket .established
    else
      let socket := (tcpSendSegment socket { syn := true, ack := true } socket.snd.iss
        socket.rcv.rcvNxt 0 true).2
      tcpChangeState socket .synReceived
  else socket

/-- Advance RCV.NXT over the FIN of the peer and acknowledge it. -/
def receiveFin (socket : Socket) : Socket :=
  tcpSendAck { socket with
    rcv := { socket.rcv with rcvNxt := socket.rcv.rcvNxt + 1 }
    history := { socket.history with finReceived := true } }

/-- Process the segment text, if there is any. -/
def receiveText (socket : Socket) (segment : Segment) : Socket :=
  if 0 < segment.length then tcpProcessSegmentData socket segment else socket

/-- The FIN can be acknowledged: all the data before it has been transferred to the receive
buffer. -/
def finInOrder (socket : Socket) (segment : Segment) : Bool :=
  segment.flags.fin && socket.rcv.rcvNxt = segment.seqNum + UInt32.ofNat segment.length

/-- Send what the acknowledgment has made room for. -/
def sendPending (socket : Socket) : Socket :=
  (tcpNagleAlgo socket { noDelay := 0 < socket.snd.dupAckCount }).2

/-- The checks that most states make first. The continuation is for the segment that passes
them. -/
def checkSegment (socket : Socket) (segment : Segment)
    (checkAck : Socket → Segment → ErrorCode × Socket) (process : Socket → Socket) : Socket :=
  let (error, socket) := tcpCheckSequenceNumber socket segment
  if error ≠ .noError then socket
  else if segment.flags.rst then tcpChangeState socket .closed
  else
    let (error, socket) := tcpCheckSyn socket segment
    if error ≠ .noError then socket
    else
      let (error, socket) := checkAck socket segment
      if error ≠ .noError then socket else process socket

/-- The check of the states that only test the ACK bit. -/
def checkAckBit (socket : Socket) (segment : Segment) : ErrorCode × Socket :=
  (if segment.flags.ack then .noError else .failure, socket)

/-- The ESTABLISHED state. -/
def tcpStateEstablished (socket : Socket) (segment : Segment) : Socket :=
  checkSegment socket segment tcpCheckAck fun socket =>
    let socket := receiveText socket segment
    let socket :=
      if finInOrder socket segment then tcpChangeState (receiveFin socket) .closeWait else socket
    sendPending socket

/-- The SYN-RECEIVED state. -/
def tcpStateSynReceived (socket : Socket) (segment : Segment) : Socket :=
  checkSegment socket segment checkAckBit fun socket =>
    if segment.ackNum ≠ socket.snd.sndNxt then
      (tcpSendSegment socket { rst := true } segment.ackNum 0 0 false).2
    else
      let socket := { socket with snd := socket.snd.openWindow segment }
      tcpStateEstablished (tcpChangeState socket .established) segment

/-- The CLOSE-WAIT state. -/
def tcpStateCloseWait (socket : Socket) (segment : Segment) : Socket :=
  checkSegment socket segment tcpCheckAck sendPending

/-- The LAST-ACK state. -/
def tcpStateLastAck (socket : Socket) (segment : Segment) : Socket :=
  checkSegment socket segment checkAckBit fun socket =>
    if segment.ackNum = socket.snd.sndNxt then tcpChangeState socket .closed else socket

/-- Release the resources, start the 2MSL timer and switch to the TIME-WAIT state. -/
def enterTimeWait (socket : Socket) : Socket :=
  tcpChangeState { tcpDeleteControlBlock socket with timeWaitTimer := true } .timeWait

/-- The FIN-WAIT-1 state. -/
def tcpStateFinWait1 (socket : Socket) (segment : Segment) : Socket :=
  checkSegment socket segment tcpCheckAck fun socket =>
    let socket :=
      if segment.ackNum = socket.snd.sndNxt then
        tcpChangeState { socket with finWait2Timer := true } .finWait2
      else socket
    let socket := receiveText socket segment
    if finInOrder socket segment then
      let socket := receiveFin socket
      if segment.ackNum = socket.snd.sndNxt then enterTimeWait socket
      else tcpChangeState socket .closing
    else socket

/-- The FIN-WAIT-2 state. -/
def tcpStateFinWait2 (socket : Socket) (segment : Segment) : Socket :=
  checkSegment socket segment tcpCheckAck fun socket =>
    let socket := receiveText socket segment
    if finInOrder socket segment then enterTimeWait (receiveFin socket) else socket

/-- The CLOSING state. -/
def tcpStateClosing (socket : Socket) (segment : Segment) : Socket :=
  checkSegment socket segment tcpCheckAck fun socket =>
    if segment.ackNum = socket.snd.sndNxt then enterTimeWait socket else socket

/-- Mark the socket as closed. -/
def disposeSocket (socket : Socket) : Socket :=
  { tcpDeleteControlBlock socket with type := .unused }

/-- The TIME-WAIT state. A reset is processed here, since the socket is disposed of if the user
does not have the ownership anymore. -/
def tcpStateTimeWait (socket : Socket) (segment : Segment) : Socket :=
  let (error, socket) := tcpCheckSequenceNumber socket segment
  if error ≠ .noError then socket
  else if segment.flags.rst then
    let socket := tcpChangeState socket .closed
    if socket.ownedFlag then socket else disposeSocket socket
  else
    let (error, socket) := tcpCheckSyn socket segment
    if error ≠ .noError then socket
    else if segment.flags.ack = true ∧ segment.flags.fin = true then
      { tcpSendAck socket with timeWaitTimer := true }
    else socket

/-- The segment acknowledges our FIN. -/
def acksFin (socket : Socket) (segment : Segment) : Bool :=
  (socket.state = .finWait1 || socket.state = .closing || socket.state = .lastAck) &&
    segment.flags.ack && segment.ackNum = socket.snd.sndNxt

/-- Incoming segment processing, once the socket is found. In the CLOSED state a reset is sent in
reply, without the socket. -/
def tcpProcessSegment (socket : Socket) (segment : Segment) (memory : Bool) : Socket :=
  let socket := { socket with history := { socket.history with
    finAcked := socket.history.finAcked || acksFin socket segment } }
  match socket.state with
  | .closed => socket
  | .listen => tcpStateListen socket segment memory
  | .synSent => tcpStateSynSent socket segment
  | .synReceived => tcpStateSynReceived socket segment
  | .established => tcpStateEstablished socket segment
  | .closeWait => tcpStateCloseWait socket segment
  | .lastAck => tcpStateLastAck socket segment
  | .finWait1 => tcpStateFinWait1 socket segment
  | .finWait2 => tcpStateFinWait2 socket segment
  | .closing => tcpStateClosing socket segment
  | .timeWait => tcpStateTimeWait socket segment

end Tcp
