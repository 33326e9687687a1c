import CycloneTcp.Core.TcpFsm

set_option autoImplicit false

/-! # TCP timer management

What `tcpTick` does to one socket, timer after timer. Which of the running timers have elapsed is
given. -/

namespace Tcp

/-- The timers whose interval has elapsed, if they are running. -/
structure Elapsed where
  retransmit : Bool := false
  persist : Bool := false
  override : Bool := false
  finWait2 : Bool := false
  timeWait : Bool := false
  deriving DecidableEq, Repr

/-- The loss of a segment is detected by the retransmission timer. -/
def SendSide.congestionTimeout (socket : SendSide) : SendSide :=
  { socket with
    ssthresh :=
      if socket.retransmitCount = 0 then
        UInt16.ofNat (max (socket.flightSize.toNat / 2) (2 * socket.smss.toNat))
      else socket.ssthresh
    cwnd := UInt16.ofNat (min (TCP_LOSS_WINDOW * socket.smss.toNat) socket.txBufferSize)
    recover := socket.sndNxt - 1
    congestState := .lossRecovery }

/-- The retransmission timer. -/
def tickRetransmit (socket : Socket) (elapsed : Elapsed) : Socket :=
  if socket.snd.retransmitQueue ≠ [] ∧ socket.snd.retransmitTimer = true ∧
      elapsed.retransmit = true then
    let socket := { socket with snd := socket.snd.congestionTimeout }
    let socket :=
      if socket.snd.retransmitCount < TCP_MAX_RETRIES then
        let socket := tcpRetransmitSegment socket
        { socket with snd := { socket.snd with
          retransmitTimer := true, retransmitCount := socket.snd.retransmitCount + 1 } }
      else
        let socket := tcpChangeState socket .closed
        { socket with snd := { socket.snd with retransmitTimer := false } }
    { socket with snd := { socket.snd with rttBusy := false } }
  else socket

/-- The persist timer. -/
def tickPersist (socket : Socket) (elapsed : Elapsed) : Socket :=
  if socket.snd.sndWnd = 0 ∧ socket.snd.wndProbeInterval ≠ 0 ∧ socket.snd.persistTimer = true ∧
      elapsed.persist = true then
    if socket.snd.wndProbeCount < TCP_MAX_RETRIES then
      -- the sequence number of a window probe is one less than expected
      let socket := (tcpSendSegment socket { ack := true } (socket.snd.sndNxt - 1)
        socket.rcv.rcvNxt 0 false).2
      { socket with snd := { socket.snd with
        wndProbeInterval := min (socket.snd.wndProbeInterval * 2) TCP_MAX_PROBE_INTERVAL
        persistTimer := true
        wndProbeCount := socket.snd.wndProbeCount + 1 } }
    else tcpChangeState socket .closed
  else socket

/-- The override timer: data is sent whatever the Nagle algorithm says. -/
def tickOverride (socket : Socket) (elapsed : Elapsed) : Socket :=
  if (socket.state = .established ∨ socket.state = .closeWait) ∧ socket.snd.sndUser ≠ 0 ∧
      socket.snd.overrideTimer = true ∧ elapsed.override = true then
    let socket := (sendLoop (fun _ _ _ => true) socket.snd.sndUser.toNat
      socket.snd.usableWindow socket).2
    if socket.snd.sndUser ≠ 0 then
      { socket with snd := { socket.snd with overrideTimer := true } }
    else socket
  else socket

/-- The FIN-WAIT-2 timer. -/
def tickFinWait2 (socket : Socket) (elapsed : Elapsed) : Socket :=
  if socket.state = .finWait2 ∧ socket.finWait2Timer = true ∧ elapsed.finWait2 = true then
    tcpChangeState socket .closed
  else socket

/-- The 2MSL timer. -/
def tickTimeWait (socket : Socket) (elapsed : Elapsed) : Socket :=
  if socket.state = .timeWait ∧ socket.timeWaitTimer = true ∧ elapsed.timeWait = true then
    let socket := tcpChangeState socket .closed
    if socket.ownedFlag then socket else disposeSocket socket
  else socket

/-- TCP timer handler, for one stream socket. -/
def tcpTick (socket : Socket) (elapsed : Elapsed) : Socket :=
  if socket.state = .closed then socket
  else
    let socket := tickRetransmit socket elapsed
    if socket.state = .closed then socket
    else
      let socket := tickPersist socket elapsed
      let socket := tickOverride socket elapsed
      let socket := tickFinWait2 socket elapsed
      tickTimeWait socket elapsed

end Tcp
