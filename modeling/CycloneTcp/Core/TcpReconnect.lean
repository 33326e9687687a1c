import CycloneTcp.Core.TcpDelivery

set_option autoImplicit false

/-! # Reconnecting a socket

`tcpConnect` accepts a socket whose connection is over, and initializes a part of the control block; the
rest stays as the connection has left it, while `socketOpen` clears all of it. Whether the difference
can be seen is a question about two runs, on the socket and on a freshly opened one, with the same ports,
buffer sizes, random values and memory. -/

namespace Tcp

/-! ## What a run shows -/

/-- What a step shows: the bytes and the result that a call gives to the user, the segments that have been
sent, and the state. -/
structure Observation where
  reply : Option (List UInt8 × Outcome)
  sent : List (TcpState × OutSegment)
  state : TcpState

/-- What the call of a step gives to the user. -/
def reply (slot : Slot) : Event → Option (List UInt8 × Outcome)
  | .setTxBufferSize size => some ([], .returns (socketSetTxBufferSize slot.socket size).1)
  | .setRxBufferSize size => some ([], .returns (socketSetRxBufferSize slot.socket size).1)
  | .connect remoteIpAddr remotePort env =>
      some ([], (tcpConnect slot.socket remoteIpAddr remotePort env).2)
  | .listen backlog => some ([], .returns (tcpListen slot.socket backlog).1)
  | .send data flags => some (tcpSend slot.socket data flags).2
  | .receive size flags => some (tcpReceive slot.socket size flags).2
  | .shutdown how => some ([], (tcpShutdown slot.socket how).2)
  | .abort => some ([], .returns (tcpAbort slot.socket).1)
  | .resume i missed =>
      if missed then none else slot.calls[i]?.map fun call => (resumeCall slot.socket call).2
  | _ => none

/-- What the steps of a run show. -/
def trace (slot : Slot) : List Event → List Observation
  | [] => []
  | event :: events =>
      let slot' := step slot event
      { reply := reply slot event, sent := slot'.socket.net.sent, state := slot'.socket.state }
        :: trace slot' events

/-- A freshly opened socket with the port and the buffer sizes of `socket`, on the same network. -/
def reopened (socket : Socket) : Socket :=
  let newSocket := socketOpen socket .stream socket.localPort
  { newSocket with
    snd := { newSocket.snd with txBufferSize := socket.snd.txBufferSize }
    rcv := { newSocket.rcv with rxBufferSize := socket.rcv.rxBufferSize } }

/-- Every run that starts with `tcpConnect` shows the same on the socket and on a freshly opened one. -/
def ReconnectsAsNew (socket : Socket) : Prop :=
  ∀ (remoteIpAddr : IpAddr) (remotePort : UInt16) (env : ConnectEnv) (later : List Event),
    trace { socket := socket, calls := [] } (.connect remoteIpAddr remotePort env :: later)
      = trace { socket := reopened socket, calls := [] }
          (.connect remoteIpAddr remotePort env :: later)

/-! ## A segment of the last connection is sent again -/

/-- The step takes the slot for another socket. -/
def Event.Takes : Event → Prop
  | .open _ _ | .accept _ _ _ _ _ _ => True
  | _ => False

/-- A connection is asked for, with the initial sequence number 100, -/
def connecting : List Event :=
  [.open .stream 49152, .connect (.ipv4 1) 80 ⟨.ok (0, .ipv4 2), true, 100⟩]

/-- and the peer refuses it. -/
def refused : List Event :=
  [.segment (.ofData { rst := true, ack := true } 0 101 0 [] noData_lt) true]

/-- The socket is connected again, with the initial sequence number 200. When the retransmission timer
elapses, it is the SYN of the connection that was refused that is sent again. -/
theorem reconnecting_differs :
    ¬ ∀ (outcomes : ℕ → SendOutcome) (before after : List Event),
      (run step (Slot.init outcomes) before).socket.state ≠ .closed →
      (∀ event ∈ after, ¬ event.Takes) →
      (run step (Slot.init outcomes) (before ++ after)).socket.type = .stream →
      (run step (Slot.init outcomes) (before ++ after)).socket.state = .closed →
      ReconnectsAsNew (run step (Slot.init outcomes) (before ++ after)).socket := by
  intro h
  have hsame := h (fun _ => {}) connecting refused (by decide) (by simp [refused, Event.Takes])
    (by decide) (by decide) (.ipv4 1) 80 ⟨.ok (0, .ipv4 2), true, 200⟩
    [.tick { retransmit := true }]
  have hsent := congrArg (List.map fun seen => seen.sent.map (·.2.header.seqNum)) hsame
  exact absurd hsent (by decide)

end Tcp
