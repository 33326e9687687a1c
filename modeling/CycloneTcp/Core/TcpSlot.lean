import CycloneTcp.Core.Tcp
import CycloneTcp.Lib.Runs

set_option autoImplicit false

/-! # A slot of the socket table

A slot holds a socket and the calls that are blocked on it, made by any number of tasks. The mutex
serializes everything that happens to it: a step is a section of a call, an incoming segment or the
timer handler, and a run is any sequence of steps, over any number of connections. -/

namespace Tcp

/-- A slot. -/
structure Slot where
  socket : Socket
  calls : List Call

/-- The sizes of the buffers are acceptable. -/
def Socket.Sized (socket : Socket) : Prop :=
  1 ≤ socket.snd.txBufferSize ∧ socket.snd.txBufferSize ≤ TCP_MAX_TX_BUFFER_SIZE ∧
    1 ≤ socket.rcv.rxBufferSize ∧ socket.rcv.rxBufferSize ≤ TCP_MAX_RX_BUFFER_SIZE

/-- What can happen to a slot. -/
inductive Event where
  /-- `socketOpen` takes the slot. -/
  | open (type : SocketType) (port : UInt16)
  /-- `tcpAccept` takes the slot for a connection request to the listening socket `listener`. -/
  | accept (listener : Socket) (sized : listener.Sized) (port : UInt16)
      (queueItem : TcpSynQueueItem) (memory : Bool) (iss : UInt32)
  | setTxBufferSize (size : ℕ)
  | setRxBufferSize (size : ℕ)
  | connect (remoteIpAddr : IpAddr) (remotePort : UInt16) (env : ConnectEnv)
  | listen (backlog : ℕ)
  /-- `tcpAccept` takes a connection request from the listening socket. -/
  | dequeue
  | send (data : List UInt8) (flags : SocketFlags)
  | receive (size : ℕ) (flags : SocketFlags)
  | shutdown (how : SocketShutdown)
  | abort
  /-- A blocked call goes on, or gives up: a call can miss its event when another task waits on the
  same socket. -/
  | resume (i : ℕ) (missed : Bool)
  | segment (segment : Segment) (memory : Bool)
  | tick (elapsed : Elapsed)

/-- A section of a call has ended. -/
def Slot.endSection (slot : Slot) (socket : Socket) : Outcome → Slot
  | .blocks call => { socket := socket, calls := slot.calls ++ [call] }
  | .returns _ => { slot with socket := socket }

/-- One step of a slot. Calls on sockets of another type have no effect on the connection. -/
def step (slot : Slot) : Event → Slot
  | .open type port =>
      if slot.socket.type = .unused then { slot with socket := socketOpen slot.socket type port }
      else slot
  | .accept listener _ port queueItem memory iss =>
      if slot.socket.type = .unused then
        { slot with socket := (acceptConnection listener (socketOpen slot.socket .stream port)
            queueItem memory iss).2 }
      else slot
  | .setTxBufferSize size => { slot with socket := (socketSetTxBufferSize slot.socket size).2 }
  | .setRxBufferSize size => { slot with socket := (socketSetRxBufferSize slot.socket size).2 }
  | .resume i missed =>
      match slot.calls[i]? with
      | none => slot
      | some call =>
          let slot := { slot with calls := slot.calls.eraseIdx i }
          if missed then slot
          else
            let (socket, _, outcome) := resumeCall slot.socket call
            slot.endSection socket outcome
  | .connect remoteIpAddr remotePort env =>
      if slot.socket.type = .stream then
        let (socket, outcome) := tcpConnect slot.socket remoteIpAddr remotePort env
        slot.endSection socket outcome
      else slot
  | .listen backlog =>
      if slot.socket.type = .stream then
        { slot with socket := (tcpListen slot.socket backlog).2 }
      else slot
  | .dequeue => { slot with socket := { slot.socket with synQueue := slot.socket.synQueue.tail } }
  | .send data flags =>
      if slot.socket.type = .stream then
        let (socket, _, outcome) := tcpSend slot.socket data flags
        slot.endSection socket outcome
      else slot
  | .receive size flags =>
      if slot.socket.type = .stream then
        let (socket, _, outcome) := tcpReceive slot.socket size flags
        slot.endSection socket outcome
      else slot
  | .shutdown how =>
      if slot.socket.type = .stream then
        let (socket, outcome) := tcpShutdown slot.socket how
        slot.endSection socket outcome
      else slot
  | .abort =>
      if slot.socket.type = .stream then { slot with socket := (tcpAbort slot.socket).2 } else slot
  | .segment segment memory =>
      if slot.socket.type = .stream then
        { slot with socket := tcpProcessSegment slot.socket segment memory }
      else slot
  | .tick elapsed =>
      if slot.socket.type = .stream then { slot with socket := tcpTick slot.socket elapsed }
      else slot

/-- A slot of the cleared socket table, on a network that answers `outcomes`. -/
def Slot.init (outcomes : ℕ → SendOutcome) : Slot :=
  { socket := .cleared { outcomes := outcomes, sent := [] }
      { connections := 0, changes := [], written := [], delivered := []
        finAcked := false, finReceived := false }
    calls := [] }

/-- A segment that holds `data`. -/
def Segment.ofData (flags : TcpFlags) (seqNum ackNum : UInt32) (window : UInt16) (data : List UInt8)
    (hdata : data.length < 2 ^ 16) : Segment :=
  { flags := flags, seqNum := seqNum, ackNum := ackNum, window := window
    buffer := { cells := fun i => data.getD i 0, length := data.length }
    offset := 0, offset_le := Nat.zero_le _, buffer_lt := hdata }

theorem noData_lt : ([] : List UInt8).length < 2 ^ 16 := by decide

/-- A connection is opened to a peer whose initial sequence number is `irs` and whose window is
`window`; ours is `iss`. -/
def handshake (iss irs : UInt32) (window : UInt16) : List Event :=
  [.connect (.ipv4 1) 80 ⟨.ok (0, .ipv4 2), true, iss⟩,
    .segment (.ofData { syn := true, ack := true } irs (iss + 1) window [] noData_lt) true]

/-! ## Conditions on the steps -/

/-- The FIN may take a connection from the state to `next`. -/
def FinAllowed (state next : TcpState) : Prop :=
  (next = .finWait1 ∧ (state = .synReceived ∨ state = .established)) ∨
    (next = .lastAck ∧ state = .closeWait)

instance (state next : TcpState) : Decidable (FinAllowed state next) :=
  inferInstanceAs (Decidable (_ ∨ _))

/-- The call goes on to send a FIN. -/
def sendsFin (socket : Socket) : Call → Option TcpState
  | .sendFin _ next => if socket.txDone then some next else none
  | .flush _ next =>
      if socket.txReady ∧ (socket.state = .established ∨ socket.state = .closeWait) then some next
      else none
  | _ => none

/-- A call that resumes to send a FIN finds the connection in a state that a FIN may leave that way.
-/
def FinInState (slot : Slot) : Event → Prop
  | .resume i false =>
      ∀ next ∈ slot.calls[i]?.bind (sendsFin slot.socket), FinAllowed slot.socket.state next
  | _ => True

/-- What a closed connection can leave on its socket: unsent data, blocks received out of order, queued
segments, a queued FIN among them, and the flags that tell how it was closed. -/
structure Remains where
  data : Bool := false
  blocks : Bool := false
  queue : Bool := false
  fin : Bool := false
  flags : Bool := false

/-- Nothing of the given kinds is left of an earlier connection. -/
def Socket.Unused (kinds : Remains) (socket : Socket) : Prop :=
  (kinds.data = true → socket.snd.sndUser = 0) ∧
    (kinds.blocks = true → socket.rcv.sackBlock = []) ∧
    (kinds.queue = true → ∀ item ∈ socket.snd.retransmitQueue,
      item.header.flags.syn = true ∧ item.header.flags.fin = false ∧ item.length = 0) ∧
    (kinds.fin = true → ∀ item ∈ socket.snd.retransmitQueue, item.header.flags.fin = false) ∧
    (kinds.flags = true → socket.closedFlag = false ∧ socket.resetFlag = false)

instance (kinds : Remains) (socket : Socket) : Decidable (socket.Unused kinds) :=
  inferInstanceAs (Decidable (_ ∧ _))

/-- A socket in the CLOSED state is connected only if nothing of the given kinds is left on it. Of these
a FIN matters to a listening socket, too, and the data of a connection that was closed properly to
the size of the receive buffer. -/
def UnusedSocket (kinds : Remains) (slot : Slot) : Event → Prop
  | .connect _ _ _ => slot.socket.state = .closed → slot.socket.Unused kinds
  | .listen _ => slot.socket.state = .closed → slot.socket.Unused { fin := kinds.fin }
  | .setRxBufferSize _ =>
      slot.socket.state = .closed → kinds.flags = true → slot.socket.closedFlag = false
  | _ => True

/-- The events by which a socket is to leave the CLOSED state. -/
def Event.Opens : Event → Prop
  | .connect _ _ _ | .listen _ | .accept _ _ _ _ _ _ => True
  | _ => False

/-- The step takes the socket into use, or a socket in the CLOSED state into use again. -/
def Event.Begins (socket : Socket) : Event → Prop
  | .open _ _ | .accept _ _ _ _ _ _ => socket.type = .unused
  | .connect _ _ _ | .listen _ => socket.state = .closed
  | _ => False

end Tcp
