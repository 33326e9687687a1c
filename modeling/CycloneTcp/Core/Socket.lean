import CycloneTcp.Core.FlatBuffer
import CycloneTcp.Lib.Serial

set_option autoImplicit false

/-! # TCP sockets

The control block of a connection, with its fields grouped by what they serve: the receive side, the
send side and the network below. Times are not modelled: a timer is running or not, and which of
the running timers have elapsed is up to the environment, as is the fate of every segment handed
to the network. -/

namespace Tcp

/-- Number of SACK blocks. -/
def TCP_MAX_SACK_BLOCKS : ℕ := 4

/-- Maximum acceptable size for the send buffer. -/
def TCP_MAX_TX_BUFFER_SIZE : ℕ := 22880

/-- Maximum acceptable size for the receive buffer. -/
def TCP_MAX_RX_BUFFER_SIZE : ℕ := 22880

/-- Maximum segment size. -/
def TCP_MAX_MSS : ℕ := 1430

/-- Minimum acceptable segment size. -/
def TCP_MIN_MSS : ℕ := 64

/-- Segment size assumed when the peer announces none. -/
def TCP_DEFAULT_MSS : ℕ := 536

/-- Maximum number of retransmissions. -/
def TCP_MAX_RETRIES : ℕ := 5

/-- Number of duplicate ACKs that triggers fast retransmit. -/
def TCP_FAST_RETRANSMIT_THRES : ℕ := 3

/-- Size of the congestion window, in segments, once the connection is established. -/
def TCP_INITIAL_WINDOW : ℕ := 3

/-- Size of the congestion window, in segments, after a retransmission timeout. -/
def TCP_LOSS_WINDOW : ℕ := 1

/-- Default and maximum interval between window probes. -/
def TCP_DEFAULT_PROBE_INTERVAL : ℕ := 1000

def TCP_MAX_PROBE_INTERVAL : ℕ := 60000

/-- Default and maximum size of the queue of pending connection requests. -/
def TCP_DEFAULT_SYN_QUEUE_SIZE : ℕ := 4

def TCP_MAX_SYN_QUEUE_SIZE : ℕ := 16

/-- Default size of the send buffer. -/
def TCP_DEFAULT_TX_BUFFER_SIZE : ℕ := 2860

/-- Default size of the receive buffer. -/
def TCP_DEFAULT_RX_BUFFER_SIZE : ℕ := 2860

/-- `TCP_CMP_SEQ`. -/
abbrev tcpCmpSeq (a b : UInt32) : ℤ := Serial.cmp a b

/-- TCP FSM states. -/
inductive TcpState where
  | closed
  | listen
  | synSent
  | synReceived
  | established
  | closeWait
  | lastAck
  | finWait1
  | finWait2
  | closing
  | timeWait
  deriving DecidableEq, Repr

/-- TCP congestion states. -/
inductive TcpCongestState where
  | idle
  | recovery
  | lossRecovery
  deriving DecidableEq, Repr

/-- Socket types. -/
inductive SocketType where
  | unused
  | stream
  | dgram
  | rawIp
  | rawEth
  deriving DecidableEq, Repr

/-- The flags of the I/O functions. The break character is the low byte of the flags. -/
structure SocketFlags where
  dontWait : Bool := false
  waitAll : Bool := false
  breakChar : Option UInt8 := none
  waitAck : Bool := false
  noDelay : Bool := false
  delay : Bool := false
  deriving DecidableEq, Repr

/-- `SOCKET_SD_RECEIVE`, `SOCKET_SD_SEND` and `SOCKET_SD_BOTH`. -/
inductive SocketShutdown where
  | receive
  | send
  | both
  deriving DecidableEq, Repr

/-- An IP address; the unspecified one has length 0. -/
inductive IpAddr where
  | unspecified
  | ipv4 (addr : UInt32)
  | ipv6 (addr : BitVec 128)
  deriving DecidableEq, Repr

/-- TCP control flags. -/
structure TcpFlags where
  fin : Bool := false
  syn : Bool := false
  rst : Bool := false
  psh : Bool := false
  ack : Bool := false
  deriving DecidableEq, Repr

/-- The header fields the connection logic uses, and the MSS option if there is one. -/
structure TcpHeader where
  flags : TcpFlags
  seqNum : UInt32
  ackNum : UInt32
  window : UInt16
  mss : Option UInt16 := none
  deriving DecidableEq, Repr

/-- A segment handed to the IP layer. -/
structure OutSegment where
  header : TcpHeader
  data : List UInt8
  deriving DecidableEq, Repr

/-- An incoming segment: its header, where it comes from and goes to, and the buffer that holds it
with the offset of the first data byte. An IP datagram is shorter than `2 ^ 16` bytes. -/
structure Segment extends TcpHeader where
  interface : ℕ := 0
  srcAddr : IpAddr := .unspecified
  destAddr : IpAddr := .unspecified
  srcPort : UInt16 := 0
  destPort : UInt16 := 0
  buffer : FlatBuffer
  offset : ℕ
  offset_le : offset ≤ buffer.length
  buffer_lt : buffer.length < 2 ^ 16

/-- Length of the segment data. -/
def Segment.length (segment : Segment) : ℕ := segment.buffer.length - segment.offset

theorem Segment.length_lt (segment : Segment) : segment.length < 2 ^ 16 :=
  lt_of_le_of_lt (Nat.sub_le ..) segment.buffer_lt

/-- A block of data received out of order. -/
structure TcpSackBlock where
  leftEdge : UInt32
  rightEdge : UInt32
  deriving DecidableEq, Repr

/-- Retransmission queue item. -/
structure TcpQueueItem where
  header : TcpHeader
  length : ℕ
  sacked : Bool
  deriving DecidableEq, Repr

/-- A pending connection request. -/
structure TcpSynQueueItem where
  interface : ℕ
  srcAddr : IpAddr
  srcPort : UInt16
  destAddr : IpAddr
  isn : UInt32
  mss : UInt16
  deriving DecidableEq, Repr

/-- What the environment answers when a segment is sent: whether a buffer for the segment, chunk
descriptors for its data and a queue item can be had, and the status of `ipSendDatagram`. -/
structure SendOutcome where
  buffer : Bool := true
  chunks : Bool := true
  item : Bool := true
  ip : ErrorCode := .noError

/-- What lies below a connection: the answers still to be given and the segments handed over so far,
each with the state the connection was in. -/
structure Network where
  outcomes : ℕ → SendOutcome
  sent : List (TcpState × OutSegment)

/-- The receive side of a control block. -/
structure ReceiveSide where
  /-- Receiver maximum segment size. -/
  rmss : UInt16
  /-- Initial receive sequence number. -/
  irs : UInt32
  /-- Receive next sequence number. -/
  rcvNxt : UInt32
  /-- Number of data received but not yet consumed. -/
  rcvUser : UInt16
  /-- Receive window. -/
  rcvWnd : UInt16
  rxBuffer : FlatBuffer
  rxBufferSize : ℕ
  /-- Non-contiguous blocks that have been received, `sackBlockCount` of them. -/
  sackBlock : List TcpSackBlock

/-- Store into the receive buffer. -/
def ReceiveSide.setCells (socket : ReceiveSide) (cells : Memory UInt8) : ReceiveSide :=
  { socket with rxBuffer := { socket.rxBuffer with cells := cells } }

/-- The send side of a control block. -/
structure SendSide where
  /-- Sender maximum segment size. -/
  smss : UInt16
  /-- Initial send sequence number. -/
  iss : UInt32
  /-- Data that have been sent but not yet acknowledged. -/
  sndUna : UInt32
  /-- Sequence number of the next byte to be sent. -/
  sndNxt : UInt32
  /-- Amount of data buffered but not yet sent. -/
  sndUser : UInt16
  /-- Size of the send window. -/
  sndWnd : UInt16
  /-- Maximum send window seen so far. -/
  maxSndWnd : UInt16
  /-- Sequence and acknowledgment number of the last window update. -/
  sndWl1 : UInt32
  sndWl2 : UInt32
  /-- A round-trip measurement is being performed on the segment `rttSeqNum`. -/
  rttBusy : Bool
  rttSeqNum : UInt32
  congestState : TcpCongestState
  /-- Congestion window. -/
  cwnd : UInt16
  /-- Slow start threshold. -/
  ssthresh : UInt16
  /-- Number of consecutive duplicate ACKs. -/
  dupAckCount : UInt32
  /-- Number of bytes acknowledged during the whole round-trip. -/
  n : UInt32
  recover : UInt32
  txBuffer : FlatBuffer
  txBufferSize : ℕ
  retransmitQueue : List TcpQueueItem
  /-- The retransmission timer is running. -/
  retransmitTimer : Bool
  retransmitCount : ℕ
  /-- Zero window probes. -/
  wndProbeCount : ℕ
  wndProbeInterval : ℕ
  persistTimer : Bool
  overrideTimer : Bool

/-- Store into the send buffer. -/
def SendSide.setCells (socket : SendSide) (cells : Memory UInt8) : SendSide :=
  { socket with txBuffer := { socket.txBuffer with cells := cells } }

/-- History variables of a socket: what the code does not record but its properties are about. All but
the state changes start anew with each connection. -/
structure History where
  /-- Number of connections that have been begun. -/
  connections : ℕ
  /-- The state changes so far, oldest first. -/
  changes : List (TcpState × TcpState)
  /-- The bytes `tcpSend` has copied. -/
  written : List UInt8
  /-- The bytes `tcpReceive` has returned. -/
  delivered : List UInt8
  /-- An acknowledgment of the FIN has arrived. -/
  finAcked : Bool
  /-- RCV.NXT has been advanced over the FIN of the peer. -/
  finReceived : Bool

/-- A new connection begins. -/
def History.restart (history : History) : History :=
  { connections := history.connections + 1, changes := history.changes
    written := [], delivered := [], finAcked := false, finReceived := false }

/-- A socket, as far as TCP uses it. -/
structure Socket where
  type : SocketType
  /-- The user has the ownership of the socket. -/
  ownedFlag : Bool
  interface : Option ℕ
  localIpAddr : IpAddr
  localPort : UInt16
  remoteIpAddr : IpAddr
  remotePort : UInt16
  state : TcpState
  /-- The connection has been closed properly. -/
  closedFlag : Bool
  /-- The connection has been reset. -/
  resetFlag : Bool
  rcv : ReceiveSide
  snd : SendSide
  finWait2Timer : Bool
  timeWaitTimer : Bool
  /-- Pending connection requests, and how many there may be. -/
  synQueue : List TcpSynQueueItem
  synQueueSize : ℕ
  net : Network
  history : History

section SetCells

variable (socket : ReceiveSide) (cells cells' : Memory UInt8)

@[simp] theorem ReceiveSide.setCells_cells : (socket.setCells cells).rxBuffer.cells = cells := rfl

end SetCells

section SetCells

variable (socket : SendSide) (cells cells' : Memory UInt8)

@[simp] theorem SendSide.setCells_cells : (socket.setCells cells).txBuffer.cells = cells := rfl

end SetCells

end Tcp
