import CycloneTcp.Core.TcpEnds
import CycloneTcp.Modbus.ServerSanity

/-! # Modbus/TCP server: the responses in the transmit stream

The handler over `socketSend` and `socketReceive` on a TCP socket whose timeout is zero: a call that would
wait returns `ERROR_TIMEOUT` at once. `tcpSend` copies what there is room for and only then waits for
more room, so it can return `ERROR_TIMEOUT` with a part of the data in the send buffer; the handler
advances its position on success only, and sends that part again. -/

set_option autoImplicit false

namespace Modbus

open Tcp (Socket)

/-! ## The socket interface over TCP -/

/-- The socket of a connection and the system clock. -/
structure TcpNet where
  socket : Socket
  time : UInt32

/-- What a call with a timeout of zero returns. -/
def statusNow : Tcp.Outcome → ErrorCode
  | .blocks _ => .timeout
  | .returns error => error

/-- `socketReceive` without flags. -/
def TcpNet.receive (size : ℕ) (v : TcpNet) : ErrorCode × List UInt8 × TcpNet :=
  if v.socket.type ≠ .stream then (.invalidSocket, [], v)
  else
    let (socket, data, outcome) := Tcp.tcpReceive v.socket size {}
    (statusNow outcome, data, { v with socket := socket })

/-- `socketSend` with `SOCKET_FLAG_NO_DELAY`. -/
def TcpNet.send (data : List UInt8) (v : TcpNet) : ErrorCode × ℕ × TcpNet :=
  if v.socket.type ≠ .stream then (.invalidSocket, 0, v)
  else
    let (socket, copied, outcome) := Tcp.tcpSend v.socket data { noDelay := true }
    (statusNow outcome, copied.length, { v with socket := socket })

/-- `socketClose`. -/
def TcpNet.close (v : TcpNet) : TcpNet :=
  if v.socket.type ≠ .stream then v else { v with socket := (Tcp.tcpAbort v.socket).2 }

/-- The socket interface over a TCP connection. -/
def tcpApi : SocketApi TcpNet where
  socketReceive := TcpNet.receive
  socketSend := TcpNet.send
  socketSetTimeout _ v := v
  socketClose := TcpNet.close
  osGetSystemTime := TcpNet.time

/-! ## Conversations -/

variable {σ : Type*} (settings : ModbusServerSettings σ)

/-- A connection of the server, with the response ADUs that have become ready to be sent. -/
structure Conversation (σ : Type*) where
  server : Server σ TcpNet
  responses : List (List UInt8)

/-- What can happen: the server task looks at the connection, a segment arrives, timers elapse, and time
passes. -/
inductive ConversationEvent where
  | server (event : ServerEvent)
  | segment (segment : Tcp.Segment) (memory : Bool)
  | timers (elapsed : Tcp.Elapsed)
  | clock (time : UInt32)

/-- The response ADU of a connection. -/
def ModbusClientConnection.response (connection : ModbusClientConnection) : List UInt8 :=
  connection.responseAdu.read 0 connection.responseAduLen

/-- What is left to send of it. -/
def ModbusClientConnection.unsent (connection : ModbusClientConnection) : List UInt8 :=
  connection.responseAdu.read connection.responseAduPos
    (connection.responseAduLen - connection.responseAduPos)

/-- A new response is ready. -/
def newResponse (before after : ModbusClientConnection) : List (List UInt8) :=
  if before.state = .receiving ∧ after.state = .sending then [after.response] else []

/-- A segment or the timers concern the TCP socket only. -/
def Conversation.onSocket (s : Conversation σ) (f : Socket → Socket) : Conversation σ :=
  { s with server := { s.server with net := { s.server.net with socket := f s.server.net.socket } } }

/-- One step of a conversation. -/
def converse (s : Conversation σ) : ConversationEvent → Conversation σ
  | .server event =>
      let server := serverStep settings tcpApi s.server event
      { server := server
        responses := s.responses ++ newResponse s.server.connection server.connection }
  | .segment segment memory => s.onSocket fun socket =>
      if socket.type = .stream then Tcp.tcpProcessSegment socket segment memory else socket
  | .timers elapsed => s.onSocket fun socket =>
      if socket.type = .stream then Tcp.tcpTick socket elapsed else socket
  | .clock time => { s with server := { s.server with net := { s.server.net with time := time } } }

/-- A connection that has just been accepted. -/
def accepted (handle : ℕ) (world : ServerWorld σ) (net : TcpNet) : Conversation σ where
  server := { connection := acceptedConnection handle net.time, world := world, net := net }
  responses := []

/-- What the user calls have appended to the transmit stream. -/
def Conversation.written (s : Conversation σ) : List UInt8 := s.server.net.socket.history.written

/-- The transmit stream goes on, from `before`, with exactly the responses in order, but for what is left
to send of the last one. -/
structure ResponsesInOrder (before : List UInt8) (s : Conversation σ) : Prop where
  receiving : s.server.connection.state = .receiving →
    s.written = before ++ s.responses.flatten
  sending : s.server.connection.state = .sending →
    s.written ++ s.server.connection.unsent = before ++ s.responses.flatten
  suffix : s.written <+: before ++ s.responses.flatten

/-- The room in the send buffer. -/
def room (socket : Socket) : ℕ := socket.snd.txBufferSize - socket.snd.pending.toNat

/-- When the handler is called to send, there is no room in the send buffer or enough for all that is left
of the response. -/
def WholeResponse (s : Conversation σ) : ConversationEvent → Prop
  | .server .ready =>
      s.server.connection.state = .sending →
      (s.server.net.socket.state = .established ∨ s.server.net.socket.state = .closeWait) →
      room s.server.net.socket = 0 ∨
        s.server.connection.responseAduLen - s.server.connection.responseAduPos
          ≤ room s.server.net.socket
  | _ => True

instance (s : Conversation σ) (event : ConversationEvent) : Decidable (WholeResponse s event) :=
  match event with
  | .server .ready => inferInstanceAs (Decidable (_ → _ ∨ _ → _ ∨ _))
  | .server .tick => inferInstanceAs (Decidable True)
  | .segment _ _ => inferInstanceAs (Decidable True)
  | .timers _ => inferInstanceAs (Decidable True)
  | .clock _ => inferInstanceAs (Decidable True)

/-! ## The calls -/

theorem tcpSend_whole (s : Socket) {data : List UInt8} (hdata : data ≠ [])
    (hroom : s.state = .established ∨ s.state = .closeWait →
      room s = 0 ∨ data.length ≤ room s) :
    (statusNow (Tcp.tcpSend s data { noDelay := true }).2.2 ≠ .noError ∧
        (Tcp.tcpSend s data { noDelay := true }).1.history.written = s.history.written) ∨
      ((Tcp.tcpSend s data { noDelay := true }).2 = (data, .returns .noError) ∧
        (Tcp.tcpSend s data { noDelay := true }).1.history.written = s.history.written ++ data) := by
  have hwhole : (s.state = .established ∨ s.state = .closeWait) →
      ¬ s.snd.txBufferSize ≤ s.snd.pending.toNat →
        min (s.snd.txBufferSize - s.snd.pending.toNat) data.length = data.length := by
    intro hstate hpending
    have hfits := hroom hstate
    rw [room] at hfits
    omega
  have hpos : 0 < data.length := List.length_pos_iff.2 hdata
  have hwritten : (Tcp.tcpNagleAlgo (Tcp.copyUserData s data data.length)
      { noDelay := true }).2.history.written = s.history.written ++ data := by
    rw [(Tcp.tcpNagleAlgo_unchanged _ _).written, (Tcp.copyUserData_of_pos s data hpos).2.2.2,
      List.take_length]
  rw [Tcp.tcpSend]
  split
  · exact .inl ⟨by simp [statusNow], rfl⟩
  · rw [Tcp.tcpSendLoop]
    split
    · exact .inl ⟨by simp [statusNow], rfl⟩
    split
    case h_1 hstate =>
      split
      · exact .inl ⟨by simp [statusNow], rfl⟩
      case isFalse hpending =>
        rw [hwhole (.inl hstate) hpending]
        simp only [lt_irrefl, if_false, List.take_length, Tcp.awaitAck, Bool.false_eq_true]
        exact .inr ⟨trivial, hwritten⟩
    case h_2 hstate =>
      split
      · exact .inl ⟨by simp [statusNow], rfl⟩
      case isFalse hpending =>
        rw [hwhole (.inr hstate) hpending]
        simp only [lt_irrefl, if_false, List.take_length, Tcp.awaitAck, Bool.false_eq_true]
        exact .inr ⟨trivial, hwritten⟩
    case h_8 =>
      refine .inl ⟨?_, rfl⟩
      rw [statusNow, Tcp.closedError]
      split <;> simp
    all_goals exact .inl ⟨by simp [statusNow], rfl⟩

theorem socketReceive_written (size : ℕ) (v : TcpNet) :
    (tcpApi.socketReceive size v).2.2.socket.history.written = v.socket.history.written := by
  simp only [tcpApi, TcpNet.receive]
  split
  · rfl
  · exact (Tcp.tcpReceive_stream v.socket size {}).1.written

/-- With no room or enough, the call appends all the data and succeeds, or nothing and fails. -/
theorem socketSend_whole (v : TcpNet) (data : List UInt8) (hdata : data ≠ [])
    (hroom : v.socket.state = .established ∨ v.socket.state = .closeWait →
      room v.socket = 0 ∨ data.length ≤ room v.socket) :
    ((tcpApi.socketSend data v).1 ≠ .noError ∧
        (tcpApi.socketSend data v).2.2.socket.history.written = v.socket.history.written) ∨
      ((tcpApi.socketSend data v).1 = .noError ∧
        (tcpApi.socketSend data v).2.1 = data.length ∧
        (tcpApi.socketSend data v).2.2.socket.history.written
          = v.socket.history.written ++ data) := by
  simp only [tcpApi, TcpNet.send]
  split
  · exact .inl ⟨by simp, rfl⟩
  · rcases tcpSend_whole v.socket hdata hroom with h | ⟨hok, hwritten⟩
    · exact .inl h
    · refine .inr ⟨?_, ?_, hwritten⟩
      · simp only [hok, statusNow]
      · simp only [hok]

theorem socketClose_written (v : TcpNet) :
    (tcpApi.socketClose v).socket.history.written = v.socket.history.written := by
  simp only [tcpApi, TcpNet.close]
  split
  · rfl
  · exact Tcp.tcpAbort_written v.socket

/-! ## The handler -/

/-- The step adds no response. -/
theorem newResponse_of_ne {before after : ModbusClientConnection} (h : after.state ≠ .sending) :
    newResponse before after = [] := if_neg fun hnew => h hnew.2

theorem newResponse_of_sending {before after : ModbusClientConnection}
    (h : before.state ≠ .receiving) : newResponse before after = [] :=
  if_neg fun hnew => h hnew.1

variable {settings} {before : List UInt8}

theorem ResponsesInOrder.of_receiving {server : Server σ TcpNet} {responses : List (List UInt8)}
    (hstate : server.connection.state = .receiving)
    (h : server.net.socket.history.written = before ++ responses.flatten) :
    ResponsesInOrder before ⟨server, responses⟩ where
  receiving _ := h
  sending hsending := absurd (hstate.symm.trans hsending) (by simp)
  suffix := h ▸ List.prefix_refl _

/-- What the body of the handler leads to: a response is added only if it succeeds. -/
structure KeepsOrder (before : List UInt8) (responses : List (List UInt8)) (server : Server σ TcpNet)
    (r : ErrorCode × Server σ TcpNet) : Prop where
  inOrder : ResponsesInOrder before
    ⟨r.2, responses ++ newResponse server.connection r.2.connection⟩
  failed : r.1 ≠ .noError → newResponse server.connection r.2.connection = []

theorem parse_state (connection : ModbusClientConnection) :
    (modbusServerParseMbapHeader connection).2.state = connection.state := by
  simp only [modbusServerParseMbapHeader]
  split_ifs <;> rfl

/-- A connection that goes on to receive. -/
theorem KeepsOrder.of_receiving {responses : List (List UInt8)} {server : Server σ TcpNet}
    {r : ErrorCode × Server σ TcpNet} (hstate : r.2.connection.state = .receiving)
    (hwritten : r.2.net.socket.history.written = before ++ responses.flatten) :
    KeepsOrder before responses server r := by
  have hnone : newResponse server.connection r.2.connection = [] :=
    newResponse_of_ne (by rw [hstate]; simp)
  refine ⟨?_, fun _ => hnone⟩
  rw [hnone, List.append_nil]
  exact .of_receiving hstate hwritten

theorem receiveHeader_keepsOrder {server : Server σ TcpNet} {responses : List (List UInt8)}
    (hstate : server.connection.state = .receiving)
    (hwritten : server.net.socket.history.written = before ++ responses.flatten) :
    KeepsOrder before responses server (receiveHeader tcpApi server) := by
  have hsame : (tcpApi.socketReceive (headerSize - server.connection.requestAduPos)
      server.net).2.2.socket.history.written = before ++ responses.flatten :=
    (socketReceive_written _ _).trans hwritten
  unfold receiveHeader
  generalize tcpApi.socketReceive (headerSize - server.connection.requestAduPos) server.net = r
    at hsame ⊢
  simp only
  split
  · split
    · exact .of_receiving ((parse_state _).trans hstate) hsame
    · exact .of_receiving hstate hsame
  · exact .of_receiving hstate hsame

theorem receiveBody_keepsOrder {server : Server σ TcpNet} {responses : List (List UInt8)}
    (hstate : server.connection.state = .receiving)
    (hwritten : server.net.socket.history.written = before ++ responses.flatten) :
    KeepsOrder before responses server (receiveBody settings tcpApi server) := by
  have hsame : (tcpApi.socketReceive (server.connection.requestAduLen
      - server.connection.requestAduPos) server.net).2.2.socket.history.written
      = before ++ responses.flatten := (socketReceive_written _ _).trans hwritten
  unfold receiveBody
  generalize tcpApi.socketReceive (server.connection.requestAduLen
    - server.connection.requestAduPos) server.net = r at hsame ⊢
  simp only
  split
  · split
    · have hhandled := modbusServerProcessRequest_handled settings
        ((server.connection.store r.2.1).advance r.2.1.length) server.world
      generalize modbusServerProcessRequest settings
        ((server.connection.store r.2.1).advance r.2.1.length) server.world = p at hhandled ⊢
      obtain ⟨error, connection, world⟩ := p
      simp only at hhandled ⊢
      cases hhandled with
      | answered responseAdu length hlo hhi hpos =>
          refine ⟨?_, fun herror => absurd rfl herror⟩
          generalize hc : ((server.connection.store r.2.1).advance r.2.1.length).answering
            responseAdu length = connection
          have hsending : connection.state = .sending := by rw [← hc]; rfl
          have hunsent : connection.unsent = connection.response := by rw [← hc]; rfl
          have hstream : r.2.2.socket.history.written ++ connection.unsent
              = before ++ (responses ++ [connection.response]).flatten := by
            rw [hsame, hunsent]
            simp
          rw [newResponse, if_pos ⟨hstate, hsending⟩]
          exact ⟨fun hreceiving => absurd (hsending.symm.trans hreceiving) (by simp),
            fun _ => hstream, ⟨_, hstream⟩⟩
      | failed error responseAdu herror => exact .of_receiving hstate hsame
    · exact .of_receiving hstate hsame
  · exact .of_receiving hstate hsame

theorem sendResponse_keepsOrder {server : Server σ TcpNet} {responses : List (List UInt8)}
    (hstate : server.connection.state = .sending)
    (hmore : server.connection.responseAduPos < server.connection.responseAduLen)
    (h : ResponsesInOrder before ⟨server, responses⟩)
    (hwhole : WholeResponse ⟨server, responses⟩ (.server .ready)) :
    KeepsOrder before responses server (sendResponse tcpApi server) := by
  have hnone : ∀ connection : ModbusClientConnection,
      newResponse server.connection connection = [] := fun connection =>
    newResponse_of_sending (by rw [hstate]; simp)
  refine ⟨?_, fun _ => hnone _⟩
  rw [hnone, List.append_nil]
  have hstream := h.sending hstate
  have hlength : server.connection.unsent.length
      = server.connection.responseAduLen - server.connection.responseAduPos := by
    rw [ModbusClientConnection.unsent, Memory.length_read]
  -- nothing is sent, and the position stays
  have hkept : ∀ net : TcpNet, net.socket.history.written = server.net.socket.history.written →
      ResponsesInOrder before ⟨{ server with net := net }, responses⟩ := by
    intro net hnet
    have hrest : net.socket.history.written ++ server.connection.unsent
        = before ++ responses.flatten := by rw [hnet]; exact hstream
    exact ⟨fun hreceiving => absurd (hstate.symm.trans hreceiving) (by simp), fun _ => hrest,
      ⟨_, hrest⟩⟩
  have hsend := socketSend_whole server.net server.connection.unsent
    (by rw [← List.length_pos_iff, hlength]; omega) (by rw [hlength]; exact hwhole hstate)
  rw [ModbusClientConnection.unsent] at hsend
  simp only [sendResponse]
  generalize tcpApi.socketSend (server.connection.responseAdu.read server.connection.responseAduPos
    (server.connection.responseAduLen - server.connection.responseAduPos)) server.net = r
    at hsend ⊢
  rcases hsend with ⟨herror, hsame⟩ | ⟨hok, hcount, hsame⟩
  · rw [if_neg herror]
    exact hkept _ hsame
  · rw [Memory.length_read] at hcount
    rw [if_pos hok, if_pos (by omega)]
    exact .of_receiving rfl (hsame.trans hstream)

theorem processEvents_keepsOrder {server : Server σ TcpNet} {responses : List (List UInt8)}
    (h : ResponsesInOrder before ⟨server, responses⟩)
    (hwhole : WholeResponse ⟨server, responses⟩ (.server .ready)) :
    KeepsOrder before responses server (processEvents settings tcpApi server) := by
  -- the sanity branches leave the connection as it is
  have hkept : KeepsOrder before responses server (.wrongState, server) := by
    have hnone : newResponse server.connection server.connection = [] :=
      if_neg fun hnew => absurd (hnew.1.symm.trans hnew.2) (by simp)
    refine ⟨?_, fun _ => hnone⟩
    rw [hnone, List.append_nil]
    exact h
  rw [processEvents]
  split
  case h_1 hstate =>
    split_ifs
    · exact receiveHeader_keepsOrder hstate (h.receiving hstate)
    · exact receiveBody_keepsOrder hstate (h.receiving hstate)
    · exact hkept
  case h_2 hstate =>
    split_ifs with hmore
    · exact sendResponse_keepsOrder hstate hmore h hwhole
    · exact hkept
  case h_3 => exact hkept

theorem ResponsesInOrder.close {server : Server σ TcpNet} {responses : List (List UInt8)}
    (h : ResponsesInOrder before ⟨server, responses⟩) :
    ResponsesInOrder before ⟨modbusServerCloseConnection tcpApi server, responses⟩ where
  receiving hstate := by simp [modbusServerCloseConnection] at hstate
  sending hstate := by simp [modbusServerCloseConnection] at hstate
  suffix := by
    have hwritten : (modbusServerCloseConnection tcpApi server).net.socket.history.written
        = server.net.socket.history.written := by
      simp only [modbusServerCloseConnection]
      split
      · exact socketClose_written server.net
      · rfl
    rw [Conversation.written, hwritten]
    exact h.suffix

theorem modbusServerProcessConnectionEvents_inOrder {server : Server σ TcpNet}
    {responses : List (List UInt8)} (h : ResponsesInOrder before ⟨server, responses⟩)
    (hwhole : WholeResponse ⟨server, responses⟩ (.server .ready)) :
    ResponsesInOrder before ⟨modbusServerProcessConnectionEvents settings tcpApi server,
      responses ++ newResponse server.connection
        (modbusServerProcessConnectionEvents settings tcpApi server).connection⟩ := by
  have hstamped : ResponsesInOrder before ⟨server.stamp tcpApi, responses⟩ :=
    ⟨h.receiving, h.sending, h.suffix⟩
  have hkeeps : KeepsOrder before responses (server.stamp tcpApi)
      (processEvents settings tcpApi (server.stamp tcpApi)) := processEvents_keepsOrder hstamped hwhole
  obtain ⟨hinOrder, hfailed⟩ := hkeeps
  have hsame : ∀ connection, newResponse (server.stamp tcpApi).connection connection
      = newResponse server.connection connection := fun _ => rfl
  rw [hsame] at hinOrder hfailed
  rw [modbusServerProcessConnectionEvents]
  generalize processEvents settings tcpApi (server.stamp tcpApi) = r at hinOrder hfailed ⊢
  split
  case isTrue herror =>
    rw [hfailed herror.1, List.append_nil] at hinOrder
    rw [newResponse_of_ne (by simp [modbusServerCloseConnection]), List.append_nil]
    exact hinOrder.close
  case isFalse => exact hinOrder

/-! ## Runs -/

/-- What goes on below the handler leaves the stream as it is. -/
theorem ResponsesInOrder.onSocket {s : Conversation σ} (h : ResponsesInOrder before s)
    {f : Socket → Socket} (hf : ∀ socket, (f socket).history.written = socket.history.written) :
    ResponsesInOrder before (s.onSocket f) := by
  have hwritten : (s.onSocket f).written = s.written := hf _
  refine ⟨fun hstate => ?_, fun hstate => ?_, ?_⟩
  · rw [hwritten]
    exact h.receiving hstate
  · rw [hwritten]
    exact h.sending hstate
  · rw [hwritten]
    exact h.suffix

theorem ResponsesInOrder.step {s : Conversation σ} (event : ConversationEvent)
    (h : ResponsesInOrder before s) (hwhole : WholeResponse s event) :
    ResponsesInOrder before (converse settings s event) := by
  cases event with
  | server event =>
      cases event with
      | ready =>
          by_cases hclosed : s.server.connection.state = .closed
          · have hsame : serverStep settings tcpApi s.server .ready = s.server := if_pos hclosed
            rw [converse, hsame, newResponse_of_sending (by rw [hclosed]; simp), List.append_nil]
            exact h
          · have hhandled : serverStep settings tcpApi s.server .ready
                = modbusServerProcessConnectionEvents settings tcpApi s.server := if_neg hclosed
            rw [converse, hhandled]
            exact modbusServerProcessConnectionEvents_inOrder h hwhole
      | tick =>
          rw [converse, serverStep, modbusServerTick]
          split
          · rw [newResponse_of_ne (by simp [modbusServerCloseConnection]), List.append_nil]
            exact h.close
          · rw [newResponse, if_neg fun hnew => absurd (hnew.1.symm.trans hnew.2) (by simp),
              List.append_nil]
            exact h
  | segment segment memory =>
      refine h.onSocket (f := fun socket =>
        if socket.type = .stream then Tcp.tcpProcessSegment socket segment memory else socket)
        fun socket => ?_
      split
      · exact (Tcp.tcpProcessSegment_serviced socket segment memory).1.written
      · rfl
  | timers elapsed =>
      refine h.onSocket (f := fun socket =>
        if socket.type = .stream then Tcp.tcpTick socket elapsed else socket) fun socket => ?_
      split
      · exact (Tcp.tcpTick_serviced socket elapsed).1.written
      · rfl
  | clock time => exact ⟨h.receiving, h.sending, h.suffix⟩

theorem responsesInOrder_accepted (handle : ℕ) (world : ServerWorld σ) (net : TcpNet) :
    ResponsesInOrder net.socket.history.written (accepted handle world net) :=
  .of_receiving rfl (by simp)

/-- **The transmit stream of a connection carries the responses**, each byte once and in order, as long as
no response is cut by the end of the send buffer. -/
theorem responsesInOrder_of_wholeResponse (handle : ℕ) (world : ServerWorld σ) (net : TcpNet)
    (events : List ConversationEvent)
    (hwhole : Along WholeResponse (converse settings) (accepted handle world net) events) :
    ResponsesInOrder net.socket.history.written
      (run (converse settings) (accepted handle world net) events) :=
  run_invariant (fun _ event h hwhole => h.step event hwhole)
    (responsesInOrder_accepted handle world net) hwhole

/-- A listening socket with a send buffer of twelve bytes, -/
def listening : Socket :=
  (run Tcp.step (Tcp.Slot.init fun _ => {})
    [.open .stream 502, .setTxBufferSize 12, .listen 0]).socket

theorem listening_sized : listening.Sized :=
  ⟨by decide, by decide, by decide, by decide⟩

/-- a connection that it accepts, -/
def connected : TcpNet where
  socket := (run Tcp.step (Tcp.Slot.init fun _ => {})
    [.accept listening listening_sized 502 ⟨0, .ipv4 1, 1000, .ipv4 2, 300, 1460⟩ true 100,
      .segment (.ofData { ack := true } 301 101 1000 [] Tcp.noData_lt) true]).socket
  time := 0

theorem twoRequests_lt :
    ([0, 1, 0, 0, 0, 6, 1, 3, 0, 0, 0, 1, 0, 2, 0, 0, 0, 6, 1, 3, 0, 0, 0, 1] : List UInt8).length
      < 2 ^ 16 := by decide

/-- and two requests of the client: the server answers each with an exception response of nine bytes. -/
def twoRequests : ConversationEvent :=
  .segment (.ofData { psh := true, ack := true } 301 101 1000
    [0, 1, 0, 0, 0, 6, 1, 3, 0, 0, 0, 1, 0, 2, 0, 0, 0, 6, 1, 3, 0, 0, 0, 1] twoRequests_lt) true

/-- The client acknowledges what the server has sent up to `ackNum`. -/
def acknowledges (ackNum : UInt32) : ConversationEvent :=
  .segment (.ofData { ack := true } 325 ackNum 1000 [] Tcp.noData_lt) true

/-- The handler is called three times: it receives the header and the PDU of a request, and sends the
response. -/
def threeCalls : List ConversationEvent := List.replicate 3 (.server .ready)

/-- The client acknowledges the first response before the server sends the second. -/
theorem responsesInOrder_acknowledged :
    ResponsesInOrder connected.socket.history.written
      (run (converse noCallbacks) (accepted 0 ⟨(), [], []⟩ connected)
        (twoRequests :: threeCalls ++ acknowledges 110 :: threeCalls)) :=
  responsesInOrder_of_wholeResponse _ _ _ _ (by decide)

/-- The client does not acknowledge the first response at once. There is room for three bytes when the
server sends the second, which are sent again when there is room. -/
theorem not_responsesInOrder :
    ¬ ∀ (handle : ℕ) (world : ServerWorld Unit) (net : TcpNet) (events : List ConversationEvent),
      ResponsesInOrder net.socket.history.written
        (run (converse noCallbacks) (accepted handle world net) events) := by
  intro h
  have hsuffix := (h 0 ⟨(), [], []⟩ connected
    (twoRequests :: threeCalls ++ threeCalls ++ [acknowledges 110, .server .ready])).suffix
  revert hsuffix
  decide

end Modbus
