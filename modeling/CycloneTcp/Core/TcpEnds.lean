import CycloneTcp.Core.TcpCallSteps

set_option autoImplicit false

/-! # What identifies a connection

The owner of a socket, its addresses and its ports are changed by the calls that open, bind and close it
only, and its pending connection requests by `tcpAccept` and the LISTEN state. One lemma for each function,
with what becomes of the state where that matters to the socket table. -/

namespace Tcp

/-- The type, the owner, the addresses and the ports are unchanged, and the pending requests, unless the
control block has been deleted. -/
structure SameEnds (s s' : Socket) : Prop where
  type : s'.type = s.type
  ownedFlag : s'.ownedFlag = s.ownedFlag
  interface : s'.interface = s.interface
  localIpAddr : s'.localIpAddr = s.localIpAddr
  localPort : s'.localPort = s.localPort
  remoteIpAddr : s'.remoteIpAddr = s.remoteIpAddr
  remotePort : s'.remotePort = s.remotePort
  synQueue : s'.synQueue = s.synQueue ∨ s'.synQueue = []

namespace SameEnds

variable {a b c : Socket}

theorem refl (a : Socket) : SameEnds a a := ⟨rfl, rfl, rfl, rfl, rfl, rfl, rfl, .inl rfl⟩

theorem trans (h : SameEnds a b) (h' : SameEnds b c) : SameEnds a c := by
  have hqueue : c.synQueue = a.synQueue ∨ c.synQueue = [] := by
    rcases h'.synQueue with hsame | hempty
    · rw [hsame]
      exact h.synQueue
    · exact .inr hempty
  exact ⟨h'.type.trans h.type, h'.ownedFlag.trans h.ownedFlag, h'.interface.trans h.interface,
    h'.localIpAddr.trans h.localIpAddr, h'.localPort.trans h.localPort,
    h'.remoteIpAddr.trans h.remoteIpAddr, h'.remotePort.trans h.remotePort,
    hqueue⟩

end SameEnds

/-- Nor has anything been appended to the transmit stream. -/
structure SameStream (s s' : Socket) : Prop extends SameEnds s s' where
  written : s'.history.written = s.history.written

namespace SameStream

variable {a b c : Socket}

theorem refl (a : Socket) : SameStream a a := ⟨.refl a, rfl⟩

theorem trans (h : SameStream a b) (h' : SameStream b c) : SameStream a c :=
  ⟨h.toSameEnds.trans h'.toSameEnds, h'.written.trans h.written⟩

end SameStream

/-- Nor has the state changed. -/
structure SameState (s s' : Socket) : Prop extends SameStream s s' where
  state : s'.state = s.state

namespace SameState

variable {a b c : Socket}

theorem refl (a : Socket) : SameState a a := ⟨.refl a, rfl⟩

theorem trans (h : SameState a b) (h' : SameState b c) : SameState a c :=
  ⟨h.toSameStream.trans h'.toSameStream, h'.state.trans h.state⟩

end SameState

theorem Socket.Same.unchanged {s s' : Socket} (h : Socket.Same s s')
    (hqueue : s'.synQueue = s.synQueue) : SameState s s' :=
  ⟨⟨⟨h.type, h.ownedFlag, h.interface, h.localIpAddr, h.localPort, h.remoteIpAddr, h.remotePort,
    .inl hqueue⟩, congrArg History.written h.history⟩, h.state⟩

theorem NetOnly.unchanged {s s' : Socket} (h : NetOnly s s') : SameState s s' := by
  have hsame := h.keeps.same
  obtain ⟨net, rfl, -⟩ := h
  exact hsame.unchanged rfl

theorem NetOnly.stream {s s' : Socket} (h : NetOnly s s') : SameStream s s' := h.unchanged.toSameStream

/-! ## Sending -/

theorem tcpChangeState_stream (s : Socket) (next : TcpState) :
    SameStream s (tcpChangeState s next) := by
  rw [tcpChangeState]
  split_ifs <;> exact ⟨⟨rfl, rfl, rfl, rfl, rfl, rfl, rfl, .inl rfl⟩, rfl⟩

theorem tcpChangeState_ends (s : Socket) (next : TcpState) : SameEnds s (tcpChangeState s next) :=
  (tcpChangeState_stream s next).toSameEnds

theorem tcpSendSegment_unchanged (s : Socket) (flags : TcpFlags) (seqNum ackNum : UInt32)
    (length : ℕ) (addToQueue : Bool) :
    SameState s (tcpSendSegment s flags seqNum ackNum length addToQueue).2 := by
  rcases tcpSendSegment_cases s flags seqNum ackNum length addToQueue with ⟨_, -, h⟩ | ⟨_, h⟩ <;>
    rw [h] <;> exact ⟨⟨⟨rfl, rfl, rfl, rfl, rfl, rfl, rfl, .inl rfl⟩, rfl⟩, rfl⟩

theorem sendLoop_unchanged (sends : SendSide → UInt32 → ℕ → Bool) (fuel : ℕ) (u : UInt32)
    (s : Socket) : SameState s (sendLoop sends fuel u s).2 := by
  induction fuel generalizing u s with
  | zero => exact .refl s
  | succ fuel ih =>
      rw [sendLoop]
      split
      · exact .refl s
      simp only
      split
      · have hsend := tcpSendSegment_unchanged s { psh := true, ack := true } s.snd.sndNxt
          s.rcv.rcvNxt (min (min u.toNat s.snd.sndUser.toNat) s.snd.smss.toNat) true
        split
        · exact hsend
        · refine hsend.trans (.trans ?_ (ih _ _))
          exact ⟨⟨⟨rfl, rfl, rfl, rfl, rfl, rfl, rfl, .inl rfl⟩, rfl⟩, rfl⟩
      · exact .refl s

theorem tcpNagleAlgo_unchanged (s : Socket) (flags : SocketFlags) :
    SameState s (tcpNagleAlgo s flags).2 := sendLoop_unchanged _ _ _ s

theorem copyUserData_ends (s : Socket) (data : List UInt8) (n : ℕ) :
    SameEnds s (copyUserData s data n) := by
  rw [copyUserData]
  split <;> exact ⟨rfl, rfl, rfl, rfl, rfl, rfl, rfl, .inl rfl⟩

theorem tcpSendLoop_ends (flags : SocketFlags) (fuel : ℕ) (s : Socket) (data : List UInt8) :
    SameEnds s (tcpSendLoop flags fuel s data).1 ∧
      (tcpSendLoop flags fuel s data).1.state = s.state := by
  induction fuel generalizing s data with
  | zero => exact ⟨.refl s, rfl⟩
  | succ fuel ih =>
      rcases tcpSendLoop_round flags fuel s data with heq | ⟨n, -, -, -, hrest⟩
      · rw [heq]
        exact ⟨.refl s, rfl⟩
      have hcopy := copyUserData_ends s data n
      have hnagle := tcpNagleAlgo_unchanged (copyUserData s data n) flags
      have hstate := hnagle.state.trans (copyUserData_state s data n)
      rcases hrest with heq | heq
      · rw [heq]
        obtain ⟨hends, hstate'⟩ := ih (tcpNagleAlgo (copyUserData s data n) flags).2 (data.drop n)
        exact ⟨hcopy.trans (hnagle.toSameEnds.trans hends), hstate'.trans hstate⟩
      · rw [heq]
        exact ⟨hcopy.trans hnagle.toSameEnds, hstate⟩

theorem tcpSend_ends (s : Socket) (data : List UInt8) (flags : SocketFlags) :
    SameEnds s (tcpSend s data flags).1 ∧ (tcpSend s data flags).1.state = s.state := by
  rw [tcpSend]
  split
  · exact ⟨.refl s, rfl⟩
  · exact tcpSendLoop_ends _ _ _ _

/-! ## Receiving -/

theorem tcpUpdateReceiveWindow_synQueue (s : Socket) :
    (tcpUpdateReceiveWindow s).synQueue = s.synQueue := by
  rw [tcpUpdateReceiveWindow]
  split
  · obtain ⟨net, heq, -⟩ := tcpSendAck_netOnly { s with rcv := s.rcv.openWindow }
    rw [heq]
  · rfl

theorem consume_stream (s : Socket) (data : List UInt8) :
    SameStream s (consume s data) ∧ (consume s data).state = s.state := by
  have hkeeps := (consume_keeps s data).same.unchanged (tcpUpdateReceiveWindow_synQueue _)
  have hread : SameStream s (s.readData data) := ⟨⟨rfl, rfl, rfl, rfl, rfl, rfl, rfl, .inl rfl⟩, rfl⟩
  exact ⟨hread.trans hkeeps.toSameStream, hkeeps.state⟩

theorem tcpReceiveLoop_stream (flags : SocketFlags) (size fuel : ℕ) (s : Socket) (received : ℕ) :
    SameStream s (tcpReceiveLoop flags size fuel s received).1 ∧
      (tcpReceiveLoop flags size fuel s received).1.state = s.state := by
  induction fuel generalizing s received with
  | zero => exact ⟨.refl s, rfl⟩
  | succ fuel ih =>
      rw [tcpReceiveLoop]
      split
      · exact ⟨.refl s, rfl⟩
      split
      · exact ⟨.refl s, rfl⟩
      split
      · exact ⟨.refl s, rfl⟩
      · next seqNum _ =>
        simp only
        generalize copyReceived s.rcv seqNum _ flags = data
        obtain ⟨hsame, hstate⟩ := consume_stream s data
        split
        · exact ⟨hsame, hstate⟩
        · obtain ⟨hmore, hstate'⟩ := ih (consume s data) (received + data.length)
          exact ⟨hsame.trans hmore, hstate'.trans hstate⟩

theorem tcpReceive_stream (s : Socket) (size : ℕ) (flags : SocketFlags) :
    SameStream s (tcpReceive s size flags).1 ∧ (tcpReceive s size flags).1.state = s.state := by
  rw [tcpReceive]
  split
  · exact ⟨.refl s, rfl⟩
  · exact tcpReceiveLoop_stream _ _ _ _ _

/-! ## Shutting down -/

theorem sendFin_ends (s : Socket) (how : SocketShutdown) (next : TcpState) :
    SameEnds s (sendFin s how next).1 ∧
      ((sendFin s how next).1.state = s.state ∨ (sendFin s how next).1.state = next) := by
  have hsend := tcpSendSegment_unchanged s { fin := true, ack := true } s.snd.sndNxt s.rcv.rcvNxt 0
    true
  rw [sendFin]
  simp only
  split
  · exact ⟨hsend.toSameEnds, .inl hsend.state⟩
  · refine ⟨hsend.toSameEnds.trans (.trans ?_ (tcpChangeState_ends _ _)), .inr rfl⟩
    exact ⟨rfl, rfl, rfl, rfl, rfl, rfl, rfl, .inl rfl⟩

/-- The FIN is sent in a state that is open for sending. -/
theorem flush_ends (s : Socket) (how : SocketShutdown) (next : TcpState) :
    SameEnds s (flush s how next).1 ∧ ((flush s how next).1.state = s.state ∨
      s.txReady = true ∧ (s.state = .established ∨ s.state = .closeWait) ∧
        (flush s how next).1.state = next) := by
  rw [flush]
  rcases tcpSendLoop_nil_cases s with ⟨outcome, heq, hne⟩ | ⟨hstate, hready, heq⟩
  · rw [heq]
    cases outcome with
    | blocks call => exact ⟨.refl s, .inl rfl⟩
    | returns error =>
        cases error
        case noError => exact absurd rfl hne
        all_goals exact ⟨.refl s, .inl rfl⟩
  · rw [heq]
    have hsame := tcpNagleAlgo_unchanged s { noDelay := true }
    simp only [awaitTxDone]
    split
    · obtain ⟨hends, hnext⟩ := sendFin_ends (tcpNagleAlgo s { noDelay := true }).2 how next
      refine ⟨hsame.toSameEnds.trans hends, ?_⟩
      rcases hnext with hnext | hnext
      · exact .inl (hnext.trans hsame.state)
      · exact .inr ⟨hready, hstate, hnext⟩
    · exact ⟨hsame.toSameEnds, .inl hsame.state⟩

/-- The states that a FIN is meant to leave. -/
def TcpState.Sends (state : TcpState) : Prop :=
  state = .synReceived ∨ state = .established ∨ state = .closeWait

theorem tcpShutdown_ends (s : Socket) (how : SocketShutdown) :
    SameEnds s (tcpShutdown s how).1 ∧
      ((tcpShutdown s how).1.state = s.state ∨ s.state.Sends) := by
  rw [tcpShutdown]
  split
  · exact ⟨.refl s, .inl rfl⟩
  · split
    case h_3 hstate => exact ⟨(flush_ends s how _).1, .inr (.inl hstate)⟩
    case h_4 hstate => exact ⟨(flush_ends s how _).1, .inr (.inr (.inl hstate))⟩
    case h_5 hstate => exact ⟨(flush_ends s how _).1, .inr (.inr (.inr hstate))⟩
    all_goals exact ⟨.refl s, .inl rfl⟩

theorem resumeCall_ends (s : Socket) (call : Call) :
    SameEnds s (resumeCall s call).1 ∧
      ((resumeCall s call).1.state = s.state ∨ sendsFin s call ≠ none) := by
  cases call with
  | connect | sendAck | finAcked | finReceived => exact ⟨.refl s, .inl rfl⟩
  | send data flags =>
      rw [resumeCall]
      split
      · exact (tcpSendLoop_ends _ _ _ _).imp_right .inl
      · exact ⟨.refl s, .inl rfl⟩
  | receive size received flags =>
      rw [resumeCall]
      split
      · exact (tcpReceiveLoop_stream _ _ _ _ _).imp SameStream.toSameEnds .inl
      · exact ⟨.refl s, .inl rfl⟩
  | flush how next =>
      rw [resumeCall]
      split
      · refine (flush_ends s how next).imp_right (Or.imp_right ?_)
        rintro ⟨hready, hstate, -⟩
        simp [sendsFin, hready, hstate]
      · exact ⟨.refl s, .inl rfl⟩
  | sendFin how next =>
      rw [resumeCall]
      split
      case isTrue hdone =>
        exact ⟨(sendFin_ends s how next).1, .inr (by simp [sendsFin, hdone])⟩
      case isFalse => exact ⟨.refl s, .inl rfl⟩

/-! ## Opening connections -/

/-- The ends of a connection that is opened. -/
def connectedEnds (s : Socket) (interface : ℕ) (addr remoteIpAddr : IpAddr) (remotePort : UInt16) :
    Socket :=
  { s with
    ownedFlag := true, interface := some interface, localIpAddr := addr
    remoteIpAddr := remoteIpAddr, remotePort := remotePort }

/-- The socket is still closed, on the same port, or it waits for the answer to its SYN, with the addresses
of the connection and a user that owns it. -/
inductive Connected (s : Socket) (remoteIpAddr : IpAddr) (remotePort : UInt16) (env : ConnectEnv)
    (s' : Socket) : Prop
  | failed (htype : s'.type = s.type) (hclosed : s'.state = .closed)
      (hport : s'.localPort = s.localPort) (hqueue : s'.synQueue = s.synQueue ∨ s'.synQueue = [])
  | sent (interface : ℕ) (addr : IpAddr) (hsource : env.source = .ok (interface, addr))
      (hends : SameEnds (connectedEnds s interface addr remoteIpAddr remotePort) s')

theorem Connected.type {s s' : Socket} {remoteIpAddr : IpAddr} {remotePort : UInt16}
    {env : ConnectEnv} (h : Connected s remoteIpAddr remotePort env s') : s'.type = s.type := by
  cases h with
  | failed htype => exact htype
  | sent interface addr hsource hends => exact hends.type

/-- `tcpConnect` changes a socket in the CLOSED state only. -/
theorem tcpConnect_ends (s : Socket) (remoteIpAddr : IpAddr) (remotePort : UInt16)
    (env : ConnectEnv) :
    (tcpConnect s remoteIpAddr remotePort env).1 = s ∨ s.state = .closed ∧
      Connected s remoteIpAddr remotePort env (tcpConnect s remoteIpAddr remotePort env).1 := by
  rw [tcpConnect]
  split
  case isFalse => exact .inl rfl
  case isTrue hstate =>
    refine .inr ⟨hstate, ?_⟩
    suffices hopen : Connected s remoteIpAddr remotePort env
        (openConnection s remoteIpAddr remotePort env).2 by
      simp only
      split <;> exact hopen
    rw [openConnection]
    simp only
    split
    · exact .failed rfl hstate rfl (.inl rfl)
    case h_2 interface addr hsource =>
      split
      · exact .failed rfl hstate rfl (.inl rfl)
      split
      · exact .failed rfl hstate rfl (.inr rfl)
      · generalize hb : activeBlock _ env.iss = block
        have hblock : SameEnds (connectedEnds s interface addr remoteIpAddr remotePort) block := by
          subst hb
          exact ⟨rfl, rfl, rfl, rfl, rfl, rfl, rfl, .inl rfl⟩
        have hclosed : block.state = .closed := by
          subst hb
          exact hstate
        have hsend := tcpSendSegment_unchanged block { syn := true } block.snd.iss 0 0 true
        rw [sendSyn]
        simp only
        split
        · have hends := hblock.trans hsend.toSameEnds
          exact .failed hends.type (hsend.state.trans hclosed) hends.localPort hends.synQueue
        · exact .sent interface addr hsource
            (hblock.trans (hsend.toSameEnds.trans (tcpChangeState_ends _ .synSent)))

theorem tcpListen_ends (s : Socket) (backlog : ℕ) :
    SameEnds s (tcpListen s backlog).2 ∧ ((tcpListen s backlog).2.state = s.state ∨
      s.state = .closed ∧ (tcpListen s backlog).2.state = .listen) := by
  rw [tcpListen]
  split
  · exact ⟨.refl s, .inl rfl⟩
  case isFalse h =>
    refine ⟨.trans ?_ (tcpChangeState_ends _ _), .inr ⟨not_not.1 h, rfl⟩⟩
    exact ⟨rfl, rfl, rfl, rfl, rfl, rfl, rfl, .inl rfl⟩

/-- `tcpAbort` releases the socket, or leaves it to the 2MSL timer. -/
theorem tcpAbort_ends (s : Socket) :
    ((tcpAbort s).2.type = .unused ∧ (tcpAbort s).2.synQueue = []) ∨
      s.state = .timeWait ∧ (tcpAbort s).2 = { s with ownedFlag := false } := by
  rw [tcpAbort]
  split
  case h_6 hstate => exact .inr ⟨hstate, rfl⟩
  all_goals exact .inl ⟨rfl, rfl⟩

theorem tcpAbort_written (s : Socket) : (tcpAbort s).2.history.written = s.history.written := by
  have hclose : ∀ s' : Socket,
      (disposeSocket (tcpChangeState s' .closed)).history.written = s'.history.written := fun s' =>
    (tcpChangeState_stream s' .closed).written
  rw [tcpAbort]
  split
  case h_6 => rfl
  case h_7 => exact hclose s
  all_goals
    exact (hclose _).trans
      (tcpSendSegment_unchanged s { rst := true } s.snd.sndNxt 0 0 false).written

/-- The ends of a connection that is accepted. -/
def acceptedEnds (listener s : Socket) (queueItem : TcpSynQueueItem) : Socket :=
  { s with
    ownedFlag := true, interface := some queueItem.interface
    localIpAddr := queueItem.destAddr, localPort := listener.localPort
    remoteIpAddr := queueItem.srcAddr, remotePort := queueItem.srcPort }

/-- A socket that `tcpAccept` sets up ends the connection with the peer that has asked for it, or is
released. -/
theorem acceptConnection_ends (listener s : Socket) (queueItem : TcpSynQueueItem) (memory : Bool)
    (iss : UInt32) :
    ((acceptConnection listener s queueItem memory iss).1 = .noError ∧
      SameEnds (acceptedEnds listener s queueItem)
        (acceptConnection listener s queueItem memory iss).2) ∨
    ((acceptConnection listener s queueItem memory iss).1 ≠ .noError ∧
      ∃ s', s'.state = s.state ∧
        (SameEnds { s with ownedFlag := true } s' ∨
          SameEnds (acceptedEnds listener s queueItem) s') ∧
        (acceptConnection listener s queueItem memory iss).2 = (tcpAbort s').2) := by
  rw [acceptConnection]
  split
  · exact .inr ⟨by simp, inheritSettings listener s, rfl,
      .inl ⟨rfl, rfl, rfl, rfl, rfl, rfl, rfl, .inl rfl⟩, rfl⟩
  · generalize hb : passiveBlock listener (inheritSettings listener s) queueItem iss = block
    have hblock : SameEnds (acceptedEnds listener s queueItem) block := by
      subst hb
      exact ⟨rfl, rfl, rfl, rfl, rfl, rfl, rfl, .inl rfl⟩
    have hstate : block.state = s.state := by
      subst hb
      rfl
    have hsend := tcpSendSegment_unchanged block { syn := true, ack := true } block.snd.iss
      block.rcv.rcvNxt 0 true
    rw [sendSynAck]
    simp only
    split
    case isTrue herror =>
      exact .inr ⟨herror, _, hsend.state.trans hstate, .inr (hblock.trans hsend.toSameEnds), rfl⟩
    case isFalse =>
      exact .inl ⟨rfl, hblock.trans (hsend.toSameEnds.trans (tcpChangeState_ends _ _))⟩

/-! ## Incoming segments -/

/-- What a segment or a timer does to a socket: in the TIME-WAIT state it disposes of one whose user has
closed it. Where `queues` holds, a request may be queued. -/
structure Serviced (queues : Prop) (s s' : Socket) : Prop where
  ends : SameEnds { s with synQueue := s'.synQueue } s' ∨
    s.state = .timeWait ∧ s.ownedFlag = false ∧ s'.type = .unused ∧ s'.synQueue = []
  synQueue : ¬ queues → s'.synQueue = s.synQueue ∨ s'.synQueue = []
  written : s'.history.written = s.history.written
  passive : s.state = .closed ∨ s.state = .listen → s'.state = s.state ∨ s'.state = .closed

theorem SameEnds.requeue {s s' : Socket} (h : SameEnds s s') :
    SameEnds { s with synQueue := s'.synQueue } s' :=
  ⟨h.type, h.ownedFlag, h.interface, h.localIpAddr, h.localPort, h.remoteIpAddr, h.remotePort, .inl rfl⟩

theorem SameStream.serviced {queues : Prop} {s s' : Socket} (h : SameStream s s')
    (hpassive : s.state = .closed ∨ s.state = .listen → s'.state = s.state ∨ s'.state = .closed) :
    Serviced queues s s' :=
  ⟨.inl h.toSameEnds.requeue, fun _ => h.synQueue, h.written, hpassive⟩

theorem Serviced.of_stream {queues : Prop} {s s' : Socket} (h : SameStream s s')
    (hclosed : s.state ≠ .closed) (hlisten : s.state ≠ .listen) : Serviced queues s s' :=
  h.serviced fun hstate => absurd hstate (not_or.2 ⟨hclosed, hlisten⟩)

theorem tcpFastRecovery_synQueue (s : Socket) (segment : Segment) (n : UInt32) :
    (tcpFastRecovery s segment n).synQueue = s.synQueue := by
  rw [tcpFastRecovery]
  split <;> rfl

theorem tcpFastLossRecovery_synQueue (s : Socket) (segment : Segment) :
    (tcpFastLossRecovery s segment).synQueue = s.synQueue := by
  rw [tcpFastLossRecovery]
  split <;> rfl

theorem congestionOnAck_synQueue (s : Socket) (segment : Segment) (n : UInt32) (updateFlag : Bool) :
    (congestionOnAck s segment n updateFlag).synQueue = s.synQueue := by
  rw [congestionOnAck]
  split
  · exact tcpFastRecovery_synQueue s segment n
  · simp only
    split
    · exact tcpFastLossRecovery_synQueue _ segment
    · rfl

theorem congestionOnDupAck_synQueue (s : Socket) (segment : Segment) (duplicateFlag : Bool) :
    (congestionOnDupAck s segment duplicateFlag).synQueue = s.synQueue := by
  rw [congestionOnDupAck]
  split
  · split <;> rfl
  · split <;> rfl
  · rfl

theorem tcpCheckAck_synQueue (s : Socket) (segment : Segment) :
    (tcpCheckAck s segment).2.synQueue = s.synQueue := by
  rw [tcpCheckAck]
  split
  · rfl
  split
  · rfl
  split
  · obtain ⟨net, heq, -⟩ := tcpSendAck_netOnly s
    rw [heq]
  · simp only
    split
    · exact congestionOnAck_synQueue _ segment _ _
    · exact congestionOnDupAck_synQueue _ segment _

theorem tcpCheckAck_stream (s : Socket) (segment : Segment) (h : s.state ≠ .closed) :
    SameStream s (tcpCheckAck s segment).2 :=
  ((tcpCheckAck_acts (R := fun _ _ => True) (K := {}) (O := True) s segment h).2.1.unchanged
    (tcpCheckAck_synQueue s segment)).toSameStream

theorem checkSegment_stream {s : Socket} {segment : Segment}
    {checkAck : Socket → Segment → ErrorCode × Socket} {process : Socket → Socket}
    (hcheck : SameStream s (checkAck s segment).2)
    (hprocess : ∀ s', SameStream s' (process s')) :
    SameStream s (checkSegment s segment checkAck process) := by
  rcases checkSegment_cases s segment checkAck process with hnet | ⟨-, -, heq⟩ | ⟨-, -, -, heq⟩
  · exact hnet.stream
  · rw [heq]
    exact tcpChangeState_stream _ _
  · rw [heq]
    split
    · exact hcheck
    · exact hcheck.trans (hprocess _)

theorem receiveText_stream (s : Socket) (segment : Segment) : SameStream s (receiveText s segment) := by
  rw [receiveText]
  split
  · refine .trans ?_ (tcpSendAck_netOnly { s with rcv := receiveData s.rcv segment }).stream
    exact ⟨⟨rfl, rfl, rfl, rfl, rfl, rfl, rfl, .inl rfl⟩, rfl⟩
  · exact .refl s

theorem receiveFin_stream (s : Socket) : SameStream s (receiveFin s) := by
  refine .trans ?_ (receiveFin_netOnly s).stream
  exact ⟨⟨rfl, rfl, rfl, rfl, rfl, rfl, rfl, .inl rfl⟩, rfl⟩

theorem enterTimeWait_stream (s : Socket) : SameStream s (enterTimeWait s) := by
  refine .trans ?_ (tcpChangeState_stream _ _)
  exact ⟨⟨rfl, rfl, rfl, rfl, rfl, rfl, rfl, .inr rfl⟩, rfl⟩

theorem sendPending_stream (s : Socket) : SameStream s (sendPending s) :=
  (tcpNagleAlgo_unchanged s _).toSameStream

theorem tcpStateSynSent_stream (s : Socket) (segment : Segment) :
    SameStream s (tcpStateSynSent s segment) := by
  rw [tcpStateSynSent]
  split
  · split
    · exact .refl s
    · exact (tcpSendSegment_unchanged _ _ _ _ _ _).toSameStream
  split
  · split
    · exact tcpChangeState_stream _ _
    · exact .refl s
  split
  · have hsyn : SameStream s (receiveSyn s segment) := ⟨⟨rfl, rfl, rfl, rfl, rfl, rfl, rfl, .inl rfl⟩, rfl⟩
    refine hsyn.trans ?_
    generalize receiveSyn s segment = s'
    simp only
    split
    · refine .trans ?_ (.trans (tcpSendAck_netOnly { s' with
        snd := s'.snd.openWindow segment }).stream (tcpChangeState_stream _ _))
      exact ⟨⟨rfl, rfl, rfl, rfl, rfl, rfl, rfl, .inl rfl⟩, rfl⟩
    · exact (tcpSendSegment_unchanged _ _ _ _ _ _).toSameStream.trans (tcpChangeState_stream _ _)
  · exact .refl s

theorem tcpStateEstablished_stream (s : Socket) (segment : Segment) (h : s.state ≠ .closed) :
    SameStream s (tcpStateEstablished s segment) := by
  refine checkSegment_stream (tcpCheckAck_stream s segment h) fun s' => ?_
  simp only
  refine (receiveText_stream s' segment).trans ?_
  split
  · exact (receiveFin_stream _).trans ((tcpChangeState_stream _ _).trans (sendPending_stream _))
  · exact sendPending_stream _

theorem tcpStateSynReceived_stream (s : Socket) (segment : Segment) :
    SameStream s (tcpStateSynReceived s segment) := by
  refine checkSegment_stream (.refl s) fun s' => ?_
  split
  · exact (tcpSendSegment_unchanged _ _ _ _ _ _).toSameStream
  · simp only
    refine .trans (.trans ?_ (tcpChangeState_stream _ .established))
      (tcpStateEstablished_stream _ segment (by simp))
    exact ⟨⟨rfl, rfl, rfl, rfl, rfl, rfl, rfl, .inl rfl⟩, rfl⟩

theorem tcpStateFinWait1_stream (s : Socket) (segment : Segment) (h : s.state ≠ .closed) :
    SameStream s (tcpStateFinWait1 s segment) := by
  refine checkSegment_stream (tcpCheckAck_stream s segment h) fun s' => ?_
  have hacked : SameStream s' (if segment.ackNum = s'.snd.sndNxt then
      tcpChangeState { s' with finWait2Timer := true } .finWait2 else s') := by
    split
    · refine .trans ?_ (tcpChangeState_stream _ _)
      exact ⟨⟨rfl, rfl, rfl, rfl, rfl, rfl, rfl, .inl rfl⟩, rfl⟩
    · exact .refl s'
  simp only
  generalize (if segment.ackNum = s'.snd.sndNxt then
    tcpChangeState { s' with finWait2Timer := true } .finWait2 else s') = t at hacked ⊢
  refine hacked.trans ((receiveText_stream t segment).trans ?_)
  generalize receiveText t segment = t'
  split
  · refine (receiveFin_stream t').trans ?_
    split
    · exact enterTimeWait_stream _
    · exact tcpChangeState_stream _ _
  · exact .refl t'

theorem tcpStateFinWait2_stream (s : Socket) (segment : Segment) (h : s.state ≠ .closed) :
    SameStream s (tcpStateFinWait2 s segment) := by
  refine checkSegment_stream (tcpCheckAck_stream s segment h) fun s' => ?_
  simp only
  refine (receiveText_stream s' segment).trans ?_
  split
  · exact (receiveFin_stream _).trans (enterTimeWait_stream _)
  · exact .refl _

theorem tcpStateClosing_stream (s : Socket) (segment : Segment) (h : s.state ≠ .closed) :
    SameStream s (tcpStateClosing s segment) := by
  refine checkSegment_stream (tcpCheckAck_stream s segment h) fun s' => ?_
  split
  · exact enterTimeWait_stream _
  · exact .refl s'

theorem tcpStateLastAck_stream (s : Socket) (segment : Segment) :
    SameStream s (tcpStateLastAck s segment) := by
  refine checkSegment_stream (.refl s) fun s' => ?_
  split
  · exact tcpChangeState_stream _ _
  · exact .refl s'

/-- The socket belonged to no user and is released. -/
structure Disposed (s s' : Socket) : Prop where
  ownedFlag : s.ownedFlag = false
  type : s'.type = .unused
  synQueue : s'.synQueue = []
  written : s'.history.written = s.history.written

/-- The 2MSL timer and a reset end the TIME-WAIT state. -/
theorem finishTimeWait_stream (s : Socket) :
    let s' := if (tcpChangeState s .closed).ownedFlag then tcpChangeState s .closed
      else disposeSocket (tcpChangeState s .closed)
    s.ownedFlag = true ∧ SameStream s s' ∨ Disposed s s' := by
  have hends := tcpChangeState_stream s .closed
  rw [hends.ownedFlag]
  cases howned : s.ownedFlag with
  | true => exact .inl ⟨rfl, hends⟩
  | false => exact .inr ⟨howned, rfl, rfl, hends.written⟩

/-- In the TIME-WAIT state: the socket stays there, or its user owns it still, or it is disposed of. -/
theorem tcpStateTimeWait_stream (s : Socket) (segment : Segment) :
    (SameStream s (tcpStateTimeWait s segment) ∧
        ((tcpStateTimeWait s segment).state = s.state ∨ s.ownedFlag = true)) ∨
      Disposed s (tcpStateTimeWait s segment) := by
  rw [tcpStateTimeWait]
  rcases tcpCheckSequenceNumber_cases s segment with ⟨-, hseq⟩ | ⟨s', hseq, hnet⟩
  · rw [hseq]
    simp only [ne_eq, not_true_eq_false, if_false]
    split
    · rcases finishTimeWait_stream s with ⟨howned, hends⟩ | hdisposed
      · exact .inl ⟨hends, .inr howned⟩
      · exact .inr hdisposed
    · rcases tcpCheckSyn_cases s segment with ⟨-, hsyn⟩ | ⟨s', hsyn, hnet⟩
      · rw [hsyn]
        simp only [not_true_eq_false, if_false]
        split
        · have hack := (tcpSendAck_netOnly s).unchanged
          refine .inl ⟨hack.toSameStream.trans ?_, .inl hack.state⟩
          exact ⟨⟨rfl, rfl, rfl, rfl, rfl, rfl, rfl, .inl rfl⟩, rfl⟩
        · exact .inl ⟨.refl s, .inl rfl⟩
      · rw [hsyn]
        exact .inl ⟨hnet.stream, .inl hnet.state⟩
  · rw [hseq]
    exact .inl ⟨hnet.stream, .inl hnet.state⟩

theorem tcpProcessSegment_serviced (s : Socket) (segment : Segment) (memory : Bool) :
    Serviced (s.state = .listen) s (tcpProcessSegment s segment memory) ∧
      (s.state = .timeWait → s.ownedFlag = false →
        (tcpProcessSegment s segment memory).state = .timeWait ∨
          (tcpProcessSegment s segment memory).type = .unused) := by
  rw [tcpProcessSegment]
  generalize hs' : { s with history := { s.history with
      finAcked := s.history.finAcked || acksFin s segment } } = s'
  have hends : SameStream s s' := by
    subst hs'
    exact ⟨⟨rfl, rfl, rfl, rfl, rfl, rfl, rfl, .inl rfl⟩, rfl⟩
  have hstate : s'.state = s.state := by rw [← hs']
  have hwait : s'.state ≠ .timeWait → s.state = .timeWait → s.ownedFlag = false → ∀ t : Socket,
      t.state = .timeWait ∨ t.type = .unused := fun hne h => absurd (hstate.trans h) hne
  have hopen : ∀ t, SameStream s' t → s'.state ≠ .closed → s'.state ≠ .listen →
      Serviced (s.state = .listen) s t :=
    fun t h hclosed hlisten => .of_stream (hends.trans h) (hstate ▸ hclosed) (hstate ▸ hlisten)
  split
  case h_1 h =>
    exact ⟨hends.serviced fun _ => .inl hstate, fun h1 h2 => hwait (by simp [h]) h1 h2 _⟩
  case h_2 h =>
    have hkeeps := (tcpStateListen_keeps s' segment memory).same
    refine ⟨⟨.inl ?_, fun hne => absurd (hstate.symm.trans h) hne,
      (congrArg History.written hkeeps.history).trans hends.written,
      fun _ => .inl (hkeeps.state.trans hstate)⟩, fun h1 h2 => hwait (by simp [h]) h1 h2 _⟩
    exact ⟨hkeeps.type.trans hends.type, hkeeps.ownedFlag.trans hends.ownedFlag,
      hkeeps.interface.trans hends.interface, hkeeps.localIpAddr.trans hends.localIpAddr,
      hkeeps.localPort.trans hends.localPort, hkeeps.remoteIpAddr.trans hends.remoteIpAddr,
      hkeeps.remotePort.trans hends.remotePort, .inl rfl⟩
  case h_3 h =>
    exact ⟨hopen _ (tcpStateSynSent_stream s' segment) (by simp [h]) (by simp [h]),
      fun h1 h2 => hwait (by simp [h]) h1 h2 _⟩
  case h_4 h =>
    exact ⟨hopen _ (tcpStateSynReceived_stream s' segment) (by simp [h]) (by simp [h]),
      fun h1 h2 => hwait (by simp [h]) h1 h2 _⟩
  case h_5 h =>
    exact ⟨hopen _ (tcpStateEstablished_stream s' segment (by simp [h])) (by simp [h]) (by simp [h]),
      fun h1 h2 => hwait (by simp [h]) h1 h2 _⟩
  case h_6 h =>
    exact ⟨hopen _ (checkSegment_stream (tcpCheckAck_stream s' segment (by simp [h]))
      sendPending_stream) (by simp [h]) (by simp [h]), fun h1 h2 => hwait (by simp [h]) h1 h2 _⟩
  case h_7 h =>
    exact ⟨hopen _ (tcpStateLastAck_stream s' segment) (by simp [h]) (by simp [h]),
      fun h1 h2 => hwait (by simp [h]) h1 h2 _⟩
  case h_8 h =>
    exact ⟨hopen _ (tcpStateFinWait1_stream s' segment (by simp [h])) (by simp [h]) (by simp [h]),
      fun h1 h2 => hwait (by simp [h]) h1 h2 _⟩
  case h_9 h =>
    exact ⟨hopen _ (tcpStateFinWait2_stream s' segment (by simp [h])) (by simp [h]) (by simp [h]),
      fun h1 h2 => hwait (by simp [h]) h1 h2 _⟩
  case h_10 h =>
    exact ⟨hopen _ (tcpStateClosing_stream s' segment (by simp [h])) (by simp [h]) (by simp [h]),
      fun h1 h2 => hwait (by simp [h]) h1 h2 _⟩
  case h_11 h =>
    have hne : ¬ (s.state = .closed ∨ s.state = .listen) := by
      rw [← hstate, h]
      simp
    rcases tcpStateTimeWait_stream s' segment with ⟨hsame, hleft⟩ | ⟨howned, htype, hqueue, hwritten⟩
    · refine ⟨(hends.trans hsame).serviced fun h' => absurd h' hne, fun _ howned => .inl ?_⟩
      rcases hleft with hleft | hleft
      · exact hleft.trans h
      · rw [hends.ownedFlag, howned] at hleft
        exact absurd hleft (by simp)
    · exact ⟨⟨.inr ⟨hstate.symm.trans h, hends.ownedFlag.symm.trans howned, htype, hqueue⟩,
        fun _ => .inr hqueue, hwritten.trans hends.written, fun h' => absurd h' hne⟩,
        fun _ _ => .inr htype⟩

/-! ## Timers -/

theorem tickRetransmit_stream (s : Socket) (elapsed : Elapsed) :
    SameStream s (tickRetransmit s elapsed) ∧ ((tickRetransmit s elapsed).state = s.state ∨
      retransmitExhausted s elapsed ∧ (tickRetransmit s elapsed).state = .closed) := by
  rw [tickRetransmit]
  split
  case isFalse => exact ⟨.refl s, .inl rfl⟩
  case isTrue h =>
    have hcount : s.snd.congestionTimeout.retransmitCount = s.snd.retransmitCount := rfl
    simp only [hcount]
    split
    · exact ⟨⟨⟨rfl, rfl, rfl, rfl, rfl, rfl, rfl, .inl rfl⟩, rfl⟩, .inl rfl⟩
    case isFalse hmax =>
      refine ⟨.trans (.trans ?_ (tcpChangeState_stream { s with
        snd := s.snd.congestionTimeout } .closed)) ?_, .inr ⟨⟨h.1, h.2.1, h.2.2, not_lt.1 hmax⟩, rfl⟩⟩
      all_goals exact ⟨⟨rfl, rfl, rfl, rfl, rfl, rfl, rfl, .inl rfl⟩, rfl⟩

theorem tickPersist_stream (s : Socket) (elapsed : Elapsed) :
    SameStream s (tickPersist s elapsed) ∧ ((tickPersist s elapsed).state = s.state ∨
      probesExhausted s elapsed ∧ (tickPersist s elapsed).state = .closed) := by
  rw [tickPersist]
  split
  case isFalse => exact ⟨.refl s, .inl rfl⟩
  case isTrue h =>
    split
    · have hsend := tcpSendSegment_unchanged s { ack := true } (s.snd.sndNxt - 1) s.rcv.rcvNxt 0 false
      refine ⟨hsend.toSameStream.trans ?_, .inl hsend.state⟩
      exact ⟨⟨rfl, rfl, rfl, rfl, rfl, rfl, rfl, .inl rfl⟩, rfl⟩
    case isFalse hmax =>
      exact ⟨tcpChangeState_stream _ _,
        .inr ⟨⟨h.1, h.2.1, h.2.2.1, h.2.2.2, not_lt.1 hmax⟩, rfl⟩⟩

theorem tickOverride_unchanged (s : Socket) (elapsed : Elapsed) :
    SameState s (tickOverride s elapsed) := by
  rw [tickOverride]
  split
  · have hloop := sendLoop_unchanged (fun _ _ _ => true) s.snd.sndUser.toNat s.snd.usableWindow s
    simp only
    split
    · refine hloop.trans ?_
      exact ⟨⟨⟨rfl, rfl, rfl, rfl, rfl, rfl, rfl, .inl rfl⟩, rfl⟩, rfl⟩
    · exact hloop
  · exact .refl s

theorem tickFinWait2_stream (s : Socket) (elapsed : Elapsed) :
    SameStream s (tickFinWait2 s elapsed) ∧ ((tickFinWait2 s elapsed).state = s.state ∨
      s.state = .finWait2 ∧ (tickFinWait2 s elapsed).state = .closed) := by
  rw [tickFinWait2]
  split
  case isTrue h => exact ⟨tcpChangeState_stream _ _, .inr ⟨h.1, rfl⟩⟩
  case isFalse => exact ⟨.refl s, .inl rfl⟩

theorem tickTimeWait_stream (s : Socket) (elapsed : Elapsed) :
    SameStream s (tickTimeWait s elapsed) ∧
        ((tickTimeWait s elapsed).state = s.state ∨ s.state = .timeWait ∧ s.ownedFlag = true) ∨
      s.state = .timeWait ∧ Disposed s (tickTimeWait s elapsed) := by
  rw [tickTimeWait]
  split
  case isTrue h =>
    rcases finishTimeWait_stream s with ⟨howned, hends⟩ | hdisposed
    · exact .inl ⟨hends, .inr ⟨h.1, howned⟩⟩
    · exact .inr ⟨h.1, hdisposed⟩
  case isFalse => exact .inl ⟨.refl s, .inl rfl⟩

theorem tcpTick_serviced (s : Socket) (elapsed : Elapsed) :
    Serviced False s (tcpTick s elapsed) ∧
      (s.state = .timeWait → s.ownedFlag = false → ¬ retransmitExhausted s elapsed →
        ¬ probesExhausted s elapsed →
        (tcpTick s elapsed).state = .timeWait ∨ (tcpTick s elapsed).type = .unused) := by
  rw [tcpTick]
  split
  case isTrue hclosed =>
    exact ⟨(SameStream.refl s).serviced fun _ => .inl rfl,
      fun h => absurd (hclosed.symm.trans h) (by simp)⟩
  case isFalse hstate =>
    obtain ⟨hends1, hstate1⟩ := tickRetransmit_stream s elapsed
    have hprobes := probesExhausted_tickRetransmit s elapsed
    simp only
    split
    case isTrue hclosed =>
      refine ⟨hends1.serviced fun _ => .inr hclosed, fun _ _ hretransmit _ => ?_⟩
      rcases hstate1 with hsame | ⟨hexhausted, -⟩
      · exact absurd (hsame.symm.trans hclosed) hstate
      · exact absurd hexhausted hretransmit
    case isFalse hopen =>
      replace hstate1 := hstate1.resolve_right fun h => hopen h.2
      obtain ⟨hends2, hstate2⟩ := tickPersist_stream (tickRetransmit s elapsed) elapsed
      rw [hprobes, hstate1] at hstate2
      generalize tickPersist (tickRetransmit s elapsed) elapsed = s2 at *
      have hsame3 := tickOverride_unchanged s2 elapsed
      obtain ⟨hends4, hstate4⟩ := tickFinWait2_stream (tickOverride s2 elapsed) elapsed
      rw [hsame3.state] at hstate4
      generalize tickFinWait2 (tickOverride s2 elapsed) elapsed = s4 at *
      have hends : SameStream s s4 := 
        hends1.trans (hends2.trans (hsame3.toSameStream.trans hends4))
      -- a timer closes the socket or leaves the state as it is
      have hleft : s4.state = s.state ∨ s4.state = .closed := by
        rcases hstate4 with hstate4 | ⟨-, hclosed⟩
        · exact hstate4 ▸ hstate2.imp_right And.right
        · exact .inr hclosed
      have hwait : s4.state = .timeWait → s.state = .timeWait := by
        intro h
        rcases hleft with hleft | hleft
        · exact hleft.symm.trans h
        · exact absurd (hleft.symm.trans h) (by simp)
      refine ⟨⟨?_, ?_, ?_, ?_⟩, ?_⟩
      · rcases tickTimeWait_stream s4 elapsed with ⟨hlast, -⟩ | ⟨h4, howned, htype, hqueue, -⟩
        · exact .inl (hends.trans hlast).toSameEnds.requeue
        · exact .inr ⟨hwait h4, hends.ownedFlag.symm.trans howned, htype, hqueue⟩
      · rcases tickTimeWait_stream s4 elapsed with ⟨hlast, -⟩ | ⟨-, hdisposed⟩
        · exact fun _ => (hends.trans hlast).synQueue
        · exact fun _ => .inr hdisposed.synQueue
      · rcases tickTimeWait_stream s4 elapsed with ⟨hlast, -⟩ | ⟨-, hdisposed⟩
        · exact (hends.trans hlast).written
        · exact hdisposed.written.trans hends.written
      · intro hpassive
        have hne : s4.state ≠ .timeWait := by
          intro h
          rw [hwait h] at hpassive
          simp at hpassive
        rcases tickTimeWait_stream s4 elapsed with ⟨-, hlast | ⟨h4, -⟩⟩ | ⟨h4, -⟩
        · rw [hlast]
          exact hleft
        · exact absurd h4 hne
        · exact absurd h4 hne
      · intro h howned hretransmit hprobe
        have h4 : s4.state = .timeWait := by
          rcases hstate2 with hstate2 | ⟨hexhausted, -⟩
          · rcases hstate4 with hstate4 | ⟨hfin, -⟩
            · rw [hstate4, hstate2, h]
            · rw [hstate2, h] at hfin
              exact absurd hfin (by simp)
          · exact absurd hexhausted hprobe
        rcases tickTimeWait_stream s4 elapsed with ⟨-, hlast | ⟨-, howned4⟩⟩ | ⟨-, hdisposed⟩
        · exact .inl (hlast.trans h4)
        · rw [hends.ownedFlag, howned] at howned4
          exact absurd howned4 (by simp)
        · exact .inr hdisposed.type

/-! ## Calls -/

/-- The sections of user calls that concern one socket only, but for `socketClose`. -/
def Event.IsCall : Event → Prop
  | .setTxBufferSize _ | .setRxBufferSize _ | .connect _ _ _ | .listen _ | .send _ _ | .receive _ _
  | .shutdown _ | .resume _ _ => True
  | _ => False

/-- A blocked call goes on to send a FIN, whatever has become of the socket meanwhile. -/
def resumesFin (slot : Slot) : Event → Bool
  | .resume i false => (slot.calls[i]?.bind (sendsFin slot.socket)).isSome
  | _ => false

/-- What a call does to the socket: it is connected; or the ends stay and so does the state, unless the
call makes the socket listen or sends a FIN. -/
inductive Called (slot : Slot) (s' : Socket) : Event → Prop
  | same {event : Event} (hends : SameEnds slot.socket s')
      (hstate : s'.state = slot.socket.state ∨ slot.socket.state.Sends ∨
        (slot.socket.state = .closed ∧ s'.state = .listen) ∨ resumesFin slot event = true) :
      Called slot s' event
  | connect (remoteIpAddr : IpAddr) (remotePort : UInt16) (env : ConnectEnv)
      (htype : slot.socket.type = .stream) (hclosed : slot.socket.state = .closed)
      (h : Connected slot.socket remoteIpAddr remotePort env s') :
      Called slot s' (.connect remoteIpAddr remotePort env)

theorem Called.type {slot : Slot} {s' : Socket} {event : Event} (h : Called slot s' event) :
    s'.type = slot.socket.type := by
  cases h with
  | same hends _ => exact hends.type
  | connect remoteIpAddr remotePort env _ _ hconnected => exact hconnected.type

theorem Called.refl (slot : Slot) (event : Event) : Called slot slot.socket event :=
  .same (.refl _) (.inl rfl)

theorem step_called (slot : Slot) {event : Event} (h : event.IsCall) :
    Called slot (step slot event).socket event := by
  cases event with
  | setTxBufferSize size =>
      rw [step, socketSetTxBufferSize]
      split_ifs
      · exact .refl slot _
      · exact .refl slot _
      · exact .same ⟨rfl, rfl, rfl, rfl, rfl, rfl, rfl, .inl rfl⟩ (.inl rfl)
  | setRxBufferSize size =>
      rw [step, socketSetRxBufferSize]
      split_ifs
      · exact .refl slot _
      · exact .refl slot _
      · exact .same ⟨rfl, rfl, rfl, rfl, rfl, rfl, rfl, .inl rfl⟩ (.inl rfl)
  | connect remoteIpAddr remotePort env =>
      rw [step]
      split
      case isTrue htype =>
        rw [endSection_socket]
        rcases tcpConnect_ends slot.socket remoteIpAddr remotePort env with heq | ⟨hclosed, hconnected⟩
        · rw [heq]
          exact .refl slot _
        · exact .connect _ _ _ htype hclosed hconnected
      case isFalse => exact .refl slot _
  | listen backlog =>
      rw [step]
      split
      · obtain ⟨hends, hstate⟩ := tcpListen_ends slot.socket backlog
        exact .same hends (hstate.imp_right fun h => .inr (.inl h))
      · exact .refl slot _
  | send data flags =>
      rw [step]
      split
      · rw [endSection_socket]
        obtain ⟨hends, hstate⟩ := tcpSend_ends slot.socket data flags
        exact .same hends (.inl hstate)
      · exact .refl slot _
  | receive size flags =>
      rw [step]
      split
      · rw [endSection_socket]
        obtain ⟨hsame, hstate⟩ := tcpReceive_stream slot.socket size flags
        exact .same hsame.toSameEnds (.inl hstate)
      · exact .refl slot _
  | shutdown how =>
      rw [step]
      split
      · rw [endSection_socket]
        obtain ⟨hends, hstate⟩ := tcpShutdown_ends slot.socket how
        exact .same hends (hstate.imp_right .inl)
      · exact .refl slot _
  | resume i missed =>
      rw [step]
      split
      · exact .refl slot _
      case h_2 call hcall =>
        cases missed with
        | true => exact .refl slot _
        | false =>
            simp only [Bool.false_eq_true, if_false]
            rw [endSection_socket]
            obtain ⟨hends, hstate⟩ := resumeCall_ends slot.socket call
            refine .same hends (hstate.imp_right fun hfin => .inr (.inr ?_))
            rw [resumesFin, hcall]
            exact Option.isSome_iff_ne_none.2 hfin
  | _ => exact h.elim

end Tcp
