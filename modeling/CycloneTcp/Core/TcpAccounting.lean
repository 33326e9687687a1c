import CycloneTcp.Core.TcpReceiving

set_option autoImplicit false

/-! # Accounting of the buffers

What is in the buffers is what has been written and not acknowledged, and what has been received and
not read; the windows are what is left. -/

namespace Tcp

open Serial

variable {R : TcpState → Bool → Prop} {K : Remains} {O : Prop}

/-- The state is past the handshake. -/
def TcpState.synchronized : TcpState → Bool
  | .closed | .listen | .synSent | .synReceived => false
  | _ => true

/-! ## The right edge of the window -/

/-- The states in which the window is open to the peer's data. -/
def TcpState.windowed : TcpState → Bool
  | .established | .finWait1 | .finWait2 => true
  | _ => false

/-- The states before these. -/
def TcpState.handshake : TcpState → Bool
  | .listen | .synSent | .synReceived => true
  | _ => false

/-- The stream position of `RCV.NXT + RCV.WND`. -/
def Socket.rightEdge (s : Socket) : ℕ := s.received + s.rcv.rcvWnd.toNat

/-- The edges lead into the window states from one another and from the handshake only. -/
theorem windowed_of_edge {a b : TcpState} (hedge : edge a b = true) (ha : a.handshake = false)
    (hclosed : a = .closed → b = .closed) :
    b.handshake = false ∧ (b.windowed = true → a.windowed = true) := by
  cases a <;> cases b <;> simp_all [edge, TcpState.handshake, TcpState.windowed]

theorem Act.windowed {s s' : Socket} (h : Act R K False s s')
    (hunused : s.type = .unused → s.state = .closed) (hstate : s.state.handshake = false) :
    s'.state.handshake = false ∧ (s'.state.windowed = true → s.state.windowed = true) := by
  rcases h.change with ⟨-, hsame | ⟨htype, hclosed⟩⟩ | ⟨-, hedge, hopens⟩
  · rw [hsame]
    exact ⟨hstate, id⟩
  · rw [hclosed, hunused htype]
    exact ⟨rfl, id⟩
  · exact windowed_of_edge hedge hstate fun hclosed => by_contra fun hne => hopens hclosed hne

theorem ReceiveAccount.rightEdge_le {s s' : Socket} (h : ReceiveAccount s) (hact : Act R K O s s')
    (hstate : s.state.windowed = true) (hstate' : s'.state.windowed = true) :
    s'.rcv.irs = s.rcv.irs ∧ s.rightEdge ≤ s'.rightEdge := by
  have hwin : s.state = .established ∨ s.state = .finWait1 ∨ s.state = .finWait2 := by
    revert hstate
    cases s.state <;> simp [TcpState.windowed]
  have hsame : s'.rcv = s.rcv → s'.history.delivered = s.history.delivered →
      s'.rcv.irs = s.rcv.irs ∧ s.rightEdge ≤ s'.rightEdge := by
    intro hrcv hdelivered
    rw [Socket.rightEdge, Socket.rightEdge, Socket.received, Socket.received, hrcv, hdelivered]
    exact ⟨rfl, le_rfl⟩
  obtain ⟨spans, hre⟩ := h.receive (.inr hwin)
  cases hact with
  | keep hk => exact hsame hk.same.rcv (by rw [hk.same.history])
  | ack | finAcked | disown | addFin | addSyn => exact hsame rfl rfl
  | sendData item sent => cases sent <;> exact hsame rfl rfl
  | write data n hs hpos =>
      exact hsame (by rw [copyUserData, if_pos hpos]) (by rw [copyUserData, if_pos hpos])
  | data segment hs hacc hlen =>
      obtain ⟨a, b, k, spans', hre', hstored⟩ := receiveData_spec hre hacc hlen
      refine ⟨hstored.irs, ?_⟩
      have huser := hstored.rcvUser
      have hwnd := hstored.rcvWnd
      simp only [Socket.rightEdge, Socket.received]
      omega
  | read seqNum received n flags hseq hpos hn =>
      have hdata : (copyReceived s.rcv seqNum n flags).length ≤ s.rcv.rcvUser.toNat :=
        le_trans (copyReceived_length _ _ _ _) hn
      obtain ⟨user, wnd, hby⟩ := readData_spec hdata hre.room hre.size
      rw [Socket.rightEdge, Socket.rightEdge, hby.received, hby.rcv]
      exact ⟨rfl, Nat.add_le_add_left hby.wnd_ge _⟩
  | finWait2 | established | leave =>
      exact hsame (by rw [tcpChangeState_rcv]) (by rw [tcpChangeState_history])
  | fin segment next hfin hnext =>
      rw [passFin_state] at hstate'
      rcases hnext with ⟨-, rfl⟩ | ⟨-, rfl⟩ | ⟨-, rfl⟩ <;> simp [TcpState.windowed] at hstate'
  | timeWait | finish | reset | connect | accept | listen =>
      simp [TcpState.windowed] at hstate'
  | synSent segment next hs | dispose hs | resize _ _ hs => simp [hs] at hwin
  | configure _ hopens hs => simp [hs] at hwin
  | opened => simp [socketOpen, Socket.cleared, TcpState.windowed] at hstate'

/-- In a step the window does not shrink as long as it is open. -/
theorem Acts.rightEdge_le {s s' : Socket} (h : ReceiveAccount s)
    (hblocks : K.blocks = true) (hacts : Acts R K False s s') (hstate : s.state.windowed = true)
    (hstate' : s'.state.windowed = true) :
    s'.rcv.irs = s.rcv.irs ∧ s.rightEdge ≤ s'.rightEdge := by
  have hbefore : s.state.handshake = false := by
    revert hstate
    cases s.state <;> simp [TcpState.windowed, TcpState.handshake]
  -- along the step: the invariant, and the edge while the window is open
  have hall : ReceiveAccount s' ∧ s'.state.handshake = false ∧ (s'.state.windowed = true →
      s'.rcv.irs = s.rcv.irs ∧ s.rightEdge ≤ s'.rightEdge) := by
    refine hacts.preserve (I := fun t => ReceiveAccount t ∧ t.state.handshake = false ∧
      (t.state.windowed = true → t.rcv.irs = s.rcv.irs ∧ s.rightEdge ≤ t.rightEdge)) ?_
      ⟨h, hbefore, fun _ => ⟨rfl, le_rfl⟩⟩
    rintro t t' ⟨hinv, hhand, hedge⟩ hact
    obtain ⟨hhand', hback⟩ := hact.windowed hinv.unused hhand
    refine ⟨hinv.act hblocks hact, hhand', fun hwin => ?_⟩
    obtain ⟨hirs, hle⟩ := hedge (hback hwin)
    obtain ⟨hirs', hle'⟩ := hinv.rightEdge_le hact (hback hwin) hwin
    exact ⟨hirs'.trans hirs, hle.trans hle'⟩
  exact hall.2.2 hstate'

/-! ## Acknowledgments -/

/-- The segment moves SND.UNA to its ACK, which is in the range from SND.UNA to SND.NXT. -/
structure AcksInRange (s : Socket) (segment : Segment) (s' : Socket) : Prop where
  sndUna : s'.snd.sndUna = segment.ackNum
  una_le : 0 ≤ tcpCmpSeq segment.ackNum s.snd.sndUna
  le_nxt : tcpCmpSeq segment.ackNum s.snd.sndNxt ≤ 0

theorem sendLoop_sndUna (sends : SendSide → UInt32 → ℕ → Bool) (fuel : ℕ) (u : UInt32)
    (s : Socket) : (sendLoop sends fuel u s).2.snd.sndUna = s.snd.sndUna := by
  induction fuel generalizing u s with
  | zero => rfl
  | succ fuel ih =>
      rw [sendLoop]
      split
      · rfl
      · simp only
        split
        · generalize hn : min (min u.toNat s.snd.sndUser.toNat) s.snd.smss.toNat = n
          have hqueued := tcpSendSegment_queued s { psh := true, ack := true } s.snd.sndNxt
            s.rcv.rcvNxt n (by simp)
          simp only at hqueued
          generalize tcpSendSegment s { psh := true, ack := true } s.snd.sndNxt s.rcv.rcvNxt n
            true = r at hqueued ⊢
          have huna : r.2.snd.sndUna = s.snd.sndUna := by
            rcases hqueued with hkeep | ⟨-, hkeep⟩
            · exact hkeep.snd.sndUna
            · exact hkeep.snd.sndUna
          split
          · exact huna
          · rw [ih]
            exact huna
        · rfl

theorem sendPending_sndUna (s : Socket) : (sendPending s).snd.sndUna = s.snd.sndUna :=
  sendLoop_sndUna _ _ _ _

theorem tcpSendAck_sndUna (s : Socket) : (tcpSendAck s).snd.sndUna = s.snd.sndUna :=
  (tcpSendAck_keeps s).snd.sndUna

theorem receiveText_sndUna (s : Socket) (segment : Segment) :
    (receiveText s segment).snd.sndUna = s.snd.sndUna := by
  rw [receiveText]
  split
  · rw [tcpProcessSegmentData, tcpSendAck_sndUna]
  · rfl

theorem receiveFin_sndUna (s : Socket) : (receiveFin s).snd.sndUna = s.snd.sndUna := by
  rw [receiveFin, tcpSendAck_sndUna]

theorem enterTimeWait_sndUna (s : Socket) : (enterTimeWait s).snd.sndUna = s.snd.sndUna := by
  rw [enterTimeWait, tcpChangeState_snd]
  rfl

/-- After `tcpCheckAck` nothing moves SND.UNA. -/
theorem checkSegment_sndUna {s : Socket} (segment : Segment) {process : Socket → Socket}
    (hopen : s.state ≠ .closed) (hprocess : ∀ t, (process t).snd.sndUna = t.snd.sndUna) :
    (checkSegment s segment tcpCheckAck process).snd.sndUna = s.snd.sndUna ∨
      AcksInRange s segment (checkSegment s segment tcpCheckAck process) := by
  rcases checkSegment_cases s segment tcpCheckAck process with hnet | ⟨-, -, heq⟩ |
    ⟨-, -, -, heq⟩
  · exact .inl hnet.keeps.snd.sndUna
  · rw [heq, tcpChangeState_snd]
    exact .inl rfl
  · have huna : (checkSegment s segment tcpCheckAck process).snd.sndUna
        = (tcpCheckAck s segment).2.snd.sndUna := by
      rw [heq]
      split
      · rfl
      · exact hprocess _
    rcases tcpCheckAck_cases s segment hopen with hkeep | ⟨hpos, hle, hkeep⟩
    · exact .inl (huna.trans hkeep.snd.sndUna)
    · exact .inr ⟨huna.trans hkeep.snd.sndUna, hpos.le, hle⟩

theorem tcpStateTimeWait_sndUna (s : Socket) (segment : Segment) :
    (tcpStateTimeWait s segment).snd.sndUna = s.snd.sndUna := by
  rw [tcpStateTimeWait]
  rcases tcpCheckSequenceNumber_cases s segment with ⟨-, hseq⟩ | ⟨s', hseq, hnet⟩
  · rw [hseq]
    simp only [ne_eq, not_true_eq_false, if_false]
    split
    · split
      · rw [tcpChangeState_snd]
      · simp [disposeSocket, tcpDeleteControlBlock]
    · rcases tcpCheckSyn_cases s segment with ⟨-, hsyn⟩ | ⟨s', hsyn, hnet⟩
      · rw [hsyn]
        simp only [not_true_eq_false, if_false]
        split
        · exact tcpSendAck_sndUna s
        · rfl
      · rw [hsyn]
        exact hnet.keeps.snd.sndUna
  · rw [hseq]
    exact hnet.keeps.snd.sndUna

theorem tcpStateLastAck_sndUna (s : Socket) (segment : Segment) :
    (tcpStateLastAck s segment).snd.sndUna = s.snd.sndUna := by
  rw [tcpStateLastAck]
  rcases checkSegment_cases s segment checkAckBit (fun socket =>
    if segment.ackNum = socket.snd.sndNxt then tcpChangeState socket .closed else socket)
    with hnet | ⟨-, -, heq⟩ | ⟨-, -, -, heq⟩
  · exact hnet.keeps.snd.sndUna
  · rw [heq, tcpChangeState_snd]
  · rw [heq, show (checkAckBit s segment).2 = s from rfl]
    split
    · rfl
    · split
      · rw [tcpChangeState_snd]
      · rfl

/-- **An ACK is accepted only in the range of what has been sent and not acknowledged.** -/
theorem tcpProcessSegment_sndUna (s : Socket) (segment : Segment) (memory : Bool)
    (hstate : s.state.synchronized = true) :
    (tcpProcessSegment s segment memory).snd.sndUna = s.snd.sndUna ∨
      AcksInRange s segment (tcpProcessSegment s segment memory) := by
  rw [tcpProcessSegment]
  generalize hs' : { s with history := { s.history with
    finAcked := s.history.finAcked || acksFin s segment } } = s'
  have hsnd : s'.snd = s.snd := by rw [← hs']
  have hstate' : s'.state.synchronized = true := by rwa [← hs']
  have hchecked : ∀ process : Socket → Socket, s'.state ≠ .closed →
      (∀ t, (process t).snd.sndUna = t.snd.sndUna) →
      (checkSegment s' segment tcpCheckAck process).snd.sndUna = s.snd.sndUna ∨
        AcksInRange s segment (checkSegment s' segment tcpCheckAck process) := by
    intro process hopen hprocess
    rcases checkSegment_sndUna segment hopen hprocess with h | ⟨h, hge, hle⟩
    · exact .inl (h.trans (by rw [hsnd]))
    · rw [hsnd] at hge hle
      exact .inr ⟨h, hge, hle⟩
  split
  case h_1 h | h_2 h | h_3 h | h_4 h => rw [h] at hstate'; simp [TcpState.synchronized] at hstate'
  case h_5 h =>
    refine hchecked _ (by simp [h]) fun t => ?_
    simp only [sendPending_sndUna]
    split
    · rw [tcpChangeState_snd, receiveFin_sndUna, receiveText_sndUna]
    · rw [receiveText_sndUna]
  case h_6 h => exact hchecked _ (by simp [h]) sendPending_sndUna
  case h_7 h => exact .inl ((tcpStateLastAck_sndUna s' segment).trans (by rw [hsnd]))
  case h_8 h =>
    refine hchecked _ (by simp [h]) fun t => ?_
    have hfirst : (if segment.ackNum = t.snd.sndNxt then
        tcpChangeState { t with finWait2Timer := true } .finWait2 else t).snd = t.snd := by
      split <;> simp
    simp only
    generalize (if segment.ackNum = t.snd.sndNxt then
      tcpChangeState { t with finWait2Timer := true } .finWait2 else t) = t' at hfirst ⊢
    split
    · split
      · rw [enterTimeWait_sndUna, receiveFin_sndUna, receiveText_sndUna, hfirst]
      · rw [tcpChangeState_snd, receiveFin_sndUna, receiveText_sndUna, hfirst]
    · rw [receiveText_sndUna, hfirst]
  case h_9 h =>
    refine hchecked _ (by simp [h]) fun t => ?_
    simp only
    split
    · rw [enterTimeWait_sndUna, receiveFin_sndUna, receiveText_sndUna]
    · rw [receiveText_sndUna]
  case h_10 h =>
    refine hchecked _ (by simp [h]) fun t => ?_
    split
    · exact enterTimeWait_sndUna t
    · rfl
  case h_11 h => exact .inl ((tcpStateTimeWait_sndUna s' segment).trans (by rw [hsnd]))

/-! ## Runs -/

/-- The buffers of a connection are accounted for. -/
structure BuffersAccounted (s : Socket) : Prop where
  una_le_nxt : 0 ≤ tcpCmpSeq s.snd.sndNxt s.snd.sndUna
  sent_le : s.snd.sndUser.toNat + (s.snd.sndNxt - s.snd.sndUna).toNat ≤ s.snd.txBufferSize
    + (s.state.finSent && s.snd.sndNxt != s.snd.sndUna).toNat
  received_le : s.rcv.rcvUser.toNat + s.rcv.rcvWnd.toNat ≤ s.rcv.rxBufferSize
  /-- SND.NXT is past the SYN, all that has been written but the last `sndUser` bytes and the FIN. -/
  sndUser_eq : s.snd.sndUser.toNat ≤ s.history.written.length ∧ s.snd.sndNxt =
    seq s.snd.iss (s.history.written.length - s.snd.sndUser.toNat + 1 + s.state.finSent.toNat)
  /-- RCV.NXT is past the SYN, all that has been read, `rcvUser` bytes more and the FIN. -/
  rcvUser_eq : s.rcv.rcvNxt = seq s.rcv.irs (s.history.delivered.length + s.rcv.rcvUser.toNat + 1
    + s.state.finReceived.toNat)

theorem accounted {s : Socket} (hs : SendAccount s) (hr : ReceiveAccount s)
    (hstate : s.state.synchronized = true) : BuffersAccounted s := by
  have hopen : s.state ≠ .closed ∧ s.state ≠ .listen := by
    constructor <;> intro hs <;> simp [hs, TcpState.synchronized] at hstate
  have hsend := hs.send hopen.1 hopen.2
  have hrx : s.rcv.rcvUser.toNat + s.rcv.rcvWnd.toNat ≤ s.rcv.rxBufferSize ∧
      s.rcv.rcvNxt = seq (s.rcv.irs + 1) (s.received + s.state.finReceived.toNat) := by
    cases hfin : s.state.finReceived with
    | true =>
        have hclosed := hr.received hfin
        exact ⟨hclosed.room, hclosed.rcvNxt⟩
    | false =>
        obtain ⟨spans, hre⟩ := hr.receive (by
          revert hstate hfin
          cases s.state <;> simp [TcpState.synchronized, TcpState.finReceived, TcpState.Receiving])
        exact ⟨hre.room, hre.rcvNxt⟩
  refine ⟨hsend.una_le, ?_, hrx.1, ⟨hsend.sndUser_le, hsend.sndNxt⟩, ?_⟩
  · have hroom := hsend.room
    by_cases hall : s.snd.sndNxt = s.snd.sndUna
    · cases hfin : s.state.finSent with
      | false => simpa [hfin] using hroom
      | true =>
          have huser : s.snd.sndUser = 0 := by
            refine hsend.done ?_ ?_ <;> intro hs <;> simp [hs, TcpState.finSent] at hfin
          rw [huser, hall, UInt32.sub_self]
          simp
    · have hne : (s.snd.sndNxt != s.snd.sndUna) = true := by simpa using hall
      rwa [hne, Bool.and_true]
  · rw [hrx.2, Socket.received, ← seq_zero s.rcv.irs, seq_add_one, seq_seq, seq_zero]
    congr 1
    omega

/-- No call sends a FIN that the state does not allow, and a socket is connected only if neither unsent
data nor blocks received out of order are left on it. -/
def CountersClean (slot : Slot) (event : Event) : Prop :=
  FinInState slot event ∧ UnusedSocket { data := true, blocks := true } slot event

theorem sizedInv_init (outcomes : ℕ → SendOutcome) : SizedInv (Slot.init outcomes).socket :=
  ⟨fun _ => rfl, fun h => absurd rfl h⟩

theorem sendAccount_init (outcomes : ℕ → SendOutcome) : SendAccount (Slot.init outcomes).socket :=
  ⟨sizedInv_init outcomes, fun h => absurd rfl h⟩

theorem receiveAccount_init (outcomes : ℕ → SendOutcome) :
    ReceiveAccount (Slot.init outcomes).socket := .of_idle (sizedInv_init outcomes) (.inl rfl)

/-- A step is made of actions; on an open connection none of them begins another one. -/
theorem CountersClean.acts {slot : Slot} {event : Event} (h : CountersClean slot event)
    (hopens : event.Begins slot.socket → O) :
    Acts (fun _ _ => True) { data := true, blocks := true } O slot.socket
      (step slot event).socket :=
  step_acts slot event h.1 h.2 ⟨fun _ => trivial, fun _ => trivial⟩
    (fun _ => ⟨trivial, trivial⟩) hopens

/-- The receiver's account holds in every state of a run with clean counters. -/
theorem receiveAccount_run (outcomes : ℕ → SendOutcome) {events : List Event}
    (h : Along CountersClean step (Slot.init outcomes) events) :
    ReceiveAccount (run step (Slot.init outcomes) events).socket :=
  run_invariant (I := fun slot => ReceiveAccount slot.socket)
    (fun _ _ hinv hevent =>
      (hevent.acts (O := True) fun _ => trivial).preserve (fun h hact => h.act rfl hact) hinv)
    (receiveAccount_init outcomes) h

/-- **The buffers are accounted for** in every state past the handshake that a run with clean counters
reaches; ACKs outside the range are not accepted and the window does not shrink. -/
theorem buffersAccounted_of_countersClean (outcomes : ℕ → SendOutcome) (events : List Event)
    (h : Along CountersClean step (Slot.init outcomes) events) :
    let s := (run step (Slot.init outcomes) events).socket
    (s.state.synchronized = true → BuffersAccounted s) ∧
      (∀ segment memory, s.state.synchronized = true →
        (tcpProcessSegment s segment memory).snd.sndUna = s.snd.sndUna ∨
          AcksInRange s segment (tcpProcessSegment s segment memory)) ∧
      ∀ event, CountersClean (run step (Slot.init outcomes) events) event →
        s.state.windowed = true →
        (step (run step (Slot.init outcomes) events) event).socket.state.windowed = true →
        (step (run step (Slot.init outcomes) events) event).socket.rcv.irs = s.rcv.irs ∧
          s.rightEdge ≤ (step (run step (Slot.init outcomes) events) event).socket.rightEdge := by
  have hsend : SendAccount (run step (Slot.init outcomes) events).socket :=
    run_invariant (I := fun slot => SendAccount slot.socket)
      (fun slot event hinv hevent =>
        (hevent.acts (O := True) fun _ => trivial).preserve (fun h hact => h.act rfl hact) hinv)
      (sendAccount_init outcomes) h
  have hreceive := receiveAccount_run outcomes h
  refine ⟨accounted hsend hreceive, fun segment memory => tcpProcessSegment_sndUna _ segment memory,
    ?_⟩
  intro event hevent hstate hstate'
  have hclosed : (run step (Slot.init outcomes) events).socket.state ≠ .closed := by
    intro hclosed
    simp [hclosed, TcpState.windowed] at hstate
  refine Acts.rightEdge_le hreceive rfl (hevent.acts fun hbegins => ?_) hstate hstate'
  exact hclosed (hbegins.closed hsend.unused)

/-- A connection on which a byte has been sent and received. -/
def exchange : List Event :=
  .open .stream 49152 :: handshake 100 500 1000 ++
    [.send [7] {}, .segment (.ofData { ack := true } 501 102 1000 [8] (by decide)) true]

/-- It meets the condition, and the next byte moves neither edge to the left. -/
theorem buffersAccounted_exchange :
    let s := (run step (Slot.init fun _ => {}) exchange).socket
    (s.state.synchronized = true → BuffersAccounted s) ∧
      (∀ segment memory, s.state.synchronized = true →
        (tcpProcessSegment s segment memory).snd.sndUna = s.snd.sndUna ∨
          AcksInRange s segment (tcpProcessSegment s segment memory)) ∧
      ∀ event, CountersClean (run step (Slot.init fun _ => {}) exchange) event →
        s.state.windowed = true →
        (step (run step (Slot.init fun _ => {}) exchange) event).socket.state.windowed = true →
        (step (run step (Slot.init fun _ => {}) exchange) event).socket.rcv.irs = s.rcv.irs ∧
          s.rightEdge ≤
            (step (run step (Slot.init fun _ => {}) exchange) event).socket.rightEdge :=
  buffersAccounted_of_countersClean _ _
    ⟨⟨trivial, trivial⟩, ⟨trivial, fun _ => by decide⟩, ⟨trivial, trivial⟩, ⟨trivial, trivial⟩,
      ⟨trivial, trivial⟩, trivial⟩

/-- On a socket with a receive buffer of 4 bytes, two bytes are received out of order and the connection
is reset; the socket is connected again, and the first three bytes of the new peer meet the old
block. -/
def reconnectWithBlock : List Event :=
  [.open .stream 49152, .setRxBufferSize 4] ++ handshake 100 0 1000 ++
    [.segment (.ofData { ack := true } 3 101 1000 [1, 2] (by decide)) true,
      .segment (.ofData { rst := true } 1 0 0 [] noData_lt) true] ++
    handshake 200 4294967295 1000 ++
    [.segment (.ofData { ack := true } 0 201 1000 [3, 4, 5] (by decide)) true]

/-- RCV.USER exceeds the buffer and RCV.WND has wrapped. -/
theorem reconnectWithBlock_not_accounted :
    let s := (run step (Slot.init fun _ => {}) reconnectWithBlock).socket
    s.state.synchronized = true ∧ ¬ BuffersAccounted s := by
  refine ⟨by decide, fun h => ?_⟩
  exact absurd h.received_le (by decide)

end Tcp
