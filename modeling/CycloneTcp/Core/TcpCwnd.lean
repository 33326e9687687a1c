import CycloneTcp.Core.TcpCongestion

set_option autoImplicit false

/-! # The congestion window over a run

Most steps leave the sender of a connection alone (`Calm`). The exceptions are acknowledgments and
the retransmission timer, which do what `Congestion.Sender.step` does, the SYN of the peer, with
which the window starts again, and the FIN, which adds one to what is in flight. -/

namespace Tcp

/-! ## Calm steps -/

/-- How far a connection has come: its SYN has been sent, it is open, its FIN has been sent, or
there is none. -/
def TcpState.stage : TcpState → ℕ
  | .synSent => 0
  | .synReceived | .established | .closeWait => 1
  | .finWait1 | .finWait2 | .closing | .lastAck | .timeWait => 2
  | .closed | .listen => 3

theorem stage_le (state : TcpState) : state.stage ≤ 3 := by
  cases state <;> decide

theorem sending_of_stage {state : TcpState} (h : state.stage ≤ 1) : state.sending = true := by
  cases state <;> first | rfl | exact absurd h (by decide)

/-- The step leaves the sender alone. -/
structure Calm (s s' : Socket) : Prop where
  stage : s.state.stage ≤ s'.state.stage
  sender : s'.snd.sender = s.snd.sender
  flight : s'.state.stage = 2 → s.state.stage = 2 ∧ s'.snd.flightSize = s.snd.flightSize

namespace Calm

variable {a b c : Socket}

theorem refl (a : Socket) : Calm a a := ⟨le_rfl, rfl, fun h => ⟨h, rfl⟩⟩

theorem trans (h : Calm a b) (h' : Calm b c) : Calm a c := by
  refine ⟨h.stage.trans h'.stage, h'.sender.trans h.sender, fun hc => ?_⟩
  obtain ⟨hb, hflight'⟩ := h'.flight hc
  obtain ⟨ha, hflight⟩ := h.flight hb
  exact ⟨ha, hflight'.trans hflight⟩

theorem of_level (h : Level a b) (hsender : b.snd.sender = a.snd.sender) : Calm a b := by
  refine ⟨by rw [h.state], hsender, fun hb => ⟨by rw [← h.state]; exact hb, ?_⟩⟩
  rw [SendSide.flightSize, h.sndNxt, h.sndUna]
  rfl

theorem of_snd (hstate : b.state = a.state) (hsnd : b.snd = a.snd) : Calm a b :=
  of_level (.of_snd hstate hsnd) (by rw [hsnd])

/-- The send side is left alone, and the connection goes on. -/
theorem of_state (hsnd : b.snd = a.snd) (hstage : a.state.stage ≤ b.state.stage)
    (hfin : b.state.stage = 2 → a.state.stage = 2) : Calm a b :=
  ⟨hstage, by rw [hsnd], fun hb => ⟨hfin hb, by rw [hsnd]⟩⟩

/-- The connection is closed. -/
theorem of_closed (hsender : b.snd.sender = a.snd.sender) (hstate : b.state.stage = 3) :
    Calm a b := by
  refine ⟨by rw [hstate]; exact stage_le _, hsender, fun hb => ?_⟩
  rw [hstate] at hb
  cases hb

end Calm

theorem NetOnly.calm {s s' : Socket} (h : NetOnly s s') : Calm s s' := by
  obtain ⟨net, rfl, -⟩ := h
  exact .of_snd rfl rfl

theorem tcpChangeState_calm (s : Socket) {next : TcpState} (hstage : s.state.stage ≤ next.stage)
    (hfin : next.stage = 2 → s.state.stage = 2) : Calm s (tcpChangeState s next) :=
  .of_state (tcpChangeState_snd s next) hstage hfin

theorem tcpChangeState_closed (s : Socket) : Calm s (tcpChangeState s .closed) :=
  .of_closed (by rw [tcpChangeState_snd]) rfl

/-! ### Sending -/

theorem tcpSendSegment_calm (s : Socket) (flags : TcpFlags) (seqNum ackNum : UInt32) (length : ℕ)
    (addToQueue : Bool) : Calm s (tcpSendSegment s flags seqNum ackNum length addToQueue).2 :=
  .of_level (tcpSendSegment_level s flags seqNum ackNum length addToQueue)
    (tcpSendSegment_sender s flags seqNum ackNum length addToQueue)

theorem tcpSendAck_calm (s : Socket) : Calm s (tcpSendAck s) := tcpSendSegment_calm s _ _ _ _ _

theorem sendLoop_sender (sends : SendSide → UInt32 → ℕ → Bool) (fuel : ℕ) (u : UInt32)
    (s : Socket) : (sendLoop sends fuel u s).2.snd.sender = s.snd.sender := by
  induction fuel generalizing u s with
  | zero => rfl
  | succ fuel ih =>
      cases sendLoop_round sends fuel u s with
      | stop h hr => rw [hr]
      | fail hgo error herror hr => rw [hr]
      | refuse hgo hreach hip hr =>
          rw [hr]
          exact enqueue_sender _ _ _
      | next hgo hreach hr =>
          rw [hr, ih]
          exact enqueue_sender _ _ _

/-- New data is sent before the FIN. -/
theorem sendLoop_calm (sends : SendSide → UInt32 → ℕ → Bool) (fuel : ℕ) (u : UInt32) (s : Socket)
    (hstate : s.state = .established ∨ s.state = .closeWait) :
    Calm s (sendLoop sends fuel u s).2 := by
  have hsame := (sendLoop_keepsWindow sends fuel u s).1
  refine ⟨by rw [hsame], sendLoop_sender sends fuel u s, fun hfin => ?_⟩
  rw [hsame] at hfin
  rcases hstate with hstate | hstate <;> rw [hstate] at hfin <;> cases hfin

theorem tcpNagleAlgo_calm (s : Socket) (flags : SocketFlags)
    (hstate : s.state = .established ∨ s.state = .closeWait) : Calm s (tcpNagleAlgo s flags).2 :=
  sendLoop_calm _ _ _ s hstate

theorem tcpNagleAlgo_state (s : Socket) (flags : SocketFlags) :
    (tcpNagleAlgo s flags).2.state = s.state := (sendLoop_keepsWindow _ _ _ s).1

/-! ### Incoming segments -/

theorem receiveText_calm (s : Socket) (segment : Segment) : Calm s (receiveText s segment) := by
  rw [receiveText, tcpProcessSegmentData]
  generalize receiveData s.rcv segment = rcv
  split
  · exact (Calm.of_snd (a := s) (b := { s with rcv := rcv }) rfl rfl).trans (tcpSendAck_calm _)
  · exact .refl s

theorem receiveFin_calm (s : Socket) : Calm s (receiveFin s) := by
  rw [receiveFin]
  refine Calm.trans ?_ (tcpSendAck_calm _)
  exact .of_snd rfl rfl

theorem enterTimeWait_calm (s : Socket) (h : s.state.stage = 2) : Calm s (enterTimeWait s) := by
  have hsender : (enterTimeWait s).snd.sender = s.snd.sender := by
    rw [enterTimeWait, tcpChangeState_snd]
    rfl
  refine ⟨by rw [h]; exact le_rfl, hsender, fun _ => ⟨h, ?_⟩⟩
  rw [enterTimeWait, tcpChangeState_snd]
  rfl

theorem disposeSocket_calm (s : Socket) : Calm s (disposeSocket s) :=
  .of_level ⟨rfl, rfl, rfl, rfl, rfl, rfl, rfl⟩ rfl

theorem tcpStateListen_calm (s : Socket) (segment : Segment) (memory : Bool) :
    Calm s (tcpStateListen s segment memory) := by
  rw [tcpStateListen]
  split_ifs
  · exact .refl s
  · exact .refl s
  · exact .refl s
  · exact .refl s
  · exact .refl s
  · refine .of_snd ?_ ?_ <;> rfl
  · exact .refl s

theorem tcpStateTimeWait_calm (s : Socket) (segment : Segment) :
    Calm s (tcpStateTimeWait s segment) := by
  rw [tcpStateTimeWait]
  rcases tcpCheckSequenceNumber_cases s segment with ⟨-, hseq⟩ | ⟨s', hseq, hnet⟩
  · rw [hseq]
    simp only [ne_eq, not_true_eq_false, if_false]
    split
    · split
      · exact tcpChangeState_closed s
      · exact (tcpChangeState_closed s).trans (disposeSocket_calm _)
    · rcases tcpCheckSyn_cases s segment with ⟨-, hsyn⟩ | ⟨s', hsyn, hnet⟩
      · rw [hsyn]
        simp only [not_true_eq_false, if_false]
        split
        · exact (tcpSendAck_calm s).trans (.of_snd rfl rfl)
        · exact .refl s
      · rw [hsyn]
        exact hnet.calm
  · rw [hseq]
    exact hnet.calm

/-! ### Timers and calls -/

theorem tickPersist_calm (s : Socket) (elapsed : Elapsed) : Calm s (tickPersist s elapsed) := by
  rw [tickPersist]
  split
  case isFalse => exact .refl s
  case isTrue =>
    split
    · have hprobe :=
        tcpSendSegment_calm s { ack := true } (s.snd.sndNxt - 1) s.rcv.rcvNxt 0 false
      refine hprobe.trans ?_
      exact ⟨le_rfl, rfl, fun h => ⟨h, rfl⟩⟩
    · exact tcpChangeState_closed s

theorem tickOverride_calm (s : Socket) (elapsed : Elapsed) : Calm s (tickOverride s elapsed) := by
  rw [tickOverride]
  split
  case isFalse => exact .refl s
  case isTrue h =>
    have hloop := sendLoop_calm (fun _ _ _ => true) s.snd.sndUser.toNat s.snd.usableWindow s h.1
    simp only
    split
    · exact hloop.trans ⟨le_rfl, rfl, fun h => ⟨h, rfl⟩⟩
    · exact hloop

theorem tickFinWait2_calm (s : Socket) (elapsed : Elapsed) : Calm s (tickFinWait2 s elapsed) := by
  rw [tickFinWait2]
  split
  · exact tcpChangeState_closed s
  · exact .refl s

theorem tickTimeWait_calm (s : Socket) (elapsed : Elapsed) : Calm s (tickTimeWait s elapsed) := by
  rw [tickTimeWait]
  split
  case isFalse => exact .refl s
  case isTrue =>
    simp only
    split
    · exact tcpChangeState_closed s
    · exact (tcpChangeState_closed s).trans (disposeSocket_calm _)

theorem tcpAbort_calm (s : Socket) : Calm s (tcpAbort s).2 := by
  have hclose : ∀ s1 : Socket, Calm s1 (disposeSocket (tcpChangeState s1 .closed)) := fun s1 =>
    (tcpChangeState_closed s1).trans (disposeSocket_calm _)
  rw [tcpAbort]
  split
  case h_6 => exact .of_snd rfl rfl
  case h_7 => exact hclose s
  all_goals exact (tcpSendSegment_calm s _ _ _ _ _).trans (hclose _)

theorem copyUserData_calm (s : Socket) (data : List UInt8) (n : ℕ) :
    Calm s (copyUserData s data n) := by
  refine .of_level (copyUserData_level s data n) ?_
  rw [copyUserData]
  split
  · simp only [tcpWriteTxBuffer]
    split <;> rfl
  · rfl

theorem tcpSendLoop_calm (flags : SocketFlags) (fuel : ℕ) (s : Socket) (data : List UInt8) :
    Calm s (tcpSendLoop flags fuel s data).1 := by
  induction fuel generalizing s data with
  | zero => exact .refl s
  | succ fuel ih =>
      have hround : ∀ n, s.state = .established ∨ s.state = .closeWait →
          Calm s (tcpNagleAlgo (copyUserData s data n) flags).2 := by
        intro n hstate
        refine (copyUserData_calm s data n).trans (tcpNagleAlgo_calm _ flags ?_)
        rwa [copyUserData_state]
      rcases tcpSendLoop_round flags fuel s data with heq | ⟨n, hstate, -, -, heq | heq⟩
      · rw [heq]
        exact .refl s
      · rw [heq]
        exact (hround n hstate).trans (ih _ _)
      · rw [heq]
        exact hround n hstate

theorem tcpSend_calm (s : Socket) (data : List UInt8) (flags : SocketFlags) :
    Calm s (tcpSend s data flags).1 := by
  rw [tcpSend]
  split
  · exact .refl s
  · exact tcpSendLoop_calm flags _ s data

theorem consume_calm (s : Socket) (data : List UInt8) : Calm s (consume s data) := by
  have hread : ∀ rcv history, Calm s { s with rcv := rcv, history := history } := fun _ _ =>
    .of_snd rfl rfl
  rw [consume, tcpUpdateReceiveWindow]
  split
  · exact (hread _ _).trans (tcpSendAck_calm _)
  · exact hread _ _

theorem tcpReceiveLoop_calm (flags : SocketFlags) (size fuel : ℕ) (s : Socket) (received : ℕ) :
    Calm s (tcpReceiveLoop flags size fuel s received).1 := by
  induction fuel generalizing s received with
  | zero => exact .refl s
  | succ fuel ih =>
      rw [tcpReceiveLoop]
      split
      · exact .refl s
      split
      · exact .refl s
      split
      · exact .refl s
      simp only
      split
      · exact consume_calm s _
      · exact (consume_calm s _).trans (ih _ _)

theorem tcpReceive_calm (s : Socket) (size : ℕ) (flags : SocketFlags) :
    Calm s (tcpReceive s size flags).1 := by
  rw [tcpReceive]
  split
  · exact .refl s
  · exact tcpReceiveLoop_calm flags size _ s 0

/-! ## The window of an open connection -/

/-- The window is within its bounds, and only the FIN comes on top of what the windows have
admitted. -/
structure CwndInv (s : Socket) : Prop where
  bounded : s.snd.sender.Bounded
  mss_le : s.snd.sender.mss ≤ TCP_MAX_MSS
  size_le : s.snd.sender.size ≤ TCP_MAX_TX_BUFFER_SIZE
  synSent : s.state.stage = 0 → s.snd.sender.phase ≠ .recovery
  finSent : s.state.stage = 2 → s.snd.flightSize.toNat ≤ MAX_FLIGHT_SIZE + 1

/-- If there is a connection, its window is within its bounds. -/
def Paced (s : Socket) : Prop := s.state.stage ≠ 3 → CwndInv s

theorem Paced.of_stage {s : Socket} (h : s.state.stage = 3) : Paced s := fun hopen => absurd h hopen

theorem Paced.calm {s s' : Socket} (hs : Paced s) (h : Calm s s') : Paced s' := by
  intro hopen
  have hstage := h.stage
  have hle := stage_le s'.state
  obtain ⟨hbounded, hmss, hsize, hsyn, hfin⟩ := hs (by omega)
  rw [← h.sender] at hbounded hmss hsize
  refine ⟨hbounded, hmss, hsize, fun h0 => ?_, fun h2 => ?_⟩
  · rw [h.sender]
    exact hsyn (by omega)
  · obtain ⟨h2', hflight⟩ := h.flight h2
    rw [hflight]
    exact hfin h2'

namespace CwndInv

variable {s : Socket}

theorem flight_le (h : CwndInv s) (hroom : SendRoom s) (hopen : s.state.stage ≠ 3) :
    s.snd.flightSize.toNat ≤ MAX_FLIGHT_SIZE + 1 := by
  have hle := stage_le s.state
  by_cases hfin : s.state.stage = 2
  · exact h.finSent hfin
  · have hflight := (hroom (sending_of_stage (by omega))).2
    omega

/-- The fields have room for every update of the window. -/
theorem fits (h : CwndInv s) {flight : ℕ} (hflight : flight ≤ MAX_FLIGHT_SIZE + 1) :
    Fits s.snd.sender flight := by
  have hmss := h.mss_le
  have hsize := h.size_le
  have hcwnd := h.bounded.cwnd_le
  constructor
  · simp only [TCP_MAX_MSS, TCP_MAX_TX_BUFFER_SIZE] at *
    omega
  · simp only [Congestion.Sender.halved, TCP_FAST_RETRANSMIT_THRES, TCP_MAX_MSS,
      MAX_FLIGHT_SIZE] at *
    omega

/-- The sender takes a step, and nothing more is in flight. -/
theorem step (h : CwndInv s) {s' : Socket} (event : Congestion.Event)
    (hsender : s'.snd.sender = s.snd.sender.step congestionConfig event)
    (hstate : s'.state = s.state)
    (hsyn : s.state.stage = 0 → s'.snd.sender.phase ≠ .recovery)
    (hfin : s.state.stage = 2 → s'.snd.flightSize.toNat ≤ MAX_FLIGHT_SIZE + 1) : CwndInv s' := by
  refine ⟨?_, ?_, ?_, by rw [hstate]; exact hsyn, by rw [hstate]; exact hfin⟩
  · rw [hsender]
    exact h.bounded.step event
  · rw [hsender, (Congestion.Sender.step_sizes _ event).1]
    exact h.mss_le
  · rw [hsender, (Congestion.Sender.step_sizes _ event).2]
    exact h.size_le

end CwndInv

/-! ### Acknowledgments -/

theorem tcpCheckAck_flight (s : Socket) (segment : Segment) {bound : ℕ} (hbound : bound < 2 ^ 31)
    (h : s.snd.flightSize.toNat ≤ bound) :
    (tcpCheckAck s segment).2.snd.flightSize.toNat ≤ bound := by
  rw [tcpCheckAck]
  split
  · exact h
  split
  · exact h
  split
  · have hlevel := tcpSendAck_level s
    rw [SendSide.flightSize, hlevel.sndNxt, hlevel.sndUna]
    exact h
  case isFalse hle =>
    obtain ⟨-, huna, hnxt⟩ := tcpUpdateSendWindow_sender s.snd segment
    simp only
    split
    case isTrue hpos =>
      have hlevel := ackNewData_level { s with snd := tcpUpdateSendWindow s.snd segment } segment
      rw [SendSide.flightSize, hlevel.sndNxt, hlevel.sndUna]
      change ((tcpUpdateSendWindow s.snd segment).sndNxt - segment.ackNum).toNat ≤ bound
      rw [hnxt]
      rw [huna] at hpos
      exact flightSize_ack s.snd hbound hpos hle h
    case isFalse =>
      have hlevel := ackNoData_level { s with snd := tcpUpdateSendWindow s.snd segment } segment
        (tcpIsDuplicateAck s.snd segment)
      rw [SendSide.flightSize, hlevel.sndNxt, hlevel.sndUna, hnxt, huna]
      exact h

theorem tcpCheckAck_paced {s : Socket} (segment : Segment) (h : Paced s) (hroom : SendRoom s)
    (hstage : s.state.stage ≠ 0) : Paced (tcpCheckAck s segment).2 := by
  have hstate := tcpCheckAck_state s segment
  intro hopen
  rw [hstate] at hopen
  have hinv := h hopen
  have hflight := hinv.flight_le hroom hopen
  have hsender := tcpCheckAck_sender segment (hinv.fits hflight)
  have hflight' := tcpCheckAck_flight s segment (by decide) hflight
  cases hevent : s.snd.ackEvent segment with
  | none =>
      rw [hevent, Option.elim_none] at hsender
      obtain ⟨hbounded, hmss, hsize, -, -⟩ := hinv
      rw [← hsender] at hbounded hmss hsize
      refine ⟨hbounded, hmss, hsize, fun h0 => ?_, fun _ => hflight'⟩
      rw [hstate] at h0
      exact absurd h0 hstage
  | some event =>
      rw [hevent] at hsender
      exact hinv.step event hsender hstate (fun h0 => absurd h0 hstage) fun _ => hflight'

theorem checkSegment_paced {s : Socket} (segment : Segment)
    {checkAck : Socket → Segment → ErrorCode × Socket} {process : Socket → Socket} (h : Paced s)
    (hcheck : Paced (checkAck s segment).2) (hprocess : Paced (process (checkAck s segment).2)) :
    Paced (checkSegment s segment checkAck process) := by
  rcases checkSegment_cases s segment checkAck process with hnet | ⟨-, -, heq⟩ | ⟨-, -, -, heq⟩
  · exact h.calm hnet.calm
  · rw [heq]
    exact h.calm (tcpChangeState_closed s)
  · rw [heq]
    split
    · exact hcheck
    · exact hprocess

theorem tcpStateEstablished_paced {s : Socket} (segment : Segment) (h : Paced s)
    (hroom : SendRoom s) (hstate : s.state = .established) :
    Paced (tcpStateEstablished s segment) := by
  have hcheck := tcpCheckAck_paced segment h hroom (by rw [hstate]; decide)
  refine checkSegment_paced segment h hcheck (hcheck.calm ?_)
  have hs := (tcpCheckAck_state s segment).trans hstate
  generalize (tcpCheckAck s segment).2 = s1 at hs ⊢
  have htext := receiveText_calm s1 segment
  have htextState := (receiveText_level s1 segment).state.trans hs
  simp only
  split
  · have hfinState := (receiveFin_level (receiveText s1 segment)).state.trans htextState
    refine ((htext.trans (receiveFin_calm _)).trans (tcpChangeState_calm _ ?_ ?_)).trans
      (tcpNagleAlgo_calm _ _ (.inr rfl))
    · rw [hfinState]
      decide
    · intro h2
      cases h2
  · exact htext.trans (tcpNagleAlgo_calm _ _ (.inl htextState))

theorem tcpStateSynReceived_paced {s : Socket} (segment : Segment) (h : Paced s)
    (hroom : SendRoom s) (hstate : s.state = .synReceived) :
    Paced (tcpStateSynReceived s segment) := by
  refine checkSegment_paced segment h h ?_
  rw [show (checkAckBit s segment).2 = s from rfl]
  split
  · exact h.calm (tcpSendSegment_calm s _ _ _ _ _)
  · refine tcpStateEstablished_paced segment (h.calm ?_) (fun _ => ?_) rfl
    · refine Calm.trans (b := { s with snd := s.snd.openWindow segment }) ?_
        (tcpChangeState_calm _ ?_ ?_)
      · exact ⟨le_rfl, rfl, fun h2 => ⟨h2, rfl⟩⟩
      · change s.state.stage ≤ 1
        rw [hstate]
        decide
      · intro h2
        cases h2
    · rw [tcpChangeState_snd]
      exact hroom (by rw [hstate]; rfl)

theorem tcpStateCloseWait_paced {s : Socket} (segment : Segment) (h : Paced s) (hroom : SendRoom s)
    (hstate : s.state = .closeWait) : Paced (tcpStateCloseWait s segment) := by
  have hcheck := tcpCheckAck_paced segment h hroom (by rw [hstate]; decide)
  refine checkSegment_paced segment h hcheck (hcheck.calm (tcpNagleAlgo_calm _ _ (.inr ?_)))
  rw [tcpCheckAck_state, hstate]

theorem tcpStateLastAck_paced {s : Socket} (segment : Segment) (h : Paced s) :
    Paced (tcpStateLastAck s segment) := by
  refine checkSegment_paced segment h h ?_
  rw [show (checkAckBit s segment).2 = s from rfl]
  split
  · exact h.calm (tcpChangeState_closed s)
  · exact h

theorem tcpStateFinWait1_paced {s : Socket} (segment : Segment) (h : Paced s) (hroom : SendRoom s)
    (hstate : s.state = .finWait1) : Paced (tcpStateFinWait1 s segment) := by
  have hcheck := tcpCheckAck_paced segment h hroom (by rw [hstate]; decide)
  refine checkSegment_paced segment h hcheck (hcheck.calm ?_)
  have hs : (tcpCheckAck s segment).2.state.stage = 2 := by
    rw [tcpCheckAck_state, hstate]
    rfl
  generalize (tcpCheckAck s segment).2 = s1 at hs ⊢
  have hacked : Calm s1 (if segment.ackNum = s1.snd.sndNxt then
      tcpChangeState { s1 with finWait2Timer := true } .finWait2 else s1) ∧
      (if segment.ackNum = s1.snd.sndNxt then
      tcpChangeState { s1 with finWait2Timer := true } .finWait2 else s1).state.stage = 2 := by
    split
    · refine ⟨Calm.trans (b := { s1 with finWait2Timer := true }) (.of_snd rfl rfl) ?_, rfl⟩
      exact tcpChangeState_calm _ (by rw [hs]; exact le_rfl) fun _ => hs
    · exact ⟨.refl s1, hs⟩
  simp only
  generalize (if segment.ackNum = s1.snd.sndNxt then
    tcpChangeState { s1 with finWait2Timer := true } .finWait2 else s1) = s2 at hacked ⊢
  have htext := hacked.1.trans (receiveText_calm s2 segment)
  have htextStage : (receiveText s2 segment).state.stage = 2 := by
    rw [(receiveText_level s2 segment).state]
    exact hacked.2
  split
  · have hfin := htext.trans (receiveFin_calm (receiveText s2 segment))
    have hfinStage : (receiveFin (receiveText s2 segment)).state.stage = 2 := by
      rw [(receiveFin_level _).state]
      exact htextStage
    split
    · exact hfin.trans (enterTimeWait_calm _ hfinStage)
    · exact hfin.trans (tcpChangeState_calm _ (by rw [hfinStage]; exact le_rfl) fun _ => hfinStage)
  · exact htext

theorem tcpStateFinWait2_paced {s : Socket} (segment : Segment) (h : Paced s) (hroom : SendRoom s)
    (hstate : s.state = .finWait2) : Paced (tcpStateFinWait2 s segment) := by
  have hcheck := tcpCheckAck_paced segment h hroom (by rw [hstate]; decide)
  refine checkSegment_paced segment h hcheck (hcheck.calm ?_)
  have hs := (tcpCheckAck_state s segment).trans hstate
  generalize (tcpCheckAck s segment).2 = s1 at hs ⊢
  have htext := receiveText_calm s1 segment
  simp only
  split
  · refine (htext.trans (receiveFin_calm _)).trans (enterTimeWait_calm _ ?_)
    rw [(receiveFin_level _).state, (receiveText_level _ _).state, hs]
    rfl
  · exact htext

theorem tcpStateClosing_paced {s : Socket} (segment : Segment) (h : Paced s) (hroom : SendRoom s)
    (hstate : s.state = .closing) : Paced (tcpStateClosing s segment) := by
  have hcheck := tcpCheckAck_paced segment h hroom (by rw [hstate]; decide)
  refine checkSegment_paced segment h hcheck (hcheck.calm ?_)
  split
  · refine enterTimeWait_calm _ ?_
    rw [tcpCheckAck_state, hstate]
    rfl
  · exact .refl _

/-! ### The SYN of the peer -/

/-- A window that has just started, outside fast recovery. -/
structure Fresh (sender : Congestion.Sender) : Prop where
  bounded : sender.Bounded
  mss_le : sender.mss ≤ TCP_MAX_MSS
  size_le : sender.size ≤ TCP_MAX_TX_BUFFER_SIZE
  phase : sender.phase ≠ .recovery

theorem Fresh.cwndInv {s : Socket} (h : Fresh s.snd.sender) (hstage : s.state.stage ≤ 1) :
    CwndInv s := by
  refine ⟨h.bounded, h.mss_le, h.size_le, fun _ => h.phase, fun h2 => ?_⟩
  omega

theorem fresh_restart {sender : Congestion.Sender} {mss : ℕ} (hmin : TCP_MIN_MSS ≤ mss)
    (hmax : mss ≤ TCP_MAX_MSS) (hpos : 1 ≤ sender.size)
    (hsize : sender.size ≤ TCP_MAX_TX_BUFFER_SIZE) (hphase : sender.phase ≠ .recovery) :
    Fresh (sender.restart mss TCP_INITIAL_WINDOW) := by
  have hmss : 0 < mss := lt_of_lt_of_le (by decide) hmin
  exact ⟨Congestion.Sender.restart_bounded hmss (by decide) hpos hphase, hmax, hsize, hphase⟩

theorem initialCwnd_toNat (smss : UInt16) {size : ℕ} (h : size ≤ TCP_MAX_TX_BUFFER_SIZE) :
    (initialCwnd smss size).toNat = min (TCP_INITIAL_WINDOW * smss.toNat) size :=
  UInt16.toNat_ofNat_of_lt' (lt_of_le_of_lt ((min_le_right _ _).trans h) (by decide))

/-- The segment size after the SYN of the peer. -/
def SendSide.mssAfter (snd : SendSide) (segment : Segment) : UInt16 :=
  match segment.mss with
  | some mss => clampMss mss
  | none => snd.smss

theorem takeSyn_sender (snd : SendSide) (segment : Segment)
    (hsize : snd.txBufferSize ≤ TCP_MAX_TX_BUFFER_SIZE) :
    (snd.takeSyn segment).sender
      = snd.sender.restart (snd.mssAfter segment).toNat TCP_INITIAL_WINDOW := by
  have hset : ∀ snd' : SendSide, snd'.sender = snd.sender → snd'.smss = snd.smss →
      ({ snd'.setMss segment.mss with
        cwnd := initialCwnd (snd'.setMss segment.mss).smss
          (snd'.setMss segment.mss).txBufferSize } : SendSide).sender
        = snd.sender.restart (snd.mssAfter segment).toNat TCP_INITIAL_WINDOW := by
    intro snd' hsender hsmss
    have hsize' : snd'.txBufferSize = snd.txBufferSize := congrArg Congestion.Sender.size hsender
    have hssthresh : snd'.ssthresh.toNat = snd.ssthresh.toNat :=
      congrArg Congestion.Sender.ssthresh hsender
    have hphase : snd'.congestState.phase = snd.congestState.phase :=
      congrArg Congestion.Sender.phase hsender
    rw [SendSide.mssAfter]
    cases segment.mss with
    | none =>
        simp only [SendSide.setMss, SendSide.sender, Congestion.Sender.restart, hsmss, hsize',
          hssthresh, hphase, initialCwnd_toNat _ hsize]
    | some mss =>
        simp only [SendSide.setMss, SendSide.sender, Congestion.Sender.restart, hsize', hssthresh,
          hphase, initialCwnd_toNat _ hsize]
  have hqueue : ∀ snd' : SendSide,
      (tcpUpdateRetransmitQueue (tcpComputeRto snd').2).sender = snd'.sender ∧
      (tcpUpdateRetransmitQueue (tcpComputeRto snd').2).smss = snd'.smss := by
    intro snd'
    refine ⟨(tcpUpdateRetransmitQueue_sender _).trans (tcpComputeRto_sender _), ?_⟩
    simp only [tcpUpdateRetransmitQueue, tcpComputeRto]
    split_ifs <;> rfl
  rw [SendSide.takeSyn]
  split
  · exact hset _ (hqueue _).1 (hqueue _).2
  · exact hset _ (hqueue _).1 (hqueue _).2

theorem tcpStateSynSent_paced {s : Socket} (segment : Segment) (h : Paced s) (hroom : SendRoom s)
    (hstate : s.state = .synSent) : Paced (tcpStateSynSent s segment) := by
  rw [tcpStateSynSent]
  split
  · split
    · exact h
    · exact h.calm (tcpSendSegment_calm s _ _ _ _ _)
  split
  · split
    · exact h.calm (tcpChangeState_closed s)
    · exact h
  split
  case isFalse => exact h
  case isTrue =>
    have hstage : s.state.stage = 0 := by rw [hstate]; rfl
    have hinv := h (by rw [hstage]; decide)
    have hmss : TCP_MIN_MSS ≤ (s.snd.mssAfter segment).toNat ∧
        (s.snd.mssAfter segment).toNat ≤ TCP_MAX_MSS := by
      rw [SendSide.mssAfter]
      cases segment.mss with
      | none => exact ⟨(hroom (by rw [hstate]; rfl)).1, hinv.mss_le⟩
      | some mss => exact clampMss_toNat mss
    have hfresh : Fresh (receiveSyn s segment).snd.sender := by
      rw [receiveSyn, takeSyn_sender s.snd segment hinv.size_le]
      exact fresh_restart hmss.1 hmss.2 hinv.bounded.size_pos hinv.size_le (hinv.synSent hstage)
    simp only
    split
    · intro _
      refine Fresh.cwndInv ?_ le_rfl
      rw [tcpChangeState_snd, (tcpSendAck_calm _).sender]
      exact hfresh
    · intro _
      refine Fresh.cwndInv ?_ le_rfl
      rw [tcpChangeState_snd, (tcpSendSegment_calm _ _ _ _ _ _).sender]
      exact hfresh

theorem tcpProcessSegment_paced {s : Socket} (segment : Segment) (memory : Bool) (h : Paced s)
    (hroom : SendRoom s) : Paced (tcpProcessSegment s segment memory) := by
  rw [tcpProcessSegment]
  have hghost : Paced { s with history := { s.history with
      finAcked := s.history.finAcked || acksFin s segment } } := h.calm (.of_snd rfl rfl)
  have hroom' : SendRoom { s with history := { s.history with
      finAcked := s.history.finAcked || acksFin s segment } } := hroom
  generalize { s with history := { s.history with
    finAcked := s.history.finAcked || acksFin s segment } } = s1 at hghost hroom' ⊢
  cases hstate : s1.state with
  | closed => exact hghost
  | listen => exact hghost.calm (tcpStateListen_calm s1 segment memory)
  | synSent => exact tcpStateSynSent_paced segment hghost hroom' hstate
  | synReceived => exact tcpStateSynReceived_paced segment hghost hroom' hstate
  | established => exact tcpStateEstablished_paced segment hghost hroom' hstate
  | closeWait => exact tcpStateCloseWait_paced segment hghost hroom' hstate
  | lastAck => exact tcpStateLastAck_paced segment hghost
  | finWait1 => exact tcpStateFinWait1_paced segment hghost hroom' hstate
  | finWait2 => exact tcpStateFinWait2_paced segment hghost hroom' hstate
  | closing => exact tcpStateClosing_paced segment hghost hroom' hstate
  | timeWait => exact hghost.calm (tcpStateTimeWait_calm s1 segment)

/-! ### The retransmission timer -/

theorem tickRetransmit_paced {s : Socket} (elapsed : Elapsed) (h : Paced s) (hroom : SendRoom s) :
    Paced (tickRetransmit s elapsed) := by
  have htimeout : Paced { s with snd := s.snd.congestionTimeout } := by
    intro hopen
    have hinv := h hopen
    have hflight := hinv.flight_le hroom hopen
    refine hinv.step _ (congestionTimeout_sender (hinv.fits hflight)) rfl (fun _ => ?_) fun h2 =>
      hinv.finSent h2
    intro hphase
    cases hphase
  rw [tickRetransmit]
  split
  case isFalse => exact h
  case isTrue =>
    refine htimeout.calm ?_
    simp only
    split
    · exact ⟨le_rfl, rfl, fun h2 => ⟨h2, rfl⟩⟩
    · refine (tcpChangeState_closed _).trans ?_
      exact ⟨le_rfl, rfl, fun h2 => ⟨h2, rfl⟩⟩

theorem tcpTick_paced {s : Socket} (elapsed : Elapsed) (h : Paced s) (hroom : SendRoom s) :
    Paced (tcpTick s elapsed) := by
  have hretransmit := tickRetransmit_paced elapsed h hroom
  rw [tcpTick]
  split
  · exact h
  simp only
  split
  · exact hretransmit
  · exact hretransmit.calm ((((tickPersist_calm _ elapsed).trans
      (tickOverride_calm _ elapsed)).trans (tickFinWait2_calm _ elapsed)).trans
      (tickTimeWait_calm _ elapsed))

/-! ### The FIN -/

theorem FinAllowed.stage {state next : TcpState} (h : FinAllowed state next) :
    state.stage = 1 ∧ next.stage = 2 := by
  rcases h with ⟨rfl, rfl | rfl⟩ | ⟨rfl, rfl⟩ <;> exact ⟨rfl, rfl⟩

theorem sendFin_paced {s : Socket} (how : SocketShutdown) {next : TcpState}
    (hallowed : FinAllowed s.state next) (h : Paced s) (hroom : SendRoom s) :
    Paced (sendFin s how next).1 := by
  obtain ⟨hstage, hnext⟩ := hallowed.stage
  have hcalm := tcpSendSegment_calm s { fin := true, ack := true } s.snd.sndNxt s.rcv.rcvNxt 0 true
  have hlevel :=
    tcpSendSegment_level s { fin := true, ack := true } s.snd.sndNxt s.rcv.rcvNxt 0 true
  rw [sendFin]
  generalize tcpSendSegment s { fin := true, ack := true } s.snd.sndNxt s.rcv.rcvNxt 0 true = r
    at hcalm hlevel ⊢
  obtain ⟨error, s1⟩ := r
  simp only at hcalm hlevel ⊢
  have hpaced := h.calm hcalm
  split
  · exact hpaced
  · have hinv := hpaced (by rw [hlevel.state, hstage]; decide)
    have hflight := (hroom (sending_of_stage (by omega))).2
    refine fun _ => ⟨?_, ?_, ?_, fun h0 => ?_, fun _ => ?_⟩
    · rw [tcpChangeState_snd]
      exact hinv.bounded
    · rw [tcpChangeState_snd]
      exact hinv.mss_le
    · rw [tcpChangeState_snd]
      exact hinv.size_le
    · rw [tcpChangeState_state, hnext] at h0
      cases h0
    · rw [tcpChangeState_snd, SendSide.flightSize]
      change (s1.snd.sndNxt + 1 - s1.snd.sndUna).toNat ≤ MAX_FLIGHT_SIZE + 1
      rw [hlevel.sndNxt, hlevel.sndUna]
      have hsucc : s.snd.sndNxt + 1 - s.snd.sndUna = s.snd.flightSize + 1 := by
        rw [SendSide.flightSize, UInt32.sub_eq_add_neg, UInt32.sub_eq_add_neg, UInt32.add_assoc,
          UInt32.add_comm 1, ← UInt32.add_assoc]
      rw [hsucc, UInt32.toNat_add]
      exact (Nat.mod_le _ _).trans (Nat.add_le_add_right hflight 1)

theorem flush_paced {s : Socket} (how : SocketShutdown) {next : TcpState}
    (hallowed : s.txReady = true → (s.state = .established ∨ s.state = .closeWait) →
      FinAllowed s.state next) (h : Paced s) (hroom : SendRoom s) : Paced (flush s how next).1 := by
  rw [flush]
  rcases tcpSendLoop_nil_cases s with ⟨outcome, heq, hne⟩ | ⟨hstate, hready, heq⟩
  · rw [heq]
    cases outcome with
    | blocks call => exact h
    | returns error =>
        cases error
        case noError => exact absurd rfl hne
        all_goals exact h
  · rw [heq]
    have hpaced := h.calm (tcpNagleAlgo_calm s { noDelay := true } hstate)
    have hroom' := hroom.steady (tcpNagleAlgo_steady s { noDelay := true })
    have hsame := tcpNagleAlgo_state s { noDelay := true }
    simp only [awaitTxDone]
    split
    · refine sendFin_paced how ?_ hpaced hroom'
      rw [hsame]
      exact hallowed hready hstate
    · exact hpaced

theorem tcpShutdown_paced {s : Socket} (how : SocketShutdown) (h : Paced s) (hroom : SendRoom s) :
    Paced (tcpShutdown s how).1 := by
  rw [tcpShutdown]
  split
  · exact h
  split
  case h_3 hstate => exact flush_paced how (fun _ _ => .inl ⟨rfl, .inl hstate⟩) h hroom
  case h_4 hstate => exact flush_paced how (fun _ _ => .inl ⟨rfl, .inr hstate⟩) h hroom
  case h_5 hstate => exact flush_paced how (fun _ _ => .inr ⟨rfl, hstate⟩) h hroom
  all_goals exact h

theorem resumeCall_paced {s : Socket} (call : Call)
    (hfin : ∀ next ∈ sendsFin s call, FinAllowed s.state next) (h : Paced s) (hroom : SendRoom s) :
    Paced (resumeCall s call).1 := by
  cases call with
  | connect | sendAck | finAcked | finReceived => exact h
  | send data flags =>
      rw [resumeCall]
      split
      · exact h.calm (tcpSendLoop_calm flags _ s data)
      · exact h
  | receive size received flags =>
      rw [resumeCall]
      split
      · exact h.calm (tcpReceiveLoop_calm flags size _ s received)
      · exact h
  | flush how next =>
      rw [resumeCall]
      split
      · refine flush_paced how (fun hready hstate => hfin next ?_) h hroom
        rw [sendsFin, if_pos ⟨hready, hstate⟩]
        exact rfl
      · exact h
  | sendFin how next =>
      rw [resumeCall]
      split
      case isTrue hdone =>
        refine sendFin_paced how (hfin next ?_) h hroom
        rw [sendsFin, if_pos hdone]
        exact rfl
      case isFalse => exact h

/-! ### Connections that begin -/

theorem initControlBlock_sender (s : Socket) (smss : UInt16) (iss : UInt32)
    (hsize : s.snd.txBufferSize ≤ TCP_MAX_TX_BUFFER_SIZE) :
    (initControlBlock s smss iss).snd.sender
      = { s.snd.sender with ssthresh := 65535 }.restart smss.toNat TCP_INITIAL_WINDOW := by
  simp only [initControlBlock, SendSide.sender, Congestion.Sender.restart,
    initialCwnd_toNat smss hsize]
  rfl

theorem activeBlock_fresh {s : Socket} (iss : UInt32) (h : s.Sized) :
    Fresh (activeBlock s iss).snd.sender := by
  obtain ⟨smss, hsmss⟩ : ∃ smss, smss = UInt16.ofNat (min TCP_DEFAULT_MSS TCP_MAX_MSS) := ⟨_, rfl⟩
  have hmss : TCP_MIN_MSS ≤ smss.toNat ∧ smss.toNat ≤ TCP_MAX_MSS := by
    rw [hsmss]
    decide
  have hinit := initControlBlock_sender (allocBuffers s) smss iss h.2.1
  have hblock : (activeBlock s iss).snd.sender
      = { (initControlBlock (allocBuffers s) smss iss).snd.sender with phase := .idle } := by
    rw [hsmss]
    rfl
  have hfresh : Fresh ({ s.snd.sender with ssthresh := 65535, phase := .idle }.restart smss.toNat
      TCP_INITIAL_WINDOW) := fresh_restart hmss.1 hmss.2 h.1 h.2.1 (by simp)
  rw [hblock, hinit]
  exact hfresh

theorem sendSyn_paced {s : Socket} (hstate : s.state = .closed) (h : Fresh s.snd.sender) :
    Paced (sendSyn s).2 := by
  have hcalm := tcpSendSegment_calm s { syn := true } s.snd.iss 0 0 true
  have hlevel := tcpSendSegment_level s { syn := true } s.snd.iss 0 0 true
  rw [sendSyn]
  simp only
  split
  · refine .of_stage ?_
    rw [hlevel.state, hstate]
    rfl
  · intro _
    refine Fresh.cwndInv ?_ (Nat.zero_le _)
    rw [tcpChangeState_snd, hcalm.sender]
    exact h

theorem tcpConnect_paced {s : Socket} (remoteIpAddr : IpAddr) (remotePort : UInt16)
    (env : ConnectEnv) (h : Paced s) (hsized : s.Sized) :
    Paced (tcpConnect s remoteIpAddr remotePort env).1 := by
  rw [tcpConnect]
  split
  case isFalse => exact h
  case isTrue hstate =>
    have hclosed : s.state.stage = 3 := by rw [hstate]; rfl
    have hopen : Paced (openConnection s remoteIpAddr remotePort env).2 := by
      rw [openConnection]
      simp only
      split
      · exact .of_stage hclosed
      split
      · exact .of_stage hclosed
      split
      · exact .of_stage hclosed
      · exact sendSyn_paced hstate (activeBlock_fresh env.iss hsized)
    simp only
    split
    · exact hopen
    · exact hopen

theorem sendSynAck_paced {s : Socket} (hstate : s.state = .closed) (h : Fresh s.snd.sender) :
    Paced (sendSynAck s).2 := by
  have hcalm := tcpSendSegment_calm s { syn := true, ack := true } s.snd.iss s.rcv.rcvNxt 0 true
  have hlevel := tcpSendSegment_level s { syn := true, ack := true } s.snd.iss s.rcv.rcvNxt 0 true
  rw [sendSynAck]
  simp only
  split
  · refine Paced.calm (.of_stage ?_) (tcpAbort_calm _)
    rw [hlevel.state, hstate]
    rfl
  · intro _
    refine Fresh.cwndInv ?_ le_rfl
    rw [tcpChangeState_snd, hcalm.sender]
    exact h

theorem acceptConnection_paced (s newSocket : Socket) (queueItem : TcpSynQueueItem) (memory : Bool)
    (iss : UInt32) (hsized : s.Sized) (hstate : newSocket.state = .closed)
    (hphase : newSocket.snd.congestState = .idle) (hmin : TCP_MIN_MSS ≤ queueItem.mss.toNat)
    (hmax : queueItem.mss.toNat ≤ TCP_MAX_MSS) :
    Paced (acceptConnection s newSocket queueItem memory iss).2 := by
  have hnew : (inheritSettings s newSocket).state = .closed := hstate
  rw [acceptConnection]
  split
  · refine Paced.calm (.of_stage ?_) (tcpAbort_calm _)
    rw [hnew]
    rfl
  · refine sendSynAck_paced hstate ?_
    have hinit := initControlBlock_sender (allocBuffers (inheritSettings s newSocket))
      queueItem.mss iss hsized.2.1
    have hblock : (passiveBlock s (inheritSettings s newSocket) queueItem iss).snd
        = (initControlBlock (allocBuffers (inheritSettings s newSocket)) queueItem.mss iss).snd :=
      rfl
    rw [hblock, hinit]
    refine fresh_restart hmin hmax hsized.1 hsized.2.1 ?_
    change newSocket.snd.congestState.phase ≠ .recovery
    rw [hphase]
    simp [TcpCongestState.phase]

/-! ## Runs -/

/-- The requests that the LISTEN state queues announce a segment size within the bounds. -/
theorem tcpStateListen_mss (s : Socket) (segment : Segment) (memory : Bool) :
    ∀ item ∈ (tcpStateListen s segment memory).synQueue, item ∈ s.synQueue ∨
      (TCP_MIN_MSS ≤ item.mss.toNat ∧ item.mss.toNat ≤ TCP_MAX_MSS) := by
  have hdefault : TCP_MIN_MSS ≤ (UInt16.ofNat (min TCP_DEFAULT_MSS TCP_MAX_MSS)).toNat ∧
      (UInt16.ofNat (min TCP_DEFAULT_MSS TCP_MAX_MSS)).toNat ≤ TCP_MAX_MSS := by decide
  intro item
  rw [tcpStateListen]
  split_ifs
  · exact fun hmem => .inl hmem
  · exact fun hmem => .inl hmem
  · exact fun hmem => .inl hmem
  · exact fun hmem => .inl hmem
  · exact fun hmem => .inl hmem
  · intro hmem
    rcases List.mem_append.1 hmem with hold | hnew
    · exact .inl hold
    · rw [List.mem_singleton.1 hnew]
      right
      cases segment.mss with
      | none => exact hdefault
      | some mss => exact clampMss_toNat mss
  · exact fun hmem => .inl hmem

/-- The connection request that `tcpAccept` takes was queued by `tcpStateListen`: the segment size
is within the bounds (`tcpStateListen_mss`). -/
def MssClamped : Event → Prop
  | .accept _ _ _ queueItem _ _ =>
      TCP_MIN_MSS ≤ queueItem.mss.toNat ∧ queueItem.mss.toNat ≤ TCP_MAX_MSS
  | _ => True

theorem MssClamped.mssQueued {event : Event} (h : MssClamped event) : MssQueued event := by
  cases event with
  | accept => exact h.1
  | _ => trivial

theorem step_paced (slot : Slot) (event : Event) (hpaced : Paced slot.socket)
    (hroom : SendRoom slot.socket) (hsized : slot.socket.type ≠ .unused → slot.socket.Sized)
    (hfin : FinInState slot event) (hmss : MssClamped event) : Paced (step slot event).socket := by
  cases event with
  | «open» type port =>
      rw [step]
      split
      · exact .of_stage rfl
      · exact hpaced
  | accept listener sized port queueItem memory iss =>
      rw [step]
      split
      · exact acceptConnection_paced listener (socketOpen slot.socket .stream port) queueItem
          memory iss sized rfl rfl hmss.1 hmss.2
      · exact hpaced
  | setTxBufferSize size =>
      rw [step, socketSetTxBufferSize]
      simp only
      split_ifs with hsize htype
      · exact hpaced
      · exact hpaced
      · rw [not_or, not_not, not_not] at htype
        refine .of_stage ?_
        change slot.socket.state.stage = 3
        rw [htype.2]
        rfl
  | setRxBufferSize size =>
      rw [step, socketSetRxBufferSize]
      simp only
      split_ifs
      · exact hpaced
      · exact hpaced
      · exact hpaced.calm (.of_snd rfl rfl)
  | connect remoteIpAddr remotePort env =>
      rw [step]
      split
      case isTrue htype =>
        rw [endSection_socket]
        exact tcpConnect_paced remoteIpAddr remotePort env hpaced (hsized (by rw [htype]; simp))
      case isFalse => exact hpaced
  | listen backlog =>
      rw [step]
      split
      · rw [tcpListen]
        split
        · exact hpaced
        · exact .of_stage rfl
      · exact hpaced
  | dequeue => exact hpaced.calm (.of_snd rfl rfl)
  | send data flags =>
      rw [step]
      split
      · rw [endSection_socket]
        exact hpaced.calm (tcpSend_calm slot.socket data flags)
      · exact hpaced
  | receive size flags =>
      rw [step]
      split
      · rw [endSection_socket]
        exact hpaced.calm (tcpReceive_calm slot.socket size flags)
      · exact hpaced
  | shutdown how =>
      rw [step]
      split
      · rw [endSection_socket]
        exact tcpShutdown_paced how hpaced hroom
      · exact hpaced
  | abort =>
      rw [step]
      split
      · exact hpaced.calm (tcpAbort_calm slot.socket)
      · exact hpaced
  | resume i missed =>
      rw [step]
      split
      · exact hpaced
      case h_2 call hcall =>
        cases missed with
        | true => exact hpaced
        | false =>
            simp only [Bool.false_eq_true, if_false]
            rw [endSection_socket]
            refine resumeCall_paced call (fun next hnext => hfin next ?_) hpaced hroom
            rw [hcall]
            exact hnext
  | segment segment memory =>
      rw [step]
      split
      · exact tcpProcessSegment_paced segment memory hpaced hroom
      · exact hpaced
  | tick elapsed =>
      rw [step]
      split
      · exact tcpTick_paced elapsed hpaced hroom
      · exact hpaced

/-- What the steps preserve. -/
structure PaceInv (slot : Slot) : Prop extends WindowInv slot where
  sized : SizedInv slot.socket
  paced : Paced slot.socket

theorem PaceInv.step {slot : Slot} {event : Event} (h : PaceInv slot) (hfin : FinInState slot event)
    (hmss : MssClamped event) : PaceInv (step slot event) := by
  have hunused : UnusedSocket {} slot event := by
    cases event <;> simp [UnusedSocket, Socket.Unused]
  have hacts : Acts (fun _ _ => True) {} True slot.socket (Tcp.step slot event).socket :=
    step_acts slot event hfin hunused ⟨fun _ => trivial, fun _ => trivial⟩
      (fun _ => ⟨trivial, trivial⟩) fun _ => trivial
  exact ⟨h.toWindowInv.step hmss.mssQueued, hacts.preserve (fun hinv hact => hinv.act hact) h.sized,
    step_paced slot event h.paced h.room h.sized.sized hfin hmss⟩

theorem paceInv_init (outcomes : ℕ → SendOutcome) : PaceInv (Slot.init outcomes) :=
  ⟨windowInv_init outcomes, sizedInv_init outcomes, .of_stage rfl⟩

/-- The congestion window lies between one byte and the send buffer, outside fast recovery it has
room for a segment, and the 16-bit updates of the window and of its threshold give what they give
without wrapping around. -/
structure CwndSound (s : Socket) : Prop where
  bounds : 1 ≤ s.snd.cwnd.toNat ∧ s.snd.cwnd.toNat ≤ s.snd.txBufferSize
  segment : s.snd.congestState ≠ .recovery →
    min s.snd.smss.toNat s.snd.txBufferSize ≤ s.snd.cwnd.toNat
  fits : Fits s.snd.sender s.snd.flightSize.toNat
  initial : ∀ smss : UInt16, (initialCwnd smss s.snd.txBufferSize).toNat
    = min (TCP_INITIAL_WINDOW * smss.toNat) s.snd.txBufferSize
  checkAck : ∀ segment, (tcpCheckAck s segment).2.snd.sender
    = (s.snd.ackEvent segment).elim s.snd.sender (s.snd.sender.step congestionConfig)
  handshake : ∀ segment,
    (tcpCheckAck { s with snd := s.snd.openWindow segment } segment).2.snd.sender
      = ((s.snd.openWindow segment).ackEvent segment).elim s.snd.sender
          (s.snd.sender.step congestionConfig)
  timeout : s.snd.congestionTimeout.sender = s.snd.sender.step congestionConfig
    (.timeout (s.snd.retransmitCount = 0) s.snd.flightSize.toNat)

theorem CwndInv.sound {s : Socket} (h : CwndInv s) (hroom : SendRoom s)
    (hopen : s.state.stage ≠ 3) : CwndSound s := by
  have hfits := h.fits (h.flight_le hroom hopen)
  refine ⟨⟨h.bounded.cwnd_pos, h.bounded.cwnd_le⟩, fun hstate => h.bounded.le_cwnd ?_, hfits,
    fun smss => initialCwnd_toNat smss h.size_le, fun segment => tcpCheckAck_sender segment hfits,
    fun segment => ?_, congestionTimeout_sender hfits⟩
  · intro hphase
    cases hcongest : s.snd.congestState with
    | recovery => exact hstate hcongest
    | idle | lossRecovery =>
        rw [SendSide.sender, hcongest] at hphase
        cases hphase
  · exact tcpCheckAck_sender (s := { s with snd := s.snd.openWindow segment }) segment hfits

/-- **The congestion window is sound** in every state of a connection that a run reaches, if a call
that resumes to send a FIN finds the connection in a state that the FIN may leave. -/
theorem cwndSound_run (outcomes : ℕ → SendOutcome) (events : List Event)
    (h : Along (fun slot event => FinInState slot event ∧ MssClamped event) step
      (Slot.init outcomes) events) :
    let s := (run step (Slot.init outcomes) events).socket
    s.state ≠ .closed → s.state ≠ .listen → CwndSound s := by
  intro s hclosed hlisten
  have hinv : PaceInv (run step (Slot.init outcomes) events) :=
    run_invariant (fun _ _ hinv hevent => hinv.step hevent.1 hevent.2) (paceInv_init outcomes) h
  have hopen : s.state.stage ≠ 3 := by
    cases hstate : s.state with
    | closed => exact absurd hstate hclosed
    | listen => exact absurd hstate hlisten
    | _ => decide
  exact (hinv.paced hopen).sound hinv.room hopen

/-- A byte is sent, and the peer acknowledges it. -/
def byteAcknowledged : List Event :=
  openAndSend 1000 ++ [.segment (.ofData { ack := true } 501 102 1000 [] noData_lt) true]

theorem cwndSound_run_byteAcknowledged :
    let s := (run step (Slot.init fun _ => {}) byteAcknowledged).socket
    s.state = .established ∧ s.snd.cwnd.toNat = 1609 ∧ CwndSound s := by
  have hes : Along (fun slot event => FinInState slot event ∧ MssClamped event) step
      (Slot.init fun _ => {}) byteAcknowledged :=
    ⟨⟨trivial, trivial⟩, ⟨trivial, trivial⟩, ⟨trivial, trivial⟩, ⟨trivial, trivial⟩,
      ⟨trivial, trivial⟩, trivial⟩
  exact ⟨by decide, by decide, cwndSound_run _ _ hes (by decide) (by decide)⟩

/-- The peer's window is closed, so `tcpShutdown` waits for a byte to be sent; a reset arrives, the
buffer of the closed socket is made smaller, and the call goes on. -/
def shutdownAfterResize : List Event :=
  openAndSend 0 ++
    [.shutdown .send, .segment (.ofData { rst := true } 501 0 0 [] noData_lt) true,
      .setTxBufferSize 1, .resume 1 false]

/-- The FIN takes the connection to FIN-WAIT-1 with a window that exceeds the buffer. -/
theorem shutdownAfterResize_not_sound :
    ¬ ∀ (outcomes : ℕ → SendOutcome) (events : List Event),
      Along (fun _ event => MssClamped event) step (Slot.init outcomes) events →
      let s := (run step (Slot.init outcomes) events).socket
      s.state ≠ .closed → s.state ≠ .listen → CwndSound s := by
  intro h
  have hes : Along (fun _ event => MssClamped event) step (Slot.init fun _ => {})
      shutdownAfterResize :=
    ⟨trivial, trivial, trivial, trivial, trivial, trivial, trivial, trivial, trivial⟩
  have hsound := h (fun _ => {}) shutdownAfterResize hes (by decide) (by decide)
  exact absurd hsound.bounds.2 (by decide)

end Tcp
