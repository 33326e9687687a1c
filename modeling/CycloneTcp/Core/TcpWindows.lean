import CycloneTcp.Core.TcpDelivery
import CycloneTcp.Core.TcpOutput

set_option autoImplicit false

/-! # The send window over a run

What the steps of a slot do to the quantities that the send window depends on: the segment size, the
amount of data in flight, and the persist timer, which should run whenever the window is zero. Nearly all
steps are steady: they leave the segment size alone, keep what is in flight below the window and a zero
window probed. The exceptions are the steps that begin a connection and those that complete its handshake,
which take the window of the peer as it is. -/

namespace Tcp

/-- The states of a connection that has not sent a FIN. -/
def TcpState.sending : TcpState → Bool
  | .synSent | .synReceived | .established | .closeWait => true
  | _ => false

/-- A zero window is probed: the persist timer is running. -/
def SendSide.Probed (snd : SendSide) : Prop :=
  snd.sndWnd = 0 → snd.persistTimer = true ∧ snd.wndProbeInterval ≠ 0

instance (snd : SendSide) : Decidable snd.Probed := inferInstanceAs (Decidable (_ → _))

/-- The amount of data in flight that the windows can admit at most. -/
def MAX_FLIGHT_SIZE : ℕ := 65536

/-! ## Steady steps -/

/-- The step keeps what the send window depends on. -/
structure Steady (s s' : Socket) : Prop where
  state : s'.state.sending = true →
    s'.state = s.state ∨ (s.state = .established ∧ s'.state = .closeWait)
  smss : s'.snd.smss = s.snd.smss
  probed : s.snd.Probed → s'.snd.Probed
  inFlight : s'.state.sending = true → 0 < s.snd.smss →
    s.snd.flightSize.toNat ≤ MAX_FLIGHT_SIZE → s'.snd.flightSize.toNat ≤ MAX_FLIGHT_SIZE

/-- Nothing that the send window depends on has changed. -/
structure Level (s s' : Socket) : Prop where
  state : s'.state = s.state
  smss : s'.snd.smss = s.snd.smss
  sndWnd : s'.snd.sndWnd = s.snd.sndWnd
  persistTimer : s'.snd.persistTimer = s.snd.persistTimer
  wndProbeInterval : s'.snd.wndProbeInterval = s.snd.wndProbeInterval
  sndUna : s'.snd.sndUna = s.snd.sndUna
  sndNxt : s'.snd.sndNxt = s.snd.sndNxt

namespace Steady

variable {a b c : Socket}

theorem refl (a : Socket) : Steady a a := ⟨fun _ => .inl rfl, rfl, id, fun _ _ h => h⟩

theorem sending (h : Steady a b) (hb : b.state.sending = true) : a.state.sending = true := by
  rcases h.state hb with hs | ⟨hs, -⟩
  · rw [← hs]
    exact hb
  · rw [hs]
    rfl

theorem trans (h : Steady a b) (h' : Steady b c) : Steady a c := by
  refine ⟨fun hc => ?_, h'.smss.trans h.smss, fun ha => h'.probed (h.probed ha), ?_⟩
  · have hb := h'.sending hc
    rcases h'.state hc with hs' | ⟨hs', hc'⟩
    · rw [hs']
      exact h.state hb
    · rcases h.state hb with hs | ⟨-, hb'⟩
      · exact .inr ⟨hs.symm.trans hs', hc'⟩
      · rw [hs'] at hb'
        cases hb'
  · intro hc hmss hflight
    have hb := h'.sending hc
    exact h'.inFlight hc (by rw [h.smss]; exact hmss) (h.inFlight hb hmss hflight)

end Steady

namespace Level

variable {a b c : Socket}

theorem refl (a : Socket) : Level a a := ⟨rfl, rfl, rfl, rfl, rfl, rfl, rfl⟩

theorem trans (h : Level a b) (h' : Level b c) : Level a c :=
  ⟨h'.state.trans h.state, h'.smss.trans h.smss, h'.sndWnd.trans h.sndWnd,
    h'.persistTimer.trans h.persistTimer, h'.wndProbeInterval.trans h.wndProbeInterval,
    h'.sndUna.trans h.sndUna, h'.sndNxt.trans h.sndNxt⟩

theorem probed (h : Level a b) (ha : a.snd.Probed) : b.snd.Probed := by
  rw [SendSide.Probed, h.sndWnd, h.persistTimer, h.wndProbeInterval]
  exact ha

theorem steady (h : Level a b) : Steady a b := by
  refine ⟨fun _ => .inl h.state, h.smss, h.probed, fun _ _ hflight => ?_⟩
  rw [SendSide.flightSize, h.sndUna, h.sndNxt]
  exact hflight

/-- Steps that do not touch the send side. -/
theorem of_snd (hstate : b.state = a.state) (hsnd : b.snd = a.snd) : Level a b := by
  refine ⟨hstate, ?_, ?_, ?_, ?_, ?_, ?_⟩ <;> rw [hsnd]

end Level

theorem NetOnly.steady {s s' : Socket} (h : NetOnly s s') : Steady s s' := by
  obtain ⟨net, rfl, -⟩ := h
  exact Level.steady (.of_snd rfl rfl)

/-- A state in which a FIN has been sent, or without a connection, asks for nothing. -/
theorem Steady.of_not_sending {s s' : Socket} (hstate : s'.state.sending = false)
    (hsnd : Level s { s' with state := s.state }) : Steady s s' := by
  refine ⟨fun h => ?_, hsnd.smss, hsnd.probed, fun h => ?_⟩
  · rw [hstate] at h
    cases h
  · rw [hstate] at h
    cases h

theorem tcpChangeState_steady (s : Socket) {next : TcpState} (h : next.sending = false) :
    Steady s (tcpChangeState s next) :=
  .of_not_sending h (.of_snd rfl (tcpChangeState_snd s next))

theorem tcpChangeState_closeWait (s : Socket) (h : s.state = .established) :
    Steady s (tcpChangeState s .closeWait) := by
  have hsnd : (tcpChangeState s .closeWait).snd = s.snd := tcpChangeState_snd s _
  refine ⟨fun _ => .inr ⟨h, rfl⟩, by rw [hsnd], by rw [hsnd]; exact id, fun _ _ hflight => ?_⟩
  rw [hsnd]
  exact hflight

/-! ## Sending -/

theorem enqueue_level (s : Socket) (header : TcpHeader) (length : ℕ) (net : Network) :
    Level s { s with snd := s.snd.enqueue header length, net := net } := by
  simp only [SendSide.enqueue]
  split_ifs <;> exact ⟨rfl, rfl, rfl, rfl, rfl, rfl, rfl⟩

theorem tcpSendSegment_level (s : Socket) (flags : TcpFlags) (seqNum ackNum : UInt32)
    (length : ℕ) (addToQueue : Bool) :
    Level s (tcpSendSegment s flags seqNum ackNum length addToQueue).2 := by
  rcases tcpSendSegment_cases s flags seqNum ackNum length addToQueue with ⟨_, -, h⟩ | ⟨_, h⟩
  · rw [h]
    exact .of_snd rfl rfl
  · rw [h]
    cases addToQueue with
    | false => exact .of_snd rfl rfl
    | true => exact enqueue_level s _ _ _

theorem tcpSendAck_level (s : Socket) : Level s (tcpSendAck s) := tcpSendSegment_level s _ _ _ _ _

/-- What the loop does not touch. -/
theorem sendLoop_keepsWindow (sends : SendSide → UInt32 → ℕ → Bool) (fuel : ℕ) (u : UInt32)
    (s : Socket) :
    let s' := (sendLoop sends fuel u s).2
    s'.state = s.state ∧ s'.snd.smss = s.snd.smss ∧ s'.snd.sndWnd = s.snd.sndWnd ∧
      s'.snd.persistTimer = s.snd.persistTimer ∧
      s'.snd.wndProbeInterval = s.snd.wndProbeInterval := by
  induction fuel generalizing u s with
  | zero => exact ⟨rfl, rfl, rfl, rfl, rfl⟩
  | succ fuel ih =>
      have hqueued := enqueue_level s (s.header { psh := true, ack := true } s.snd.sndNxt s.rcv.rcvNxt)
        (s.snd.roundLength u) s.net
      cases sendLoop_round sends fuel u s with
      | stop h hr => rw [hr]; exact ⟨rfl, rfl, rfl, rfl, rfl⟩
      | fail hgo error herror hr => rw [hr]; exact ⟨rfl, rfl, rfl, rfl, rfl⟩
      | refuse hgo hreach hip hr =>
          rw [hr]
          exact ⟨rfl, hqueued.smss, hqueued.sndWnd, hqueued.persistTimer, hqueued.wndProbeInterval⟩
      | next hgo hreach hr =>
          rw [hr]
          obtain ⟨h1, h2, h3, h4, h5⟩ := ih (u - UInt32.ofNat (s.snd.roundLength u))
            (s.pushed (s.snd.roundLength u))
          exact ⟨h1, h2.trans hqueued.smss, h3.trans hqueued.sndWnd, h4.trans hqueued.persistTimer,
            h5.trans hqueued.wndProbeInterval⟩

theorem sendLoop_steady (sends : SendSide → UInt32 → ℕ → Bool) (s : Socket) :
    Steady s (sendLoop sends s.snd.sndUser.toNat s.snd.usableWindow s).2 := by
  obtain ⟨hstate, hsmss, hwnd, hpersist, hinterval⟩ :=
    sendLoop_keepsWindow sends s.snd.sndUser.toNat s.snd.usableWindow s
  refine ⟨fun _ => .inl hstate, hsmss, ?_, fun _ hmss hflight => ?_⟩
  · rw [SendSide.Probed, SendSide.Probed, hwnd, hpersist, hinterval]
    exact id
  · have hlimit := windowLimit_lt s.snd
    rw [MAX_FLIGHT_SIZE] at hflight ⊢
    obtain ⟨hsends, -, -⟩ := newData_sendsNewData sends s hmss (by omega)
    rcases hsends.inFlight with hle | hnxt
    · omega
    · rw [SendSide.flightSize, hnxt, hsends.sndUna, ← SendSide.flightSize]
      exact hflight

theorem tcpNagleAlgo_steady (s : Socket) (flags : SocketFlags) :
    Steady s (tcpNagleAlgo s flags).2 := sendLoop_steady _ s

theorem sendPending_steady (s : Socket) : Steady s (sendPending s) := sendLoop_steady _ s

/-! ## Acknowledgments -/

theorem tcpComputeRto_level (s : Socket) : Level s { s with snd := (tcpComputeRto s.snd).2 } := by
  simp only [tcpComputeRto]
  split_ifs <;> exact ⟨rfl, rfl, rfl, rfl, rfl, rfl, rfl⟩

theorem tcpUpdateRetransmitQueue_level (s : Socket) :
    Level s { s with snd := tcpUpdateRetransmitQueue s.snd } := by
  simp only [tcpUpdateRetransmitQueue]
  split_ifs <;> exact ⟨rfl, rfl, rfl, rfl, rfl, rfl, rfl⟩

theorem tcpFastRecovery_level (s : Socket) (segment : Segment) (n : UInt32) :
    Level s (tcpFastRecovery s segment n) := by
  rw [tcpFastRecovery]
  split <;> exact ⟨rfl, rfl, rfl, rfl, rfl, rfl, rfl⟩

theorem tcpFastLossRecovery_level (s : Socket) (segment : Segment) :
    Level s (tcpFastLossRecovery s segment) := by
  rw [tcpFastLossRecovery]
  split <;> exact ⟨rfl, rfl, rfl, rfl, rfl, rfl, rfl⟩

theorem growCwnd_level (s : Socket) (n : UInt32) (updateFlag : Bool) :
    Level s { s with snd := s.snd.growCwnd n updateFlag } := by
  simp only [SendSide.growCwnd]
  split_ifs <;> exact ⟨rfl, rfl, rfl, rfl, rfl, rfl, rfl⟩

theorem congestionOnAck_level (s : Socket) (segment : Segment) (n : UInt32) (updateFlag : Bool) :
    Level s (congestionOnAck s segment n updateFlag) := by
  rw [congestionOnAck]
  split
  · exact tcpFastRecovery_level s segment n
  · have hdup : Level s { s with snd := { s.snd with dupAckCount := 0 } } :=
      ⟨rfl, rfl, rfl, rfl, rfl, rfl, rfl⟩
    simp only
    split
    · exact (hdup.trans (tcpFastLossRecovery_level _ segment)).trans (growCwnd_level _ n updateFlag)
    · exact hdup.trans (growCwnd_level _ n updateFlag)

theorem congestionOnDupAck_level (s : Socket) (segment : Segment) (duplicateFlag : Bool) :
    Level s (congestionOnDupAck s segment duplicateFlag) := by
  rw [congestionOnDupAck]
  split
  · split <;> exact ⟨rfl, rfl, rfl, rfl, rfl, rfl, rfl⟩
  · split <;> exact ⟨rfl, rfl, rfl, rfl, rfl, rfl, rfl⟩
  · exact .refl s

theorem limitCwnd_level (s : Socket) : Level s { s with snd := s.snd.limitCwnd } :=
  ⟨rfl, rfl, rfl, rfl, rfl, rfl, rfl⟩

theorem ackNoData_level (s : Socket) (segment : Segment) (duplicateFlag : Bool) :
    Level s (ackNoData s segment duplicateFlag) := by
  rw [ackNoData]
  have hdup : Level s { s with snd := { s.snd with
      dupAckCount := if duplicateFlag then s.snd.dupAckCount + 1 else 0 } } :=
    ⟨rfl, rfl, rfl, rfl, rfl, rfl, rfl⟩
  exact (hdup.trans (congestionOnDupAck_level _ segment duplicateFlag)).trans (limitCwnd_level _)

/-- The first thing an ACK of new data does is to move SND.UNA. -/
theorem takeAck_level (s : Socket) (ackNum : UInt32) :
    Level { s with snd := { s.snd with sndUna := ackNum } }
      { s with snd := (s.snd.takeAck ackNum).2 } := by
  have hcount : Level { s with snd := { s.snd with sndUna := ackNum } }
      { s with snd := { s.snd with n := s.snd.n + s.snd.bytesAcked ackNum, sndUna := ackNum } } :=
    ⟨rfl, rfl, rfl, rfl, rfl, rfl, rfl⟩
  exact (hcount.trans (tcpComputeRto_level _)).trans (tcpUpdateRetransmitQueue_level _)

theorem ackNewData_level (s : Socket) (segment : Segment) :
    Level { s with snd := { s.snd with sndUna := segment.ackNum } } (ackNewData s segment) := by
  rw [ackNewData]
  exact ((takeAck_level s segment.ackNum).trans
    (congestionOnAck_level { s with snd := (s.snd.takeAck segment.ackNum).2 } segment _ _)).trans
    (limitCwnd_level _)

/-- An acknowledgment in the range of what is in flight leaves less in flight. -/
theorem flightSize_ack (snd : SendSide) {a : UInt32} {bound : ℕ} (hbound : bound < 2 ^ 31)
    (hpos : 0 < tcpCmpSeq a snd.sndUna) (hle : ¬ 0 < tcpCmpSeq a snd.sndNxt)
    (hflight : snd.flightSize.toNat ≤ bound) : (snd.sndNxt - a).toNat ≤ bound := by
  rw [SendSide.flightSize] at hflight
  have ha : a = Serial.seq snd.sndUna (a - snd.sndUna).toNat := (Serial.seq_dist _ _).symm
  have hn : snd.sndNxt = Serial.seq snd.sndUna (snd.sndNxt - snd.sndUna).toNat :=
    (Serial.seq_dist _ _).symm
  have hlt := ((Serial.cmp_pos a snd.sndUna).1 hpos).2
  generalize (a - snd.sndUna).toNat = x at *
  generalize (snd.sndNxt - snd.sndUna).toNat = y at *
  have hcmp : tcpCmpSeq a snd.sndNxt = (x : ℤ) - y := by
    rw [ha, hn]
    exact Serial.cmp_seq snd.sndUna (by omega) (by omega)
  have hxy : x ≤ y := by omega
  have hsub : (snd.sndNxt - a).toNat = y - x := by
    rw [ha, hn]
    exact Serial.sub_toNat snd.sndUna hxy (by omega)
  omega

/-- Once the persist timer runs, a zero window that is learnt from an ACK is probed. -/
theorem tcpUpdateSendWindow_probed (snd : SendSide) (segment : Segment) (h : snd.Probed) :
    (tcpUpdateSendWindow snd segment).Probed := by
  rw [tcpUpdateSendWindow]
  split
  · split
    case isTrue hlt =>
      intro hzero
      have hzero' : segment.window = 0 := hzero
      rw [hzero', UInt16.lt_iff_toNat_lt] at hlt
      exact absurd hlt (Nat.not_lt_zero _)
    case isFalse => exact h
  · split
    · intro hzero
      by_cases hwnd : segment.window = 0 ∧ snd.sndWnd ≠ 0
      · simp [hwnd, TCP_DEFAULT_PROBE_INTERVAL]
      · simp only [if_neg hwnd]
        refine h ?_
        by_contra hne
        exact hwnd ⟨hzero, hne⟩
    · exact h

theorem tcpUpdateSendWindow_steady (s : Socket) (segment : Segment) :
    Steady s { s with snd := tcpUpdateSendWindow s.snd segment } := by
  have hfields : (tcpUpdateSendWindow s.snd segment).smss = s.snd.smss ∧
      (tcpUpdateSendWindow s.snd segment).sndUna = s.snd.sndUna ∧
      (tcpUpdateSendWindow s.snd segment).sndNxt = s.snd.sndNxt := by
    rw [tcpUpdateSendWindow]
    split_ifs <;> exact ⟨rfl, rfl, rfl⟩
  refine ⟨fun _ => .inl rfl, hfields.1, tcpUpdateSendWindow_probed s.snd segment,
    fun _ _ hflight => ?_⟩
  rw [SendSide.flightSize, hfields.2.1, hfields.2.2]
  exact hflight

theorem ackNewData_steady (s : Socket) (segment : Segment)
    (hpos : 0 < tcpCmpSeq segment.ackNum s.snd.sndUna)
    (hle : ¬ 0 < tcpCmpSeq segment.ackNum s.snd.sndNxt) : Steady s (ackNewData s segment) := by
  have hlevel := ackNewData_level s segment
  refine ⟨fun _ => .inl hlevel.state, hlevel.smss, fun h => hlevel.probed h, fun _ _ hflight => ?_⟩
  rw [SendSide.flightSize, hlevel.sndUna, hlevel.sndNxt]
  exact flightSize_ack s.snd (by decide) hpos hle hflight

theorem tcpCheckAck_steady (s : Socket) (segment : Segment) :
    Steady s (tcpCheckAck s segment).2 := by
  rw [tcpCheckAck]
  split
  · exact .refl s
  split
  · exact .refl s
  split
  · exact (tcpSendAck_level s).steady
  case isFalse hle =>
    have hupdate := tcpUpdateSendWindow_steady s segment
    have hnxt : (tcpUpdateSendWindow s.snd segment).sndNxt = s.snd.sndNxt := by
      rw [tcpUpdateSendWindow]
      split_ifs <;> rfl
    simp only
    split
    case isTrue hpos =>
      refine hupdate.trans (ackNewData_steady _ segment hpos ?_)
      rw [hnxt]
      exact hle
    case isFalse => exact hupdate.trans (ackNoData_level _ segment _).steady

/-! ## Incoming segments -/

theorem receiveText_level (s : Socket) (segment : Segment) : Level s (receiveText s segment) := by
  rw [receiveText, tcpProcessSegmentData]
  generalize receiveData s.rcv segment = rcv
  split
  · exact (Level.of_snd (a := s) (b := { s with rcv := rcv }) rfl rfl).trans (tcpSendAck_level _)
  · exact .refl s

theorem receiveFin_level (s : Socket) : Level s (receiveFin s) := by
  rw [receiveFin]
  refine Level.trans ?_ (tcpSendAck_level _)
  exact .of_snd rfl rfl

theorem enterTimeWait_steady (s : Socket) : Steady s (enterTimeWait s) := by
  refine .of_not_sending rfl ⟨rfl, ?_, ?_, ?_, ?_, ?_, ?_⟩ <;>
    simp [enterTimeWait, tcpDeleteControlBlock]

theorem disposeSocket_steady (s : Socket) : Steady s (disposeSocket s) :=
  Level.steady ⟨rfl, rfl, rfl, rfl, rfl, rfl, rfl⟩

theorem checkSegment_steady (s : Socket) (segment : Segment)
    {checkAck : Socket → Segment → ErrorCode × Socket} {process : Socket → Socket}
    (hcheck : Steady s (checkAck s segment).2)
    (hprocess : Steady (checkAck s segment).2 (process (checkAck s segment).2)) :
    Steady s (checkSegment s segment checkAck process) := by
  rcases checkSegment_cases s segment checkAck process with hnet | ⟨-, -, heq⟩ | ⟨-, -, -, heq⟩
  · exact hnet.steady
  · rw [heq]
    exact tcpChangeState_steady s rfl
  · rw [heq]
    split
    · exact hcheck
    · exact hcheck.trans hprocess

/-- The checks leave the state alone. -/
theorem tcpCheckAck_state (s : Socket) (segment : Segment) :
    (tcpCheckAck s segment).2.state = s.state := by
  rw [tcpCheckAck]
  split
  · rfl
  split
  · rfl
  split
  · exact (tcpSendAck_level s).state
  simp only
  split
  · exact (ackNewData_level { s with snd := tcpUpdateSendWindow s.snd segment } segment).state
  · exact (ackNoData_level { s with snd := tcpUpdateSendWindow s.snd segment } segment _).state

theorem tcpStateEstablished_steady {s : Socket} (segment : Segment)
    (hstate : s.state = .established) : Steady s (tcpStateEstablished s segment) := by
  refine checkSegment_steady s segment (tcpCheckAck_steady s segment) ?_
  have hs := (tcpCheckAck_state s segment).trans hstate
  generalize (tcpCheckAck s segment).2 = s1 at hs ⊢
  have htext := receiveText_level s1 segment
  simp only
  refine Steady.trans ?_ (sendPending_steady _)
  split
  · have hfin := receiveFin_level (receiveText s1 segment)
    refine (htext.trans hfin).steady.trans (tcpChangeState_closeWait _ ?_)
    rw [hfin.state, htext.state, hs]
  · exact htext.steady

theorem tcpStateCloseWait_steady (s : Socket) (segment : Segment) :
    Steady s (tcpStateCloseWait s segment) :=
  checkSegment_steady s segment (tcpCheckAck_steady s segment) (sendPending_steady _)

theorem tcpStateLastAck_steady (s : Socket) (segment : Segment) :
    Steady s (tcpStateLastAck s segment) := by
  refine checkSegment_steady s segment (.refl s) ?_
  split
  · exact tcpChangeState_steady s rfl
  · exact .refl s

theorem tcpStateFinWait1_steady (s : Socket) (segment : Segment) :
    Steady s (tcpStateFinWait1 s segment) := by
  refine checkSegment_steady s segment (tcpCheckAck_steady s segment) ?_
  generalize (tcpCheckAck s segment).2 = s1
  have hacked : Steady s1 (if segment.ackNum = s1.snd.sndNxt then
      tcpChangeState { s1 with finWait2Timer := true } .finWait2 else s1) := by
    split
    · refine Steady.trans ?_ (tcpChangeState_steady _ rfl)
      exact Level.steady (.of_snd rfl rfl)
    · exact .refl s1
  simp only
  generalize (if segment.ackNum = s1.snd.sndNxt then
    tcpChangeState { s1 with finWait2Timer := true } .finWait2 else s1) = s2 at hacked ⊢
  have htext := hacked.trans (receiveText_level s2 segment).steady
  generalize receiveText s2 segment = s3 at htext ⊢
  split
  · have hfin := htext.trans (receiveFin_level s3).steady
    split
    · exact hfin.trans (enterTimeWait_steady _)
    · exact hfin.trans (tcpChangeState_steady _ rfl)
  · exact htext

theorem tcpStateFinWait2_steady (s : Socket) (segment : Segment) :
    Steady s (tcpStateFinWait2 s segment) := by
  refine checkSegment_steady s segment (tcpCheckAck_steady s segment) ?_
  generalize (tcpCheckAck s segment).2 = s1
  have htext := (receiveText_level s1 segment).steady
  simp only
  split
  · exact (htext.trans (receiveFin_level _).steady).trans (enterTimeWait_steady _)
  · exact htext

theorem tcpStateClosing_steady (s : Socket) (segment : Segment) :
    Steady s (tcpStateClosing s segment) := by
  refine checkSegment_steady s segment (tcpCheckAck_steady s segment) ?_
  split
  · exact enterTimeWait_steady _
  · exact .refl _

theorem tcpStateTimeWait_steady (s : Socket) (segment : Segment) :
    Steady s (tcpStateTimeWait s segment) := by
  rw [tcpStateTimeWait]
  rcases tcpCheckSequenceNumber_cases s segment with ⟨-, hseq⟩ | ⟨s', hseq, hnet⟩
  · rw [hseq]
    simp only [ne_eq, not_true_eq_false, if_false]
    split
    · split
      · exact tcpChangeState_steady s rfl
      · exact (tcpChangeState_steady s rfl).trans (disposeSocket_steady _)
    · rcases tcpCheckSyn_cases s segment with ⟨-, hsyn⟩ | ⟨s', hsyn, hnet⟩
      · rw [hsyn]
        simp only [not_true_eq_false, if_false]
        split
        · refine (tcpSendAck_level s).steady.trans ?_
          exact Level.steady (.of_snd rfl rfl)
        · exact .refl s
      · rw [hsyn]
        exact hnet.steady
  · rw [hseq]
    exact hnet.steady

theorem tcpStateListen_steady (s : Socket) (segment : Segment) (memory : Bool) :
    Steady s (tcpStateListen s segment memory) := by
  rw [tcpStateListen]
  split_ifs
  · exact .refl s
  · exact .refl s
  · exact .refl s
  · exact .refl s
  · exact .refl s
  · refine Level.steady (.of_snd ?_ ?_) <;> rfl
  · exact .refl s

/-- The segment completes the handshake: in the SYN-SENT state it is the SYN of the peer, and it
acknowledges ours; in the SYN-RECEIVED state it passes the checks and acknowledges ours. -/
def completesHandshake (s : Socket) (segment : Segment) : Bool :=
  match s.state with
  | .synSent =>
      segment.flags.syn && !segment.flags.rst &&
        (!segment.flags.ack || segment.ackNum = s.snd.sndNxt) &&
        0 < tcpCmpSeq (s.unaOnSyn segment) s.snd.iss
  | .synReceived =>
      acceptable s.rcv segment && !segment.flags.rst && !segment.flags.syn && segment.flags.ack &&
        segment.ackNum = s.snd.sndNxt
  | _ => false

/-- In the SYN-RECEIVED state the segment is dropped, or it completes the handshake. -/
theorem tcpStateSynReceived_cases (s : Socket) (segment : Segment) (hstate : s.state = .synReceived) :
    Steady s (tcpStateSynReceived s segment) ∨
      (completesHandshake s segment = true ∧
        Steady (tcpChangeState { s with snd := s.snd.openWindow segment } .established)
          (tcpStateSynReceived s segment)) := by
  rw [tcpStateSynReceived]
  rcases checkSegment_cases s segment checkAckBit _ with hnet | ⟨-, -, heq⟩ |
    ⟨hacc, hrst, hsyn, heq⟩
  · exact .inl hnet.steady
  · rw [heq]
    exact .inl (tcpChangeState_steady s rfl)
  rw [heq, show (checkAckBit s segment).2 = s from rfl, checkAckBit]
  by_cases hack : segment.flags.ack = true
  · simp only [hack, if_true, ne_eq, not_true_eq_false, if_false]
    by_cases hnum : segment.ackNum = s.snd.sndNxt
    · simp only [hnum, not_true_eq_false, if_false]
      refine .inr ⟨?_, tcpStateEstablished_steady segment rfl⟩
      simp [completesHandshake, hstate, hacc, hrst, hsyn, hack, hnum]
    · simp only [hnum, not_false_eq_true, if_true]
      exact .inl (tcpSendSegment_level s _ _ _ _ _).steady
  · simp only [hack, Bool.false_eq_true, if_false]
    exact .inl (.refl s)

/-! ## Timers -/

theorem tickRetransmit_steady (s : Socket) (elapsed : Elapsed) :
    Steady s (tickRetransmit s elapsed) := by
  rw [tickRetransmit]
  split
  case isFalse => exact .refl s
  case isTrue =>
    have htimeout : Level s { s with snd := s.snd.congestionTimeout } :=
      ⟨rfl, rfl, rfl, rfl, rfl, rfl, rfl⟩
    simp only
    split
    · refine htimeout.steady.trans (Level.steady ?_)
      exact ⟨rfl, rfl, rfl, rfl, rfl, rfl, rfl⟩
    · have hclosed := tcpChangeState_steady { s with snd := s.snd.congestionTimeout }
        (show TcpState.closed.sending = false from rfl)
      refine (htimeout.steady.trans hclosed).trans (Level.steady ?_)
      exact ⟨rfl, rfl, rfl, rfl, rfl, rfl, rfl⟩

theorem tickPersist_steady (s : Socket) (elapsed : Elapsed) :
    Steady s (tickPersist s elapsed) := by
  rw [tickPersist]
  split
  case isFalse => exact .refl s
  case isTrue hrun =>
    split
    · have hprobe := tcpSendSegment_level s { ack := true } (s.snd.sndNxt - 1) s.rcv.rcvNxt 0 false
      generalize (tcpSendSegment s { ack := true } (s.snd.sndNxt - 1) s.rcv.rcvNxt 0 false).2 = s'
        at hprobe ⊢
      refine hprobe.steady.trans ⟨fun _ => .inl rfl, rfl, fun _ _ => ⟨rfl, ?_⟩, fun _ _ h => h⟩
      have hinterval := hprobe.wndProbeInterval
      have hpos := hrun.2.1
      simp only [TCP_MAX_PROBE_INTERVAL]
      omega
    · exact tcpChangeState_steady s rfl

theorem tickOverride_steady (s : Socket) (elapsed : Elapsed) :
    Steady s (tickOverride s elapsed) := by
  have hloop := sendLoop_steady (fun _ _ _ => true) s
  rw [tickOverride]
  split
  case isFalse => exact .refl s
  case isTrue =>
    simp only
    split
    · refine hloop.trans (Level.steady ?_)
      exact ⟨rfl, rfl, rfl, rfl, rfl, rfl, rfl⟩
    · exact hloop

theorem tickFinWait2_steady (s : Socket) (elapsed : Elapsed) :
    Steady s (tickFinWait2 s elapsed) := by
  rw [tickFinWait2]
  split
  · exact tcpChangeState_steady s rfl
  · exact .refl s

theorem tickTimeWait_steady (s : Socket) (elapsed : Elapsed) :
    Steady s (tickTimeWait s elapsed) := by
  rw [tickTimeWait]
  split
  case isFalse => exact .refl s
  case isTrue =>
    simp only
    split
    · exact tcpChangeState_steady s rfl
    · exact (tcpChangeState_steady s rfl).trans (disposeSocket_steady _)

theorem tcpTick_steady (s : Socket) (elapsed : Elapsed) : Steady s (tcpTick s elapsed) := by
  have hretransmit := tickRetransmit_steady s elapsed
  rw [tcpTick]
  split
  · exact .refl s
  simp only
  split
  · exact hretransmit
  · exact (((hretransmit.trans (tickPersist_steady _ elapsed)).trans
      (tickOverride_steady _ elapsed)).trans (tickFinWait2_steady _ elapsed)).trans
      (tickTimeWait_steady _ elapsed)

/-! ## Calls -/

theorem tcpAbort_steady (s : Socket) : Steady s (tcpAbort s).2 := by
  have hclose : ∀ s1 : Socket, Steady s1 (disposeSocket (tcpChangeState s1 .closed)) := fun s1 =>
    (tcpChangeState_steady s1 rfl).trans (disposeSocket_steady _)
  rw [tcpAbort]
  split
  case h_6 => exact Level.steady (.of_snd rfl rfl)
  case h_7 => exact hclose s
  all_goals exact (tcpSendSegment_level s _ _ _ _ _).steady.trans (hclose _)

theorem copyUserData_level (s : Socket) (data : List UInt8) (n : ℕ) :
    Level s (copyUserData s data n) := by
  rw [copyUserData]
  split
  · have hwrite : ∀ q, ∃ txBuffer, tcpWriteTxBuffer s.snd q data n
        = { s.snd with txBuffer := txBuffer } := by
      intro q
      rw [tcpWriteTxBuffer]
      split
      · exact ⟨_, rfl⟩
      · exact ⟨_, rfl⟩
    obtain ⟨txBuffer, htx⟩ := hwrite (s.snd.sndNxt + s.snd.sndUser.toUInt32)
    simp only [htx]
    exact ⟨rfl, rfl, rfl, rfl, rfl, rfl, rfl⟩
  · exact .refl s

theorem tcpSendLoop_steady (flags : SocketFlags) (fuel : ℕ) (s : Socket) (data : List UInt8) :
    Steady s (tcpSendLoop flags fuel s data).1 := by
  induction fuel generalizing s data with
  | zero => exact .refl s
  | succ fuel ih =>
      have hround : ∀ n, Steady s (tcpNagleAlgo (copyUserData s data n) flags).2 := fun n =>
        (copyUserData_level s data n).steady.trans (tcpNagleAlgo_steady _ flags)
      rcases tcpSendLoop_round flags fuel s data with heq | ⟨n, -, -, -, heq | heq⟩
      · rw [heq]
        exact .refl s
      · rw [heq]
        exact (hround n).trans (ih _ _)
      · rw [heq]
        exact hround n

theorem tcpSend_steady (s : Socket) (data : List UInt8) (flags : SocketFlags) :
    Steady s (tcpSend s data flags).1 := by
  rw [tcpSend]
  split
  · exact .refl s
  · exact tcpSendLoop_steady flags _ s data

theorem consume_steady (s : Socket) (data : List UInt8) : Steady s (consume s data) := by
  have hread : ∀ rcv history, Level s { s with rcv := rcv, history := history } := fun _ _ =>
    .of_snd rfl rfl
  rw [consume, tcpUpdateReceiveWindow]
  split
  · refine ((hread _ _).trans (tcpSendAck_level _)).steady
  · exact (hread _ _).steady

theorem tcpReceiveLoop_steady (flags : SocketFlags) (size fuel : ℕ) (s : Socket) (received : ℕ) :
    Steady s (tcpReceiveLoop flags size fuel s received).1 := by
  induction fuel generalizing s received with
  | zero => exact .refl s
  | succ fuel ih =>
      rw [tcpReceiveLoop]
      split
      · exact .refl s
      split
      · exact .refl s
      split
      · exact .refl s
      simp only
      split
      · exact consume_steady s _
      · exact (consume_steady s _).trans (ih _ _)

theorem tcpReceive_steady (s : Socket) (size : ℕ) (flags : SocketFlags) :
    Steady s (tcpReceive s size flags).1 := by
  rw [tcpReceive]
  split
  · exact .refl s
  · exact tcpReceiveLoop_steady flags size _ s 0

theorem sendFin_steady (s : Socket) (how : SocketShutdown) {next : TcpState}
    (hnext : next.sending = false) : Steady s (sendFin s how next).1 := by
  have hsend := tcpSendSegment_level s { fin := true, ack := true } s.snd.sndNxt s.rcv.rcvNxt 0 true
  rw [sendFin]
  generalize tcpSendSegment s { fin := true, ack := true } s.snd.sndNxt s.rcv.rcvNxt 0 true = r
    at hsend ⊢
  obtain ⟨error, s1⟩ := r
  simp only at hsend ⊢
  split
  · exact hsend.steady
  · refine hsend.steady.trans ?_
    refine ⟨fun h => ?_, ?_, ?_, fun h => ?_⟩
    · rw [tcpChangeState_state, hnext] at h
      cases h
    · rw [tcpChangeState_snd]
    · rw [tcpChangeState_snd]
      exact id
    · rw [tcpChangeState_state, hnext] at h
      cases h

theorem awaitTxDone_steady (s : Socket) (how : SocketShutdown) {next : TcpState}
    (hnext : next.sending = false) : Steady s (awaitTxDone s how next).1 := by
  rw [awaitTxDone]
  split
  · exact sendFin_steady s how hnext
  · exact .refl s

theorem flush_steady (s : Socket) (how : SocketShutdown) {next : TcpState}
    (hnext : next.sending = false) : Steady s (flush s how next).1 := by
  have hloop := tcpSendLoop_steady { noDelay := true } 1 s []
  rw [flush]
  split
  case h_1 h => rw [h] at hloop; exact hloop
  case h_2 h => rw [h] at hloop; exact hloop.trans (awaitTxDone_steady _ how hnext)
  case h_3 h => rw [h] at hloop; exact hloop

theorem tcpShutdown_steady (s : Socket) (how : SocketShutdown) : Steady s (tcpShutdown s how).1 := by
  rw [tcpShutdown]
  split
  · exact .refl s
  split
  · exact .refl s
  · exact .refl s
  · exact flush_steady s how rfl
  · exact flush_steady s how rfl
  · exact flush_steady s how rfl
  all_goals exact .refl s

/-- A call that sends a FIN takes the connection to a state in which it has been sent. -/
def Call.EndsSending : Call → Prop
  | .flush _ next | .sendFin _ next => next.sending = false
  | _ => True

def Outcome.EndsSending : Outcome → Prop
  | .blocks call => call.EndsSending
  | .returns _ => True

theorem resumeCall_steady (s : Socket) {call : Call} (hcall : call.EndsSending) :
    Steady s (resumeCall s call).1 := by
  cases call with
  | connect | sendAck | finAcked | finReceived => exact .refl s
  | send data flags =>
      rw [resumeCall]
      split
      · exact tcpSendLoop_steady flags _ s data
      · exact .refl s
  | receive size received flags =>
      rw [resumeCall]
      split
      · exact tcpReceiveLoop_steady flags size _ s received
      · exact .refl s
  | flush how next =>
      rw [resumeCall]
      split
      · exact flush_steady s how hcall
      · exact .refl s
  | sendFin how next =>
      rw [resumeCall]
      split
      · exact sendFin_steady s how hcall
      · exact .refl s

theorem awaitAck_endsSending (s : Socket) (flags : SocketFlags) : (awaitAck s flags).EndsSending := by
  rw [awaitAck]
  split_ifs
  · rw [sendAcked]
    split <;> trivial
  · trivial
  · trivial

theorem tcpSendLoop_endsSending (flags : SocketFlags) (fuel : ℕ) (s : Socket) (data : List UInt8) :
    (tcpSendLoop flags fuel s data).2.2.EndsSending := by
  induction fuel generalizing s data with
  | zero => trivial
  | succ fuel ih =>
      rw [tcpSendLoop]
      split
      · trivial
      split
      case h_1 | h_2 =>
        split
        · trivial
        simp only
        split
        · exact ih _ _
        · exact awaitAck_endsSending _ flags
      all_goals trivial

theorem tcpReceiveLoop_endsSending (flags : SocketFlags) (size fuel : ℕ) (s : Socket)
    (received : ℕ) : (tcpReceiveLoop flags size fuel s received).2.2.EndsSending := by
  induction fuel generalizing s received with
  | zero => trivial
  | succ fuel ih =>
      rw [tcpReceiveLoop]
      split
      · trivial
      split
      · trivial
      split
      · trivial
      simp only
      split
      · trivial
      · exact ih _ _

theorem shutdownReceive_endsSending (s : Socket) (how : SocketShutdown) :
    (shutdownReceive s how).EndsSending := by
  rw [shutdownReceive]
  split
  · trivial
  split
  all_goals try trivial
  all_goals split <;> trivial

theorem awaitFinAcked_endsSending (s : Socket) (how : SocketShutdown) :
    (awaitFinAcked s how).EndsSending := by
  rw [awaitFinAcked]
  split
  · exact shutdownReceive_endsSending s how
  · trivial

theorem sendFin_endsSending (s : Socket) (how : SocketShutdown) (next : TcpState) :
    (sendFin s how next).2.EndsSending := by
  rw [sendFin]
  simp only
  split
  · trivial
  · exact awaitFinAcked_endsSending _ how

theorem flush_endsSending (s : Socket) (how : SocketShutdown) {next : TcpState}
    (hnext : next.sending = false) : (flush s how next).2.EndsSending := by
  rw [flush]
  split
  · exact hnext
  · rw [awaitTxDone]
    split
    · exact sendFin_endsSending _ how next
    · exact hnext
  · trivial

theorem tcpShutdown_endsSending (s : Socket) (how : SocketShutdown) :
    (tcpShutdown s how).2.EndsSending := by
  rw [tcpShutdown]
  split
  · exact shutdownReceive_endsSending s how
  split
  · trivial
  · trivial
  · exact flush_endsSending s how rfl
  · exact flush_endsSending s how rfl
  · exact flush_endsSending s how rfl
  · exact awaitFinAcked_endsSending s how
  · exact awaitFinAcked_endsSending s how
  · exact awaitFinAcked_endsSending s how
  · exact shutdownReceive_endsSending s _

theorem awaitConnected_endsSending (s : Socket) : (awaitConnected s).EndsSending := by
  rw [awaitConnected]
  split_ifs <;> trivial

theorem resumeCall_endsSending (s : Socket) {call : Call} (hcall : call.EndsSending) :
    (resumeCall s call).2.2.EndsSending := by
  cases call with
  | connect =>
      rw [resumeCall]
      cases hwait : awaitConnected s with
      | blocks call => trivial
      | returns error => trivial
  | sendAck =>
      rw [resumeCall, sendAcked]
      split
      · split <;> trivial
      · trivial
  | finAcked how =>
      rw [resumeCall]
      simp only
      split
      · exact shutdownReceive_endsSending s how
      · trivial
  | finReceived how =>
      rw [resumeCall]
      simp only
      split <;> trivial
  | send data flags =>
      rw [resumeCall]
      split
      · exact tcpSendLoop_endsSending flags _ s data
      · trivial
  | receive size received flags =>
      rw [resumeCall]
      split
      · exact tcpReceiveLoop_endsSending flags size _ s received
      · trivial
  | flush how next =>
      rw [resumeCall]
      split
      · exact flush_endsSending s how hcall
      · trivial
  | sendFin how next =>
      rw [resumeCall]
      split
      · exact sendFin_endsSending s how next
      · trivial

theorem callSection_endsSending {slot : Slot} {event : Event} {r : Socket × Outcome}
    (hsection : callSection slot event = some r) (h : ∀ call ∈ slot.calls, call.EndsSending) :
    r.2.EndsSending := by
  cases event with
  | connect remoteIpAddr remotePort env =>
      rw [callSection] at hsection
      split at hsection
      · rw [← Option.some.inj hsection, tcpConnect]
        simp only
        split
        · split
          · trivial
          · exact awaitConnected_endsSending _
        · exact awaitConnected_endsSending _
      · cases hsection
  | send data flags =>
      rw [callSection] at hsection
      split at hsection
      · rw [← Option.some.inj hsection]
        change (tcpSend slot.socket data flags).2.2.EndsSending
        rw [tcpSend]
        split
        · trivial
        · exact tcpSendLoop_endsSending flags _ _ data
      · cases hsection
  | receive size flags =>
      rw [callSection] at hsection
      split at hsection
      · rw [← Option.some.inj hsection]
        change (tcpReceive slot.socket size flags).2.2.EndsSending
        rw [tcpReceive]
        split
        · trivial
        · exact tcpReceiveLoop_endsSending flags size _ _ 0
      · cases hsection
  | shutdown how =>
      rw [callSection] at hsection
      split at hsection
      · rw [← Option.some.inj hsection]
        exact tcpShutdown_endsSending _ how
      · cases hsection
  | resume i missed =>
      cases missed with
      | true => cases hsection
      | false =>
          rw [callSection] at hsection
          cases hi : slot.calls[i]? with
          | none =>
              rw [hi] at hsection
              cases hsection
          | some call =>
              rw [hi, Option.map_some] at hsection
              rw [← Option.some.inj hsection]
              exact resumeCall_endsSending _ (h call (List.mem_of_getElem? hi))
  | _ => cases hsection

/-- The calls that wait stay calls that end sending. -/
theorem step_endsSending (slot : Slot) (event : Event)
    (h : ∀ call ∈ slot.calls, call.EndsSending) :
    ∀ call ∈ (step slot event).calls, call.EndsSending := by
  intro call hcall
  rcases step_calls slot event hcall with hold | hnew
  · exact h call hold
  · exact callSection_endsSending hnew h

/-! ## Steps that begin a connection -/

/-- There is room for new data to be sent: the segments are not empty, and what is in flight is below
the windows. -/
def SendRoom (s : Socket) : Prop :=
  s.state.sending = true →
    TCP_MIN_MSS ≤ s.snd.smss.toNat ∧ s.snd.flightSize.toNat ≤ MAX_FLIGHT_SIZE

/-- The connection is not established: the handshake is yet to be completed, if it has begun. There is
room for new data if `promised` holds. -/
structure Begins (promised : Prop) (s : Socket) : Prop where
  established : s.state ≠ .established
  closeWait : s.state ≠ .closeWait
  room : promised → SendRoom s

theorem Begins.of_closed {promised : Prop} {s : Socket} (h : s.state = .closed) :
    Begins promised s := by
  refine ⟨?_, ?_, fun _ hs => ?_⟩
  · rw [h]
    simp
  · rw [h]
    simp
  · rw [h] at hs
    cases hs

theorem SendRoom.steady {s s' : Socket} (h : Steady s s') (hs : SendRoom s) : SendRoom s' := by
  intro hs'
  obtain ⟨hmss, hflight⟩ := hs (h.sending hs')
  refine ⟨by rw [h.smss]; exact hmss, h.inFlight hs' ?_ hflight⟩
  rw [UInt16.lt_iff_toNat_lt]
  exact lt_of_lt_of_le (by decide) hmss

/-- The segment size that is used lies between the bounds. -/
theorem clampMss_toNat (mss : UInt16) :
    TCP_MIN_MSS ≤ (clampMss mss).toNat ∧ (clampMss mss).toNat ≤ TCP_MAX_MSS := by
  have hmax : ∀ a b : UInt16, max a b = if a ≤ b then b else a := fun _ _ => rfl
  have hmin : ∀ a b : UInt16, min a b = if a ≤ b then a else b := fun _ _ => rfl
  have h64 : (UInt16.ofNat TCP_MIN_MSS).toNat = TCP_MIN_MSS := rfl
  have h1430 : (UInt16.ofNat TCP_MAX_MSS).toNat = TCP_MAX_MSS := rfl
  rw [clampMss, hmax, hmin]
  simp only [UInt16.le_iff_toNat_le, h64, h1430]
  split_ifs <;> simp only [TCP_MIN_MSS, TCP_MAX_MSS] at * <;> omega

theorem takeSyn_keeps (snd : SendSide) (segment : Segment) :
    let snd' := snd.takeSyn segment
    snd'.persistTimer = snd.persistTimer ∧ snd'.wndProbeInterval = snd.wndProbeInterval ∧
      snd'.sndNxt = snd.sndNxt ∧ snd'.iss = snd.iss ∧
      snd'.sndUna = (if segment.flags.ack then segment.ackNum else snd.sndUna) ∧
      (TCP_MIN_MSS ≤ snd.smss.toNat → TCP_MIN_MSS ≤ snd'.smss.toNat) := by
  have hmss : ∀ snd : SendSide, ∃ smss, snd.setMss segment.mss = { snd with smss := smss } ∧
      (TCP_MIN_MSS ≤ snd.smss.toNat → TCP_MIN_MSS ≤ smss.toNat) := by
    intro snd
    cases segment.mss with
    | none => exact ⟨snd.smss, rfl, id⟩
    | some mss => exact ⟨clampMss mss, rfl, fun _ => (clampMss_toNat mss).1⟩
  obtain ⟨smss, hset, hle⟩ := hmss (tcpUpdateRetransmitQueue (tcpComputeRto
    (if segment.flags.ack then { snd with sndUna := segment.ackNum } else snd)).2)
  simp only [SendSide.takeSyn, hset]
  refine ⟨?_, ?_, ?_, ?_, ?_, fun h => hle ?_⟩ <;>
    simp only [tcpUpdateRetransmitQueue, tcpComputeRto] <;> split_ifs <;> first | rfl | exact h

/-- What a step can do: it is steady, it leaves the handshake to be completed, or the segment completes
the handshake. What the listening socket has promised matters to a new connection. -/
inductive Move (promised : Prop) (s : Socket) (segment : Option Segment) (s' : Socket) : Prop
  | steady (h : Steady s s')
  | begins (h : Begins (promised ∧ SendRoom s) s')
  | completes (sgm : Segment) (hsgm : segment = some sgm) (h : completesHandshake s sgm = true)
      (hprobed : (s.snd.openWindow sgm).Probed → s'.snd.Probed) (hroom : SendRoom s → SendRoom s')

theorem tcpStateSynSent_move (s : Socket) (segment : Segment) (hstate : s.state = .synSent) :
    Move True s (some segment) (tcpStateSynSent s segment) := by
  rw [tcpStateSynSent]
  by_cases hnum : segment.flags.ack = true ∧ segment.ackNum ≠ s.snd.sndNxt
  · rw [if_pos hnum]
    split
    · exact .steady (.refl s)
    · exact .steady (tcpSendSegment_level s _ _ _ _ _).steady
  rw [if_neg hnum]
  by_cases hrst : segment.flags.rst = true
  · rw [if_pos hrst]
    split
    · exact .steady (tcpChangeState_steady s rfl)
    · exact .steady (.refl s)
  rw [if_neg hrst]
  by_cases hsyn : segment.flags.syn = true
  case neg =>
    rw [if_neg hsyn]
    exact .steady (.refl s)
  rw [if_pos hsyn]
  obtain ⟨hpersist, hinterval, hnxt, hiss, huna, hmss⟩ := takeSyn_keeps s.snd segment
  -- nothing is in flight once the SYN has been acknowledged
  have hflight : SendRoom s → TCP_MIN_MSS ≤ (s.snd.takeSyn segment).smss.toNat ∧
      (s.snd.takeSyn segment).flightSize.toNat ≤ MAX_FLIGHT_SIZE := by
    intro hroom
    obtain ⟨hm, hf⟩ := hroom (by rw [hstate]; rfl)
    refine ⟨hmss hm, ?_⟩
    rw [SendSide.flightSize, hnxt, huna]
    split
    · rename_i hack
      have hacked : segment.ackNum = s.snd.sndNxt := by
        by_contra h
        exact hnum ⟨hack, h⟩
      rw [hacked, UInt32.sub_self]
      exact Nat.zero_le _
    · exact hf
  simp only
  split
  case isTrue hpos =>
    have hack := tcpSendAck_level
      { receiveSyn s segment with snd := (receiveSyn s segment).snd.openWindow segment }
    refine .completes segment rfl ?_ (fun hprobed => ?_) (fun hroom _ => ?_)
    · have hacked : segment.flags.ack = true → segment.ackNum = s.snd.sndNxt := fun hack => by
        by_contra h
        exact hnum ⟨hack, h⟩
      have hpos' : 0 < tcpCmpSeq (s.unaOnSyn segment) s.snd.iss := by
        rw [receiveSyn] at hpos
        rw [huna, hiss] at hpos
        exact hpos
      cases hf : segment.flags.ack with
      | false => simp [completesHandshake, hstate, hsyn, hrst, hpos', hf]
      | true => simp [completesHandshake, hstate, hsyn, hrst, hpos', hacked hf]
    · rw [tcpChangeState_snd]
      refine hack.probed fun hwnd => ?_
      obtain ⟨hp, hi⟩ := hprobed hwnd
      exact ⟨hpersist.trans hp, fun h => hi (hinterval.symm.trans h)⟩
    · obtain ⟨hm, hf⟩ := hflight hroom
      rw [tcpChangeState_snd, hack.smss, SendSide.flightSize, hack.sndNxt, hack.sndUna]
      exact ⟨hm, hf⟩
  case isFalse =>
    have hsend := tcpSendSegment_level (receiveSyn s segment) { syn := true, ack := true }
      (receiveSyn s segment).snd.iss (receiveSyn s segment).rcv.rcvNxt 0 true
    refine .begins ⟨by simp, by simp, fun hroom _ => ?_⟩
    obtain ⟨hm, hf⟩ := hflight hroom.2
    rw [tcpChangeState_snd, hsend.smss, SendSide.flightSize, hsend.sndNxt, hsend.sndUna]
    exact ⟨hm, hf⟩

theorem tcpStateSynReceived_move (s : Socket) (segment : Segment) (hstate : s.state = .synReceived) :
    Move True s (some segment) (tcpStateSynReceived s segment) := by
  rcases tcpStateSynReceived_cases s segment hstate with h | ⟨hcompletes, h⟩
  · exact .steady h
  · refine .completes segment rfl hcompletes (fun hprobed => h.probed ?_) fun hroom => .steady h ?_
    · rw [tcpChangeState_snd]
      exact hprobed
    · intro _
      rw [tcpChangeState_snd]
      exact hroom (by rw [hstate]; rfl)

theorem tcpProcessSegment_move (s : Socket) (segment : Segment) (memory : Bool) :
    Move True s (some segment) (tcpProcessSegment s segment memory) := by
  rw [tcpProcessSegment]
  obtain ⟨s1, hs1⟩ : ∃ s1 : Socket, s1 = { s with history := { s.history with
    finAcked := s.history.finAcked || acksFin s segment } } := ⟨_, rfl⟩
  have hlevel : Level s s1 := by
    rw [hs1]
    exact .of_snd rfl rfl
  have hmove : ∀ s', Move True s1 (some segment) s' → Move True s (some segment) s' := by
    intro s' h
    cases h with
    | steady h => exact .steady (hlevel.steady.trans h)
    | begins h =>
        rw [hs1] at h
        exact .begins h
    | completes sgm hsgm h hprobed hroom =>
        rw [hs1] at h hprobed hroom
        exact .completes sgm hsgm h hprobed hroom
  refine hmove _ ?_
  rw [← hs1]
  clear hs1 hmove hlevel
  cases hstate : s1.state with
  | closed => exact .steady (.refl _)
  | listen => exact .steady (tcpStateListen_steady _ segment memory)
  | synSent => exact tcpStateSynSent_move _ segment hstate
  | synReceived => exact tcpStateSynReceived_move _ segment hstate
  | established => exact .steady (tcpStateEstablished_steady segment hstate)
  | closeWait => exact .steady (tcpStateCloseWait_steady _ segment)
  | lastAck => exact .steady (tcpStateLastAck_steady _ segment)
  | finWait1 => exact .steady (tcpStateFinWait1_steady _ segment)
  | finWait2 => exact .steady (tcpStateFinWait2_steady _ segment)
  | closing => exact .steady (tcpStateClosing_steady _ segment)
  | timeWait => exact .steady (tcpStateTimeWait_steady _ segment)

theorem sendSyn_begins {promised : Prop} (s : Socket) (hstate : s.state = .closed)
    (hroom : TCP_MIN_MSS ≤ s.snd.smss.toNat ∧ s.snd.flightSize.toNat ≤ MAX_FLIGHT_SIZE) :
    Begins promised (sendSyn s).2 := by
  have hsend := tcpSendSegment_level s { syn := true } s.snd.iss 0 0 true
  rw [sendSyn]
  simp only
  split
  · exact .of_closed (hsend.state.trans hstate)
  · refine ⟨by simp, by simp, fun _ _ => ?_⟩
    rw [tcpChangeState_snd, hsend.smss, SendSide.flightSize, hsend.sndNxt, hsend.sndUna]
    exact hroom

/-- At first the SYN is in flight, nothing else. -/
theorem initialFlight (iss : UInt32) : (iss + 1 - iss).toNat ≤ MAX_FLIGHT_SIZE := by
  rw [UInt32.add_comm, UInt32.add_sub_cancel]
  decide

theorem openConnection_begins {promised : Prop} (s : Socket) (remoteIpAddr : IpAddr)
    (remotePort : UInt16) (env : ConnectEnv) (hstate : s.state = .closed) :
    Begins promised (openConnection s remoteIpAddr remotePort env).2 := by
  rw [openConnection]
  simp only
  split
  · exact .of_closed hstate
  split
  · exact .of_closed hstate
  split
  · exact .of_closed hstate
  · refine sendSyn_begins _ hstate ⟨?_, initialFlight env.iss⟩
    change TCP_MIN_MSS ≤ (UInt16.ofNat (min TCP_DEFAULT_MSS TCP_MAX_MSS)).toNat
    decide

theorem tcpConnect_move (s : Socket) (remoteIpAddr : IpAddr) (remotePort : UInt16)
    (env : ConnectEnv) : Move True s none (tcpConnect s remoteIpAddr remotePort env).1 := by
  rw [tcpConnect]
  split
  case isTrue hstate =>
    have hbegins : Begins (True ∧ SendRoom s) (openConnection s remoteIpAddr remotePort env).2 :=
      openConnection_begins s remoteIpAddr remotePort env hstate
    simp only
    split
    · exact .begins hbegins
    · exact .begins hbegins
  case isFalse => exact .steady (.refl s)

theorem sendSynAck_begins (s : Socket) (hstate : s.state = .closed)
    (hflight : s.snd.flightSize.toNat ≤ MAX_FLIGHT_SIZE) :
    Begins (TCP_MIN_MSS ≤ s.snd.smss.toNat) (sendSynAck s).2 := by
  have hsend := tcpSendSegment_level s { syn := true, ack := true } s.snd.iss s.rcv.rcvNxt 0 true
  rw [sendSynAck]
  simp only
  split
  · refine .of_closed ?_
    rw [tcpAbort, hsend.state, hstate]
    rfl
  · refine ⟨by simp, by simp, fun hmss _ => ?_⟩
    rw [tcpChangeState_snd, hsend.smss, SendSide.flightSize, hsend.sndNxt, hsend.sndUna]
    exact ⟨hmss, hflight⟩

theorem acceptConnection_begins (s newSocket : Socket) (queueItem : TcpSynQueueItem) (memory : Bool)
    (iss : UInt32) (hstate : newSocket.state = .closed) :
    Begins (TCP_MIN_MSS ≤ queueItem.mss.toNat) (acceptConnection s newSocket queueItem memory iss).2 := by
  rw [acceptConnection]
  split
  · refine .of_closed ?_
    have hnew : (inheritSettings s newSocket).state = .closed := hstate
    rw [tcpAbort, hnew]
    rfl
  · exact sendSynAck_begins (passiveBlock s (inheritSettings s newSocket) queueItem iss) hstate
      (initialFlight iss)

/-! ## Runs -/

/-- The segment that the step is about. -/
def arriving : Event → Option Segment
  | .segment segment _ => some segment
  | _ => none

/-- The connection request that `tcpAccept` takes was queued by `tcpStateListen`: the segment size is
not below the minimum. -/
def MssQueued : Event → Prop
  | .accept _ _ _ queueItem _ _ => TCP_MIN_MSS ≤ queueItem.mss.toNat
  | _ => True

/-- What a step of a slot can do to the send window. -/
theorem step_move (slot : Slot) (event : Event) (hcalls : ∀ call ∈ slot.calls, call.EndsSending) :
    Move (MssQueued event) slot.socket (arriving event) (step slot event).socket := by
  have hweaken : ∀ {segment : Option Segment} {s' : Socket}, Move True slot.socket segment s' →
      Move (MssQueued event) slot.socket segment s' := by
    intro segment s' h
    cases h with
    | steady h => exact .steady h
    | begins h => exact .begins ⟨h.established, h.closeWait, fun hroom => h.room ⟨trivial, hroom.2⟩⟩
    | completes sgm hsgm h hprobed hroom => exact .completes sgm hsgm h hprobed hroom
  cases event with
  | «open» type port =>
      rw [step]
      split
      · exact .begins (.of_closed rfl)
      · exact .steady (.refl _)
  | accept listener sized port queueItem memory iss =>
      rw [step]
      split
      · have hbegins := acceptConnection_begins listener
          (socketOpen slot.socket .stream port) queueItem memory iss rfl
        exact .begins ⟨hbegins.established, hbegins.closeWait, fun hroom => hbegins.room hroom.1⟩
      · exact .steady (.refl _)
  | setTxBufferSize size =>
      rw [step, socketSetTxBufferSize]
      refine .steady ?_
      simp only
      split_ifs
      · exact .refl _
      · exact .refl _
      · exact Level.steady ⟨rfl, rfl, rfl, rfl, rfl, rfl, rfl⟩
  | setRxBufferSize size =>
      rw [step, socketSetRxBufferSize]
      refine .steady ?_
      simp only
      split_ifs
      · exact .refl _
      · exact .refl _
      · exact Level.steady (.of_snd rfl rfl)
  | connect remoteIpAddr remotePort env =>
      rw [step]
      split
      · rw [endSection_socket]
        exact hweaken (tcpConnect_move slot.socket remoteIpAddr remotePort env)
      · exact .steady (.refl _)
  | listen backlog =>
      rw [step]
      split
      · rw [tcpListen]
        split
        · exact .steady (.refl _)
        · refine .begins ⟨by simp, by simp, fun _ hs => ?_⟩
          rw [tcpChangeState_state] at hs
          cases hs
      · exact .steady (.refl _)
  | dequeue => exact .steady (Level.steady (.of_snd rfl rfl))
  | send data flags =>
      rw [step]
      split
      · rw [endSection_socket]
        exact .steady (tcpSend_steady slot.socket data flags)
      · exact .steady (.refl _)
  | receive size flags =>
      rw [step]
      split
      · rw [endSection_socket]
        exact .steady (tcpReceive_steady slot.socket size flags)
      · exact .steady (.refl _)
  | shutdown how =>
      rw [step]
      split
      · rw [endSection_socket]
        exact .steady (tcpShutdown_steady slot.socket how)
      · exact .steady (.refl _)
  | abort =>
      rw [step]
      split
      · exact .steady (tcpAbort_steady slot.socket)
      · exact .steady (.refl _)
  | resume i missed =>
      rw [step]
      cases hi : slot.calls[i]? with
      | none => exact .steady (.refl _)
      | some call =>
          cases missed with
          | true => exact .steady (.refl _)
          | false =>
              simp only [Bool.false_eq_true, if_false]
              rw [endSection_socket]
              exact .steady (resumeCall_steady slot.socket (hcalls call (List.mem_of_getElem? hi)))
  | segment segment memory =>
      rw [step]
      split
      · exact hweaken (tcpProcessSegment_move slot.socket segment memory)
      · exact .steady (.refl _)
  | tick elapsed =>
      rw [step]
      split
      · exact .steady (tcpTick_steady slot.socket elapsed)
      · exact .steady (.refl _)

/-- A zero window is probed as long as the connection can send. -/
def ProbesZeroWindow (s : Socket) : Prop :=
  s.state = .established ∨ s.state = .closeWait → s.snd.Probed

/-- With a zero window and data to send, the persist timer is running. -/
def ZeroWindowProbed (s : Socket) : Prop :=
  s.state = .established ∨ s.state = .closeWait → 0 < s.snd.sndUser → s.snd.sndWnd = 0 →
    s.snd.persistTimer = true ∧ s.snd.wndProbeInterval ≠ 0

instance (s : Socket) : Decidable (ZeroWindowProbed s) := inferInstanceAs (Decidable (_ → _))

/-- A segment that completes a handshake announces a window, unless the persist timer is still running
from an earlier connection. -/
def OpensWindow (slot : Slot) (event : Event) : Prop :=
  ∀ segment ∈ arriving event, completesHandshake slot.socket segment = true →
    (slot.socket.snd.openWindow segment).Probed

instance (slot : Slot) (event : Event) : Decidable (OpensWindow slot event) :=
  inferInstanceAs (Decidable (∀ _ ∈ arriving event, _ → _))

theorem ProbesZeroWindow.steady {s s' : Socket} (h : Steady s s') (hs : ProbesZeroWindow s) :
    ProbesZeroWindow s' := by
  intro hs'
  refine h.probed (hs ?_)
  rcases hs' with hstate | hstate
  · rcases h.state (by rw [hstate]; rfl) with heq | ⟨-, heq⟩
    · exact .inl (heq.symm.trans hstate)
    · rw [hstate] at heq
      cases heq
  · rcases h.state (by rw [hstate]; rfl) with heq | ⟨heq, -⟩
    · exact .inr (heq.symm.trans hstate)
    · exact .inl heq

/-- What the steps preserve: the calls that wait end sending, and there is room for new data. -/
structure WindowInv (slot : Slot) : Prop where
  calls : ∀ call ∈ slot.calls, call.EndsSending
  room : SendRoom slot.socket

theorem WindowInv.step {slot : Slot} {event : Event} (h : WindowInv slot) (hmss : MssQueued event) :
    WindowInv (step slot event) := by
  refine ⟨step_endsSending slot event h.calls, ?_⟩
  cases step_move slot event h.calls with
  | steady hsteady => exact h.room.steady hsteady
  | begins hbegins => exact hbegins.room ⟨hmss, h.room⟩
  | completes sgm hsgm hcompletes hprobed hroom => exact hroom h.room

theorem windowInv_init (outcomes : ℕ → SendOutcome) : WindowInv (Slot.init outcomes) := by
  refine ⟨fun call hcall => ?_, fun hs => ?_⟩
  · cases hcall
  · cases hs

/-- **There is room for new data** in every state that a run reaches before a FIN is sent. -/
theorem sendRoom_run (outcomes : ℕ → SendOutcome) (events : List Event)
    (h : Along (fun _ event => MssQueued event) step (Slot.init outcomes) events) :
    SendRoom (run step (Slot.init outcomes) events).socket :=
  (run_invariant (fun _ _ hinv hmss => hinv.step hmss) (windowInv_init outcomes) h).room

/-- What the steps that open the window preserve: a zero window is probed. -/
structure ProbeInv (slot : Slot) : Prop where
  calls : ∀ call ∈ slot.calls, call.EndsSending
  probes : ProbesZeroWindow slot.socket

theorem ProbeInv.step {slot : Slot} {event : Event} (h : ProbeInv slot)
    (hopens : OpensWindow slot event) : ProbeInv (step slot event) := by
  refine ⟨step_endsSending slot event h.calls, ?_⟩
  cases step_move slot event h.calls with
  | steady hsteady => exact h.probes.steady hsteady
  | begins hbegins =>
      intro hstate
      rcases hstate with hstate | hstate
      · exact absurd hstate hbegins.established
      · exact absurd hstate hbegins.closeWait
  | completes sgm hsgm hcompletes hprobed hroom =>
      exact fun _ => hprobed (hopens sgm hsgm hcompletes)

theorem probeInv_init (outcomes : ℕ → SendOutcome) : ProbeInv (Slot.init outcomes) := by
  refine ⟨fun call hcall => ?_, fun hstate => ?_⟩
  · cases hcall
  · rcases hstate with hstate | hstate <;> cases hstate

/-- **Zero windows are probed** in every state that a run reaches, if the segments that complete the
handshakes announce a window. -/
theorem zeroWindowProbed_run (outcomes : ℕ → SendOutcome) (events : List Event)
    (h : Along OpensWindow step (Slot.init outcomes) events) :
    ZeroWindowProbed (run step (Slot.init outcomes) events).socket := by
  have hinv : ProbeInv (run step (Slot.init outcomes) events) :=
    run_invariant (fun _ _ hinv hopens => hinv.step hopens) (probeInv_init outcomes) h
  exact fun hstate _ hwnd => hinv.probes hstate hwnd

/-- A connection is opened to a peer that announces `window`, and a byte is written. -/
def openAndSend (window : UInt16) : List Event :=
  .open .stream 49152 :: handshake 100 500 window ++ [.send [7] {}]

/-- The window is opened, then closed by an ACK, and another byte is written. -/
def closedWindow : List Event :=
  openAndSend 100 ++
    [.segment (.ofData { ack := true } 501 102 0 [] noData_lt) true, .send [8] {}]

theorem zeroWindowProbed_run_closedWindow :
    let s := (run step (Slot.init fun _ => {}) closedWindow).socket
    s.state = .established ∧ s.snd.sndUser = 1 ∧ s.snd.sndWnd = 0 ∧ ZeroWindowProbed s :=
  ⟨by decide, by decide, by decide, zeroWindowProbed_run _ _ (by decide)⟩

/-- A window that is zero from the beginning is not probed. -/
theorem zeroWindow_not_probed :
    ¬ ∀ (outcomes : ℕ → SendOutcome) (events : List Event),
      ZeroWindowProbed (run step (Slot.init outcomes) events).socket := by
  intro h
  have hprobed := h (fun _ => {}) (openAndSend 0) (.inl (by decide)) (by decide) (by decide)
  exact absurd hprobed (by decide)

end Tcp
