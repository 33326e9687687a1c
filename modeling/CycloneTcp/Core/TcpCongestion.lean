import CycloneTcp.Core.TcpAccounting
import CycloneTcp.Core.TcpWindows
import CycloneTcp.Lib.Congestion

set_option autoImplicit false

/-! # Congestion control

The control block keeps the window of a sender in 16-bit fields. The functions that inflate and
deflate it, `tcpCheckAck` with its helpers and the retransmission timer, do what
`Congestion.Sender.step` does with natural numbers as long as the fields have room
(`tcpCheckAck_sender`). -/

namespace Tcp

/-! ## The sender of a control block -/

def TcpCongestState.phase : TcpCongestState → Congestion.Phase
  | .idle => .idle
  | .recovery => .recovery
  | .lossRecovery => .lossRecovery

/-- The sender whose window the control block keeps. -/
def SendSide.sender (snd : SendSide) : Congestion.Sender :=
  { mss := snd.smss.toNat, size := snd.txBufferSize, cwnd := snd.cwnd.toNat
    ssthresh := snd.ssthresh.toNat, phase := snd.congestState.phase }

/-- The constants of the stack. -/
def congestionConfig : Congestion.Config :=
  { threshold := TCP_FAST_RETRANSMIT_THRES, lossWindow := TCP_LOSS_WINDOW
    lossWindow_pos := by decide }

/-- The 16-bit fields have room for what the window is inflated to. -/
structure Fits (sender : Congestion.Sender) (flight : ℕ) : Prop where
  growth : sender.cwnd + sender.mss < 2 ^ 16
  loss : sender.halved flight + TCP_FAST_RETRANSMIT_THRES * sender.mss < 2 ^ 16

/-- What an ACK tells the congestion control. -/
def SendSide.ackEvent (snd : SendSide) (segment : Segment) : Option Congestion.Event :=
  if segment.flags.ack = false then none
  else if tcpCmpSeq segment.ackNum snd.sndUna < 0 then none
  else if 0 < tcpCmpSeq segment.ackNum snd.sndNxt then none
  else
    let duplicateFlag := tcpIsDuplicateAck snd segment
    let snd := tcpUpdateSendWindow snd segment
    if 0 < tcpCmpSeq segment.ackNum snd.sndUna then
      let (updateFlag, taken) := snd.takeAck segment.ackNum
      some (.newAck (snd.bytesAcked segment.ackNum).toNat
        (0 < tcpCmpSeq segment.ackNum taken.recover)
        (if updateFlag then some taken.n.toNat else none))
    else
      let dupAckCount := if duplicateFlag then snd.dupAckCount + 1 else 0
      some (.oldAck duplicateFlag
        (dupAckThreshold snd ≤ dupAckCount.toNat ∧ 0 < tcpCmpSeq segment.ackNum (snd.recover + 1))
        snd.flightSize.toNat)

/-! ## The updates of the window -/

theorem limitCwnd_sender (snd : SendSide) : snd.limitCwnd.sender = snd.sender.limit := by
  have hmin : (UInt16.ofNat (min snd.cwnd.toNat snd.txBufferSize)).toNat
      = min snd.cwnd.toNat snd.txBufferSize :=
    UInt16.toNat_ofNat_of_lt' (lt_of_le_of_lt (min_le_left _ _) snd.cwnd.toNat_lt)
  simp only [SendSide.sender, SendSide.limitCwnd, Congestion.Sender.limit, hmin]

theorem halved_toNat {snd : SendSide} (h : Fits snd.sender snd.flightSize.toNat) :
    (UInt16.ofNat (max (snd.flightSize.toNat / 2) (2 * snd.smss.toNat))).toNat
      = snd.sender.halved snd.flightSize.toNat :=
  UInt16.toNat_ofNat_of_lt' (lt_of_le_of_lt (Nat.le_add_right _ _) h.loss)

theorem tcpFastRetransmit_sender {s : Socket} (h : Fits s.snd.sender s.snd.flightSize.toNat) :
    (tcpFastRetransmit s).snd.sender
      = s.snd.sender.enterRecovery congestionConfig s.snd.flightSize.toNat := by
  have hhalved := halved_toNat h
  have hcwnd : (UInt16.ofNat (s.snd.sender.halved s.snd.flightSize.toNat
      + TCP_FAST_RETRANSMIT_THRES * s.snd.smss.toNat)).toNat
      = s.snd.sender.halved s.snd.flightSize.toNat + TCP_FAST_RETRANSMIT_THRES * s.snd.smss.toNat :=
    UInt16.toNat_ofNat_of_lt' h.loss
  rw [tcpFastRetransmit]
  simp only [tcpRetransmitSegment, SendSide.sender, hhalved] at hcwnd ⊢
  rw [hcwnd]
  rfl

/-- The sum of two words that fits. -/
theorem add_toNat_of_lt {a b : UInt16} (h : a.toNat + b.toNat < 2 ^ 16) :
    (a + b).toNat = a.toNat + b.toNat := by
  rw [UInt16.toNat_add]
  exact Nat.mod_eq_of_lt h

theorem tcpFastRecovery_sender {s : Socket} (segment : Segment) (n : UInt32)
    (hgrowth : s.snd.sender.cwnd + s.snd.sender.mss < 2 ^ 16)
    (hstate : s.snd.congestState = .recovery) :
    (tcpFastRecovery s segment n).snd.sender
      = if 0 < tcpCmpSeq segment.ackNum s.snd.recover then s.snd.sender.leaveRecovery
        else s.snd.sender.deflate n.toNat := by
  rw [tcpFastRecovery]
  split
  · rfl
  -- what is acknowledged does not empty the window
  have hdeflate : (if n.toNat < s.snd.cwnd.toNat then s.snd.cwnd - n.toUInt16 else s.snd.cwnd).toNat
      = if n.toNat < s.snd.cwnd.toNat then s.snd.cwnd.toNat - n.toNat else s.snd.cwnd.toNat := by
    split
    case isTrue hlt =>
      have hword : n.toUInt16.toNat = n.toNat := by
        have := s.snd.cwnd.toNat_lt
        rw [UInt32.toNat_toUInt16]
        omega
      rw [UInt16.toNat_sub_of_le _ _ (by rw [UInt16.le_iff_toNat_le]; omega), hword]
    case isFalse => rfl
  have hsnd : (tcpRetransmitSegment s).snd = s.snd := rfl
  generalize tcpRetransmitSegment s = s' at hsnd ⊢
  simp only [hsnd, SendSide.sender, Congestion.Sender.deflate, hstate,
    TcpCongestState.phase] at hgrowth ⊢
  congr 1
  by_cases hsegment : s.snd.smss.toNat ≤ n.toNat
  · simp only [hsegment, if_true]
    rw [add_toNat_of_lt, hdeflate]
    rw [hdeflate]
    split <;> omega
  · simp only [hsegment, if_false]
    rw [hdeflate, Nat.add_zero]

theorem tcpFastLossRecovery_sender (s : Socket) (segment : Segment) :
    (tcpFastLossRecovery s segment).snd.sender = { s.snd.sender with
      phase := if 0 < tcpCmpSeq segment.ackNum s.snd.recover then .idle else .lossRecovery } := by
  rw [tcpFastLossRecovery]
  split <;> rfl

theorem growCwnd_sender {snd : SendSide} (n : UInt32) (updateFlag : Bool)
    (hgrowth : snd.sender.cwnd + snd.sender.mss < 2 ^ 16) :
    (snd.growCwnd n updateFlag).sender
      = snd.sender.grow n.toNat (if updateFlag then some snd.n.toNat else none) := by
  have hadd : ∀ k : ℕ, (snd.cwnd + UInt16.ofNat (min k snd.smss.toNat)).toNat
      = snd.cwnd.toNat + min k snd.smss.toNat := by
    intro k
    have hmin : (UInt16.ofNat (min k snd.smss.toNat)).toNat = min k snd.smss.toNat :=
      UInt16.toNat_ofNat_of_lt' (lt_of_le_of_lt (min_le_right _ _) snd.smss.toNat_lt)
    rw [add_toNat_of_lt, hmin]
    rw [hmin]
    exact lt_of_le_of_lt (Nat.add_le_add_left (min_le_right _ _) _) hgrowth
  by_cases hslow : snd.cwnd < snd.ssthresh
  · simp [SendSide.growCwnd, SendSide.sender, Congestion.Sender.grow, hslow, hadd,
      UInt16.lt_iff_toNat_lt.1 hslow]
  · have hslow' : ¬ snd.cwnd.toNat < snd.ssthresh.toNat := fun h =>
      hslow (UInt16.lt_iff_toNat_lt.2 h)
    cases updateFlag <;>
      simp [SendSide.growCwnd, SendSide.sender, Congestion.Sender.grow, hslow, hslow', hadd]

theorem congestionOnAck_sender {s : Socket} (segment : Segment) (n : UInt32) (updateFlag : Bool)
    (hgrowth : s.snd.sender.cwnd + s.snd.sender.mss < 2 ^ 16) :
    (congestionOnAck s segment n updateFlag).snd.sender
      = s.snd.sender.onNewAck n.toNat (0 < tcpCmpSeq segment.ackNum s.snd.recover)
          (if updateFlag then some s.snd.n.toNat else none) := by
  rw [congestionOnAck, Congestion.Sender.onNewAck]
  by_cases hrecovery : s.snd.congestState = .recovery
  · have hphase : s.snd.sender.phase = .recovery := congrArg TcpCongestState.phase hrecovery
    rw [if_pos hrecovery, hphase, tcpFastRecovery_sender segment n hgrowth hrecovery]
    simp
  rw [if_neg hrecovery]
  obtain ⟨s', hs'⟩ : ∃ s' : Socket, s' = { s with snd := { s.snd with dupAckCount := 0 } } :=
    ⟨_, rfl⟩
  have hsender : s'.snd.sender = s.snd.sender := by rw [hs']; rfl
  have hrecover : s'.snd.recover = s.snd.recover := by rw [hs']
  have hn : s'.snd.n = s.snd.n := by rw [hs']
  simp only
  rw [← hs']
  clear hs'
  by_cases hloss : s.snd.congestState = .lossRecovery
  · have hphase : s.snd.sender.phase = .lossRecovery := congrArg TcpCongestState.phase hloss
    rw [if_pos hloss, hphase]
    have hfast := tcpFastLossRecovery_sender s' segment
    rw [hsender, hrecover] at hfast
    have hn' : (tcpFastLossRecovery s' segment).snd.n = s.snd.n := by
      rw [tcpFastLossRecovery]
      split <;> exact hn
    rw [growCwnd_sender n updateFlag (by rw [hfast]; exact hgrowth), hfast, hn']
    simp only [decide_eq_true_eq]
  · have hphase : s.snd.sender.phase = .idle := by
      cases hstate : s.snd.congestState with
      | idle => exact congrArg TcpCongestState.phase hstate
      | recovery => exact absurd hstate hrecovery
      | lossRecovery => exact absurd hstate hloss
    rw [if_neg hloss, hphase,
      growCwnd_sender n updateFlag (by rw [hsender]; exact hgrowth), hsender, hn]

theorem congestionOnDupAck_sender {s : Socket} (segment : Segment) (duplicateFlag : Bool)
    (h : Fits s.snd.sender s.snd.flightSize.toNat) :
    (congestionOnDupAck s segment duplicateFlag).snd.sender
      = s.snd.sender.onOldAck congestionConfig duplicateFlag
          (dupAckThreshold s.snd ≤ s.snd.dupAckCount.toNat ∧
            0 < tcpCmpSeq segment.ackNum (s.snd.recover + 1)) s.snd.flightSize.toNat := by
  rw [congestionOnDupAck, Congestion.Sender.onOldAck]
  cases hstate : s.snd.congestState with
  | idle =>
      have hphase : s.snd.sender.phase = .idle := congrArg TcpCongestState.phase hstate
      rw [hphase]
      simp only [decide_eq_true_eq]
      split
      · exact tcpFastRetransmit_sender h
      · rfl
  | recovery =>
      have hphase : s.snd.sender.phase = .recovery := congrArg TcpCongestState.phase hstate
      rw [hphase]
      cases duplicateFlag with
      | true =>
          have hadd : (s.snd.cwnd + s.snd.smss).toNat = s.snd.cwnd.toNat + s.snd.smss.toNat :=
            add_toNat_of_lt h.growth
          simp [SendSide.sender, Congestion.Sender.inflate, hadd]
      | false => rfl
  | lossRecovery =>
      have hphase : s.snd.sender.phase = .lossRecovery := congrArg TcpCongestState.phase hstate
      rw [hphase]

/-! ## Acknowledgments and the timer -/

theorem tcpUpdateSendWindow_sender (snd : SendSide) (segment : Segment) :
    (tcpUpdateSendWindow snd segment).sender = snd.sender ∧
      (tcpUpdateSendWindow snd segment).sndUna = snd.sndUna ∧
      (tcpUpdateSendWindow snd segment).sndNxt = snd.sndNxt := by
  rw [tcpUpdateSendWindow]
  split_ifs <;> exact ⟨rfl, rfl, rfl⟩

theorem tcpComputeRto_sender (snd : SendSide) : (tcpComputeRto snd).2.sender = snd.sender := by
  rw [tcpComputeRto]
  split <;> rfl

theorem tcpUpdateRetransmitQueue_sender (snd : SendSide) :
    (tcpUpdateRetransmitQueue snd).sender = snd.sender := by
  simp only [tcpUpdateRetransmitQueue]
  split_ifs <;> rfl

theorem takeAck_sender (snd : SendSide) (ackNum : UInt32) :
    (snd.takeAck ackNum).2.sender = snd.sender :=
  (tcpUpdateRetransmitQueue_sender _).trans (tcpComputeRto_sender _)

theorem ackNewData_sender (s : Socket) (segment : Segment)
    (hgrowth : s.snd.sender.cwnd + s.snd.sender.mss < 2 ^ 16) :
    let (updateFlag, taken) := s.snd.takeAck segment.ackNum
    (ackNewData s segment).snd.sender = s.snd.sender.step congestionConfig
      (.newAck (s.snd.bytesAcked segment.ackNum).toNat (0 < tcpCmpSeq segment.ackNum taken.recover)
        (if updateFlag then some taken.n.toNat else none)) := by
  have htake := takeAck_sender s.snd segment.ackNum
  rw [ackNewData]
  generalize s.snd.takeAck segment.ackNum = taken at htake ⊢
  simp only [limitCwnd_sender, Congestion.Sender.step]
  rw [congestionOnAck_sender segment _ taken.1 (by rw [htake]; exact hgrowth), htake]

theorem ackNoData_sender (s : Socket) (segment : Segment) (duplicateFlag : Bool)
    (h : Fits s.snd.sender s.snd.flightSize.toNat) :
    let dupAckCount := if duplicateFlag then s.snd.dupAckCount + 1 else 0
    (ackNoData s segment duplicateFlag).snd.sender = s.snd.sender.step congestionConfig
      (.oldAck duplicateFlag
        (dupAckThreshold s.snd ≤ dupAckCount.toNat ∧
          0 < tcpCmpSeq segment.ackNum (s.snd.recover + 1)) s.snd.flightSize.toNat) := by
  intro dupAckCount
  rw [ackNoData]
  simp only [limitCwnd_sender, Congestion.Sender.step]
  exact congrArg _ (congestionOnDupAck_sender
    (s := { s with snd := { s.snd with dupAckCount := dupAckCount } }) segment duplicateFlag h)

theorem enqueue_sender (snd : SendSide) (header : TcpHeader) (length : ℕ) :
    (snd.enqueue header length).sender = snd.sender := by
  simp only [SendSide.enqueue]
  split_ifs <;> rfl

theorem tcpSendSegment_sender (s : Socket) (flags : TcpFlags) (seqNum ackNum : UInt32) (length : ℕ)
    (addToQueue : Bool) :
    (tcpSendSegment s flags seqNum ackNum length addToQueue).2.snd.sender = s.snd.sender := by
  rcases tcpSendSegment_cases s flags seqNum ackNum length addToQueue with ⟨_, -, h⟩ | ⟨_, h⟩
  · rw [h]
  · rw [h]
    cases addToQueue with
    | false => rfl
    | true => exact enqueue_sender _ _ _

/-- **The code does what the sender does**, on every ACK. -/
theorem tcpCheckAck_sender {s : Socket} (segment : Segment)
    (h : Fits s.snd.sender s.snd.flightSize.toNat) :
    (tcpCheckAck s segment).2.snd.sender
      = (s.snd.ackEvent segment).elim s.snd.sender (s.snd.sender.step congestionConfig) := by
  obtain ⟨hsender, huna, hnxt⟩ := tcpUpdateSendWindow_sender s.snd segment
  have hflight : (tcpUpdateSendWindow s.snd segment).flightSize = s.snd.flightSize := by
    rw [SendSide.flightSize, huna, hnxt]
    rfl
  rw [tcpCheckAck, SendSide.ackEvent]
  split
  · rfl
  split
  · rfl
  split
  · exact tcpSendSegment_sender s _ _ _ _ _
  simp only
  split
  · have hnew := ackNewData_sender { s with snd := tcpUpdateSendWindow s.snd segment } segment
      (by rw [hsender]; exact h.growth)
    rw [← hsender]
    exact hnew
  · have hold := ackNoData_sender { s with snd := tcpUpdateSendWindow s.snd segment } segment
      (tcpIsDuplicateAck s.snd segment) (by rw [hsender, hflight]; exact h)
    rw [← hsender]
    exact hold

theorem congestionTimeout_sender {snd : SendSide} (h : Fits snd.sender snd.flightSize.toNat) :
    snd.congestionTimeout.sender = snd.sender.step congestionConfig
      (.timeout (snd.retransmitCount = 0) snd.flightSize.toNat) := by
  have hcwnd : (UInt16.ofNat (min (TCP_LOSS_WINDOW * snd.smss.toNat) snd.txBufferSize)).toNat
      = min (TCP_LOSS_WINDOW * snd.smss.toNat) snd.txBufferSize := by
    refine UInt16.toNat_ofNat_of_lt' (lt_of_le_of_lt (min_le_left _ _) ?_)
    rw [TCP_LOSS_WINDOW, Nat.one_mul]
    exact snd.smss.toNat_lt
  have hhalved := halved_toNat h
  by_cases hfirst : snd.retransmitCount = 0
  · simp only [SendSide.congestionTimeout, hfirst, if_true]
    simp only [SendSide.sender, Congestion.Sender.step, Congestion.Sender.onTimeout, hcwnd]
    congr 1
  · simp only [SendSide.congestionTimeout, hfirst, if_false]
    simp only [SendSide.sender, Congestion.Sender.step, Congestion.Sender.onTimeout, hcwnd]
    congr 1

end Tcp
