import CycloneTcp.Core.TcpAction

set_option autoImplicit false

/-! # Every step is a sequence of actions

One lemma for each function of the source, with the actions it takes and, where the caller goes on,
what it leaves unchanged. -/

namespace Tcp

/-! ## Control segments -/

/-- Only the network has changed, and no FIN was sent. -/
def NetOnly (s s' : Socket) : Prop :=
  ∃ net, s' = { s with net := net } ∧ SendsOnly [] s.state s.net net

namespace NetOnly

variable {s s' : Socket}

theorem refl (s : Socket) : NetOnly s s := ⟨s.net, rfl, .refl _ _ _⟩

theorem keeps (h : NetOnly s s') : Keeps s s' := by
  obtain ⟨net, rfl, hnet⟩ := h
  exact ⟨⟨rfl, rfl, rfl, rfl, rfl, rfl, rfl, rfl, rfl, rfl, rfl, rfl⟩, .refl _,
    hnet.mono (List.nil_subset _)⟩

theorem state (h : NetOnly s s') : s'.state = s.state := h.keeps.same.state

end NetOnly

/-- Changes as in `Keeps`, and no FIN was sent. -/
structure Quiet (s s' : Socket) : Prop where
  same : Socket.Same s s'
  snd : SendSide.Same s.snd s'.snd
  net : SendsOnly [] s.state s.net s'.net

namespace Quiet

variable {s s' : Socket}

theorem keeps (h : Quiet s s') : Keeps s s' := ⟨h.same, h.snd, h.net.mono (List.nil_subset _)⟩

theorem trans {s'' : Socket} (h : Quiet s s') (h' : Quiet s' s'') : Quiet s s'' := by
  refine ⟨h.same.trans h'.same, h.snd.trans h'.snd, h.net.trans ?_⟩
  rw [← h.same.state]
  exact h'.net

/-- What does not change the state can be done after the state has changed. -/
theorem changeState (h : Quiet s s') (next : TcpState) :
    Quiet (tcpChangeState s next) (tcpChangeState s' next) := by
  have hs := h.same
  refine ⟨?_, ?_, ?_⟩
  · simp only [tcpChangeState, hs.state]
    split_ifs
    · exact ⟨hs.type, hs.ownedFlag, hs.interface, hs.localIpAddr, hs.localPort, hs.remoteIpAddr,
        hs.remotePort, rfl, rfl, hs.resetFlag, hs.rcv, by simp only [hs.history]⟩
    · exact ⟨hs.type, hs.ownedFlag, hs.interface, hs.localIpAddr, hs.localPort, hs.remoteIpAddr,
        hs.remotePort, rfl, hs.closedFlag, rfl, hs.rcv, by simp only [hs.history]⟩
    · exact ⟨hs.type, hs.ownedFlag, hs.interface, hs.localIpAddr, hs.localPort, hs.remoteIpAddr,
        hs.remotePort, rfl, hs.closedFlag, hs.resetFlag, hs.rcv,
        by simp only [hs.history, hs.state]⟩
  · simp only [tcpChangeState, hs.state]
    split_ifs <;> exact h.snd
  · obtain ⟨new, hsent, hnew⟩ := h.net
    refine ⟨new, ?_, fun entry hmem hfin => absurd (hnew entry hmem hfin).2 (by simp)⟩
    simp only [tcpChangeState, hs.state]
    split_ifs <;> exact hsent

end Quiet

theorem NetOnly.quiet {s s' : Socket} (h : NetOnly s s') : Quiet s s' := by
  obtain ⟨net, rfl, hnet⟩ := h
  exact ⟨⟨rfl, rfl, rfl, rfl, rfl, rfl, rfl, rfl, rfl, rfl, rfl, rfl⟩, .refl _, hnet⟩

/-- What `tcpSendSegment` does, whether it fails or not. -/
theorem tcpSendSegment_cases (s : Socket) (flags : TcpFlags) (seqNum ackNum : UInt32)
    (length : ℕ) (addToQueue : Bool) :
    (∃ error, error ≠ ErrorCode.noError ∧
      tcpSendSegment s flags seqNum ackNum length addToQueue
        = (error, { s with net := s.net.next })) ∨
    (∃ data, tcpSendSegment s flags seqNum ackNum length addToQueue
      = ((s.net.outcomes 0).ip,
        { s with
          snd := if addToQueue then s.snd.enqueue (s.header flags seqNum ackNum) length else s.snd
          net := s.net.next.send s.state
            { header := s.header flags seqNum ackNum, data := data } })) := by
  by_cases h1 : (s.net.outcomes 0).buffer = false
  · exact .inl ⟨.outOfMemory, by simp, by simp only [tcpSendSegment, if_pos h1]⟩
  by_cases h2 : (s.snd.payload (s.net.outcomes 0).chunks seqNum length).1 ≠ .noError
  · exact .inl ⟨_, h2, by simp only [tcpSendSegment, if_neg h1, if_pos h2]⟩
  by_cases h3 : s.remoteIpAddr = .unspecified
  · exact .inl ⟨.invalidAddress, by simp,
      by simp only [tcpSendSegment, if_neg h1, if_neg h2, if_pos h3]⟩
  by_cases h4 : addToQueue = true ∧ (s.net.outcomes 0).item = false
  · exact .inl ⟨.outOfMemory, by simp,
      by simp only [tcpSendSegment, if_neg h1, if_neg h2, if_neg h3, if_pos h4]⟩
  · exact .inr ⟨(s.snd.payload (s.net.outcomes 0).chunks seqNum length).2.data,
      by simp only [tcpSendSegment, if_neg h1, if_neg h2, if_neg h3, if_neg h4]⟩

theorem sendsOnly_next (fins : List TcpHeader) (state : TcpState) (net : Network) :
    SendsOnly fins state net net.next := ⟨[], by simp [Network.next], by simp⟩

theorem sendsOnly_send {fins : List TcpHeader} {state : TcpState} (net : Network)
    {segment : OutSegment} (h : segment.header.flags.fin = true → segment.header ∈ fins) :
    SendsOnly fins state net (net.next.send state segment) := by
  refine ⟨[(state, segment)], rfl, ?_⟩
  intro entry hmem hfin
  rw [List.mem_singleton] at hmem
  subst hmem
  exact ⟨rfl, h hfin⟩

/-- A segment that is neither queued nor a FIN. -/
theorem tcpSendSegment_netOnly (s : Socket) (flags : TcpFlags) (seqNum ackNum : UInt32)
    (length : ℕ) (hfin : flags.fin = false) :
    NetOnly s (tcpSendSegment s flags seqNum ackNum length false).2 := by
  rcases tcpSendSegment_cases s flags seqNum ackNum length false with ⟨_, -, h⟩ | ⟨data, h⟩
  · rw [h]
    exact ⟨_, rfl, sendsOnly_next _ _ _⟩
  · rw [h]
    refine ⟨_, rfl, sendsOnly_send _ ?_⟩
    intro h'
    simp only [Socket.header, hfin] at h'
    exact absurd h' (by simp)

theorem tcpSendAck_netOnly (s : Socket) : NetOnly s (tcpSendAck s) :=
  tcpSendSegment_netOnly s _ _ _ _ rfl

theorem tcpSendAck_keeps (s : Socket) : Keeps s (tcpSendAck s) := (tcpSendAck_netOnly s).keeps

theorem enqueue_same (snd : SendSide) (header : TcpHeader) (length : ℕ) (item : TcpQueueItem)
    (hitem : item = { header := header, length := length, sacked := false }) :
    SendSide.Same { snd with retransmitQueue := snd.retransmitQueue ++ [item] }
      (snd.enqueue header length) := by
  subst hitem
  simp only [SendSide.enqueue]
  split_ifs <;> exact ⟨rfl, rfl, rfl, rfl, rfl, rfl, rfl⟩

/-- The queue item for a segment. -/
def Socket.queueItem (s : Socket) (flags : TcpFlags) (seqNum ackNum : UInt32) (length : ℕ) :
    TcpQueueItem :=
  { header := s.header flags seqNum ackNum, length := length, sacked := false }

/-- A segment that is queued: it is queued if it is sent, and may be queued if sending fails. -/
theorem tcpSendSegment_queued (s : Socket) (flags : TcpFlags) (seqNum ackNum : UInt32)
    (length : ℕ) (hfin : flags.fin = true → s.state ≠ .closed) :
    let r := tcpSendSegment s flags seqNum ackNum length true
    Keeps (s.addItem (s.queueItem flags seqNum ackNum length)) r.2 ∨
      (r.1 ≠ .noError ∧ Keeps s r.2) := by
  intro r
  rcases tcpSendSegment_cases s flags seqNum ackNum length true with ⟨error, herror, h⟩ |
    ⟨data, h⟩
  · right
    have hr : r = (error, { s with net := s.net.next }) := h
    rw [hr]
    exact ⟨herror, NetOnly.keeps ⟨_, rfl, sendsOnly_next _ _ _⟩⟩
  · left
    simp only [r, h, if_true]
    refine ⟨⟨rfl, rfl, rfl, rfl, rfl, rfl, rfl, rfl, rfl, rfl, rfl, rfl⟩,
      enqueue_same s.snd _ length _ rfl, ?_⟩
    apply sendsOnly_send
    intro hf
    have hne : s.state ≠ .closed := hfin hf
    rw [if_neg (show ¬ (s.addItem _).state = .closed from hne)]
    simp [Socket.addItem, Socket.queueItem]

/-- The same of a segment without FIN. -/
theorem tcpSendSegment_queued_quiet (s : Socket) (flags : TcpFlags) (seqNum ackNum : UInt32)
    (length : ℕ) (hfin : flags.fin = false) :
    let r := tcpSendSegment s flags seqNum ackNum length true
    Quiet (s.addItem (s.queueItem flags seqNum ackNum length)) r.2 ∨
      (r.1 ≠ .noError ∧ Quiet s r.2) := by
  intro r
  rcases tcpSendSegment_cases s flags seqNum ackNum length true with ⟨error, herror, h⟩ |
    ⟨data, h⟩
  · right
    have hr : r = (error, { s with net := s.net.next }) := h
    rw [hr]
    exact ⟨herror, NetOnly.quiet ⟨_, rfl, sendsOnly_next _ _ _⟩⟩
  · left
    simp only [r, h, if_true]
    refine ⟨⟨rfl, rfl, rfl, rfl, rfl, rfl, rfl, rfl, rfl, rfl, rfl, rfl⟩,
      enqueue_same s.snd _ length _ rfl, ?_⟩
    apply sendsOnly_send
    intro hf
    simp [Socket.header, hfin] at hf

theorem Quiet.addItem {s s' : Socket} (h : Quiet s s') (item : TcpQueueItem) :
    Quiet (s.addItem item) (s'.addItem item) := by
  have hs := h.same
  have hq := h.snd
  exact ⟨⟨hs.type, hs.ownedFlag, hs.interface, hs.localIpAddr, hs.localPort, hs.remoteIpAddr,
      hs.remotePort, hs.state, hs.closedFlag, hs.resetFlag, hs.rcv, hs.history⟩,
    ⟨hq.iss, hq.sndUna, hq.sndNxt, hq.sndUser, hq.txBuffer, hq.txBufferSize,
      by simp only [Socket.addItem, hq.retransmitQueue]⟩, h.net⟩

/-! ## Retransmission -/

theorem retransmitLoop_sendsOnly (state : TcpState) (snd : SendSide) (net : Network) (length : ℕ)
    (queue : List TcpQueueItem) :
    SendsOnly (queue.map (·.header)) state net
      (retransmitLoop state snd net length queue).2 := by
  induction queue generalizing net length with
  | nil => exact .refl _ _ _
  | cons item queue ih =>
      simp only [retransmitLoop]
      split_ifs
      · exact .refl _ _ _
      · exact sendsOnly_next _ _ _
      · exact sendsOnly_next _ _ _
      · exact sendsOnly_next _ _ _
      · exact sendsOnly_send _ fun _ => by simp
      · refine (sendsOnly_send _ fun _ => ?_).trans ((ih _ _).mono ?_)
        · simp
        · intro header hmem
          simp only [List.map_cons]
          exact List.mem_cons_of_mem _ hmem

theorem tcpRetransmitSegment_keeps (s : Socket) (h : s.state ≠ .closed) :
    Keeps s (tcpRetransmitSegment s) := by
  refine ⟨⟨rfl, rfl, rfl, rfl, rfl, rfl, rfl, rfl, rfl, rfl, rfl, rfl⟩, .refl _, ?_⟩
  rw [if_neg h]
  exact retransmitLoop_sendsOnly _ _ _ _ _

/-- A change of the send side that the data of the connection does not depend on. -/
theorem keeps_snd (s : Socket) {snd : SendSide} (h : SendSide.Same s.snd snd) :
    Keeps s { s with snd := snd } :=
  ⟨⟨rfl, rfl, rfl, rfl, rfl, rfl, rfl, rfl, rfl, rfl, rfl, rfl⟩, h, .refl _ _ _⟩

theorem keeps_of {s s' : Socket} (hsame : Socket.Same s s') (hsnd : SendSide.Same s.snd s'.snd)
    (hnet : s'.net = s.net) : Keeps s s' :=
  ⟨hsame, hsnd, by rw [hnet]; exact .refl _ _ _⟩

theorem quiet_of {s s' : Socket} (hsame : Socket.Same s s') (hsnd : SendSide.Same s.snd s'.snd)
    (hnet : s'.net = s.net) : Quiet s s' :=
  ⟨hsame, hsnd, by rw [hnet]; exact .refl _ _ _⟩

theorem keeps_timeWaitTimer (s : Socket) (running : Bool) :
    Keeps s { s with timeWaitTimer := running } :=
  keeps_of ⟨rfl, rfl, rfl, rfl, rfl, rfl, rfl, rfl, rfl, rfl, rfl, rfl⟩ (.refl _) rfl

/-! ## Acknowledgments -/

theorem tcpUpdateSendWindow_same (snd : SendSide) (segment : Segment) :
    SendSide.Same snd (tcpUpdateSendWindow snd segment) := by
  simp only [tcpUpdateSendWindow]
  split_ifs <;> exact ⟨rfl, rfl, rfl, rfl, rfl, rfl, rfl⟩

theorem tcpComputeRto_same (snd : SendSide) : SendSide.Same snd (tcpComputeRto snd).2 := by
  rw [tcpComputeRto]
  split <;> exact ⟨rfl, rfl, rfl, rfl, rfl, rfl, rfl⟩

theorem tcpUpdateRetransmitQueue_same (snd : SendSide) :
    SendSide.Same { snd with
      retransmitQueue := snd.retransmitQueue.filter (fun item => !acknowledged snd.sndUna item) }
      (tcpUpdateRetransmitQueue snd) := by
  simp only [tcpUpdateRetransmitQueue]
  split <;> exact ⟨rfl, rfl, rfl, rfl, rfl, rfl, rfl⟩

/-- Filtering the queue commutes with changes that do not matter. -/
theorem SendSide.Same.filter {snd snd' : SendSide} (h : SendSide.Same snd snd') :
    SendSide.Same { snd with
      retransmitQueue := snd.retransmitQueue.filter (fun item => !acknowledged snd.sndUna item) }
      { snd' with
        retransmitQueue :=
          snd'.retransmitQueue.filter (fun item => !acknowledged snd'.sndUna item) } :=
  ⟨h.iss, h.sndUna, h.sndNxt, h.sndUser, h.txBuffer, h.txBufferSize,
    by rw [h.retransmitQueue, h.sndUna]⟩

theorem takeAck_same (s : Socket) (ackNum : UInt32) :
    SendSide.Same (s.ackTo ackNum).snd (s.snd.takeAck ackNum).2 := by
  have hset : SendSide.Same { s.snd with sndUna := ackNum }
      { s.snd with n := s.snd.n + s.snd.bytesAcked ackNum, sndUna := ackNum } :=
    ⟨rfl, rfl, rfl, rfl, rfl, rfl, rfl⟩
  exact (hset.trans (tcpComputeRto_same _)).filter.trans (tcpUpdateRetransmitQueue_same _)

theorem growCwnd_same (snd : SendSide) (n : UInt32) (updateFlag : Bool) :
    SendSide.Same snd (snd.growCwnd n updateFlag) := by
  simp only [SendSide.growCwnd]
  split_ifs <;> exact ⟨rfl, rfl, rfl, rfl, rfl, rfl, rfl⟩

theorem limitCwnd_keeps (s : Socket) : Keeps s { s with snd := s.snd.limitCwnd } :=
  keeps_snd s ⟨rfl, rfl, rfl, rfl, rfl, rfl, rfl⟩

theorem tcpFastRetransmit_keeps (s : Socket) (h : s.state ≠ .closed) :
    Keeps s (tcpFastRetransmit s) := by
  have hset : Keeps s { s with snd := { s.snd with
      ssthresh := UInt16.ofNat (max (s.snd.flightSize.toNat / 2) (2 * s.snd.smss.toNat))
      recover := s.snd.sndNxt - 1 } } := keeps_snd s ⟨rfl, rfl, rfl, rfl, rfl, rfl, rfl⟩
  exact (hset.trans (tcpRetransmitSegment_keeps _ h)).trans
    (keeps_snd _ ⟨rfl, rfl, rfl, rfl, rfl, rfl, rfl⟩)

theorem tcpFastRecovery_keeps (s : Socket) (segment : Segment) (n : UInt32)
    (h : s.state ≠ .closed) : Keeps s (tcpFastRecovery s segment n) := by
  simp only [tcpFastRecovery]
  split
  · exact keeps_snd s ⟨rfl, rfl, rfl, rfl, rfl, rfl, rfl⟩
  · refine (tcpRetransmitSegment_keeps s h).trans ?_
    exact keeps_snd _ ⟨rfl, rfl, rfl, rfl, rfl, rfl, rfl⟩

theorem tcpFastLossRecovery_keeps (s : Socket) (segment : Segment) (h : s.state ≠ .closed) :
    Keeps s (tcpFastLossRecovery s segment) := by
  simp only [tcpFastLossRecovery]
  split
  · exact keeps_snd s ⟨rfl, rfl, rfl, rfl, rfl, rfl, rfl⟩
  · refine (tcpRetransmitSegment_keeps s h).trans ?_
    exact keeps_snd _ ⟨rfl, rfl, rfl, rfl, rfl, rfl, rfl⟩

theorem congestionOnAck_keeps (s : Socket) (segment : Segment) (n : UInt32) (updateFlag : Bool)
    (h : s.state ≠ .closed) : Keeps s (congestionOnAck s segment n updateFlag) := by
  simp only [congestionOnAck]
  split
  · exact tcpFastRecovery_keeps s segment n h
  · have hreset : Keeps s { s with snd := { s.snd with dupAckCount := 0 } } :=
      keeps_snd s ⟨rfl, rfl, rfl, rfl, rfl, rfl, rfl⟩
    split
    · refine (hreset.trans (tcpFastLossRecovery_keeps _ segment h)).trans ?_
      exact keeps_snd _ (growCwnd_same _ _ _)
    · exact hreset.trans (keeps_snd _ (growCwnd_same _ _ _))

theorem ackNewData_keeps (s : Socket) (segment : Segment) (h : s.state ≠ .closed) :
    Keeps (s.ackTo segment.ackNum) (ackNewData s segment) := by
  simp only [ackNewData]
  have htake : Keeps (s.ackTo segment.ackNum) { s with snd := (s.snd.takeAck segment.ackNum).2 } :=
    keeps_snd _ (takeAck_same s segment.ackNum)
  exact (htake.trans (congestionOnAck_keeps _ segment _ _ h)).trans (limitCwnd_keeps _)

theorem congestionOnDupAck_keeps (s : Socket) (segment : Segment) (duplicateFlag : Bool)
    (h : s.state ≠ .closed) : Keeps s (congestionOnDupAck s segment duplicateFlag) := by
  simp only [congestionOnDupAck]
  split
  · split
    · exact tcpFastRetransmit_keeps s h
    · exact .refl s
  · split
    · exact keeps_snd s ⟨rfl, rfl, rfl, rfl, rfl, rfl, rfl⟩
    · exact .refl s
  · exact .refl s

theorem ackNoData_keeps (s : Socket) (segment : Segment) (duplicateFlag : Bool)
    (h : s.state ≠ .closed) : Keeps s (ackNoData s segment duplicateFlag) := by
  have hcount : Keeps s { s with snd := { s.snd with
      dupAckCount := if duplicateFlag then s.snd.dupAckCount + 1 else 0 } } :=
    keeps_snd s ⟨rfl, rfl, rfl, rfl, rfl, rfl, rfl⟩
  exact (hcount.trans (congestionOnDupAck_keeps _ segment duplicateFlag h)).trans
    (limitCwnd_keeps _)

/-- An ACK acknowledges data that has been sent, or nothing. -/
theorem tcpCheckAck_cases (s : Socket) (segment : Segment) (h : s.state ≠ .closed) :
    Keeps s (tcpCheckAck s segment).2 ∨
      (0 < tcpCmpSeq segment.ackNum s.snd.sndUna ∧ tcpCmpSeq segment.ackNum s.snd.sndNxt ≤ 0 ∧
        Keeps (s.ackTo segment.ackNum) (tcpCheckAck s segment).2) := by
  simp only [tcpCheckAck]
  have hwindow : Keeps s { s with snd := tcpUpdateSendWindow s.snd segment } :=
    keeps_snd s (tcpUpdateSendWindow_same s.snd segment)
  split
  · exact .inl (.refl s)
  · split
    · exact .inl (.refl s)
    · split
      · exact .inl (tcpSendAck_keeps s)
      case isFalse hnxt =>
        rw [(tcpUpdateSendWindow_same s.snd segment).sndUna]
        split
        case isTrue huna =>
          refine .inr ⟨huna, not_lt.1 hnxt, ?_⟩
          refine Keeps.trans ?_ (ackNewData_keeps _ segment h)
          have hsame := tcpUpdateSendWindow_same s.snd segment
          refine keeps_snd (s.ackTo segment.ackNum) ⟨hsame.iss, rfl, hsame.sndNxt, hsame.sndUser,
            hsame.txBuffer, hsame.txBufferSize, ?_⟩
          simp only [Socket.ackTo, hsame.retransmitQueue]
        case isFalse => exact .inl (hwindow.trans (ackNoData_keeps _ segment _ h))

theorem tcpCheckAck_ack {s : Socket} {segment : Segment}
    (h : (tcpCheckAck s segment).1 = .noError) : segment.flags.ack = true := by
  by_contra hack
  rw [tcpCheckAck, if_pos (by simpa using hack)] at h
  simp at h

variable {R : TcpState → Bool → Prop} {K : Remains} {O : Prop}

theorem tcpCheckAck_acts (s : Socket) (segment : Segment) (h : s.state ≠ .closed) :
    Acts R K O s (tcpCheckAck s segment).2 ∧ Socket.Same s (tcpCheckAck s segment).2 ∧
      (tcpCheckAck s segment).2.snd.sndNxt = s.snd.sndNxt := by
  rcases tcpCheckAck_cases s segment h with hkeep | ⟨huna, hnxt, hkeep⟩
  · exact ⟨hkeep.acts, hkeep.same, hkeep.snd.sndNxt⟩
  · refine ⟨(Relation.ReflTransGen.single (.ack s _ huna hnxt)).tail (.keep hkeep), ?_,
      hkeep.snd.sndNxt⟩
    have hack : Socket.Same s (s.ackTo segment.ackNum) :=
      ⟨rfl, rfl, rfl, rfl, rfl, rfl, rfl, rfl, rfl, rfl, rfl, rfl⟩
    exact hack.trans hkeep.same

/-! ## Sending data -/

theorem Keeps.advance {s s' : Socket} (h : Keeps s s') (n : ℕ) :
    Keeps (s.advance n) (s'.advance n) := by
  refine ⟨?_, ?_, h.net⟩
  · have hs := h.same
    exact ⟨hs.type, hs.ownedFlag, hs.interface, hs.localIpAddr, hs.localPort, hs.remoteIpAddr,
      hs.remotePort, hs.state, hs.closedFlag, hs.resetFlag, hs.rcv, hs.history⟩
  · have hs := h.snd
    refine ⟨hs.iss, hs.sndUna, ?_, ?_, hs.txBuffer, hs.txBufferSize, hs.retransmitQueue⟩
    · simp only [Socket.advance, SendSide.advance, hs.sndNxt]
    · simp only [Socket.advance, SendSide.advance, hs.sndUser]

theorem advance_same (s : Socket) (item : TcpQueueItem) (n : ℕ) :
    Socket.Same s ((s.addItem item).advance n) :=
  ⟨rfl, rfl, rfl, rfl, rfl, rfl, rfl, rfl, rfl, rfl, rfl, rfl⟩

theorem addItem_same (s : Socket) (item : TcpQueueItem) : Socket.Same s (s.addItem item) :=
  ⟨rfl, rfl, rfl, rfl, rfl, rfl, rfl, rfl, rfl, rfl, rfl, rfl⟩

theorem sendLoop_acts (sends : SendSide → UInt32 → ℕ → Bool) (fuel : ℕ) (u : UInt32)
    (s : Socket) (hstate : s.state = .established ∨ s.state = .closeWait) :
    Acts R K O s (sendLoop sends fuel u s).2 ∧ Socket.Same s (sendLoop sends fuel u s).2 := by
  induction fuel generalizing u s with
  | zero => exact ⟨.refl, .refl s⟩
  | succ fuel ih =>
      rw [sendLoop]
      split
      · exact ⟨.refl, .refl s⟩
      simp only
      split
      case isFalse => exact ⟨.refl, .refl s⟩
      case isTrue =>
        generalize hn : min (min u.toNat s.snd.sndUser.toNat) s.snd.smss.toNat = n
        have hle : n ≤ s.snd.sndUser.toNat := by omega
        have hqueued := tcpSendSegment_queued s { psh := true, ack := true } s.snd.sndNxt
          s.rcv.rcvNxt n (by simp)
        simp only at hqueued
        generalize tcpSendSegment s { psh := true, ack := true } s.snd.sndNxt s.rcv.rcvNxt n
          true = r at hqueued ⊢
        obtain ⟨error, s'⟩ := r
        split
        case isTrue herror =>
          rcases hqueued with hkeep | ⟨-, hkeep⟩
          · refine ⟨?_, (addItem_same s _).trans hkeep.same⟩
            exact (Relation.ReflTransGen.single
              (.sendData s _ false hstate rfl rfl rfl hle)).tail (.keep hkeep)
          · exact ⟨hkeep.acts, hkeep.same⟩
        case isFalse herror =>
          rcases hqueued with hkeep | ⟨hne, -⟩
          · have hkeep' := hkeep.advance n
            have hsame : Socket.Same s { s' with snd := s'.snd.advance n } :=
              (advance_same s _ n).trans hkeep'.same
            have hrest := ih (u - UInt32.ofNat n) { s' with snd := s'.snd.advance n }
              (by rwa [hsame.state])
            refine ⟨?_, hsame.trans hrest.2⟩
            refine Relation.ReflTransGen.trans ?_ hrest.1
            exact (Relation.ReflTransGen.single
              (.sendData s _ true hstate rfl rfl rfl hle)).tail (.keep hkeep')
          · exact absurd hne herror

theorem tcpNagleAlgo_acts (s : Socket) (flags : SocketFlags)
    (hstate : s.state = .established ∨ s.state = .closeWait) :
    Acts R K O s (tcpNagleAlgo s flags).2 ∧ Socket.Same s (tcpNagleAlgo s flags).2 :=
  sendLoop_acts _ _ _ s hstate

theorem sendPending_acts (s : Socket) (hstate : s.state = .established ∨ s.state = .closeWait) :
    Acts R K O s (sendPending s) := (tcpNagleAlgo_acts s _ hstate).1

/-! ## Incoming segments -/

theorem tcpCheckSequenceNumber_cases (s : Socket) (segment : Segment) :
    (acceptable s.rcv segment = true ∧ tcpCheckSequenceNumber s segment = (.noError, s)) ∨
      ∃ s', tcpCheckSequenceNumber s segment = (.failure, s') ∧ NetOnly s s' := by
  by_cases hacc : acceptable s.rcv segment = true
  · exact .inl ⟨hacc, by rw [tcpCheckSequenceNumber, if_pos hacc]⟩
  · refine .inr ⟨_, by rw [tcpCheckSequenceNumber, if_neg hacc], ?_⟩
    split
    · exact .refl s
    · exact tcpSendAck_netOnly s

theorem tcpCheckSyn_cases (s : Socket) (segment : Segment) :
    (segment.flags.syn = false ∧ tcpCheckSyn s segment = (.noError, s)) ∨
      ∃ s', tcpCheckSyn s segment = (.failure, s') ∧ NetOnly s s' := by
  rw [tcpCheckSyn]
  by_cases hsyn : segment.flags.syn = true
  · rw [if_pos hsyn]
    split
    · exact .inr ⟨_, rfl, tcpSendSegment_netOnly s _ _ _ _ rfl⟩
    · exact .inr ⟨_, rfl, tcpSendSegment_netOnly s _ _ _ _ rfl⟩
  · rw [if_neg hsyn]
    exact .inl ⟨Bool.eq_false_of_not_eq_true hsyn, rfl⟩

/-- A segment is dropped, resets the connection or is processed. -/
theorem checkSegment_cases (s : Socket) (segment : Segment)
    (checkAck : Socket → Segment → ErrorCode × Socket) (process : Socket → Socket) :
    NetOnly s (checkSegment s segment checkAck process) ∨
      (acceptable s.rcv segment = true ∧ segment.flags.rst = true ∧
        checkSegment s segment checkAck process = tcpChangeState s .closed) ∨
      (acceptable s.rcv segment = true ∧ segment.flags.rst = false ∧ segment.flags.syn = false ∧
        checkSegment s segment checkAck process
          = if (checkAck s segment).1 ≠ .noError then (checkAck s segment).2
            else process (checkAck s segment).2) := by
  rw [checkSegment]
  rcases tcpCheckSequenceNumber_cases s segment with ⟨hacc, hseq⟩ | ⟨s', hseq, hnet⟩
  · rw [hseq]
    simp only [ne_eq, not_true_eq_false, if_false]
    by_cases hrst : segment.flags.rst = true
    · rw [if_pos hrst]
      exact .inr (.inl ⟨hacc, hrst, rfl⟩)
    · rw [if_neg hrst]
      rcases tcpCheckSyn_cases s segment with ⟨hflag, hsyn⟩ | ⟨s', hsyn, hnet⟩
      · rw [hsyn]
        exact .inr (.inr ⟨hacc, Bool.eq_false_of_not_eq_true hrst, hflag, rfl⟩)
      · rw [hsyn]
        exact .inl hnet
  · rw [hseq]
    exact .inl hnet

/-- The segment text changes the receive side and the network only. -/
theorem receiveText_acts (s : Socket) (segment : Segment)
    (hstate : s.state = .established ∨ s.state = .finWait1 ∨ s.state = .finWait2)
    (hacc : acceptable s.rcv segment = true) :
    Acts R K O s (receiveText s segment) ∧
      ∃ rcv, NetOnly { s with rcv := rcv } (receiveText s segment) := by
  rw [receiveText]
  split
  case isTrue hlen =>
    have hnet := tcpSendAck_netOnly { s with rcv := receiveData s.rcv segment }
    exact ⟨(Relation.ReflTransGen.single (.data s segment hstate hacc hlen)).tail
      (.keep hnet.keeps), _, hnet⟩
  case isFalse => exact ⟨.refl, s.rcv, .refl s⟩

theorem receiveFin_netOnly (s : Socket) :
    NetOnly { s with
      rcv := { s.rcv with rcvNxt := s.rcv.rcvNxt + 1 }
      history := { s.history with finReceived := true } } (receiveFin s) :=
  tcpSendAck_netOnly _

theorem receiveFin_acts {s : Socket} {segment : Segment} {next : TcpState}
    (hfin : finInOrder s segment = true)
    (hnext : (s.state = .established ∧ next = .closeWait) ∨
      (s.state = .finWait1 ∧ next = .closing)) :
    Acts R K O s (tcpChangeState (receiveFin s) next) := by
  have hne : next ≠ .timeWait := by
    rcases hnext with ⟨-, rfl⟩ | ⟨-, rfl⟩ <;> simp
  have hact : Act R K O s (s.passFin next) :=
    .fin s segment next hfin (hnext.imp_right .inl)
  have hkeep := ((receiveFin_netOnly s).quiet.changeState next).keeps
  rw [Socket.passFin, if_neg hne] at hact
  exact (Relation.ReflTransGen.single hact).tail (.keep hkeep)

theorem enterTimeWait_keeps {s s' : Socket} (h : NetOnly s s') :
    Keeps (tcpChangeState (tcpDeleteControlBlock s) .timeWait) (enterTimeWait s') := by
  obtain ⟨net, rfl, hnet⟩ := h
  refine ⟨⟨rfl, rfl, rfl, rfl, rfl, rfl, rfl, rfl, rfl, rfl, rfl, rfl⟩,
    ⟨rfl, rfl, rfl, rfl, rfl, rfl, rfl⟩, ?_⟩
  obtain ⟨new, hsent, hnew⟩ := hnet
  exact ⟨new, hsent, fun entry hmem hfin => absurd (hnew entry hmem hfin).2 (by simp)⟩

theorem receiveFin_timeWait_acts {s : Socket} {segment : Segment}
    (hfin : finInOrder s segment = true) (hstate : s.state = .finWait2) :
    Acts R K O s (enterTimeWait (receiveFin s)) :=
  (Relation.ReflTransGen.single
    (.fin s segment .timeWait hfin (.inr (.inr ⟨hstate, rfl⟩)))).tail
    (.keep (enterTimeWait_keeps (receiveFin_netOnly s)))

/-- `checkSegment` with `tcpCheckAck`: what is left is the processing of an acceptable ACK. -/
theorem checkSegment_tcpCheckAck_acts {s : Socket} {segment : Segment} {process : Socket → Socket}
    (hstate : s.state ≠ .closed)
    (hreset : segment.flags.rst = true → acceptable s.rcv segment = true →
      R s.state s.history.finAcked)
    (hprocess : ∀ s', Socket.Same s s' → s'.snd.sndNxt = s.snd.sndNxt →
      acceptable s.rcv segment = true → segment.flags.ack = true → Acts R K O s' (process s')) :
    Acts R K O s (checkSegment s segment tcpCheckAck process) := by
  rcases checkSegment_cases s segment tcpCheckAck process with hnet | ⟨hacc, hrst, heq⟩ |
    ⟨hacc, -, -, heq⟩
  · exact hnet.keeps.acts
  · rw [heq]
    exact .single (.reset s (hreset hrst hacc))
  · rw [heq]
    obtain ⟨hacts, hsame, hnxt⟩ := tcpCheckAck_acts (R := R) (K := K) (O := O) s segment hstate
    split
    · exact hacts
    case isFalse herror =>
      exact hacts.trans (hprocess _ hsame hnxt hacc (tcpCheckAck_ack (not_not.1 herror)))

/-- `checkSegment` with the test of the ACK bit. -/
theorem checkSegment_checkAckBit_acts {s : Socket} {segment : Segment} {process : Socket → Socket}
    (hreset : segment.flags.rst = true → acceptable s.rcv segment = true →
      R s.state s.history.finAcked)
    (hprocess : acceptable s.rcv segment = true → segment.flags.ack = true →
      Acts R K O s (process s)) :
    Acts R K O s (checkSegment s segment checkAckBit process) := by
  rcases checkSegment_cases s segment checkAckBit process with hnet | ⟨hacc, hrst, heq⟩ |
    ⟨hacc, -, -, heq⟩
  · exact hnet.keeps.acts
  · rw [heq]
    exact .single (.reset s (hreset hrst hacc))
  · rw [heq]
    split
    · exact .refl
    case isFalse herror =>
      refine hprocess hacc ?_
      by_contra hack
      simp [checkAckBit, hack] at herror

theorem tcpStateEstablished_acts {s : Socket} {segment : Segment}
    (hstate : s.state = .established)
    (hreset : segment.flags.rst = true → acceptable s.rcv segment = true →
      R s.state s.history.finAcked) :
    Acts R K O s (tcpStateEstablished s segment) := by
  refine checkSegment_tcpCheckAck_acts (by rw [hstate]; simp) hreset ?_
  intro s1 hsame hnxt hacc _
  have hstate1 : s1.state = .established := hsame.state.trans hstate
  rw [← hsame.rcv] at hacc
  obtain ⟨htext, rcv, hnet⟩ := receiveText_acts (R := R) (K := K) (O := O) s1 segment (.inl hstate1) hacc
  have hstate2 : (receiveText s1 segment).state = .established := hnet.state.trans hstate1
  refine htext.trans ?_
  simp only
  split
  case isTrue hfin =>
    refine (receiveFin_acts hfin (.inl ⟨hstate2, rfl⟩)).trans (sendPending_acts _ (.inr ?_))
    simp [tcpChangeState]
  case isFalse => exact sendPending_acts _ (.inl hstate2)

theorem tcpStateSynReceived_acts {s : Socket} {segment : Segment}
    (hstate : s.state = .synReceived)
    (hreset : segment.flags.rst = true → acceptable s.rcv segment = true →
      R s.state s.history.finAcked ∧ R .established s.history.finAcked) :
    Acts R K O s (tcpStateSynReceived s segment) := by
  refine checkSegment_checkAckBit_acts (fun hrst hacc => (hreset hrst hacc).1) ?_
  intro hacc hack
  simp only
  split
  · exact (tcpSendSegment_netOnly s _ _ _ _ rfl).keeps.acts
  · have hopen : Keeps s { s with snd := s.snd.openWindow segment } :=
      keeps_snd s ⟨rfl, rfl, rfl, rfl, rfl, rfl, rfl⟩
    refine hopen.acts.trans (.trans (.single (.established _ hstate)) ?_)
    exact tcpStateEstablished_acts rfl fun hrst hacc => (hreset hrst hacc).2

theorem tcpStateCloseWait_acts {s : Socket} {segment : Segment} (hstate : s.state = .closeWait)
    (hreset : segment.flags.rst = true → acceptable s.rcv segment = true →
      R s.state s.history.finAcked) :
    Acts R K O s (tcpStateCloseWait s segment) := by
  refine checkSegment_tcpCheckAck_acts (by rw [hstate]; simp) hreset ?_
  intro s1 hsame _ _ _
  exact sendPending_acts s1 (.inr (hsame.state.trans hstate))

theorem tcpStateLastAck_acts {s : Socket} {segment : Segment} (hstate : s.state = .lastAck)
    (hacked : segment.flags.ack = true → segment.ackNum = s.snd.sndNxt →
      s.history.finAcked = true)
    (hreset : segment.flags.rst = true → acceptable s.rcv segment = true →
      R s.state s.history.finAcked) :
    Acts R K O s (tcpStateLastAck s segment) := by
  refine checkSegment_checkAckBit_acts hreset ?_
  intro hacc hack
  split
  case isTrue hnum => exact .single (.finish s (.inl ⟨hstate, hacked hack hnum⟩))
  case isFalse => exact .refl

theorem tcpStateFinWait1_acts {s : Socket} {segment : Segment} (hstate : s.state = .finWait1)
    (hacked : segment.flags.ack = true → segment.ackNum = s.snd.sndNxt →
      s.history.finAcked = true)
    (hreset : segment.flags.rst = true → acceptable s.rcv segment = true →
      R s.state s.history.finAcked) :
    Acts R K O s (tcpStateFinWait1 s segment) := by
  refine checkSegment_tcpCheckAck_acts (by rw [hstate]; simp) hreset ?_
  intro s1 hsame hnxt hacc hack
  have hstate1 : s1.state = .finWait1 := hsame.state.trans hstate
  rw [← hsame.rcv] at hacc
  simp only
  by_cases hnum : segment.ackNum = s1.snd.sndNxt
  · -- the FIN is acknowledged: the segment is processed in FIN-WAIT-2
    rw [if_pos hnum]
    have htimer : Keeps s1 { s1 with finWait2Timer := true } :=
      ⟨⟨rfl, rfl, rfl, rfl, rfl, rfl, rfl, rfl, rfl, rfl, rfl, rfl⟩, .refl _, .refl _ _ _⟩
    have hfinAcked : s1.history.finAcked = true := by
      rw [hsame.history]
      exact hacked hack (hnum.trans hnxt)
    have henter : Acts R K O s1 (tcpChangeState { s1 with finWait2Timer := true } .finWait2) :=
      htimer.acts.tail (.finWait2 _ hstate1 hfinAcked)
    generalize hs2 : tcpChangeState { s1 with finWait2Timer := true } .finWait2 = s2 at henter ⊢
    have hstate2 : s2.state = .finWait2 := by rw [← hs2]; rfl
    have hrcv2 : s2.rcv = s1.rcv := by rw [← hs2]; rfl
    have hsnd2 : s2.snd = s1.snd := by rw [← hs2]; rfl
    obtain ⟨htext, rcv, hnet⟩ :=
      receiveText_acts (R := R) (K := K) (O := O) s2 segment (.inr (.inr hstate2)) (by rwa [hrcv2])
    refine henter.trans (htext.trans ?_)
    split
    case isTrue hfin =>
      have hsnd : (receiveFin (receiveText s2 segment)).snd.sndNxt = s1.snd.sndNxt := by
        rw [(receiveFin_netOnly _).keeps.snd.sndNxt, hnet.keeps.snd.sndNxt, hsnd2]
      rw [hsnd, if_pos hnum]
      exact receiveFin_timeWait_acts hfin (hnet.state.trans hstate2)
    case isFalse => exact .refl
  · rw [if_neg hnum]
    obtain ⟨htext, rcv, hnet⟩ :=
      receiveText_acts (R := R) (K := K) (O := O) s1 segment (.inr (.inl hstate1)) hacc
    refine htext.trans ?_
    split
    case isTrue hfin =>
      have hsnd : (receiveFin (receiveText s1 segment)).snd.sndNxt = s1.snd.sndNxt := by
        rw [(receiveFin_netOnly _).keeps.snd.sndNxt, hnet.keeps.snd.sndNxt]
      rw [hsnd, if_neg hnum]
      exact receiveFin_acts hfin (.inr ⟨hnet.state.trans hstate1, rfl⟩)
    case isFalse => exact .refl

theorem tcpStateFinWait2_acts {s : Socket} {segment : Segment} (hstate : s.state = .finWait2)
    (hreset : segment.flags.rst = true → acceptable s.rcv segment = true →
      R s.state s.history.finAcked) :
    Acts R K O s (tcpStateFinWait2 s segment) := by
  refine checkSegment_tcpCheckAck_acts (by rw [hstate]; simp) hreset ?_
  intro s1 hsame _ hacc _
  have hstate1 : s1.state = .finWait2 := hsame.state.trans hstate
  rw [← hsame.rcv] at hacc
  obtain ⟨htext, rcv, hnet⟩ := receiveText_acts (R := R) (K := K) (O := O) s1 segment (.inr (.inr hstate1)) hacc
  refine htext.trans ?_
  simp only
  split
  case isTrue hfin => exact receiveFin_timeWait_acts hfin (hnet.state.trans hstate1)
  case isFalse => exact .refl

theorem tcpStateClosing_acts {s : Socket} {segment : Segment} (hstate : s.state = .closing)
    (hacked : segment.flags.ack = true → segment.ackNum = s.snd.sndNxt →
      s.history.finAcked = true)
    (hreset : segment.flags.rst = true → acceptable s.rcv segment = true →
      R s.state s.history.finAcked) :
    Acts R K O s (tcpStateClosing s segment) := by
  refine checkSegment_tcpCheckAck_acts (by rw [hstate]; simp) hreset ?_
  intro s1 hsame hnxt _ hack
  split
  case isTrue hnum =>
    have hfinAcked : s1.history.finAcked = true := by
      rw [hsame.history]
      exact hacked hack (hnum.trans hnxt)
    exact (Relation.ReflTransGen.single
      (.timeWait s1 (hsame.state.trans hstate) hfinAcked)).tail
      (.keep (enterTimeWait_keeps (.refl s1)))
  case isFalse => exact .refl

/-- Close a connection in the TIME-WAIT state, and dispose of the socket if it has no owner. -/
theorem finish_timeWait_acts {s : Socket} (hstate : s.state = .timeWait) :
    Acts R K O s (if (tcpChangeState s .closed).ownedFlag then tcpChangeState s .closed
      else disposeSocket (tcpChangeState s .closed)) := by
  have hfinish : Acts R K O s (tcpChangeState s .closed) := .single (.finish s (.inr hstate))
  split
  · exact hfinish
  · refine hfinish.tail (.dispose _ ?_)
    simp [tcpChangeState]

theorem tcpStateTimeWait_acts {s : Socket} {segment : Segment} (hstate : s.state = .timeWait) :
    Acts R K O s (tcpStateTimeWait s segment) := by
  rw [tcpStateTimeWait]
  rcases tcpCheckSequenceNumber_cases s segment with ⟨-, hseq⟩ | ⟨s', hseq, hnet⟩
  · rw [hseq]
    simp only [ne_eq, not_true_eq_false, if_false]
    split
    · exact finish_timeWait_acts hstate
    · rcases tcpCheckSyn_cases s segment with ⟨-, hsyn⟩ | ⟨s', hsyn, hnet⟩
      · rw [hsyn]
        simp only [not_true_eq_false, if_false]
        split
        · exact ((tcpSendAck_keeps s).trans (keeps_timeWaitTimer _ true)).acts
        · exact .refl
      · rw [hsyn]
        exact hnet.keeps.acts
  · rw [hseq]
    exact hnet.keeps.acts

theorem tcpStateListen_keeps (s : Socket) (segment : Segment) (memory : Bool) :
    Keeps s (tcpStateListen s segment memory) := by
  simp only [tcpStateListen]
  have hsame : ∀ queue, Keeps s { s with synQueue := queue } := fun queue =>
    keeps_of ⟨rfl, rfl, rfl, rfl, rfl, rfl, rfl, rfl, rfl, rfl, rfl, rfl⟩ (.refl _) rfl
  split_ifs
  all_goals first
    | exact .refl s
    | exact hsame _

end Tcp
