import CycloneTcp.Core.TcpSteps

set_option autoImplicit false

/-! # Timers and calls as sequences of actions

The second half of `step_acts`: connection establishment, `tcpTick` and the sections of the user
calls. -/

namespace Tcp

variable {R : TcpState → Bool → Prop} {K : Remains} {O : Prop}

/-! ## Timers -/

/-- The retransmission timer gives the connection up. -/
def retransmitExhausted (s : Socket) (elapsed : Elapsed) : Prop :=
  s.snd.retransmitQueue ≠ [] ∧ s.snd.retransmitTimer = true ∧ elapsed.retransmit = true ∧
    TCP_MAX_RETRIES ≤ s.snd.retransmitCount

/-- The persist timer gives the connection up. -/
def probesExhausted (s : Socket) (elapsed : Elapsed) : Prop :=
  s.snd.sndWnd = 0 ∧ s.snd.wndProbeInterval ≠ 0 ∧ s.snd.persistTimer = true ∧
    elapsed.persist = true ∧ TCP_MAX_RETRIES ≤ s.snd.wndProbeCount

/-- A timer that does not close the connection. -/
theorem Keeps.acts_or {s s' : Socket} (h : Keeps s s') :
    Acts R K O s s' ∧ (s'.state = .closed ∨ Keeps s s') := ⟨h.acts, .inr h⟩

theorem tickRetransmit_acts (s : Socket) (elapsed : Elapsed) (hstate : s.state ≠ .closed)
    (hR : retransmitExhausted s elapsed → R s.state s.history.finAcked) :
    Acts R K O s (tickRetransmit s elapsed) ∧
      ((tickRetransmit s elapsed).state = .closed ∨ Keeps s (tickRetransmit s elapsed)) := by
  rw [tickRetransmit]
  split
  case isFalse => exact (Keeps.refl s).acts_or
  case isTrue h =>
    have hloss : Keeps s { s with snd := s.snd.congestionTimeout } :=
      keeps_snd s ⟨rfl, rfl, rfl, rfl, rfl, rfl, rfl⟩
    have hcount : s.snd.congestionTimeout.retransmitCount = s.snd.retransmitCount := rfl
    simp only [hcount]
    split
    · refine Keeps.acts_or ((hloss.trans (tcpRetransmitSegment_keeps _ hstate)).trans ?_)
      exact keeps_of ⟨rfl, rfl, rfl, rfl, rfl, rfl, rfl, rfl, rfl, rfl, rfl, rfl⟩
        ⟨rfl, rfl, rfl, rfl, rfl, rfl, rfl⟩ rfl
    case isFalse hmax =>
      refine ⟨?_, .inl (by simp [tcpChangeState])⟩
      have hreset : Acts R K O s (tcpChangeState { s with snd := s.snd.congestionTimeout } .closed) :=
        hloss.acts.tail (.reset _ (hR ⟨h.1, h.2.1, h.2.2, not_lt.1 hmax⟩))
      exact hreset.tail (.keep (keeps_of
        ⟨rfl, rfl, rfl, rfl, rfl, rfl, rfl, rfl, rfl, rfl, rfl, rfl⟩
        ⟨rfl, rfl, rfl, rfl, rfl, rfl, rfl⟩ rfl))

/-- The retransmission timer leaves the window probes alone. -/
theorem probesExhausted_tickRetransmit (s : Socket) (elapsed : Elapsed) :
    probesExhausted (tickRetransmit s elapsed) elapsed ↔ probesExhausted s elapsed := by
  rw [tickRetransmit]
  split
  · simp only
    split
    · rfl
    · simp only [tcpChangeState]
      split_ifs <;> rfl
  · rfl

theorem tickPersist_acts (s : Socket) (elapsed : Elapsed)
    (hR : probesExhausted s elapsed → R s.state s.history.finAcked) :
    Acts R K O s (tickPersist s elapsed) ∧
      ((tickPersist s elapsed).state = .closed ∨ Keeps s (tickPersist s elapsed)) := by
  rw [tickPersist]
  split
  case isFalse => exact (Keeps.refl s).acts_or
  case isTrue h =>
    split
    · refine Keeps.acts_or ((tcpSendSegment_netOnly s { ack := true } (s.snd.sndNxt - 1) s.rcv.rcvNxt 0
        rfl).keeps.trans ?_)
      exact keeps_of ⟨rfl, rfl, rfl, rfl, rfl, rfl, rfl, rfl, rfl, rfl, rfl, rfl⟩
        ⟨rfl, rfl, rfl, rfl, rfl, rfl, rfl⟩ rfl
    case isFalse hmax =>
      refine ⟨.single (.reset s (hR ⟨h.1, h.2.1, h.2.2.1, h.2.2.2, not_lt.1 hmax⟩)), .inl ?_⟩
      simp [tcpChangeState]

theorem tickOverride_acts (s : Socket) (elapsed : Elapsed) :
    Acts R K O s (tickOverride s elapsed) ∧ Socket.Same s (tickOverride s elapsed) := by
  rw [tickOverride]
  split
  case isFalse => exact ⟨.refl, .refl s⟩
  case isTrue h =>
    obtain ⟨hacts, hsame⟩ := sendLoop_acts (R := R) (K := K) (O := O) (fun _ _ _ => true) s.snd.sndUser.toNat
      s.snd.usableWindow s h.1
    generalize (sendLoop (fun _ _ _ => true) s.snd.sndUser.toNat s.snd.usableWindow s).2 = s'
      at hacts hsame ⊢
    simp only
    split
    · have hkeep : Keeps s' { s' with snd := { s'.snd with overrideTimer := true } } :=
        keeps_snd s' ⟨rfl, rfl, rfl, rfl, rfl, rfl, rfl⟩
      exact ⟨hacts.tail (.keep hkeep), hsame.trans hkeep.same⟩
    · exact ⟨hacts, hsame⟩

theorem tickFinWait2_acts (s : Socket) (elapsed : Elapsed)
    (hR : s.state = .finWait2 → elapsed.finWait2 = true → R .finWait2 s.history.finAcked) :
    Acts R K O s (tickFinWait2 s elapsed) := by
  rw [tickFinWait2]
  split
  case isTrue h => exact .single (.reset s (by rw [h.1]; exact hR h.1 h.2.2))
  case isFalse => exact .refl

theorem tickTimeWait_acts (s : Socket) (elapsed : Elapsed) : Acts R K O s (tickTimeWait s elapsed) := by
  rw [tickTimeWait]
  split
  case isTrue h => exact finish_timeWait_acts h.1
  case isFalse => exact .refl

theorem tcpTick_acts (s : Socket) (elapsed : Elapsed)
    (hR : (retransmitExhausted s elapsed ∨ probesExhausted s elapsed ∨
      s.state = .finWait2 ∧ elapsed.finWait2 = true) → R s.state s.history.finAcked) :
    Acts R K O s (tcpTick s elapsed) := by
  rw [tcpTick]
  split
  case isTrue => exact .refl
  case isFalse hstate =>
    obtain ⟨hacts1, hcase1⟩ := tickRetransmit_acts s elapsed hstate (fun h => hR (.inl h))
    have hprobes := probesExhausted_tickRetransmit s elapsed
    simp only
    split
    case isTrue => exact hacts1
    case isFalse hstate1 =>
      have hkeep1 : Keeps s (tickRetransmit s elapsed) := hcase1.resolve_left hstate1
      generalize tickRetransmit s elapsed = s1 at *
      obtain ⟨hacts2, hcase2⟩ := tickPersist_acts (R := R) (K := K) (O := O) s1 elapsed fun h => by
        rw [hkeep1.same.state, hkeep1.same.history]
        exact hR (.inr (.inl (hprobes.1 h)))
      generalize tickPersist s1 elapsed = s2 at *
      obtain ⟨hacts3, hsame3⟩ := tickOverride_acts (R := R) (K := K) (O := O) s2 elapsed
      generalize tickOverride s2 elapsed = s3 at *
      refine hacts1.trans (hacts2.trans (hacts3.trans (.trans ?_ (tickTimeWait_acts _ elapsed))))
      refine tickFinWait2_acts s3 elapsed fun hfin helapsed => ?_
      have hfin2 : s2.state = .finWait2 := hsame3.state.symm.trans hfin
      have hkeep2 : Keeps s1 s2 := hcase2.resolve_left (by simp [hfin2])
      have hsame := (hkeep1.trans hkeep2).same
      have hfin0 : s.state = .finWait2 := hsame.state.symm.trans hfin2
      rw [hsame3.history, hsame.history, ← hfin0]
      exact hR (.inr (.inr ⟨hfin0, helapsed⟩))

/-! ## Establishing connections -/

theorem setMss_same (snd : SendSide) (mss : Option UInt16) :
    SendSide.Same snd (snd.setMss mss) := by
  cases mss <;> exact ⟨rfl, rfl, rfl, rfl, rfl, rfl, rfl⟩

theorem takeSyn_same (s : Socket) (segment : Segment) :
    SendSide.Same (s.ackTo (s.unaOnSyn segment)).snd (s.snd.takeSyn segment) := by
  have hset : SendSide.Same { s.snd with sndUna := s.unaOnSyn segment }
      (if segment.flags.ack then { s.snd with sndUna := segment.ackNum } else s.snd) := by
    rw [Socket.unaOnSyn]
    split <;> exact ⟨rfl, rfl, rfl, rfl, rfl, rfl, rfl⟩
  have hqueue := (hset.trans (tcpComputeRto_same _)).filter.trans
    (tcpUpdateRetransmitQueue_same _)
  refine (hqueue.trans (setMss_same _ segment.mss)).trans ?_
  exact ⟨rfl, rfl, rfl, rfl, rfl, rfl, rfl⟩

/-- What the SYN changes apart from the state. -/
theorem receiveSyn_quiet (s : Socket) (segment : Segment) :
    Quiet { s.ackTo (s.unaOnSyn segment) with
      rcv := { s.rcv with irs := segment.seqNum, rcvNxt := segment.seqNum + 1 } }
      (receiveSyn s segment) :=
  quiet_of ⟨rfl, rfl, rfl, rfl, rfl, rfl, rfl, rfl, rfl, rfl, rfl, rfl⟩ (takeSyn_same s segment) rfl

theorem tcpStateSynSent_acts {s : Socket} {segment : Segment} (hstate : s.state = .synSent)
    (hreset : segment.flags.rst = true → R s.state s.history.finAcked) :
    Acts R K O s (tcpStateSynSent s segment) := by
  rw [tcpStateSynSent]
  split
  · split
    · exact .refl
    · exact (tcpSendSegment_netOnly s _ _ _ _ rfl).keeps.acts
  case isFalse hack =>
    have hnum : segment.flags.ack = true → segment.ackNum = s.snd.sndNxt := by
      intro h
      by_contra hne
      exact hack ⟨h, hne⟩
    split
    case isTrue hrst =>
      split
      · exact .single (.reset s (hreset hrst))
      · exact .refl
    case isFalse =>
      split
      case isFalse => exact .refl
      case isTrue =>
        have hquiet := receiveSyn_quiet s segment
        have huna : (receiveSyn s segment).snd.sndUna = s.unaOnSyn segment := hquiet.snd.sndUna
        have hiss : (receiveSyn s segment).snd.iss = s.snd.iss := hquiet.snd.iss
        simp only
        rw [huna, hiss]
        split
        case isTrue hpos =>
          have hopen : Quiet (receiveSyn s segment) { receiveSyn s segment with
              snd := (receiveSyn s segment).snd.openWindow segment } :=
            quiet_of ⟨rfl, rfl, rfl, rfl, rfl, rfl, rfl, rfl, rfl, rfl, rfl, rfl⟩
              ⟨rfl, rfl, rfl, rfl, rfl, rfl, rfl⟩ rfl
          have hall := (hquiet.trans (hopen.trans (tcpSendAck_netOnly _).quiet)).changeState
            .established
          exact (Relation.ReflTransGen.single
            (.synSent s segment .established hstate hnum (.inl ⟨rfl, hpos⟩))).tail
            (.keep hall.keeps)
        case isFalse hneg =>
          have hsyn : Act R K O s (s.passSyn segment .synReceived) :=
            .synSent s segment .synReceived hstate hnum (.inr ⟨rfl, not_lt.1 hneg⟩)
          have hqueued := tcpSendSegment_queued_quiet (receiveSyn s segment)
            { syn := true, ack := true } s.snd.iss (receiveSyn s segment).rcv.rcvNxt 0 rfl
          simp only at hqueued
          generalize tcpSendSegment (receiveSyn s segment) { syn := true, ack := true }
            s.snd.iss (receiveSyn s segment).rcv.rcvNxt 0 true = r at hqueued ⊢
          refine Relation.ReflTransGen.trans (.single hsyn) ?_
          rcases hqueued with hsent | ⟨-, hsent⟩
          · -- the SYN is queued again, after the state has changed
            have hadd : Act R K O (s.passSyn segment .synReceived)
                ((s.passSyn segment .synReceived).addItem ((receiveSyn s segment).queueItem
                  { syn := true, ack := true } s.snd.iss (receiveSyn s segment).rcv.rcvNxt 0)) :=
              .addSyn _ _ (.inr rfl) rfl rfl rfl rfl
            exact (Relation.ReflTransGen.single hadd).tail
              (.keep (((hquiet.addItem _).trans hsent).changeState .synReceived).keeps)
          · exact ((hquiet.trans hsent).changeState .synReceived).keeps.acts

/-- A block that is ready for the handshake, and its SYN. -/
theorem Prepared.unused_addItem {s : Socket} (h : Prepared K s) {item : TcpQueueItem}
    (hsyn : item.header.flags.syn = true) (hfin : item.header.flags.fin = false)
    (hlen : item.length = 0) : (s.addItem item).Unused K := by
  obtain ⟨huser, hsack, hqueue, hfins, hflags⟩ := h.unused
  have hadd : ∀ P : TcpQueueItem → Prop, (∀ item' ∈ s.snd.retransmitQueue, P item') → P item →
      ∀ item' ∈ (s.addItem item).snd.retransmitQueue, P item' := by
    intro P hqueue hitem item' hmem
    rcases List.mem_append.1 hmem with hmem | hmem
    · exact hqueue item' hmem
    · rwa [List.mem_singleton.1 hmem]
  exact ⟨huser, hsack, fun hkind => hadd _ (hqueue hkind) ⟨hsyn, hfin, hlen⟩,
    fun hkind => hadd _ (hfins hkind) hfin, hflags⟩

theorem activeBlock_prepared {s : Socket} (hstate : s.state = .closed) (htype : s.type ≠ .unused)
    (hunused : s.Unused K) (history : History) (hhistory : s.history = history.restart)
    (iss : UInt32) : Prepared K (activeBlock s iss) where
  state := hstate
  type := htype
  unused := hunused
  sndUna := rfl
  sndNxt := rfl
  txBuffer := rfl
  rcvUser := rfl
  rcvWnd := rfl
  rxBuffer := rfl
  written := congrArg History.written hhistory
  delivered := congrArg History.delivered hhistory
  finAcked := congrArg History.finAcked hhistory
  finReceived := congrArg History.finReceived hhistory

/-- The configuration of a socket up to its SYN. -/
theorem configure_prepared {s p : Socket} (hstate : s.state = .closed) (htype : s.type ≠ .unused)
    (hunused : s.Unused K) (hp : Prepared K p) (htype' : p.type = s.type)
    (hsized : s.Sized → p.Sized) (hnet : p.net = s.net)
    (hchanges : p.history.changes = s.history.changes) {item : TcpQueueItem}
    (hsyn : item.header.flags.syn = true) (hfin : item.header.flags.fin = false)
    (hlen : item.length = 0) (hO : O) : Act R K O s (p.addItem item) :=
  .configure s _ hO hstate htype hunused hp.state htype' (hp.unused_addItem hsyn hfin hlen) hsized
    (by rw [show (p.addItem item).net = s.net from hnet]; exact .refl _ _ _) hchanges hp.finAcked

theorem sendSyn_acts {s p : Socket} (hstate : s.state = .closed) (htype : s.type ≠ .unused)
    (hunused : s.Unused K) (hp : Prepared K p) (htype' : p.type = s.type)
    (hsized : s.Sized → p.Sized) (hnet : p.net = s.net)
    (hchanges : p.history.changes = s.history.changes) (hO : O) : Acts R K O s (sendSyn p).2 := by
  have hconf : Act R K O s p := .configure s p hO hstate htype hunused hp.state htype' hp.unused
    hsized (by rw [hnet]; exact .refl _ _ _) hchanges hp.finAcked
  rw [sendSyn]
  have hqueued := tcpSendSegment_queued_quiet p { syn := true } p.snd.iss 0 0 rfl
  simp only at hqueued ⊢
  generalize tcpSendSegment p { syn := true } p.snd.iss 0 0 true = r at hqueued ⊢
  split
  case isTrue herror =>
    rcases hqueued with hsent | ⟨-, hsent⟩
    · exact (Relation.ReflTransGen.single (configure_prepared hstate htype hunused hp htype' hsized
        hnet hchanges rfl rfl rfl hO)).tail (.keep hsent.keeps)
    · exact (Relation.ReflTransGen.single hconf).tail (.keep hsent.keeps)
  case isFalse herror =>
    rcases hqueued with hsent | ⟨hne, -⟩
    · have hadd : Act R K O (tcpChangeState p .synSent)
          ((tcpChangeState p .synSent).addItem (p.queueItem { syn := true } p.snd.iss 0 0)) :=
        .addSyn _ _ (.inl rfl) rfl rfl rfl rfl
      exact (((Relation.ReflTransGen.single hconf).tail (.connect p hO hp)).tail hadd).tail
        (.keep (hsent.changeState .synSent).keeps)
    · exact absurd hne herror

theorem openConnection_acts {s : Socket} (hstate : s.state = .closed) (htype : s.type ≠ .unused)
    (hunused : s.Unused K) (remoteIpAddr : IpAddr) (remotePort : UInt16) (env : ConnectEnv)
    (hO : O) : Acts R K O s (openConnection s remoteIpAddr remotePort env).2 := by
  rw [openConnection]
  split
  · exact .single (.configure s _ hO hstate htype hunused hstate rfl hunused id (.refl _ _ _) rfl
    rfl)
  case h_2 interface addr _ =>
    simp only
    split
    · exact .single (.configure s _ hO hstate htype hunused hstate rfl hunused id (.refl _ _ _) rfl
    rfl)
    · split
      · refine .single (.configure s _ hO hstate htype hunused hstate rfl ?_ id (.refl _ _ _) rfl rfl)
        exact ⟨hunused.1, hunused.2.1, fun _ => by simp [tcpDeleteControlBlock],
          fun _ => by simp [tcpDeleteControlBlock], hunused.2.2.2.2⟩
      · refine sendSyn_acts hstate htype hunused ?_ rfl id rfl rfl hO
        exact activeBlock_prepared (s := { s with
          remoteIpAddr := remoteIpAddr, remotePort := remotePort, history := s.history.restart
          interface := some interface, localIpAddr := addr, ownedFlag := true })
          hstate htype hunused s.history rfl env.iss

theorem tcpConnect_acts {s : Socket} (htype : s.type ≠ .unused)
    (hunused : s.state = .closed → s.Unused K) (remoteIpAddr : IpAddr) (remotePort : UInt16)
    (env : ConnectEnv) (hO : s.state = .closed → O) :
    Acts R K O s (tcpConnect s remoteIpAddr remotePort env).1 := by
  rw [tcpConnect]
  split
  case isTrue hstate =>
    have hopen := openConnection_acts (R := R) (K := K) (O := O) hstate htype (hunused hstate)
      remoteIpAddr remotePort env (hO hstate)
    simp only
    split <;> exact hopen
  case isFalse => exact .refl

theorem tcpListen_acts {s : Socket} (htype : s.type ≠ .unused)
    (hunused : s.state = .closed → s.Unused { fin := K.fin }) (backlog : ℕ)
    (hO : s.state = .closed → O) :
    Acts R K O s (tcpListen s backlog).2 := by
  rw [tcpListen]
  split
  case isTrue => exact .refl
  case isFalse hstate =>
    have hclosed : s.state = .closed := not_not.1 hstate
    have hkeep : ∀ size, Keeps s { s with synQueueSize := size } := fun size =>
      keeps_of ⟨rfl, rfl, rfl, rfl, rfl, rfl, rfl, rfl, rfl, rfl, rfl, rfl⟩ (.refl _) rfl
    exact (hkeep _).acts.tail (.listen _ (hO hclosed) hclosed htype (hunused hclosed))

theorem tcpAbort_acts (s : Socket) (hR : s.state ≠ .timeWait → R s.state s.history.finAcked) :
    Acts R K O s (tcpAbort s).2 := by
  have hclose : ∀ s' : Socket, s'.state = s.state → s'.history = s.history → s.state ≠ .timeWait →
      Acts R K O s' (disposeSocket (tcpChangeState s' .closed)) := by
    intro s' hstate hhistory hne
    refine (Relation.ReflTransGen.single (.reset s' ?_)).tail
      (.dispose _ (by simp [tcpChangeState]))
    rw [hstate, hhistory]
    exact hR hne
  rw [tcpAbort]
  split
  case h_6 hstate => exact .single (.disown s hstate)
  case h_7 hne => exact hclose s rfl rfl hne
  all_goals
    rename_i hstate
    have hnet := tcpSendSegment_netOnly s { rst := true } s.snd.sndNxt 0 0 rfl
    exact hnet.keeps.acts.trans (hclose _ hnet.state hnet.keeps.same.history (by simp [hstate]))

theorem socketOpen_unused (s : Socket) (type : SocketType) (port : UInt16) :
    (socketOpen s type port).Unused K :=
  ⟨fun _ => rfl, fun _ => rfl, fun _ => by simp [socketOpen, Socket.cleared],
    fun _ => by simp [socketOpen, Socket.cleared], fun _ => ⟨rfl, rfl⟩⟩

theorem passiveBlock_prepared {s : Socket} (listener : Socket) (hstate : s.state = .closed)
    (htype : s.type ≠ .unused) (hunused : s.Unused K) (history : History)
    (hhistory : s.history = history.restart) (queueItem : TcpSynQueueItem) (iss : UInt32) :
    Prepared K (passiveBlock listener s queueItem iss) where
  state := hstate
  type := htype
  unused := hunused
  sndUna := rfl
  sndNxt := rfl
  txBuffer := rfl
  rcvUser := rfl
  rcvWnd := rfl
  rxBuffer := rfl
  written := congrArg History.written hhistory
  delivered := congrArg History.delivered hhistory
  finAcked := congrArg History.finAcked hhistory
  finReceived := congrArg History.finReceived hhistory

theorem sendSynAck_acts {s p : Socket} (hstate : s.state = .closed) (htype : s.type ≠ .unused)
    (hunused : s.Unused K) (hp : Prepared K p) (htype' : p.type = s.type)
    (hsized : s.Sized → p.Sized) (hnet : p.net = s.net)
    (hchanges : p.history.changes = s.history.changes) (hnxt : p.rcv.rcvNxt = p.rcv.irs + 1)
    (hR : ∀ b, R .closed b) (hO : O) : Acts R K O s (sendSynAck p).2 := by
  have hconf : Act R K O s p := .configure s p hO hstate htype hunused hp.state htype' hp.unused
    hsized (by rw [hnet]; exact .refl _ _ _) hchanges hp.finAcked
  rw [sendSynAck]
  have hqueued := tcpSendSegment_queued_quiet p { syn := true, ack := true } p.snd.iss
    p.rcv.rcvNxt 0 rfl
  simp only at hqueued ⊢
  generalize tcpSendSegment p { syn := true, ack := true } p.snd.iss p.rcv.rcvNxt 0 true = r
    at hqueued ⊢
  have habort : ∀ q : Socket, q.state = .closed → Acts R K O q (tcpAbort q).2 := fun q hq =>
    tcpAbort_acts q fun _ => by rw [hq]; exact hR _
  split
  case isTrue herror =>
    rcases hqueued with hsent | ⟨-, hsent⟩
    · exact ((Relation.ReflTransGen.single (configure_prepared hstate htype hunused hp htype'
        hsized hnet hchanges rfl rfl rfl hO)).tail (.keep hsent.keeps)).trans
        (habort _ (hsent.same.state.trans hp.state))
    · exact ((Relation.ReflTransGen.single hconf).tail (.keep hsent.keeps)).trans
        (habort _ (hsent.same.state.trans hp.state))
  case isFalse herror =>
    rcases hqueued with hsent | ⟨hne, -⟩
    · have hadd : Act R K O (tcpChangeState p .synReceived)
          ((tcpChangeState p .synReceived).addItem
            (p.queueItem { syn := true, ack := true } p.snd.iss p.rcv.rcvNxt 0)) :=
        .addSyn _ _ (.inr rfl) rfl rfl rfl rfl
      exact (((Relation.ReflTransGen.single hconf).tail (.accept p hO hp hnxt)).tail hadd).tail
        (.keep (hsent.changeState .synReceived).keeps)
    · exact absurd hne herror

theorem acceptConnection_acts {s : Socket} (listener : Socket) (hlistener : listener.Sized)
    (htype : s.type = .unused) (port : UInt16) (queueItem : TcpSynQueueItem) (memory : Bool)
    (iss : UInt32) (hR : ∀ b, R .closed b) (hO : O) :
    Acts R K O s (acceptConnection listener (socketOpen s .stream port) queueItem memory iss).2 := by
  refine Relation.ReflTransGen.trans (.single (.opened s hO .stream port htype)) ?_
  have hunused := socketOpen_unused (K := K) s .stream port
  have hstate : (socketOpen s .stream port).state = .closed := rfl
  have htype' : (socketOpen s .stream port).type ≠ .unused := by simp [socketOpen]
  have hhistory : (socketOpen s .stream port).history = s.history.restart := rfl
  generalize socketOpen s .stream port = s' at *
  rw [acceptConnection]
  split
  · have hinherit : Act R K O s' (inheritSettings listener s') :=
      .configure s' (inheritSettings listener s') hO hstate htype' hunused hstate rfl hunused
        (fun _ => hlistener) (.refl _ _ _) rfl (congrArg History.finAcked hhistory)
    refine Relation.ReflTransGen.trans (.single hinherit) (tcpAbort_acts _ fun _ => ?_)
    rw [show (inheritSettings listener s').state = .closed from hstate]
    exact hR _
  · refine sendSynAck_acts hstate htype' hunused ?_ rfl (fun _ => hlistener) rfl rfl rfl hR hO
    exact passiveBlock_prepared (s := inheritSettings listener s') listener hstate htype' hunused
      s.history hhistory queueItem iss

/-! ## Sending and receiving -/

theorem copyUserData_acts {s : Socket} (data : List UInt8) {n : ℕ}
    (hstate : s.state = .established ∨ s.state = .closeWait) (hn : n ≤ data.length)
    (hroom : s.snd.pending.toNat + n ≤ s.snd.txBufferSize) :
    Acts R K O s (copyUserData s data n) := by
  rcases Nat.eq_zero_or_pos n with rfl | hpos
  · rw [copyUserData, if_neg (by simp)]
  · exact .single (.write s data n hstate hpos hn hroom)

theorem copyUserData_state (s : Socket) (data : List UInt8) (n : ℕ) :
    (copyUserData s data n).state = s.state := by
  rw [copyUserData]
  split <;> rfl

/-- A round of the loop leaves the socket as it is, or `n` bytes are copied and sent as Nagle's
algorithm admits, and the loop goes on with the others or returns. -/
theorem tcpSendLoop_round (flags : SocketFlags) (fuel : ℕ) (s : Socket) (data : List UInt8) :
    (tcpSendLoop flags (fuel + 1) s data).1 = s ∨
      ∃ n, (s.state = .established ∨ s.state = .closeWait) ∧ n ≤ data.length ∧
        s.snd.pending.toNat + n ≤ s.snd.txBufferSize ∧
        ((tcpSendLoop flags (fuel + 1) s data).1
            = (tcpSendLoop flags fuel (tcpNagleAlgo (copyUserData s data n) flags).2
                (data.drop n)).1 ∨
          (tcpSendLoop flags (fuel + 1) s data).1
            = (tcpNagleAlgo (copyUserData s data n) flags).2) := by
  generalize hloop : tcpSendLoop flags (fuel + 1) s data = result
  rw [tcpSendLoop] at hloop
  by_cases hready : s.txReady = false
  · rw [if_pos hready] at hloop
    exact .inl (hloop ▸ rfl)
  rw [if_neg hready] at hloop
  by_cases hstate : s.state = .established ∨ s.state = .closeWait
  · by_cases hroom : s.snd.txBufferSize ≤ s.snd.pending.toNat
    · rcases hstate with hstate | hstate
      all_goals
        simp only [hstate, if_pos hroom] at hloop
        exact .inl (hloop ▸ rfl)
    · obtain ⟨n, hn⟩ : ∃ n, n = min (s.snd.txBufferSize - s.snd.pending.toNat) data.length := ⟨_, rfl⟩
      refine .inr ⟨n, hstate, by omega, by omega, ?_⟩
      by_cases hmore : n < data.length
      · left
        rcases hstate with hstate | hstate
        all_goals
          simp only [hstate, if_neg hroom, ← hn, if_pos hmore] at hloop
          exact hloop ▸ rfl
      · right
        rcases hstate with hstate | hstate
        all_goals
          simp only [hstate, if_neg hroom, ← hn, if_neg hmore] at hloop
          exact hloop ▸ rfl
  · left
    cases h : s.state with
    | established => exact absurd (.inl h) hstate
    | closeWait => exact absurd (.inr h) hstate
    | _ =>
        simp only [h] at hloop
        exact hloop ▸ rfl

theorem tcpSendLoop_acts (flags : SocketFlags) (fuel : ℕ) (s : Socket) (data : List UInt8) :
    Acts R K O s (tcpSendLoop flags fuel s data).1 := by
  induction fuel generalizing s data with
  | zero => exact .refl
  | succ fuel ih =>
      rcases tcpSendLoop_round flags fuel s data with heq | ⟨n, hstate, hn, hroom, hrest⟩
      · rw [heq]
      have hcopy := copyUserData_acts (R := R) (K := K) (O := O) data hstate hn hroom
      have hnagle := (tcpNagleAlgo_acts (R := R) (K := K) (O := O) (copyUserData s data n) flags
        (by rwa [copyUserData_state])).1
      rcases hrest with heq | heq
      · rw [heq]
        exact hcopy.trans (hnagle.trans (ih _ _))
      · rw [heq]
        exact hcopy.trans hnagle

theorem tcpSend_acts (s : Socket) (data : List UInt8) (flags : SocketFlags) :
    Acts R K O s (tcpSend s data flags).1 := by
  rw [tcpSend]
  split
  · exact .refl
  · exact tcpSendLoop_acts _ _ _ _

theorem consume_keeps (s : Socket) (data : List UInt8) :
    Keeps (s.readData data) (consume s data) := by
  simp only [consume, tcpUpdateReceiveWindow]
  split
  · exact tcpSendAck_keeps _
  · exact .refl _

theorem firstUnread_pos {s : Socket} {received : ℕ} {seqNum : UInt32}
    (h : firstUnread s received = .ok seqNum) : 0 < s.rcv.rcvUser.toNat := by
  by_contra hzero
  have huser : s.rcv.rcvUser = 0 := by
    apply UInt16.toNat_inj.1
    simpa using hzero
  simp only [firstUnread, huser, if_true] at h
  split at h
  all_goals first
    | exact absurd h (by simp)
    | (split_ifs at h)

theorem tcpReceiveLoop_acts (flags : SocketFlags) (size fuel : ℕ) (s : Socket) (received : ℕ) :
    Acts R K O s (tcpReceiveLoop flags size fuel s received).1 := by
  induction fuel generalizing s received with
  | zero => exact .refl
  | succ fuel ih =>
      rw [tcpReceiveLoop]
      split
      · exact .refl
      case isFalse hsize =>
        split
        · exact .refl
        · split
          · exact .refl
          case h_2 seqNum hseq =>
            have huser := firstUnread_pos hseq
            generalize hn : min s.rcv.rcvUser.toNat (size - received) = n
            have hread : Acts R K O s (consume s (copyReceived s.rcv seqNum n flags)) :=
              (Relation.ReflTransGen.single
                (.read s seqNum received n flags hseq (by omega) (by omega))).tail
                (.keep (consume_keeps s _))
            simp only
            split
            · exact hread
            · exact hread.trans (ih _ _)

theorem tcpReceive_acts (s : Socket) (size : ℕ) (flags : SocketFlags) :
    Acts R K O s (tcpReceive s size flags).1 := by
  rw [tcpReceive]
  split
  · exact .refl
  · exact tcpReceiveLoop_acts _ _ _ _ _

/-! ## Shutting down -/

theorem sendFin_acts {s : Socket} (how : SocketShutdown) {next : TcpState}
    (hallowed : FinAllowed s.state next) (hdone : s.txDone = true) :
    Acts R K O s (sendFin s how next).1 := by
  have hopen : s.state ≠ .closed := by
    intro h
    rw [h] at hallowed
    simp [FinAllowed] at hallowed
  rw [sendFin]
  rcases tcpSendSegment_cases s { fin := true, ack := true } s.snd.sndNxt s.rcv.rcvNxt 0 true with
    ⟨error, herror, h⟩ | ⟨data, h⟩
  · rw [h]
    simp only
    rw [if_pos herror]
    exact (NetOnly.keeps ⟨_, rfl, sendsOnly_next _ _ _⟩).acts
  · rw [h]
    generalize hitem : s.queueItem { fin := true, ack := true } s.snd.sndNxt s.rcv.rcvNxt 0 = item
    have hheader : s.header { fin := true, ack := true } s.snd.sndNxt s.rcv.rcvNxt = item.header := by
      rw [← hitem]
      rfl
    have hsyn : item.header.flags.syn = false := by rw [← hheader]; rfl
    have hfin : item.header.flags.fin = true := by rw [← hheader]; rfl
    have hseq : item.header.seqNum = s.snd.sndNxt := by rw [← hheader]; rfl
    have hlen : item.length = 0 := by rw [← hitem]; rfl
    have hsame := enqueue_same s.snd item.header 0 item (by rw [← hitem]; rfl)
    rw [hheader]
    simp only [if_true]
    have hadd : Act R K O s { s.addItem item with
        net := s.net.next.send s.state { header := item.header, data := data } } :=
      .addFin s next item data hallowed hseq hsyn hfin hlen
    have hkeep : Keeps { s.addItem item with
        net := s.net.next.send s.state { header := item.header, data := data } }
        { s with
          snd := s.snd.enqueue item.header 0
          net := s.net.next.send s.state { header := item.header, data := data } } :=
      keeps_of ⟨rfl, rfl, rfl, rfl, rfl, rfl, rfl, rfl, rfl, rfl, rfl, rfl⟩ hsame rfl
    have hacts := (Relation.ReflTransGen.single hadd).tail (.keep hkeep)
    split
    · exact hacts
    · refine hacts.tail (.leave _ next hallowed ?_ item ?_ ?_ hsyn hfin hlen)
      · rw [Socket.txDone]
        simp only [hsame.sndUser]
        exact hdone
      · simp only [hsame.retransmitQueue]
        simp
      · simp only [hsame.sndNxt]
        exact hseq

theorem awaitTxDone_acts {s : Socket} (how : SocketShutdown) {next : TcpState}
    (hallowed : FinAllowed s.state next) : Acts R K O s (awaitTxDone s how next).1 := by
  rw [awaitTxDone]
  split
  case isTrue hdone => exact sendFin_acts how hallowed hdone
  case isFalse => exact .refl

/-- The flush goes on to the FIN only in a state that is open for sending. -/
theorem tcpSendLoop_nil_cases (s : Socket) :
    (∃ outcome, tcpSendLoop { noDelay := true } 1 s [] = (s, [], outcome) ∧
      outcome ≠ .returns .noError) ∨
    ((s.state = .established ∨ s.state = .closeWait) ∧ s.txReady = true ∧
      tcpSendLoop { noDelay := true } 1 s []
        = ((tcpNagleAlgo s { noDelay := true }).2, [], .returns .noError)) := by
  have hround : (s.state = .established ∨ s.state = .closeWait) → s.txReady = true →
      ¬ s.snd.txBufferSize ≤ s.snd.pending.toNat := by
    intro hstate hready
    rw [Socket.txReady] at hready
    rcases hstate with hstate | hstate <;> rw [hstate] at hready <;>
      simpa using hready
  rw [tcpSendLoop]
  by_cases hready : s.txReady = true
  · rw [if_neg (by simp [hready])]
    split
    case h_1 hstate =>
      rw [if_neg (hround (.inl hstate) hready)]
      exact .inr ⟨.inl hstate, hready, by simp [copyUserData, awaitAck]⟩
    case h_2 hstate =>
      rw [if_neg (hround (.inr hstate) hready)]
      exact .inr ⟨.inr hstate, hready, by simp [copyUserData, awaitAck]⟩
    case h_8 =>
      refine .inl ⟨_, rfl, ?_⟩
      rw [closedError]
      split <;> simp
    all_goals exact .inl ⟨_, rfl, by simp⟩
  · rw [if_pos (by simpa using hready)]
    exact .inl ⟨_, rfl, by simp⟩

theorem flush_acts {s : Socket} (how : SocketShutdown) {next : TcpState}
    (hallowed : s.txReady = true → (s.state = .established ∨ s.state = .closeWait) →
      FinAllowed s.state next) :
    Acts R K O s (flush s how next).1 := by
  rw [flush]
  rcases tcpSendLoop_nil_cases s with ⟨outcome, heq, hne⟩ | ⟨hstate, hready, heq⟩
  · rw [heq]
    cases outcome with
    | blocks call => exact .refl
    | returns error =>
        cases error
        case noError => exact absurd rfl hne
        all_goals exact .refl
  · rw [heq]
    obtain ⟨hacts, hsame⟩ := tcpNagleAlgo_acts (R := R) (K := K) (O := O) s { noDelay := true } hstate
    refine hacts.trans (awaitTxDone_acts how ?_)
    rw [hsame.state]
    exact hallowed hready hstate

theorem tcpShutdown_acts (s : Socket) (how : SocketShutdown) : Acts R K O s (tcpShutdown s how).1 := by
  rw [tcpShutdown]
  split
  · exact .refl
  · split
    case h_3 hstate => exact flush_acts how fun _ _ => .inl ⟨rfl, .inl hstate⟩
    case h_4 hstate => exact flush_acts how fun _ _ => .inl ⟨rfl, .inr hstate⟩
    case h_5 hstate => exact flush_acts how fun _ _ => .inr ⟨rfl, hstate⟩
    all_goals exact .refl

/-! ## Steps -/

theorem resumeCall_acts (s : Socket) (call : Call)
    (hfin : ∀ next ∈ sendsFin s call, FinAllowed s.state next) :
    Acts R K O s (resumeCall s call).1 := by
  cases call with
  | connect => exact .refl
  | send data flags =>
      rw [resumeCall]
      split
      · exact tcpSendLoop_acts _ _ _ _
      · exact .refl
  | sendAck => exact .refl
  | receive size received flags =>
      rw [resumeCall]
      split
      · exact tcpReceiveLoop_acts _ _ _ _ _
      · exact .refl
  | flush how next =>
      rw [resumeCall]
      split
      · refine flush_acts how fun hready hstate => hfin next ?_
        simp only [sendsFin]
        rw [if_pos ⟨hready, hstate⟩]
        exact rfl
      · exact .refl
  | sendFin how next =>
      rw [resumeCall]
      split
      case isTrue hdone =>
        refine sendFin_acts how (hfin next ?_) hdone
        simp only [sendsFin]
        rw [if_pos hdone]
        exact rfl
      case isFalse => exact .refl
  | finAcked how => exact .refl
  | finReceived how => exact .refl

/-- The step may lose the connection: by a reset, by a timer that gives it up or by an abort. -/
def LosesConnection (s : Socket) : Event → Prop
  | .segment segment _ =>
      segment.flags.rst = true ∧ (acceptable s.rcv segment = true ∨ s.state = .synSent)
  | .tick elapsed => retransmitExhausted s elapsed ∨ probesExhausted s elapsed ∨
      s.state = .finWait2 ∧ elapsed.finWait2 = true
  | .abort => True
  | _ => False

/-- Where a reset of the connection is possible anyway. -/
structure Lossy (R : TcpState → Bool → Prop) : Prop where
  closed : ∀ b, R .closed b
  established : ∀ b, R .established b

theorem tcpProcessSegment_acts (s : Socket) (segment : Segment) (memory : Bool) (hR : Lossy R)
    (hloss : LosesConnection s (.segment segment memory) →
      R s.state (s.history.finAcked || acksFin s segment)) :
    Acts R K O s (tcpProcessSegment s segment memory) := by
  have hghost : Acts R K O s { s with history := { s.history with
      finAcked := s.history.finAcked || acksFin s segment } } := by
    by_cases hacks : acksFin s segment = true
    · rw [hacks, Bool.or_true]
      exact .single (.finAcked s segment hacks)
    · rw [Bool.not_eq_true] at hacks
      rw [hacks, Bool.or_false]
  refine hghost.trans ?_
  rw [tcpProcessSegment]
  -- an ACK of the FIN has been recorded
  have hacked : (s.state = .finWait1 ∨ s.state = .closing ∨ s.state = .lastAck) →
      segment.flags.ack = true → segment.ackNum = s.snd.sndNxt →
      (s.history.finAcked || acksFin s segment) = true := by
    intro hstate hack hnum
    have hacks : acksFin s segment = true := by
      rcases hstate with hstate | hstate | hstate <;> simp [acksFin, hstate, hack, hnum]
    rw [hacks, Bool.or_true]
  have hreset : segment.flags.rst = true → acceptable s.rcv segment = true →
      R s.state (s.history.finAcked || acksFin s segment) := fun hrst hacc =>
    hloss ⟨hrst, .inl hacc⟩
  generalize hs' : { s with history := { s.history with
      finAcked := s.history.finAcked || acksFin s segment } } = s'
  have hstate : s'.state = s.state := by rw [← hs']
  have hrcv : s'.rcv = s.rcv := by rw [← hs']
  have hsnd : s'.snd = s.snd := by rw [← hs']
  have hhistory : s'.history.finAcked = (s.history.finAcked || acksFin s segment) := by rw [← hs']
  rw [← hstate, ← hrcv, ← hhistory] at hreset
  rw [← hstate, ← hsnd, ← hhistory] at hacked
  split
  case h_1 => exact .refl
  case h_2 => exact (tcpStateListen_keeps s' segment memory).acts
  case h_3 h =>
    refine tcpStateSynSent_acts h fun hrst => ?_
    rw [hhistory, hstate]
    exact hloss ⟨hrst, .inr (hstate.symm.trans h)⟩
  case h_4 h =>
    exact tcpStateSynReceived_acts h fun hrst hacc => ⟨hreset hrst hacc, hR.established _⟩
  case h_5 h => exact tcpStateEstablished_acts h hreset
  case h_6 h => exact tcpStateCloseWait_acts h hreset
  case h_7 h => exact tcpStateLastAck_acts h (hacked (.inr (.inr h))) hreset
  case h_8 h => exact tcpStateFinWait1_acts h (hacked (.inl h)) hreset
  case h_9 h => exact tcpStateFinWait2_acts h hreset
  case h_10 h => exact tcpStateClosing_acts h (hacked (.inr (.inl h))) hreset
  case h_11 h => exact tcpStateTimeWait_acts h

/-- A socket that is taken into use has been closed. -/
theorem Event.Begins.closed {s : Socket} {event : Event} (h : event.Begins s)
    (hunused : s.type = .unused → s.state = .closed) : s.state = .closed := by
  cases event with
  | «open» | accept => exact hunused h
  | connect | listen => exact h
  | _ => exact h.elim

theorem endSection_socket (slot : Slot) (socket : Socket) (outcome : Outcome) :
    (slot.endSection socket outcome).socket = socket := by
  cases outcome <;> rfl

/-- **A step of a slot is a sequence of actions.** -/
theorem step_acts (slot : Slot) (event : Event) (hfin : FinInState slot event)
    (hunused : UnusedSocket K slot event) (hR : Lossy R)
    (hloss : LosesConnection slot.socket event →
      R slot.socket.state slot.socket.history.finAcked ∧ R slot.socket.state true)
    (hopens : event.Begins slot.socket → O) :
    Acts R K O slot.socket (step slot event).socket := by
  cases event with
  | «open» type port =>
      rw [step]
      split
      case isTrue h => exact .single (.opened _ (hopens h) type port h)
      case isFalse => exact .refl
  | accept listener sized port queueItem memory iss =>
      rw [step]
      split
      case isTrue h =>
        exact acceptConnection_acts listener sized h port queueItem memory iss hR.closed
          (hopens h)
      case isFalse => exact .refl
  | setTxBufferSize size =>
      rw [step, socketSetTxBufferSize]
      split
      · exact .refl
      case isFalse hsize =>
        split
        · exact .refl
        case isFalse h =>
          rw [not_or, not_not, not_not] at h
          exact .single (.resize _ _ _ h.2 (by simp [h.1]) (.inl rfl) fun hsized =>
            ⟨not_lt.1 fun h => hsize (.inl h), not_lt.1 fun h => hsize (.inr h), hsized.2.2⟩)
  | setRxBufferSize size =>
      rw [step, socketSetRxBufferSize]
      split
      · exact .refl
      case isFalse hsize =>
        split
        · exact .refl
        case isFalse h =>
          rw [not_or, not_not, not_not] at h
          exact .single (.resize _ _ _ h.2 (by simp [h.1]) (.inr (hunused h.2)) fun hsized =>
            ⟨hsized.1, hsized.2.1, not_lt.1 fun h => hsize (.inl h),
              not_lt.1 fun h => hsize (.inr h)⟩)
  | connect remoteIpAddr remotePort env =>
      rw [step]
      split
      case isTrue h =>
        rw [endSection_socket]
        exact tcpConnect_acts (by simp [h]) hunused remoteIpAddr remotePort env hopens
      case isFalse => exact .refl
  | listen backlog =>
      rw [step]
      split
      case isTrue h =>
        exact tcpListen_acts (by simp [h]) hunused backlog hopens
      case isFalse => exact .refl
  | dequeue =>
      exact (keeps_of ⟨rfl, rfl, rfl, rfl, rfl, rfl, rfl, rfl, rfl, rfl, rfl, rfl⟩ (.refl _) rfl :
        Keeps slot.socket (step slot .dequeue).socket).acts
  | send data flags =>
      rw [step]
      split
      · rw [endSection_socket]
        exact tcpSend_acts _ _ _
      · exact .refl
  | receive size flags =>
      rw [step]
      split
      · rw [endSection_socket]
        exact tcpReceive_acts _ _ _
      · exact .refl
  | shutdown how =>
      rw [step]
      split
      · rw [endSection_socket]
        exact tcpShutdown_acts _ _
      · exact .refl
  | abort =>
      rw [step]
      split
      · exact tcpAbort_acts _ fun _ => (hloss trivial).1
      · exact .refl
  | resume i missed =>
      rw [step]
      split
      · exact .refl
      case h_2 call hcall =>
        cases missed with
        | true => exact .refl
        | false =>
            simp only [Bool.false_eq_true, if_false]
            rw [endSection_socket]
            refine resumeCall_acts slot.socket call fun next hnext => hfin next ?_
            rw [hcall]
            exact hnext
  | segment segment memory =>
      rw [step]
      split
      · refine tcpProcessSegment_acts _ segment memory hR fun h => ?_
        rcases Bool.eq_false_or_eq_true (acksFin slot.socket segment) with hacks | hacks
        · rw [hacks, Bool.or_true]
          exact (hloss h).2
        · rw [hacks, Bool.or_false]
          exact (hloss h).1
      · exact .refl
  | tick elapsed =>
      rw [step]
      split
      · exact tcpTick_acts _ elapsed fun h => (hloss h).1
      · exact .refl

end Tcp
