import CycloneTcp.Core.TcpWindows

set_option autoImplicit false

/-! # Arrivals and emissions

`Act` tells what becomes of a connection, but neither what an arriving segment contributes nor what
is sent on the way. `Effect` tells both: data, acknowledgments and the SYN of the peer are those of
the segment that the step processes, and every segment that is handed to the network is empty or a
queued one, with the data that the send buffer holds for it. -/

namespace Tcp

/-! ## Segments that are sent -/

/-- The stream of the peer has ended; what has not been read of it can still be. -/
def Socket.Ended (s : Socket) : Prop :=
  s.state.finReceived = true ∨
    ((s.state = .closed ∨ s.state = .listen) ∧ s.closedFlag = true ∧ s.resetFlag = false)

/-- The SYN of the peer has been received, and the connection has not been lost. -/
def Socket.Heard (s : Socket) : Prop := s.state.Receiving ∨ s.Ended

/-- A window probe acknowledges, too, and the timer does not ask for the state. -/
def Socket.MayAck (s : Socket) : Prop := s.Heard ∨ s.snd.persistTimer = true

theorem heard_of {s : Socket} (h1 : s.state ≠ .closed) (h2 : s.state ≠ .listen)
    (h3 : s.state ≠ .synSent) : s.Heard := by
  revert h1 h2 h3
  cases hs : s.state <;> simp [Socket.Heard, Socket.Ended, hs, TcpState.Receiving,
    TcpState.finReceived]

theorem heard_of_synchronized {s : Socket} (h : s.state.synchronized = true) : s.Heard := by
  refine heard_of ?_ ?_ ?_ <;> intro hs <;> simp [hs, TcpState.synchronized] at h

/-- A segment that the socket may send: one without data that acknowledges what has been received,
if it acknowledges anything and is not a reset, or a segment of the queue. -/
inductive Emits (s : Socket) (segment : OutSegment) : Prop
  | control (hdata : segment.data = []) (hsyn : segment.header.flags.syn = false)
      (hfin : segment.header.flags.fin = false)
      (hack : segment.header.flags.ack = true → segment.header.flags.rst = false →
        segment.header.ackNum = s.rcv.rcvNxt ∧ s.MayAck)
  | queued (item : TcpQueueItem) (hopen : s.state ≠ .closed)
      (hmem : item ∈ s.snd.retransmitQueue) (hheader : segment.header = item.header)
      (hdata : segment.data
        = (tcpReadTxBuffer s.snd item.header.seqNum .empty item.length).2.data)

theorem tcpReadTxBuffer_congr {snd snd' : SendSide} (h : SendSide.Same snd snd') (q : UInt32)
    (buffer : FlatBuffer) (length : ℕ) :
    tcpReadTxBuffer snd' q buffer length = tcpReadTxBuffer snd q buffer length := by
  simp only [tcpReadTxBuffer, h.iss, h.txBuffer, h.txBufferSize]

theorem Emits.congr {s s' : Socket} {segment : OutSegment} (h : Emits s segment)
    (hrcv : s'.rcv.rcvNxt = s.rcv.rcvNxt) (hsnd : SendSide.Same s.snd s'.snd)
    (hopen : s.state ≠ .closed → s'.state ≠ .closed) (hmay : s.MayAck → s'.MayAck) :
    Emits s' segment := by
  cases h with
  | control hdata hsyn hfin hack =>
      refine .control hdata hsyn hfin fun hflag hrst => ?_
      obtain ⟨hnum, hs⟩ := hack hflag hrst
      exact ⟨hnum.trans hrcv.symm, hmay hs⟩
  | queued item hs hmem hheader hdata =>
      refine .queued item (hopen hs) ?_ hheader ?_
      · rw [hsnd.retransmitQueue]
        exact hmem
      · rw [tcpReadTxBuffer_congr hsnd]
        exact hdata

theorem Emits.addItem {s : Socket} {segment : OutSegment} (h : Emits s segment)
    (item : TcpQueueItem) : Emits (s.addItem item) segment := by
  cases h with
  | control hdata hsyn hfin hack => exact .control hdata hsyn hfin hack
  | queued other hs hmem hheader hdata =>
      exact .queued other hs (List.mem_append.2 (.inl hmem)) hheader hdata

/-- The segments sent on the way from `s` to `s'` are such that `s'` may send. -/
def Sends (s s' : Socket) : Prop :=
  ∃ new, s'.net.sent = s.net.sent ++ new ∧ ∀ entry ∈ new, Emits s' entry.2

theorem Sends.of_sent {s s' : Socket} (h : s'.net.sent = s.net.sent) : Sends s s' :=
  ⟨[], by rw [h, List.append_nil], by simp⟩

/-- The persist timer is started on a connection past the handshake only. -/
def KeepsTimer (s s' : Socket) : Prop :=
  s'.snd.persistTimer = s.snd.persistTimer ∨ s.state.synchronized = true

theorem KeepsTimer.trans {a b c : Socket} (h : KeepsTimer a b) (h' : KeepsTimer b c)
    (hstate : b.state = a.state) : KeepsTimer a c := by
  rw [KeepsTimer, hstate] at h'
  rcases h' with h' | h'
  · exact h.imp_left h'.trans
  · exact .inr h'

theorem Socket.MayAck.congr {s s' : Socket} (h : s.MayAck) (hsame : Socket.Same s s')
    (htimer : KeepsTimer s s') : s'.MayAck := by
  have hheard : s.Heard → s'.Heard := by
    rw [Socket.Heard, Socket.Heard, Socket.Ended, Socket.Ended, hsame.state, hsame.closedFlag,
      hsame.resetFlag]
    exact id
  rcases h with h | h
  · exact .inl (hheard h)
  · rcases htimer with htimer | hstate
    · exact .inr (htimer.trans h)
    · exact .inl (hheard (heard_of_synchronized hstate))

/-- Changes as in `Keeps`. -/
structure Orderly (s s' : Socket) : Prop where
  keeps : Keeps s s'
  sends : Sends s s'
  timer : KeepsTimer s s'

/-- Changes as in `Quiet`. -/
structure Still (s s' : Socket) : Prop where
  quiet : Quiet s s'
  sends : Sends s s'
  timer : KeepsTimer s s'

theorem Sends.trans {a b c : Socket} (h : Sends a b) (h' : Sends b c) (hsame : Socket.Same b c)
    (hsnd : SendSide.Same b.snd c.snd) (htimer : KeepsTimer b c) : Sends a c := by
  obtain ⟨xs, hxs, hx⟩ := h
  obtain ⟨ys, hys, hy⟩ := h'
  refine ⟨xs ++ ys, by rw [hys, hxs, List.append_assoc], ?_⟩
  intro entry hmem
  rcases List.mem_append.1 hmem with hmem | hmem
  · exact (hx entry hmem).congr (by rw [hsame.rcv]) hsnd (by rw [hsame.state]; exact id)
      fun hmay => hmay.congr hsame htimer
  · exact hy entry hmem

theorem Orderly.refl (s : Socket) : Orderly s s := ⟨.refl s, .of_sent rfl, .inl rfl⟩

theorem Orderly.trans {a b c : Socket} (h : Orderly a b) (h' : Orderly b c) : Orderly a c :=
  ⟨h.keeps.trans h'.keeps, h.sends.trans h'.sends h'.keeps.same h'.keeps.snd h'.timer,
    h.timer.trans h'.timer h.keeps.same.state⟩

theorem Still.orderly {s s' : Socket} (h : Still s s') : Orderly s s' :=
  ⟨h.quiet.keeps, h.sends, h.timer⟩

theorem Still.refl (s : Socket) : Still s s := ⟨(NetOnly.refl s).quiet, .of_sent rfl, .inl rfl⟩

theorem Still.trans {a b c : Socket} (h : Still a b) (h' : Still b c) : Still a c :=
  ⟨h.quiet.trans h'.quiet, h.sends.trans h'.sends h'.quiet.same h'.quiet.snd h'.timer,
    h.timer.trans h'.timer h.quiet.same.state⟩

theorem still_of {s s' : Socket} (hsame : Socket.Same s s') (hsnd : SendSide.Same s.snd s'.snd)
    (hnet : s'.net = s.net) (htimer : s'.snd.persistTimer = s.snd.persistTimer) : Still s s' :=
  ⟨quiet_of hsame hsnd hnet, .of_sent (by rw [hnet]), .inl htimer⟩

/-- A change of the send side that the data of the connection does not depend on. -/
theorem still_snd (s : Socket) {snd : SendSide} (h : SendSide.Same s.snd snd)
    (htimer : snd.persistTimer = s.snd.persistTimer) : Still s { s with snd := snd } :=
  still_of ⟨rfl, rfl, rfl, rfl, rfl, rfl, rfl, rfl, rfl, rfl, rfl, rfl⟩ h rfl htimer

theorem orderly_snd (s : Socket) {snd : SendSide} (h : SendSide.Same s.snd snd)
    (htimer : snd.persistTimer = s.snd.persistTimer) : Orderly s { s with snd := snd } :=
  (still_snd s h htimer).orderly

/-- A change of the send side past the handshake. -/
theorem orderly_window (s : Socket) {snd : SendSide} (h : SendSide.Same s.snd snd)
    (hstate : s.state.synchronized = true) : Orderly s { s with snd := snd } := by
  have hquiet : Quiet s { s with snd := snd } :=
    quiet_of ⟨rfl, rfl, rfl, rfl, rfl, rfl, rfl, rfl, rfl, rfl, rfl, rfl⟩ h rfl
  exact ⟨hquiet.keeps, .of_sent rfl, .inr hstate⟩

/-- The state changes to one in which the SYN of the peer has been received. -/
theorem Still.changeState {s s' : Socket} (h : Still s s') {next : TcpState}
    (hnext : next.Receiving ∨ next.finReceived = true)
    (htimer : next.synchronized = true ∨ s.state.synchronized = false) :
    Still (tcpChangeState s next) (tcpChangeState s' next) := by
  refine ⟨h.quiet.changeState next, ?_, ?_⟩
  · obtain ⟨new, hsent, hnew⟩ := h.sends
    refine ⟨new, by simpa using hsent, fun entry hmem => ?_⟩
    refine (hnew entry hmem).congr (by simp) (by rw [tcpChangeState_snd]; exact .refl _) ?_
      fun _ => .inl (hnext.imp_right .inl)
    intro _ hclosed
    rw [tcpChangeState_state] at hclosed
    rw [hclosed] at hnext
    simp [TcpState.Receiving, TcpState.finReceived] at hnext
  · rcases htimer with htimer | htimer
    · exact .inr htimer
    · rcases h.timer with hsame | hstate
      · exact .inl (by rw [tcpChangeState_snd, tcpChangeState_snd, hsame])
      · rw [htimer] at hstate
        exact Bool.noConfusion hstate

theorem Still.addItem {s s' : Socket} (h : Still s s') (item : TcpQueueItem) :
    Still (s.addItem item) (s'.addItem item) := by
  refine ⟨h.quiet.addItem item, ?_, h.timer⟩
  obtain ⟨new, hsent, hnew⟩ := h.sends
  exact ⟨new, hsent, fun entry hmem => (hnew entry hmem).addItem item⟩

theorem Orderly.advance {s s' : Socket} (h : Orderly s s') (n : ℕ) :
    Orderly (s.advance n) (s'.advance n) := by
  refine ⟨h.keeps.advance n, ?_, h.timer⟩
  obtain ⟨new, hsent, hnew⟩ := h.sends
  refine ⟨new, hsent, fun entry hmem => ?_⟩
  cases hnew entry hmem with
  | control hdata hsyn hfin hack => exact .control hdata hsyn hfin hack
  | queued item hs hitem hheader hdata => exact .queued item hs hitem hheader hdata

/-! ### `tcpSendSegment` -/

theorem netBufferConcat_zero (dest src : FlatBuffer) (offset : ℕ) :
    (dest.netBufferConcat src offset 0).2.length = dest.length := by
  rw [FlatBuffer.netBufferConcat]
  split
  · rfl
  · simp

/-- Nothing is read for a segment without data. -/
theorem tcpReadTxBuffer_nil (snd : SendSide) (q : UInt32) :
    (tcpReadTxBuffer snd q .empty 0).2.data = [] := by
  have hlength : (tcpReadTxBuffer snd q .empty 0).2.length = 0 := by
    simp only [tcpReadTxBuffer]
    split
    · exact netBufferConcat_zero _ _ _
    case isFalse h =>
      have hpart : snd.txBufferSize - (q - snd.iss - 1).toNat % snd.txBufferSize = 0 := by omega
      rw [hpart]
      split
      · rw [netBufferConcat_zero, netBufferConcat_zero]
        rfl
      · exact netBufferConcat_zero _ _ _
  rw [FlatBuffer.data, hlength]
  rfl

theorem payload_data {snd : SendSide} {c : Bool} {q : UInt32} {n : ℕ}
    (h : (snd.payload c q n).1 = .noError) :
    (snd.payload c q n).2.data = (tcpReadTxBuffer snd q .empty n).2.data := by
  rw [SendSide.payload] at h ⊢
  split
  case isTrue hzero =>
    rw [hzero, tcpReadTxBuffer_nil]
    rfl
  case isFalse hpos =>
    rw [if_neg hpos] at h
    split
    case isTrue hchunks => rw [if_pos hchunks] at h; exact absurd h (by simp)
    case isFalse => rfl

/-- What `tcpSendSegment` does, with the data of the segment. -/
theorem tcpSendSegment_payload (s : Socket) (flags : TcpFlags) (seqNum ackNum : UInt32)
    (length : ℕ) (addToQueue : Bool) :
    (∃ error, error ≠ ErrorCode.noError ∧
      tcpSendSegment s flags seqNum ackNum length addToQueue
        = (error, { s with net := s.net.next })) ∨
    (∃ data, data = (tcpReadTxBuffer s.snd seqNum .empty length).2.data ∧
      tcpSendSegment s flags seqNum ackNum length addToQueue
      = ((s.net.outcomes 0).ip,
        { s with
          snd := if addToQueue then s.snd.enqueue (s.header flags seqNum ackNum) length else s.snd
          net := s.net.next.send s.state
            { header := s.header flags seqNum ackNum, data := data } })) := by
  by_cases h1 : (s.net.outcomes 0).buffer = false
  · exact .inl ⟨.outOfMemory, by simp, by simp only [tcpSendSegment, if_pos h1]⟩
  by_cases h2 : (s.snd.payload (s.net.outcomes 0).chunks seqNum length).1 ≠ .noError
  · exact .inl ⟨_, h2, by simp only [tcpSendSegment, if_neg h1, if_pos h2]⟩
  by_cases h3 : s.remoteIpAddr = .unspecified
  · exact .inl ⟨.invalidAddress, by simp,
      by simp only [tcpSendSegment, if_neg h1, if_neg h2, if_pos h3]⟩
  by_cases h4 : addToQueue = true ∧ (s.net.outcomes 0).item = false
  · exact .inl ⟨.outOfMemory, by simp,
      by simp only [tcpSendSegment, if_neg h1, if_neg h2, if_neg h3, if_pos h4]⟩
  · refine .inr ⟨_, payload_data (c := (s.net.outcomes 0).chunks) (not_not.1 h2), ?_⟩
    simp only [tcpSendSegment, if_neg h1, if_neg h2, if_neg h3, if_neg h4]

theorem sends_next (s : Socket) : Sends s { s with net := s.net.next } := .of_sent rfl

/-- A segment without data that is not queued. -/
theorem tcpSendSegment_emits (s : Socket) (flags : TcpFlags) (seqNum ackNum : UInt32)
    (hsyn : flags.syn = false) (hfin : flags.fin = false) {s' : Socket}
    (hack : flags.ack = true → flags.rst = false → ackNum = s'.rcv.rcvNxt ∧ s'.MayAck) :
    ∃ new, (tcpSendSegment s flags seqNum ackNum 0 false).2.net.sent = s.net.sent ++ new ∧
      ∀ entry ∈ new, Emits s' entry.2 := by
  rcases tcpSendSegment_payload s flags seqNum ackNum 0 false with ⟨_, -, h⟩ | ⟨data, hdata, h⟩
  · rw [h]
    exact ⟨[], by simp [Network.next], by simp⟩
  · rw [h]
    refine ⟨[_], rfl, fun entry hmem => ?_⟩
    rw [List.mem_singleton.1 hmem]
    refine .control (hdata.trans (tcpReadTxBuffer_nil _ _)) hsyn hfin fun hflag hrst => ?_
    change (if flags.ack = true then ackNum else 0) = s'.rcv.rcvNxt ∧ s'.MayAck
    replace hflag : flags.ack = true := hflag
    rw [if_pos hflag]
    exact hack hflag hrst

theorem tcpSendSegment_timer (s : Socket) (flags : TcpFlags) (seqNum ackNum : UInt32) (length : ℕ)
    (addToQueue : Bool) :
    KeepsTimer s (tcpSendSegment s flags seqNum ackNum length addToQueue).2 :=
  .inl (tcpSendSegment_level s flags seqNum ackNum length addToQueue).persistTimer

theorem tcpSendSegment_still (s : Socket) (flags : TcpFlags) (seqNum ackNum : UInt32)
    (hfin : flags.fin = false) (hsyn : flags.syn = false)
    (hack : flags.ack = true → flags.rst = false → ackNum = s.rcv.rcvNxt ∧ s.MayAck) :
    Still s (tcpSendSegment s flags seqNum ackNum 0 false).2 := by
  have hnet := (tcpSendSegment_netOnly s flags seqNum ackNum 0 hfin).quiet
  have htimer := tcpSendSegment_timer s flags seqNum ackNum 0 false
  refine ⟨hnet, tcpSendSegment_emits s flags seqNum ackNum hsyn hfin fun hflag hrst => ?_, htimer⟩
  obtain ⟨hnum, hmay⟩ := hack hflag hrst
  exact ⟨by rw [hnet.same.rcv]; exact hnum, hmay.congr hnet.same htimer⟩

theorem tcpSendAck_still {s : Socket} (h : s.Heard) : Still s (tcpSendAck s) :=
  tcpSendSegment_still s _ _ _ rfl rfl fun _ _ => ⟨rfl, .inl h⟩

/-- An ACK that is sent before the state changes. -/
theorem tcpSendAck_changeState (s : Socket) {next : TcpState}
    (hnext : next.Receiving ∨ next.finReceived = true) :
    Still (tcpChangeState s next) (tcpChangeState (tcpSendAck s) next) := by
  have hnet := (tcpSendSegment_netOnly s { ack := true } s.snd.sndNxt s.rcv.rcvNxt 0 rfl).quiet
  refine ⟨hnet.changeState next, ?_, .inl ?_⟩
  · have hrcv : s.rcv.rcvNxt = (tcpChangeState (tcpSendAck s) next).rcv.rcvNxt := by
      rw [tcpChangeState_rcv]
      exact (congrArg ReceiveSide.rcvNxt hnet.same.rcv).symm
    obtain ⟨new, hsent, hnew⟩ := tcpSendSegment_emits s { ack := true } s.snd.sndNxt s.rcv.rcvNxt
      rfl rfl fun _ _ => ⟨hrcv, .inl (hnext.imp_right .inl)⟩
    exact ⟨new, by simpa [tcpSendAck] using hsent, hnew⟩
  · rw [tcpChangeState_snd, tcpChangeState_snd]
    exact (tcpSendAck_level s).persistTimer

/-- A queued segment: it is queued if it is sent, and may be queued if sending fails. -/
theorem tcpSendSegment_added (s : Socket) (flags : TcpFlags) (seqNum ackNum : UInt32) (length : ℕ)
    (hopen : s.state ≠ .closed) :
    let r := tcpSendSegment s flags seqNum ackNum length true
    (Orderly (s.addItem (s.queueItem flags seqNum ackNum length)) r.2 ∧
        (flags.fin = false → Still (s.addItem (s.queueItem flags seqNum ackNum length)) r.2)) ∨
      (r.1 ≠ .noError ∧ Still s r.2) := by
  intro r
  rcases tcpSendSegment_payload s flags seqNum ackNum length true with ⟨error, herror, h⟩ |
    ⟨data, hdata, h⟩
  · right
    have hr : r = (error, { s with net := s.net.next }) := h
    rw [hr]
    exact ⟨herror, NetOnly.quiet ⟨_, rfl, sendsOnly_next _ _ _⟩, sends_next s, .inl rfl⟩
  · left
    have hsame := enqueue_same s.snd (s.header flags seqNum ackNum) length _ rfl
    simp only [r, h, if_true]
    generalize hitem : s.queueItem flags seqNum ackNum length = item
    have hheader : s.header flags seqNum ackNum = item.header := by rw [← hitem]; rfl
    have hadded : item ∈ (s.addItem item).snd.retransmitQueue :=
      List.mem_append.2 (.inr (List.mem_singleton.2 rfl))
    have htimer : (s.snd.enqueue (s.header flags seqNum ackNum) length).persistTimer
        = s.snd.persistTimer :=
      (enqueue_level s (s.header flags seqNum ackNum) length s.net).persistTimer
    have hsends : Sends (s.addItem item) { s with
        snd := s.snd.enqueue (s.header flags seqNum ackNum) length
        net := s.net.next.send s.state
          { header := s.header flags seqNum ackNum, data := data } } := by
      refine ⟨[_], rfl, fun entry hmem => ?_⟩
      rw [List.mem_singleton.1 hmem]
      have hemits : Emits (s.addItem item)
          { header := s.header flags seqNum ackNum, data := data } := by
        refine .queued item hopen hadded hheader ?_
        rw [hdata, ← hitem]
        rfl
      subst hitem
      exact hemits.congr rfl hsame id (Or.imp_right htimer.trans)
    subst hitem
    have hsocket : Socket.Same (s.addItem (s.queueItem flags seqNum ackNum length)) { s with
        snd := s.snd.enqueue (s.header flags seqNum ackNum) length
        net := s.net.next.send s.state
          { header := s.header flags seqNum ackNum, data := data } } :=
      ⟨rfl, rfl, rfl, rfl, rfl, rfl, rfl, rfl, rfl, rfl, rfl, rfl⟩
    refine ⟨⟨⟨hsocket, hsame, ?_⟩, hsends, .inl htimer⟩,
      fun hno => ⟨⟨hsocket, hsame, ?_⟩, hsends, .inl htimer⟩⟩
    · refine sendsOnly_send _ fun _ => ?_
      rw [if_neg (show ¬ (s.addItem _).state = .closed from hopen)]
      exact List.mem_map.2 ⟨_, hadded, rfl⟩
    · refine sendsOnly_send _ fun hf => ?_
      rw [show s.header flags seqNum ackNum = _ from rfl, Socket.header] at hf
      exact absurd (hno.symm.trans hf) (by simp)

/-! ### Retransmission -/

theorem retransmitLoop_emits {s : Socket} (hopen : s.state ≠ .closed) (net : Network) (length : ℕ)
    (queue : List TcpQueueItem) (hqueue : queue ⊆ s.snd.retransmitQueue) :
    ∃ new, (retransmitLoop s.state s.snd net length queue).2.sent = net.sent ++ new ∧
      ∀ entry ∈ new, Emits s entry.2 := by
  induction queue generalizing net length with
  | nil => exact ⟨[], by simp [retransmitLoop], by simp⟩
  | cons queueItem queue ih =>
      have hitem : queueItem ∈ s.snd.retransmitQueue := hqueue (by simp)
      have hrest : queue ⊆ s.snd.retransmitQueue := fun item hmem => hqueue (by simp [hmem])
      simp only [retransmitLoop]
      split
      · exact ⟨[], by simp, by simp⟩
      split
      · exact ⟨[], by simp [Network.next], by simp⟩
      split
      · exact ⟨[], by simp [Network.next], by simp⟩
      split
      · exact ⟨[], by simp [Network.next], by simp⟩
      split
      · refine ⟨[_], rfl, fun entry hmem => ?_⟩
        rw [List.mem_singleton.1 hmem]
        exact .queued queueItem hopen hitem rfl rfl
      · obtain ⟨new, hsent, hnew⟩ := ih (net.next.send s.state {
          header := queueItem.header
          data := (tcpReadTxBuffer s.snd queueItem.header.seqNum .empty queueItem.length).2.data })
          (length + queueItem.length) hrest
        refine ⟨_ :: new, by rw [hsent]; simp [Network.send, Network.next]; rfl, ?_⟩
        intro entry hmem
        rcases List.mem_cons.1 hmem with rfl | hmem
        · exact .queued queueItem hopen hitem rfl rfl
        · exact hnew entry hmem

theorem tcpRetransmitSegment_orderly (s : Socket) (h : s.state ≠ .closed) :
    Orderly s (tcpRetransmitSegment s) := by
  refine ⟨tcpRetransmitSegment_keeps s h, ?_, .inl rfl⟩
  obtain ⟨new, hsent, hnew⟩ := retransmitLoop_emits h s.net 0 s.snd.retransmitQueue
    (List.Subset.refl _)
  exact ⟨new, hsent, fun entry hmem => (hnew entry hmem).congr rfl (.refl _) id id⟩

/-! ### Congestion control -/

theorem limitCwnd_orderly (s : Socket) : Orderly s { s with snd := s.snd.limitCwnd } :=
  orderly_snd s ⟨rfl, rfl, rfl, rfl, rfl, rfl, rfl⟩ rfl

theorem tcpFastRetransmit_orderly (s : Socket) (h : s.state ≠ .closed) :
    Orderly s (tcpFastRetransmit s) := by
  have hset : Orderly s { s with snd := { s.snd with
      ssthresh := UInt16.ofNat (max (s.snd.flightSize.toNat / 2) (2 * s.snd.smss.toNat))
      recover := s.snd.sndNxt - 1 } } := orderly_snd s ⟨rfl, rfl, rfl, rfl, rfl, rfl, rfl⟩ rfl
  exact (hset.trans (tcpRetransmitSegment_orderly _ h)).trans
    (orderly_snd _ ⟨rfl, rfl, rfl, rfl, rfl, rfl, rfl⟩ rfl)

theorem tcpFastRecovery_orderly (s : Socket) (segment : Segment) (n : UInt32)
    (h : s.state ≠ .closed) : Orderly s (tcpFastRecovery s segment n) := by
  simp only [tcpFastRecovery]
  split
  · exact orderly_snd s ⟨rfl, rfl, rfl, rfl, rfl, rfl, rfl⟩ rfl
  · refine (tcpRetransmitSegment_orderly s h).trans ?_
    exact orderly_snd _ ⟨rfl, rfl, rfl, rfl, rfl, rfl, rfl⟩ rfl

theorem tcpFastLossRecovery_orderly (s : Socket) (segment : Segment) (h : s.state ≠ .closed) :
    Orderly s (tcpFastLossRecovery s segment) := by
  simp only [tcpFastLossRecovery]
  split
  · exact orderly_snd s ⟨rfl, rfl, rfl, rfl, rfl, rfl, rfl⟩ rfl
  · refine (tcpRetransmitSegment_orderly s h).trans ?_
    exact orderly_snd _ ⟨rfl, rfl, rfl, rfl, rfl, rfl, rfl⟩ rfl

theorem growCwnd_timer (snd : SendSide) (n : UInt32) (updateFlag : Bool) :
    (snd.growCwnd n updateFlag).persistTimer = snd.persistTimer := by
  simp only [SendSide.growCwnd]
  split_ifs <;> rfl

theorem congestionOnAck_orderly (s : Socket) (segment : Segment) (n : UInt32) (updateFlag : Bool)
    (h : s.state ≠ .closed) : Orderly s (congestionOnAck s segment n updateFlag) := by
  simp only [congestionOnAck]
  split
  · exact tcpFastRecovery_orderly s segment n h
  · have hreset : Orderly s { s with snd := { s.snd with dupAckCount := 0 } } :=
      orderly_snd s ⟨rfl, rfl, rfl, rfl, rfl, rfl, rfl⟩ rfl
    split
    · refine (hreset.trans (tcpFastLossRecovery_orderly _ segment h)).trans ?_
      exact orderly_snd _ (growCwnd_same _ _ _) (growCwnd_timer _ _ _)
    · exact hreset.trans (orderly_snd _ (growCwnd_same _ _ _) (growCwnd_timer _ _ _))

theorem ackNewData_orderly (s : Socket) (segment : Segment) (h : s.state ≠ .closed) :
    Orderly (s.ackTo segment.ackNum) (ackNewData s segment) := by
  simp only [ackNewData]
  have htake : Orderly (s.ackTo segment.ackNum)
      { s with snd := (s.snd.takeAck segment.ackNum).2 } :=
    orderly_snd _ (takeAck_same s segment.ackNum) (takeAck_level s segment.ackNum).persistTimer
  exact (htake.trans (congestionOnAck_orderly _ segment _ _ h)).trans (limitCwnd_orderly _)

theorem congestionOnDupAck_orderly (s : Socket) (segment : Segment) (duplicateFlag : Bool)
    (h : s.state ≠ .closed) : Orderly s (congestionOnDupAck s segment duplicateFlag) := by
  simp only [congestionOnDupAck]
  split
  · split
    · exact tcpFastRetransmit_orderly s h
    · exact .refl s
  · split
    · exact orderly_snd s ⟨rfl, rfl, rfl, rfl, rfl, rfl, rfl⟩ rfl
    · exact .refl s
  · exact .refl s

theorem ackNoData_orderly (s : Socket) (segment : Segment) (duplicateFlag : Bool)
    (h : s.state ≠ .closed) : Orderly s (ackNoData s segment duplicateFlag) := by
  have hcount : Orderly s { s with snd := { s.snd with
      dupAckCount := if duplicateFlag then s.snd.dupAckCount + 1 else 0 } } :=
    orderly_snd s ⟨rfl, rfl, rfl, rfl, rfl, rfl, rfl⟩ rfl
  exact (hcount.trans (congestionOnDupAck_orderly _ segment duplicateFlag h)).trans
    (limitCwnd_orderly _)

/-! ## Effects -/

/-- The actions, with what they take from the segment `arrived`, of which only `text` may add to the
incoming stream. No connection begins, and either a FIN is sent, if the step `shuts` the outgoing
stream, or data is written. -/
inductive Effect (text arrived : Option Segment) (shuts : Prop) : Socket → Socket → Prop
  | orderly {s s' : Socket} (h : Orderly s s') : Effect text arrived shuts s s'
  | ack (s : Socket) (segment : Segment) (harrived : arrived = some segment)
      (hflag : segment.flags.ack = true) (hrst : segment.flags.rst = false)
      (hpos : 0 < tcpCmpSeq segment.ackNum s.snd.sndUna)
      (hle : tcpCmpSeq segment.ackNum s.snd.sndNxt ≤ 0) :
      Effect text arrived shuts s (s.ackTo segment.ackNum)
  | sendData (s : Socket) (item : TcpQueueItem) (sent : Bool)
      (hstate : s.state = .established ∨ s.state = .closeWait)
      (hseq : item.header.seqNum = s.snd.sndNxt) (hack : item.header.ackNum = s.rcv.rcvNxt)
      (hsyn : item.header.flags.syn = false) (hfin : item.header.flags.fin = false)
      (hlen : item.length ≤ s.snd.sndUser.toNat) :
      Effect text arrived shuts s
        (if sent then (s.addItem item).advance item.length else s.addItem item)
  | write (s : Socket) (data : List UInt8) (n : ℕ) (hwrites : ¬ shuts)
      (hstate : s.state = .established ∨ s.state = .closeWait) (hpos : 0 < n)
      (hn : n ≤ data.length) (hroom : s.snd.pending.toNat + n ≤ s.snd.txBufferSize) :
      Effect text arrived shuts s (copyUserData s data n)
  | data (s : Socket) (segment : Segment) (htext : text = some segment)
      (hstate : s.state = .established ∨ s.state = .finWait1 ∨ s.state = .finWait2)
      (hacc : acceptable s.rcv segment = true) (hlen : 0 < segment.length) :
      Effect text arrived shuts s { s with rcv := receiveData s.rcv segment }
  | fin (s : Socket) (segment : Segment) (next : TcpState) (harrived : arrived = some segment)
      (hfin : finInOrder s segment = true)
      (hnext : (s.state = .established ∧ next = .closeWait) ∨
        (s.state = .finWait1 ∧ next = .closing) ∨ (s.state = .finWait2 ∧ next = .timeWait)) :
      Effect text arrived shuts s (s.passFin next)
  | finAcked (s : Socket) (segment : Segment) (h : acksFin s segment = true) :
      Effect text arrived shuts s { s with history := { s.history with finAcked := true } }
  | finWait2 (s : Socket) (hstate : s.state = .finWait1) (hacked : s.history.finAcked = true) :
      Effect text arrived shuts s (tcpChangeState s .finWait2)
  | timeWait (s : Socket) (hstate : s.state = .closing) (hacked : s.history.finAcked = true) :
      Effect text arrived shuts s (tcpChangeState (tcpDeleteControlBlock s) .timeWait)
  | synSent (s : Socket) (segment : Segment) (next : TcpState) (htext : text = none)
      (harrived : arrived = some segment) (hsyn : segment.flags.syn = true)
      (hrst : segment.flags.rst = false) (hstate : s.state = .synSent)
      (hack : segment.flags.ack = true → segment.ackNum = s.snd.sndNxt)
      (hnext : (next = .established ∧ 0 < tcpCmpSeq (s.unaOnSyn segment) s.snd.iss) ∨
        (next = .synReceived ∧ tcpCmpSeq (s.unaOnSyn segment) s.snd.iss ≤ 0)) :
      Effect text arrived shuts s (s.passSyn segment next)
  | established (s : Socket) (hstate : s.state = .synReceived) :
      Effect text arrived shuts s (tcpChangeState s .established)
  | finish (s : Socket)
      (h : (s.state = .lastAck ∧ s.history.finAcked = true) ∨ s.state = .timeWait) :
      Effect text arrived shuts s (tcpChangeState s .closed)
  | reset (s : Socket) : Effect text arrived shuts s (tcpChangeState s .closed)
  | dispose (s : Socket) (hstate : s.state = .closed) :
      Effect text arrived shuts s (disposeSocket s)
  | disown (s : Socket) (hstate : s.state = .timeWait) :
      Effect text arrived shuts s { s with ownedFlag := false }
  | addFin (s : Socket) (next : TcpState) (item : TcpQueueItem) (hshuts : shuts)
      (hallowed : FinAllowed s.state next) (hdone : s.txDone = true)
      (hseq : item.header.seqNum = s.snd.sndNxt) (hack : item.header.ackNum = s.rcv.rcvNxt)
      (hsyn : item.header.flags.syn = false) (hfin : item.header.flags.fin = true)
      (hlen : item.length = 0) :
      Effect text arrived shuts s { s.addItem item with
        net := s.net.next.send s.state { header := item.header, data := [] } }
  | leave (s : Socket) (next : TcpState) (hallowed : FinAllowed s.state next)
      (hdone : s.txDone = true) (item : TcpQueueItem) (hmem : item ∈ s.snd.retransmitQueue)
      (hseq : item.header.seqNum = s.snd.sndNxt) (hsyn : item.header.flags.syn = false)
      (hfin : item.header.flags.fin = true) (hlen : item.length = 0) :
      Effect text arrived shuts s (tcpChangeState
        { s with snd := { s.snd with sndNxt := s.snd.sndNxt + 1 } } next)
  | read (s : Socket) (seqNum : UInt32) (received n : ℕ) (flags : SocketFlags)
      (hready : s.rxReady = true) (hbuffer : 0 < s.rcv.rxBuffer.length)
      (hseq : firstUnread s received = .ok seqNum) (hpos : 0 < n) (hn : n ≤ s.rcv.rcvUser.toNat) :
      Effect text arrived shuts s (s.readData (copyReceived s.rcv seqNum n flags))
  | resize (s : Socket) (txBufferSize rxBufferSize : ℕ) (hstate : s.state = .closed)
      (htype : s.type ≠ .unused)
      (hflag : rxBufferSize = s.rcv.rxBufferSize ∨ s.closedFlag = false)
      (hsized : s.Sized → 1 ≤ txBufferSize ∧ txBufferSize ≤ TCP_MAX_TX_BUFFER_SIZE ∧
        1 ≤ rxBufferSize ∧ rxBufferSize ≤ TCP_MAX_RX_BUFFER_SIZE) :
      Effect text arrived shuts s { s with
        snd := { s.snd with txBufferSize := txBufferSize }
        rcv := { s.rcv with rxBufferSize := rxBufferSize } }
  | addSyn (s : Socket) (item : TcpQueueItem) (hstate : s.state = .synReceived)
      (hsyn : item.header.flags.syn = true) (hfin : item.header.flags.fin = false)
      (hlen : item.length = 0) (hseq : item.header.seqNum = s.snd.iss)
      (hack : item.header.flags.ack = true → item.header.ackNum = s.rcv.rcvNxt) :
      Effect text arrived shuts s (s.addItem item)

/-- A sequence of effects. -/
abbrev Effects (text arrived : Option Segment) (shuts : Prop) : Socket → Socket → Prop :=
  Relation.ReflTransGen (Effect text arrived shuts)

variable {T A : Option Segment} {F : Prop}

/-- An effect is an action. -/
theorem Effect.act {K : Remains} {s s' : Socket} (h : Effect T A F s s') :
    Act (fun _ _ => True) K False s s' := by
  cases h with
  | orderly h => exact .keep h.keeps
  | ack segment _ _ _ hpos hle => exact .ack s _ hpos hle
  | sendData item sent hstate hseq _ hsyn hfin hlen =>
      exact .sendData s item sent hstate hseq hsyn hfin hlen
  | write data n _ hstate hpos hn hroom => exact .write s data n hstate hpos hn hroom
  | data segment _ hstate hacc hlen => exact .data s segment hstate hacc hlen
  | fin segment next _ hfin hnext => exact .fin s segment next hfin hnext
  | finAcked segment h => exact .finAcked s segment h
  | finWait2 hstate hacked => exact .finWait2 s hstate hacked
  | timeWait hstate hacked => exact .timeWait s hstate hacked
  | synSent segment next _ _ _ _ hstate hack hnext =>
      exact .synSent s segment next hstate hack hnext
  | established hstate => exact .established s hstate
  | finish h => exact .finish s h
  | reset => exact .reset s trivial
  | dispose hstate => exact .dispose s hstate
  | disown hstate => exact .disown s hstate
  | addFin next item _ hallowed _ hseq _ hsyn hfin hlen =>
      exact .addFin s next item [] hallowed hseq hsyn hfin hlen
  | leave next hallowed hdone item hmem hseq hsyn hfin hlen =>
      exact .leave s next hallowed hdone item hmem hseq hsyn hfin hlen
  | read seqNum received n flags _ _ hseq hpos hn =>
      exact .read s seqNum received n flags hseq hpos hn
  | resize txBufferSize rxBufferSize hstate htype hflag hsized =>
      exact .resize s txBufferSize rxBufferSize hstate htype (hflag.imp_right fun h _ => h) hsized
  | addSyn item hstate hsyn hfin hlen hseq _ =>
      exact .addSyn s item (.inr hstate) hsyn hfin hlen hseq

theorem Orderly.effects {s s' : Socket} (h : Orderly s s') : Effects T A F s s' :=
  .single (.orderly h)

theorem Still.effects {s s' : Socket} (h : Still s s') : Effects T A F s s' := h.orderly.effects

/-! ## Incoming segments -/

/-- An ACK acknowledges data that has been sent, or nothing. -/
theorem tcpCheckAck_effects (s : Socket) (segment : Segment) (hstate : s.state.synchronized = true)
    (harrived : A = some segment) (hrst : segment.flags.rst = false) :
    Effects T A F s (tcpCheckAck s segment).2 := by
  have h : s.state ≠ .closed := by
    intro hs
    rw [hs] at hstate
    exact Bool.noConfusion hstate
  simp only [tcpCheckAck]
  have hwindow : Orderly s { s with snd := tcpUpdateSendWindow s.snd segment } :=
    orderly_window s (tcpUpdateSendWindow_same s.snd segment) hstate
  split
  · exact .refl
  case isFalse hflag =>
    split
    · exact .refl
    split
    · exact (tcpSendAck_still (heard_of_synchronized hstate)).effects
    case isFalse hnxt =>
      rw [(tcpUpdateSendWindow_same s.snd segment).sndUna]
      split
      case isTrue huna =>
        have hsame := tcpUpdateSendWindow_same s.snd segment
        have htaken : Orderly (s.ackTo segment.ackNum)
            (Socket.ackTo { s with snd := tcpUpdateSendWindow s.snd segment } segment.ackNum) :=
          orderly_window (s.ackTo segment.ackNum) ⟨hsame.iss, rfl, hsame.sndNxt, hsame.sndUser,
            hsame.txBuffer, hsame.txBufferSize,
            by simp only [Socket.ackTo, hsame.retransmitQueue]⟩ hstate
        have hack : Effect T A F s (s.ackTo segment.ackNum) :=
          .ack s segment harrived (by simpa using hflag) hrst huna (not_lt.1 hnxt)
        exact (Relation.ReflTransGen.single hack).tail
          (.orderly (htaken.trans (ackNewData_orderly _ segment h)))
      case isFalse => exact (hwindow.trans (ackNoData_orderly _ segment _ h)).effects

theorem sendLoop_effects (sends : SendSide → UInt32 → ℕ → Bool) (fuel : ℕ) (u : UInt32)
    (s : Socket) (hstate : s.state = .established ∨ s.state = .closeWait) :
    Effects T A F s (sendLoop sends fuel u s).2 := by
  induction fuel generalizing u s with
  | zero => exact .refl
  | succ fuel ih =>
      rw [sendLoop]
      split
      · exact .refl
      simp only
      split
      case isFalse => exact .refl
      case isTrue =>
        generalize hn : min (min u.toNat s.snd.sndUser.toNat) s.snd.smss.toNat = n
        have hle : n ≤ s.snd.sndUser.toNat := by omega
        have hopen : s.state ≠ .closed := by rcases hstate with hs | hs <;> simp [hs]
        have hadded := tcpSendSegment_added s { psh := true, ack := true } s.snd.sndNxt
          s.rcv.rcvNxt n hopen
        simp only at hadded
        generalize tcpSendSegment s { psh := true, ack := true } s.snd.sndNxt s.rcv.rcvNxt n
          true = r at hadded ⊢
        obtain ⟨error, s'⟩ := r
        split
        case isTrue herror =>
          rcases hadded with ⟨horderly, -⟩ | ⟨-, hstill⟩
          · exact (Relation.ReflTransGen.single
              (.sendData s _ false hstate rfl rfl rfl rfl hle)).tail (.orderly horderly)
          · exact hstill.effects
        case isFalse herror =>
          rcases hadded with ⟨horderly, -⟩ | ⟨hne, -⟩
          · have hsame : Socket.Same s { s' with snd := s'.snd.advance n } :=
              (advance_same s _ n).trans (horderly.keeps.advance n).same
            refine Relation.ReflTransGen.trans ?_ (ih (u - UInt32.ofNat n)
              { s' with snd := s'.snd.advance n } (by rwa [hsame.state]))
            exact (Relation.ReflTransGen.single
              (.sendData s _ true hstate rfl rfl rfl rfl hle)).tail (.orderly (horderly.advance n))
          · exact absurd hne herror

theorem tcpNagleAlgo_effects (s : Socket) (flags : SocketFlags)
    (hstate : s.state = .established ∨ s.state = .closeWait) :
    Effects T A F s (tcpNagleAlgo s flags).2 := sendLoop_effects _ _ _ s hstate

theorem sendPending_effects (s : Socket) (hstate : s.state = .established ∨ s.state = .closeWait) :
    Effects T A F s (sendPending s) := tcpNagleAlgo_effects s _ hstate

theorem tcpCheckSequenceNumber_still {s : Socket} (segment : Segment) (hheard : s.Heard) :
    (acceptable s.rcv segment = true ∧ tcpCheckSequenceNumber s segment = (.noError, s)) ∨
      ∃ s', tcpCheckSequenceNumber s segment = (.failure, s') ∧ Still s s' := by
  by_cases hacc : acceptable s.rcv segment = true
  · exact .inl ⟨hacc, by rw [tcpCheckSequenceNumber, if_pos hacc]⟩
  · refine .inr ⟨_, by rw [tcpCheckSequenceNumber, if_neg hacc], ?_⟩
    split
    · exact .refl s
    · exact tcpSendAck_still hheard

theorem tcpCheckSyn_still (s : Socket) (segment : Segment) :
    tcpCheckSyn s segment = (.noError, s) ∨
      ∃ s', tcpCheckSyn s segment = (.failure, s') ∧ Still s s' := by
  rw [tcpCheckSyn]
  by_cases hsyn : segment.flags.syn = true
  · rw [if_pos hsyn]
    split
    · exact .inr ⟨_, rfl, tcpSendSegment_still s _ _ _ rfl rfl (by simp)⟩
    · exact .inr ⟨_, rfl, tcpSendSegment_still s _ _ _ rfl rfl (by simp)⟩
  · rw [if_neg hsyn]
    exact .inl rfl

/-- A segment is dropped, resets the connection or is processed. -/
theorem checkSegment_still {s : Socket} (segment : Segment) (hheard : s.Heard)
    (checkAck : Socket → Segment → ErrorCode × Socket) (process : Socket → Socket) :
    Still s (checkSegment s segment checkAck process) ∨
      checkSegment s segment checkAck process = tcpChangeState s .closed ∨
      (acceptable s.rcv segment = true ∧ segment.flags.rst = false ∧
        checkSegment s segment checkAck process
          = if (checkAck s segment).1 ≠ .noError then (checkAck s segment).2
            else process (checkAck s segment).2) := by
  rw [checkSegment]
  rcases tcpCheckSequenceNumber_still segment hheard with ⟨hacc, hseq⟩ | ⟨s', hseq, hstill⟩
  · rw [hseq]
    simp only [ne_eq, not_true_eq_false, if_false]
    by_cases hrst : segment.flags.rst = true
    · rw [if_pos hrst]
      exact .inr (.inl rfl)
    · rw [if_neg hrst]
      rcases tcpCheckSyn_still s segment with hsyn | ⟨s', hsyn, hstill⟩
      · rw [hsyn]
        exact .inr (.inr ⟨hacc, Bool.eq_false_of_not_eq_true hrst, rfl⟩)
      · rw [hsyn]
        exact .inl hstill
  · rw [hseq]
    exact .inl hstill

/-- `checkSegment` with `tcpCheckAck`: what is left is the processing of an acceptable ACK. -/
theorem checkSegment_tcpCheckAck_effects {s : Socket} {segment : Segment}
    {process : Socket → Socket} (hstate : s.state.synchronized = true)
    (harrived : A = some segment)
    (hprocess : ∀ s', Socket.Same s s' → s'.snd.sndNxt = s.snd.sndNxt →
      acceptable s.rcv segment = true → segment.flags.ack = true →
      Effects T A F s' (process s')) :
    Effects T A F s (checkSegment s segment tcpCheckAck process) := by
  have hopen : s.state ≠ .closed := by
    intro hs
    rw [hs] at hstate
    exact Bool.noConfusion hstate
  rcases checkSegment_still segment (heard_of_synchronized hstate) tcpCheckAck process with
    hstill | heq | ⟨hacc, hrst, heq⟩
  · exact hstill.effects
  · rw [heq]
    exact .single (.reset s)
  · rw [heq]
    have heffects := tcpCheckAck_effects (T := T) (F := F) s segment hstate harrived hrst
    obtain ⟨-, hsame, hnxt⟩ := tcpCheckAck_acts (R := fun _ _ => True) (K := {}) (O := False) s
      segment hopen
    split
    · exact heffects
    case isFalse herror =>
      exact heffects.trans (hprocess _ hsame hnxt hacc (tcpCheckAck_ack (not_not.1 herror)))

/-- `checkSegment` with the test of the ACK bit. -/
theorem checkSegment_checkAckBit_effects {s : Socket} {segment : Segment}
    {process : Socket → Socket} (hheard : s.Heard)
    (hprocess : acceptable s.rcv segment = true → segment.flags.ack = true →
      Effects T A F s (process s)) :
    Effects T A F s (checkSegment s segment checkAckBit process) := by
  rcases checkSegment_still segment hheard checkAckBit process with
    hstill | heq | ⟨hacc, -, heq⟩
  · exact hstill.effects
  · rw [heq]
    exact .single (.reset s)
  · rw [heq]
    split
    · exact .refl
    case isFalse herror =>
      refine hprocess hacc ?_
      by_contra hack
      simp [checkAckBit, hack] at herror

/-- The segment text changes the receive side and the network only. -/
theorem receiveText_effects (s : Socket) (segment : Segment) (htext : T = some segment)
    (hstate : s.state = .established ∨ s.state = .finWait1 ∨ s.state = .finWait2)
    (hacc : acceptable s.rcv segment = true) :
    Effects T A F s (receiveText s segment) := by
  rw [receiveText]
  split
  case isTrue hlen =>
    exact (Relation.ReflTransGen.single (.data s segment htext hstate hacc hlen)).trans
      (tcpSendAck_still (s := { s with rcv := receiveData s.rcv segment })
        (.inl (.inr hstate))).effects
  case isFalse => exact .refl

theorem receiveFin_effects {s : Socket} {segment : Segment} {next : TcpState}
    (harrived : A = some segment) (hfin : finInOrder s segment = true)
    (hnext : (s.state = .established ∧ next = .closeWait) ∨
      (s.state = .finWait1 ∧ next = .closing)) :
    Effects T A F s (tcpChangeState (receiveFin s) next) := by
  have hne : next ≠ .timeWait := by
    rcases hnext with ⟨-, rfl⟩ | ⟨-, rfl⟩ <;> simp
  have heffect : Effect T A F s (s.passFin next) :=
    .fin s segment next harrived hfin (hnext.imp_right .inl)
  have hnext' : next.finReceived = true := by
    rcases hnext with ⟨-, rfl⟩ | ⟨-, rfl⟩ <;> rfl
  rw [Socket.passFin, if_neg hne] at heffect
  exact (Relation.ReflTransGen.single heffect).trans
    (tcpSendAck_changeState _ (.inr hnext')).effects

theorem enterTimeWait_orderly (s : Socket) :
    Orderly (tcpChangeState (tcpDeleteControlBlock s) .timeWait) (enterTimeWait s) :=
  ⟨enterTimeWait_keeps (.refl s), .of_sent rfl, .inl rfl⟩

theorem receiveFin_timeWait_effects {s : Socket} {segment : Segment}
    (harrived : A = some segment) (hfin : finInOrder s segment = true)
    (hstate : s.state = .finWait2) :
    Effects T A F s (enterTimeWait (receiveFin s)) := by
  have heffect : Effect T A F s (s.passFin .timeWait) :=
    .fin s segment .timeWait harrived hfin (.inr (.inr ⟨hstate, rfl⟩))
  refine (Relation.ReflTransGen.single heffect).tail
    (.orderly ⟨enterTimeWait_keeps (receiveFin_netOnly s), ?_, .inl ?_⟩)
  · refine tcpSendSegment_emits _ { ack := true } _ _ rfl rfl fun _ _ =>
      ⟨?_, .inl (.inr (.inl rfl))⟩
    exact (congrArg ReceiveSide.rcvNxt (receiveFin_netOnly s).keeps.same.rcv).symm
  · exact (tcpSendAck_level _).persistTimer

theorem tcpStateEstablished_effects {s : Socket} {segment : Segment}
    (hstate : s.state = .established) (htext : T = some segment)
    (harrived : A = some segment) :
    Effects T A F s (tcpStateEstablished s segment) := by
  refine checkSegment_tcpCheckAck_effects (by rw [hstate]; rfl) harrived ?_
  intro s1 hsame _ hacc _
  have hstate1 : s1.state = .established := hsame.state.trans hstate
  rw [← hsame.rcv] at hacc
  have heffects := receiveText_effects (A := A) (F := F) s1 segment htext (.inl hstate1) hacc
  obtain ⟨-, rcv, hnet⟩ := receiveText_acts (R := fun _ _ => True) (K := {}) (O := False) s1
    segment (.inl hstate1) hacc
  have hstate2 : (receiveText s1 segment).state = .established := hnet.state.trans hstate1
  refine heffects.trans ?_
  simp only
  split
  case isTrue hfin =>
    refine (receiveFin_effects harrived hfin (.inl ⟨hstate2, rfl⟩)).trans
      (sendPending_effects _ (.inr ?_))
    simp [tcpChangeState]
  case isFalse => exact sendPending_effects _ (.inl hstate2)

theorem tcpStateSynReceived_effects {s : Socket} {segment : Segment}
    (hstate : s.state = .synReceived) (htext : T = some segment)
    (harrived : A = some segment) :
    Effects T A F s (tcpStateSynReceived s segment) := by
  refine checkSegment_checkAckBit_effects (.inl (.inl hstate)) ?_
  intro hacc hack
  simp only
  split
  · exact (tcpSendSegment_still s _ _ _ rfl rfl (by simp)).effects
  · have hopen : Still s { s with snd := s.snd.openWindow segment } :=
      still_snd s ⟨rfl, rfl, rfl, rfl, rfl, rfl, rfl⟩ rfl
    refine hopen.effects.trans (.trans (.single (.established _ hstate)) ?_)
    exact tcpStateEstablished_effects rfl htext harrived

theorem tcpStateCloseWait_effects {s : Socket} {segment : Segment} (hstate : s.state = .closeWait)
    (harrived : A = some segment) :
    Effects T A F s (tcpStateCloseWait s segment) := by
  refine checkSegment_tcpCheckAck_effects (by rw [hstate]; rfl) harrived ?_
  intro s1 hsame _ _ _
  exact sendPending_effects s1 (.inr (hsame.state.trans hstate))

theorem tcpStateLastAck_effects {s : Socket} {segment : Segment} (hstate : s.state = .lastAck)
    (hacked : segment.flags.ack = true → segment.ackNum = s.snd.sndNxt →
      s.history.finAcked = true) :
    Effects T A F s (tcpStateLastAck s segment) := by
  refine checkSegment_checkAckBit_effects (.inr (.inl (by rw [hstate]; rfl))) ?_
  intro hacc hack
  split
  case isTrue hnum => exact .single (.finish s (.inl ⟨hstate, hacked hack hnum⟩))
  case isFalse => exact .refl

theorem tcpStateFinWait1_effects {s : Socket} {segment : Segment} (hstate : s.state = .finWait1)
    (htext : T = some segment) (harrived : A = some segment)
    (hacked : segment.flags.ack = true → segment.ackNum = s.snd.sndNxt →
      s.history.finAcked = true) :
    Effects T A F s (tcpStateFinWait1 s segment) := by
  refine checkSegment_tcpCheckAck_effects (by rw [hstate]; rfl) harrived ?_
  intro s1 hsame hnxt hacc hack
  have hstate1 : s1.state = .finWait1 := hsame.state.trans hstate
  rw [← hsame.rcv] at hacc
  simp only
  by_cases hnum : segment.ackNum = s1.snd.sndNxt
  · -- the FIN is acknowledged: the segment is processed in FIN-WAIT-2
    rw [if_pos hnum]
    have htimer : Still s1 { s1 with finWait2Timer := true } :=
      still_of ⟨rfl, rfl, rfl, rfl, rfl, rfl, rfl, rfl, rfl, rfl, rfl, rfl⟩ (.refl _) rfl rfl
    have hfinAcked : s1.history.finAcked = true := by
      rw [hsame.history]
      exact hacked hack (hnum.trans hnxt)
    have henter : Effects T A F s1
        (tcpChangeState { s1 with finWait2Timer := true } .finWait2) :=
      htimer.effects.tail (.finWait2 _ hstate1 hfinAcked)
    generalize hs2 : tcpChangeState { s1 with finWait2Timer := true } .finWait2 = s2 at henter ⊢
    have hstate2 : s2.state = .finWait2 := by rw [← hs2]; rfl
    have hrcv2 : s2.rcv = s1.rcv := by rw [← hs2]; rfl
    have hsnd2 : s2.snd = s1.snd := by rw [← hs2]; rfl
    rw [← hrcv2] at hacc
    have heffects := receiveText_effects (A := A) (F := F) s2 segment htext
      (.inr (.inr hstate2)) hacc
    obtain ⟨-, rcv, hnet⟩ := receiveText_acts (R := fun _ _ => True) (K := {}) (O := False) s2
      segment (.inr (.inr hstate2)) hacc
    refine henter.trans (heffects.trans ?_)
    split
    case isTrue hfin =>
      have hsnd : (receiveFin (receiveText s2 segment)).snd.sndNxt = s1.snd.sndNxt := by
        rw [(receiveFin_netOnly _).keeps.snd.sndNxt, hnet.keeps.snd.sndNxt, hsnd2]
      rw [hsnd, if_pos hnum]
      exact receiveFin_timeWait_effects harrived hfin (hnet.state.trans hstate2)
    case isFalse => exact .refl
  · rw [if_neg hnum]
    have heffects := receiveText_effects (A := A) (F := F) s1 segment htext
      (.inr (.inl hstate1)) hacc
    obtain ⟨-, rcv, hnet⟩ := receiveText_acts (R := fun _ _ => True) (K := {}) (O := False) s1
      segment (.inr (.inl hstate1)) hacc
    refine heffects.trans ?_
    split
    case isTrue hfin =>
      have hsnd : (receiveFin (receiveText s1 segment)).snd.sndNxt = s1.snd.sndNxt := by
        rw [(receiveFin_netOnly _).keeps.snd.sndNxt, hnet.keeps.snd.sndNxt]
      rw [hsnd, if_neg hnum]
      exact receiveFin_effects harrived hfin (.inr ⟨hnet.state.trans hstate1, rfl⟩)
    case isFalse => exact .refl

theorem tcpStateFinWait2_effects {s : Socket} {segment : Segment} (hstate : s.state = .finWait2)
    (htext : T = some segment) (harrived : A = some segment) :
    Effects T A F s (tcpStateFinWait2 s segment) := by
  refine checkSegment_tcpCheckAck_effects (by rw [hstate]; rfl) harrived ?_
  intro s1 hsame _ hacc _
  have hstate1 : s1.state = .finWait2 := hsame.state.trans hstate
  rw [← hsame.rcv] at hacc
  have heffects := receiveText_effects (A := A) (F := F) s1 segment htext (.inr (.inr hstate1)) hacc
  obtain ⟨-, rcv, hnet⟩ := receiveText_acts (R := fun _ _ => True) (K := {}) (O := False) s1
    segment (.inr (.inr hstate1)) hacc
  refine heffects.trans ?_
  simp only
  split
  case isTrue hfin => exact receiveFin_timeWait_effects harrived hfin (hnet.state.trans hstate1)
  case isFalse => exact .refl

theorem tcpStateClosing_effects {s : Socket} {segment : Segment} (hstate : s.state = .closing)
    (harrived : A = some segment)
    (hacked : segment.flags.ack = true → segment.ackNum = s.snd.sndNxt →
      s.history.finAcked = true) :
    Effects T A F s (tcpStateClosing s segment) := by
  refine checkSegment_tcpCheckAck_effects (by rw [hstate]; rfl) harrived ?_
  intro s1 hsame hnxt _ hack
  split
  case isTrue hnum =>
    have hfinAcked : s1.history.finAcked = true := by
      rw [hsame.history]
      exact hacked hack (hnum.trans hnxt)
    have htimeWait : Effect T A F s1 (tcpChangeState (tcpDeleteControlBlock s1) .timeWait) :=
      .timeWait s1 (hsame.state.trans hstate) hfinAcked
    exact (Relation.ReflTransGen.single htimeWait).tail (.orderly (enterTimeWait_orderly s1))
  case isFalse => exact .refl

/-- Close a connection in the TIME-WAIT state, and dispose of the socket if it has no owner. -/
theorem finish_timeWait_effects {s : Socket} (hstate : s.state = .timeWait) :
    Effects T A F s (if (tcpChangeState s .closed).ownedFlag then tcpChangeState s .closed
      else disposeSocket (tcpChangeState s .closed)) := by
  have hfinish : Effects T A F s (tcpChangeState s .closed) :=
    .single (.finish s (.inr hstate))
  split
  · exact hfinish
  · refine hfinish.tail (.dispose _ ?_)
    simp [tcpChangeState]

theorem tcpStateTimeWait_effects {s : Socket} {segment : Segment} (hstate : s.state = .timeWait) :
    Effects T A F s (tcpStateTimeWait s segment) := by
  have hheard : s.Heard := .inr (.inl (by rw [hstate]; rfl))
  rw [tcpStateTimeWait]
  rcases tcpCheckSequenceNumber_still segment hheard with ⟨-, hseq⟩ | ⟨s', hseq, hstill⟩
  · rw [hseq]
    simp only [ne_eq, not_true_eq_false, if_false]
    split
    · exact finish_timeWait_effects hstate
    · rcases tcpCheckSyn_still s segment with hsyn | ⟨s', hsyn, hstill⟩
      · rw [hsyn]
        simp only [not_true_eq_false, if_false]
        split
        · have htimer : Still (tcpSendAck s) { tcpSendAck s with timeWaitTimer := true } :=
            still_of ⟨rfl, rfl, rfl, rfl, rfl, rfl, rfl, rfl, rfl, rfl, rfl, rfl⟩ (.refl _) rfl rfl
          exact ((tcpSendAck_still hheard).trans htimer).effects
        · exact .refl
      · rw [hsyn]
        exact hstill.effects
  · rw [hseq]
    exact hstill.effects

theorem tcpStateListen_still (s : Socket) (segment : Segment) (memory : Bool) :
    Still s (tcpStateListen s segment memory) := by
  simp only [tcpStateListen]
  have hsame : ∀ queue, Still s { s with synQueue := queue } := fun queue =>
    still_of ⟨rfl, rfl, rfl, rfl, rfl, rfl, rfl, rfl, rfl, rfl, rfl, rfl⟩ (.refl _) rfl rfl
  split_ifs
  all_goals first
    | exact .refl s
    | exact hsame _

theorem takeSyn_timer (snd : SendSide) (segment : Segment) :
    (snd.takeSyn segment).persistTimer = snd.persistTimer := (takeSyn_keeps snd segment).1

/-- What the SYN changes apart from the state. -/
theorem receiveSyn_still (s : Socket) (segment : Segment) :
    Still { s.ackTo (s.unaOnSyn segment) with
      rcv := { s.rcv with irs := segment.seqNum, rcvNxt := segment.seqNum + 1 } }
      (receiveSyn s segment) :=
  still_of ⟨rfl, rfl, rfl, rfl, rfl, rfl, rfl, rfl, rfl, rfl, rfl, rfl⟩ (takeSyn_same s segment)
    rfl (takeSyn_timer s.snd segment)

theorem tcpStateSynSent_effects {s : Socket} {segment : Segment} (hstate : s.state = .synSent)
    (htext : T = none) (harrived : A = some segment) :
    Effects T A F s (tcpStateSynSent s segment) := by
  rw [tcpStateSynSent]
  split
  · split
    · exact .refl
    · exact (tcpSendSegment_still s _ _ _ rfl rfl (by simp)).effects
  case isFalse hack =>
    have hnum : segment.flags.ack = true → segment.ackNum = s.snd.sndNxt := by
      intro h
      by_contra hne
      exact hack ⟨h, hne⟩
    split
    case isTrue hrst =>
      split
      · exact .single (.reset s)
      · exact .refl
    case isFalse hrst =>
      rw [Bool.not_eq_true] at hrst
      split
      case isFalse => exact .refl
      case isTrue hsyn =>
        have hstill := receiveSyn_still s segment
        have huna : (receiveSyn s segment).snd.sndUna = s.unaOnSyn segment :=
          hstill.quiet.snd.sndUna
        have hiss : (receiveSyn s segment).snd.iss = s.snd.iss := hstill.quiet.snd.iss
        simp only
        rw [huna, hiss]
        split
        case isTrue hpos =>
          have hopen : Still (receiveSyn s segment) { receiveSyn s segment with
              snd := (receiveSyn s segment).snd.openWindow segment } :=
            still_snd _ ⟨rfl, rfl, rfl, rfl, rfl, rfl, rfl⟩ rfl
          have hnext : TcpState.established.Receiving ∨ TcpState.established.finReceived = true :=
            .inl (.inr (.inl rfl))
          have hbefore := (hstill.trans hopen).changeState hnext (.inl rfl)
          have hall := hbefore.trans (tcpSendAck_changeState _ hnext)
          exact (Relation.ReflTransGen.single (.synSent s segment .established htext harrived hsyn
            hrst hstate hnum (.inl ⟨rfl, hpos⟩))).trans hall.effects
        case isFalse hneg =>
          have hstate' : s.state.synchronized = false := by rw [hstate]; rfl
          have heffect : Effect T A F s (s.passSyn segment .synReceived) :=
            .synSent s segment .synReceived htext harrived hsyn hrst hstate hnum
              (.inr ⟨rfl, not_lt.1 hneg⟩)
          have hadded := tcpSendSegment_added (receiveSyn s segment) { syn := true, ack := true }
            s.snd.iss (receiveSyn s segment).rcv.rcvNxt 0
            (show s.state ≠ .closed by rw [hstate]; simp)
          simp only at hadded
          generalize tcpSendSegment (receiveSyn s segment) { syn := true, ack := true }
            s.snd.iss (receiveSyn s segment).rcv.rcvNxt 0 true = r at hadded ⊢
          refine Relation.ReflTransGen.trans (.single heffect) ?_
          rcases hadded with ⟨-, hsent⟩ | ⟨-, hsent⟩
          · -- the SYN is queued again, after the state has changed
            have hadd : Effect T A F (s.passSyn segment .synReceived)
                ((s.passSyn segment .synReceived).addItem ((receiveSyn s segment).queueItem
                  { syn := true, ack := true } s.snd.iss (receiveSyn s segment).rcv.rcvNxt 0)) :=
              .addSyn _ _ rfl rfl rfl rfl rfl fun _ => rfl
            exact (Relation.ReflTransGen.single hadd).trans
              (((hstill.addItem _).trans (hsent trivial)).changeState (.inl (.inl rfl))
                (.inr hstate')).effects
          · exact ((hstill.trans hsent).changeState (.inl (.inl rfl)) (.inr hstate')).effects

theorem tcpProcessSegment_effects (s : Socket) (segment : Segment) (memory : Bool)
    (htext : T = if s.state = .synSent then none else some segment)
    (harrived : A = some segment) :
    Effects T A F s (tcpProcessSegment s segment memory) := by
  have hghost : Effects T A F s { s with history := { s.history with
      finAcked := s.history.finAcked || acksFin s segment } } := by
    by_cases hacks : acksFin s segment = true
    · rw [hacks, Bool.or_true]
      exact .single (.finAcked s segment hacks)
    · rw [Bool.not_eq_true] at hacks
      rw [hacks, Bool.or_false]
  refine hghost.trans ?_
  rw [tcpProcessSegment]
  -- an ACK of the FIN has been recorded
  have hacked : (s.state = .finWait1 ∨ s.state = .closing ∨ s.state = .lastAck) →
      segment.flags.ack = true → segment.ackNum = s.snd.sndNxt →
      (s.history.finAcked || acksFin s segment) = true := by
    intro hstate hack hnum
    have hacks : acksFin s segment = true := by
      rcases hstate with hstate | hstate | hstate <;> simp [acksFin, hstate, hack, hnum]
    rw [hacks, Bool.or_true]
  generalize hs' : { s with history := { s.history with
      finAcked := s.history.finAcked || acksFin s segment } } = s'
  have hstate : s'.state = s.state := by rw [← hs']
  have hsnd : s'.snd = s.snd := by rw [← hs']
  have hhistory : s'.history.finAcked = (s.history.finAcked || acksFin s segment) := by rw [← hs']
  rw [← hstate, ← hsnd, ← hhistory] at hacked
  rw [← hstate] at htext
  split
  case h_1 => exact .refl
  case h_2 => exact (tcpStateListen_still s' segment memory).effects
  case h_3 h => exact tcpStateSynSent_effects h (by rw [htext, if_pos h]) harrived
  all_goals
    rename_i h
    have htext' : T = some segment := by rw [htext, h]; rfl
  · exact tcpStateSynReceived_effects h htext' harrived
  · exact tcpStateEstablished_effects h htext' harrived
  · exact tcpStateCloseWait_effects h harrived
  · exact tcpStateLastAck_effects h (hacked (.inr (.inr h)))
  · exact tcpStateFinWait1_effects h htext' harrived (hacked (.inl h))
  · exact tcpStateFinWait2_effects h htext' harrived
  · exact tcpStateClosing_effects h harrived (hacked (.inr (.inl h)))
  · exact tcpStateTimeWait_effects h

/-! ## Timers -/

theorem tickRetransmit_effects (s : Socket) (elapsed : Elapsed) (hstate : s.state ≠ .closed) :
    Effects T A F s (tickRetransmit s elapsed) := by
  rw [tickRetransmit]
  split
  case isFalse => exact .refl
  case isTrue h =>
    have hloss : Orderly s { s with snd := s.snd.congestionTimeout } :=
      orderly_snd s ⟨rfl, rfl, rfl, rfl, rfl, rfl, rfl⟩ rfl
    have hcount : s.snd.congestionTimeout.retransmitCount = s.snd.retransmitCount := rfl
    simp only [hcount]
    split
    · refine ((hloss.trans (tcpRetransmitSegment_orderly _ hstate)).trans ?_).effects
      exact orderly_snd _ ⟨rfl, rfl, rfl, rfl, rfl, rfl, rfl⟩ rfl
    · have hreset : Effects T A F s
          (tcpChangeState { s with snd := s.snd.congestionTimeout } .closed) :=
        hloss.effects.tail (.reset _)
      exact hreset.trans (Still.effects (still_snd _ ⟨rfl, rfl, rfl, rfl, rfl, rfl, rfl⟩ rfl))

theorem tickPersist_effects (s : Socket) (elapsed : Elapsed) :
    Effects T A F s (tickPersist s elapsed) := by
  rw [tickPersist]
  split
  case isFalse => exact .refl
  case isTrue h =>
    have htimer := (tcpSendSegment_level s { ack := true } (s.snd.sndNxt - 1) s.rcv.rcvNxt 0
      false).persistTimer
    split
    · refine ((tcpSendSegment_still s { ack := true } (s.snd.sndNxt - 1) s.rcv.rcvNxt rfl rfl
        fun _ _ => ⟨rfl, .inr h.2.2.1⟩).trans ?_).effects
      exact still_snd _ ⟨rfl, rfl, rfl, rfl, rfl, rfl, rfl⟩ (htimer.trans h.2.2.1).symm
    · exact .single (.reset s)

theorem tickOverride_effects (s : Socket) (elapsed : Elapsed) :
    Effects T A F s (tickOverride s elapsed) := by
  rw [tickOverride]
  split
  case isFalse => exact .refl
  case isTrue h =>
    have heffects := sendLoop_effects (T := T) (A := A) (F := F) (fun _ _ _ => true)
      s.snd.sndUser.toNat s.snd.usableWindow s h.1
    generalize (sendLoop (fun _ _ _ => true) s.snd.sndUser.toNat s.snd.usableWindow s).2 = s'
      at heffects ⊢
    simp only
    split
    · exact heffects.trans (Still.effects (still_snd s' ⟨rfl, rfl, rfl, rfl, rfl, rfl, rfl⟩ rfl))
    · exact heffects

theorem tickTimeWait_effects (s : Socket) (elapsed : Elapsed) :
    Effects T A F s (tickTimeWait s elapsed) := by
  rw [tickTimeWait]
  split
  case isTrue h => exact finish_timeWait_effects h.1
  case isFalse => exact .refl

theorem tcpTick_effects (s : Socket) (elapsed : Elapsed) :
    Effects T A F s (tcpTick s elapsed) := by
  rw [tcpTick]
  split
  case isTrue => exact .refl
  case isFalse hstate =>
    have hretransmit := tickRetransmit_effects (T := T) (A := A) (F := F) s elapsed hstate
    simp only
    split
    case isTrue => exact hretransmit
    case isFalse =>
      refine hretransmit.trans ((tickPersist_effects _ elapsed).trans
        ((tickOverride_effects _ elapsed).trans ?_))
      generalize tickOverride (tickPersist (tickRetransmit s elapsed) elapsed) elapsed = s'
      refine Relation.ReflTransGen.trans ?_ (tickTimeWait_effects _ elapsed)
      rw [tickFinWait2]
      split
      · exact .single (.reset s')
      · exact .refl

/-! ## Calls -/

theorem copyUserData_effects {s : Socket} (data : List UInt8) {n : ℕ} (hwrites : ¬ F)
    (hstate : s.state = .established ∨ s.state = .closeWait) (hn : n ≤ data.length)
    (hroom : s.snd.pending.toNat + n ≤ s.snd.txBufferSize) :
    Effects T A F s (copyUserData s data n) := by
  rcases Nat.eq_zero_or_pos n with rfl | hpos
  · rw [copyUserData, if_neg (by simp)]
  · exact .single (.write s data n hwrites hstate hpos hn hroom)

theorem tcpSendLoop_effects (flags : SocketFlags) (fuel : ℕ) (s : Socket) (data : List UInt8)
    (hwrites : s.state = .established ∨ s.state = .closeWait → ¬ F) :
    Effects T A F s (tcpSendLoop flags fuel s data).1 := by
  induction fuel generalizing s data with
  | zero => exact .refl
  | succ fuel ih =>
      rcases tcpSendLoop_round flags fuel s data with heq | ⟨n, hstate, hn, hroom, hrest⟩
      · rw [heq]
      have hcopy := copyUserData_effects (T := T) (A := A) (F := F) data (hwrites hstate) hstate hn
        hroom
      have hnagle := tcpNagleAlgo_effects (T := T) (A := A) (F := F)
        (copyUserData s data n) flags (by rwa [copyUserData_state])
      rcases hrest with heq | heq
      · rw [heq]
        exact hcopy.trans (hnagle.trans (ih _ _ fun _ => hwrites hstate))
      · rw [heq]
        exact hcopy.trans hnagle

theorem tcpSend_effects (s : Socket) (data : List UInt8) (flags : SocketFlags)
    (hwrites : s.state = .established ∨ s.state = .closeWait → ¬ F) :
    Effects T A F s (tcpSend s data flags).1 := by
  rw [tcpSend]
  split
  · exact .refl
  · exact tcpSendLoop_effects _ _ _ _ hwrites

/-- What can be read has come from a peer that has been heard of. -/
theorem firstUnread_cases {s : Socket} {received : ℕ} {seqNum : UInt32} (hready : s.rxReady = true)
    (hseq : firstUnread s received = .ok seqNum) :
    (s.state.Receiving ∧ seqNum = s.rcv.rcvNxt - s.rcv.rcvUser.toUInt32) ∨
      (s.Ended ∧ seqNum = s.rcv.rcvNxt - 1 - s.rcv.rcvUser.toUInt32) := by
  rw [firstUnread] at hseq
  split at hseq
  case h_1 hs | h_2 hs | h_3 hs =>
    split at hseq
    · exact absurd hseq (by simp)
    · exact .inl ⟨by simp [TcpState.Receiving, hs], (Except.ok.inj hseq).symm⟩
  case h_4 hs | h_5 hs | h_6 hs | h_7 hs =>
    split at hseq
    · exact absurd hseq (by simp)
    · exact .inr ⟨.inl (by rw [hs]; rfl), (Except.ok.inj hseq).symm⟩
  case h_8 h1 h2 h3 h4 h5 h6 h7 =>
    split at hseq
    · exact absurd hseq (by simp)
    case isFalse hreset =>
      split at hseq
      · exact absurd hseq (by simp)
      case isFalse hflag =>
        have hidle : s.state = .closed ∨ s.state = .listen := by
          rw [Socket.rxReady] at hready
          revert hready h1 h2 h3 h4 h5 h6 h7
          cases s.state <;> simp
        split at hseq
        · exact absurd hseq (by simp)
        · exact .inr ⟨.inr ⟨hidle, Bool.eq_true_of_not_eq_false hflag,
            Bool.eq_false_of_not_eq_true hreset⟩, (Except.ok.inj hseq).symm⟩

theorem consume_still {s : Socket} (hheard : s.Heard) (data : List UInt8) :
    Still (s.readData data) (consume s data) := by
  simp only [consume, tcpUpdateReceiveWindow]
  split
  · exact tcpSendAck_still hheard
  · exact .refl _

/-- Data that has been received and not read is still in the buffer. -/
def Socket.BufferKept (s : Socket) : Prop := 0 < s.rcv.rcvUser.toNat → 0 < s.rcv.rxBuffer.length

instance (s : Socket) : Decidable s.BufferKept := inferInstanceAs (Decidable (_ → _))

theorem consume_kept {s : Socket} (hheard : s.Heard) (h : 0 < s.rcv.rxBuffer.length)
    (data : List UInt8) : (consume s data).BufferKept := by
  have hrcv : (consume s data).rcv.rxBuffer = s.rcv.rxBuffer := by
    rw [(consume_still hheard data).quiet.same.rcv, Socket.readData]
    simp only [ReceiveSide.openWindow]
    split <;> rfl
  intro _
  rw [hrcv]
  exact h

theorem tcpReceiveLoop_effects (flags : SocketFlags) (size fuel : ℕ) (s : Socket) (received : ℕ)
    (hkept : s.BufferKept) :
    Effects T A F s (tcpReceiveLoop flags size fuel s received).1 := by
  induction fuel generalizing s received with
  | zero => exact .refl
  | succ fuel ih =>
      rw [tcpReceiveLoop]
      split
      · exact .refl
      case isFalse hsize =>
        split
        · exact .refl
        case isFalse hblocks =>
          have hready : s.rxReady = true := Bool.eq_true_of_not_eq_false hblocks
          split
          · exact .refl
          case h_2 seqNum hseq =>
            have huser := firstUnread_pos hseq
            have hheard : s.Heard := (firstUnread_cases hready hseq).imp And.left And.left
            generalize hn : min s.rcv.rcvUser.toNat (size - received) = n
            have hread : Effects T A F s (consume s (copyReceived s.rcv seqNum n flags)) :=
              (Relation.ReflTransGen.single (.read s seqNum received n flags hready (hkept huser)
                hseq (by omega) (by omega))).trans (consume_still hheard _).effects
            simp only
            split
            · exact hread
            · exact hread.trans (ih _ _ (consume_kept hheard (hkept huser) _))

theorem tcpReceive_effects (s : Socket) (size : ℕ) (flags : SocketFlags) (hkept : s.BufferKept) :
    Effects T A F s (tcpReceive s size flags).1 := by
  rw [tcpReceive]
  split
  · exact .refl
  · exact tcpReceiveLoop_effects _ _ _ _ _ hkept

theorem sendFin_effects {s : Socket} (how : SocketShutdown) {next : TcpState} (hshuts : F)
    (hallowed : FinAllowed s.state next) (hdone : s.txDone = true) :
    Effects T A F s (sendFin s how next).1 := by
  rw [sendFin]
  rcases tcpSendSegment_payload s { fin := true, ack := true } s.snd.sndNxt s.rcv.rcvNxt 0 true with
    ⟨error, herror, h⟩ | ⟨data, hdata, h⟩
  · rw [h]
    simp only
    rw [if_pos herror]
    exact Orderly.effects ⟨NetOnly.keeps ⟨_, rfl, sendsOnly_next _ _ _⟩, sends_next s, .inl rfl⟩
  · rw [h]
    rw [tcpReadTxBuffer_nil] at hdata
    generalize hitem : s.queueItem { fin := true, ack := true } s.snd.sndNxt s.rcv.rcvNxt 0 = item
    have hheader : s.header { fin := true, ack := true } s.snd.sndNxt s.rcv.rcvNxt
        = item.header := by
      rw [← hitem]
      rfl
    have hsyn : item.header.flags.syn = false := by rw [← hheader]; rfl
    have hfin : item.header.flags.fin = true := by rw [← hheader]; rfl
    have hseq : item.header.seqNum = s.snd.sndNxt := by rw [← hheader]; rfl
    have hack : item.header.ackNum = s.rcv.rcvNxt := by rw [← hheader]; rfl
    have hlen : item.length = 0 := by rw [← hitem]; rfl
    have hsame := enqueue_same s.snd item.header 0 item (by rw [← hitem]; rfl)
    rw [hheader, hdata]
    simp only [if_true]
    have hadd : Effect T A F s { s.addItem item with
        net := s.net.next.send s.state { header := item.header, data := [] } } :=
      .addFin s next item hshuts hallowed hdone hseq hack hsyn hfin hlen
    have hstill : Still { s.addItem item with
        net := s.net.next.send s.state { header := item.header, data := [] } }
        { s with
          snd := s.snd.enqueue item.header 0
          net := s.net.next.send s.state { header := item.header, data := [] } } :=
      still_of ⟨rfl, rfl, rfl, rfl, rfl, rfl, rfl, rfl, rfl, rfl, rfl, rfl⟩ hsame rfl
        (enqueue_level s item.header 0 s.net).persistTimer
    have heffects := (Relation.ReflTransGen.single hadd).trans hstill.effects
    split
    · exact heffects
    · refine heffects.tail (.leave _ next hallowed ?_ item ?_ ?_ hsyn hfin hlen)
      · rw [Socket.txDone]
        simp only [hsame.sndUser]
        exact hdone
      · simp only [hsame.retransmitQueue]
        simp
      · simp only [hsame.sndNxt]
        exact hseq

theorem awaitTxDone_effects {s : Socket} (how : SocketShutdown) {next : TcpState} (hshuts : F)
    (hallowed : FinAllowed s.state next) : Effects T A F s (awaitTxDone s how next).1 := by
  rw [awaitTxDone]
  split
  case isTrue hdone => exact sendFin_effects how hshuts hallowed hdone
  case isFalse => exact .refl

theorem flush_effects {s : Socket} (how : SocketShutdown) {next : TcpState} (hshuts : F)
    (hallowed : s.txReady = true → (s.state = .established ∨ s.state = .closeWait) →
      FinAllowed s.state next) :
    Effects T A F s (flush s how next).1 := by
  rw [flush]
  rcases tcpSendLoop_nil_cases s with ⟨outcome, heq, hne⟩ | ⟨hstate, hready, heq⟩
  · rw [heq]
    cases outcome with
    | blocks call => exact .refl
    | returns error =>
        cases error
        case noError => exact absurd rfl hne
        all_goals exact .refl
  · rw [heq]
    obtain ⟨-, hsame⟩ := tcpNagleAlgo_acts (R := fun _ _ => True) (K := {}) (O := False) s
      { noDelay := true } hstate
    refine (tcpNagleAlgo_effects s { noDelay := true } hstate).trans
      (awaitTxDone_effects how hshuts ?_)
    rw [hsame.state]
    exact hallowed hready hstate

theorem tcpShutdown_effects (s : Socket) (how : SocketShutdown) (hshuts : F) :
    Effects T A F s (tcpShutdown s how).1 := by
  rw [tcpShutdown]
  split
  · exact .refl
  · split
    case h_3 hstate => exact flush_effects how hshuts fun _ _ => .inl ⟨rfl, .inl hstate⟩
    case h_4 hstate => exact flush_effects how hshuts fun _ _ => .inl ⟨rfl, .inr hstate⟩
    case h_5 hstate => exact flush_effects how hshuts fun _ _ => .inr ⟨rfl, hstate⟩
    all_goals exact .refl

theorem tcpAbort_effects (s : Socket) : Effects T A F s (tcpAbort s).2 := by
  have hclose : ∀ s' : Socket, Effects T A F s' (disposeSocket (tcpChangeState s' .closed)) :=
    fun s' => (Relation.ReflTransGen.single (.reset s')).tail
      (.dispose _ (by simp [tcpChangeState]))
  rw [tcpAbort]
  split
  case h_6 hstate => exact .single (.disown s hstate)
  case h_7 => exact hclose s
  all_goals
    have hreset := tcpSendSegment_still s { rst := true } s.snd.sndNxt 0 rfl rfl (by simp)
    exact hreset.effects.trans (hclose _)

/-- The call reads. -/
def Call.reads : Call → Bool
  | .receive _ _ _ => true
  | _ => false

/-- The call writes. -/
def Call.writes : Call → Bool
  | .send _ _ => true
  | _ => false

theorem resumeCall_effects (s : Socket) (call : Call)
    (hfin : ∀ next ∈ sendsFin s call, FinAllowed s.state next)
    (hkept : call.reads = true → s.BufferKept)
    (hwrites : call.writes = true → s.state = .established ∨ s.state = .closeWait → ¬ F)
    (hshuts : call.writes = false → F) :
    Effects T A F s (resumeCall s call).1 := by
  cases call with
  | connect => exact .refl
  | send data flags =>
      rw [resumeCall]
      split
      · exact tcpSendLoop_effects _ _ _ _ (hwrites rfl)
      · exact .refl
  | sendAck => exact .refl
  | receive size received flags =>
      rw [resumeCall]
      split
      · exact tcpReceiveLoop_effects _ _ _ _ _ (hkept rfl)
      · exact .refl
  | flush how next =>
      rw [resumeCall]
      split
      · refine flush_effects how (hshuts rfl) fun hready hstate => hfin next ?_
        simp only [sendsFin]
        rw [if_pos ⟨hready, hstate⟩]
        exact rfl
      · exact .refl
  | sendFin how next =>
      rw [resumeCall]
      split
      case isTrue hdone =>
        refine sendFin_effects how (hshuts rfl) (hfin next ?_) hdone
        simp only [sendsFin]
        rw [if_pos hdone]
        exact rfl
      case isFalse => exact .refl
  | finAcked how => exact .refl
  | finReceived how => exact .refl

/-- A call that reads finds the data that it is to read in the buffer, which is released as the
connection enters the TIME-WAIT state. -/
def ReadsBuffer (slot : Slot) : Event → Prop
  | .receive _ _ => slot.socket.BufferKept
  | .resume i false => slot.calls[i]?.any Call.reads = true → slot.socket.BufferKept
  | _ => True

/-- The step is a section of a call that writes, on a connection that can be written to. -/
def Writes (slot : Slot) : Event → Prop
  | .send _ _ => slot.socket.state = .established ∨ slot.socket.state = .closeWait
  | .resume i _ => slot.calls[i]?.any Call.writes = true ∧
      (slot.socket.state = .established ∨ slot.socket.state = .closeWait)
  | _ => False

/-- The part of the segment that a step processes which can extend the incoming stream. -/
def arrivingText (slot : Slot) (event : Event) : Option Segment :=
  if slot.socket.state = .synSent then none else arriving event

/-- **A step that does not begin a connection is a sequence of effects.** -/
theorem step_effects (slot : Slot) (event : Event) (hfin : FinInState slot event)
    (hunused : UnusedSocket { flags := true } slot event) (hreads : ReadsBuffer slot event)
    (hbegins : ¬ event.Begins slot.socket) :
    Effects (arrivingText slot event) (arriving event) (¬ Writes slot event) slot.socket
      (step slot event).socket := by
  cases event with
  | «open» type port =>
      have hused : slot.socket.type ≠ .unused := hbegins
      rw [step, if_neg hused]
  | accept listener sized port queueItem memory iss =>
      have hused : slot.socket.type ≠ .unused := hbegins
      rw [step, if_neg hused]
  | setTxBufferSize size =>
      rw [step, socketSetTxBufferSize]
      split
      · exact .refl
      case isFalse hsize =>
        split
        · exact .refl
        case isFalse h =>
          rw [not_or, not_not, not_not] at h
          exact .single (.resize _ _ _ h.2 (by simp [h.1]) (.inl rfl) fun hsized =>
            ⟨not_lt.1 fun h => hsize (.inl h), not_lt.1 fun h => hsize (.inr h), hsized.2.2⟩)
  | setRxBufferSize size =>
      rw [step, socketSetRxBufferSize]
      split
      · exact .refl
      case isFalse hsize =>
        split
        · exact .refl
        case isFalse h =>
          rw [not_or, not_not, not_not] at h
          exact .single (.resize _ _ _ h.2 (by simp [h.1]) (.inr (hunused h.2 rfl)) fun hsized =>
            ⟨hsized.1, hsized.2.1, not_lt.1 fun h => hsize (.inl h),
              not_lt.1 fun h => hsize (.inr h)⟩)
  | connect remoteIpAddr remotePort env =>
      have hopen : slot.socket.state ≠ .closed := hbegins
      rw [step]
      split
      · rw [endSection_socket, tcpConnect, if_neg hopen]
      · exact .refl
  | listen backlog =>
      have hopen : slot.socket.state ≠ .closed := hbegins
      rw [step]
      split
      · rw [tcpListen, if_pos hopen]
      · exact .refl
  | dequeue =>
      have hstill : Still slot.socket (step slot .dequeue).socket :=
        still_of ⟨rfl, rfl, rfl, rfl, rfl, rfl, rfl, rfl, rfl, rfl, rfl, rfl⟩ (.refl _) rfl rfl
      exact hstill.effects
  | send data flags =>
      rw [step]
      split
      · rw [endSection_socket]
        exact tcpSend_effects _ _ _ not_not.2
      · exact .refl
  | receive size flags =>
      rw [step]
      split
      · rw [endSection_socket]
        exact tcpReceive_effects _ _ _ hreads
      · exact .refl
  | shutdown how =>
      rw [step]
      split
      · rw [endSection_socket]
        exact tcpShutdown_effects _ _ id
      · exact .refl
  | abort =>
      rw [step]
      split
      · exact tcpAbort_effects _
      · exact .refl
  | resume i missed =>
      rw [step]
      split
      · exact .refl
      case h_2 call hcall =>
        cases missed with
        | true => exact .refl
        | false =>
            simp only [Bool.false_eq_true, if_false]
            rw [endSection_socket]
            have hwrites : Writes slot (.resume i false) ↔ call.writes = true ∧
                (slot.socket.state = .established ∨ slot.socket.state = .closeWait) := by
              rw [Writes, hcall]
              rfl
            refine resumeCall_effects slot.socket call (fun next hnext => hfin next ?_)
              (fun hcalls => hreads ?_)
              (fun hcalls hstate => not_not.2 (hwrites.2 ⟨hcalls, hstate⟩)) fun hcalls hboth => ?_
            · rw [hcall]
              exact hnext
            · rw [hcall]
              exact hcalls
            · exact Bool.noConfusion (hcalls.symm.trans (hwrites.1 hboth).1)
  | segment segment memory =>
      rw [step]
      split
      · exact tcpProcessSegment_effects _ segment memory rfl rfl
      · exact .refl
  | tick elapsed =>
      rw [step]
      split
      · exact tcpTick_effects _ elapsed
      · exact .refl

end Tcp
