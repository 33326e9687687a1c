import CycloneTcp.Core.TcpStream

set_option autoImplicit false

/-! # The two ends of a connection

Two sockets exchange segments over a network that loses, repeats, delays and reorders them, but
neither alters nor invents any. What the one has read is then what the other has written, from the
beginning on, and when it is told that the stream has ended, it has read it all. A retransmitted
segment can carry newer data in the place of data that has been acknowledged: the other end has
received that before, so it takes from the segment what is right. -/

namespace Tcp

open Serial

variable {T A : Option Segment} {F : Prop} {s s' r r' : Socket}

/-! ## What a segment announces -/

/-- The headers of the segments that have been sent or may still be. -/
def Socket.headers (s : Socket) : List TcpHeader :=
  s.net.sent.map (·.2.header) ++ s.snd.retransmitQueue.map (·.header)

/-- A SYN tells the initial sequence number, an ACK what has been received, and a FIN, which is new
if the step `shuts` the outgoing stream, where the stream ends. -/
structure Announces (shuts : Prop) (s : Socket) (header : TcpHeader) : Prop where
  syn : header.flags.syn = true → header.seqNum = s.snd.iss
  ack : header.flags.ack = true → header.flags.rst = false →
    header.ackNum = s.rcv.rcvNxt ∧ s.MayAck
  fin : header.flags.fin = true →
    shuts ∧ header.seqNum = seq s.snd.iss (s.history.written.length + 1)

theorem Emits.announces {segment : OutSegment} (h : Emits s segment) :
    segment.header ∈ s.snd.retransmitQueue.map (·.header) ∨ Announces F s segment.header := by
  cases h with
  | control hdata hsyn hfin hack =>
      exact .inr ⟨fun hflag => Bool.noConfusion (hsyn.symm.trans hflag), hack,
        fun hflag => Bool.noConfusion (hfin.symm.trans hflag)⟩
  | queued item hopen hmem hheader hdata => exact .inl (List.mem_map.2 ⟨item, hmem, hheader.symm⟩)

/-- The handshake has begun. -/
def Socket.Started (s : Socket) : Prop := s.state ≠ .closed ∧ s.state ≠ .listen

theorem started_of_buffered (h : s.state.buffered = true) : s.Started := by
  constructor <;> intro hs <;> simp [hs, TcpState.buffered] at h

/-! ## What an effect does to the outgoing stream -/

/-- The state stays as it is, or a connection goes on or ends. -/
def GoesOn (s s' : Socket) : Prop :=
  s'.state = s.state ∨ s'.state = .closed ∨
    (s.state.buffered = true ∧ s'.state ≠ .listen ∧
      (s'.state = .timeWait → s'.snd.retransmitQueue = []))

/-- An effect, as far as the outgoing stream is concerned. -/
structure SendEffect (arrived : Option Segment) (shuts : Prop) (s s' : Socket) : Prop where
  iss : s'.snd.iss = s.snd.iss
  sends : Sends s s'
  written : s'.history.written = s.history.written ∨
    (¬ shuts ∧ s.Started ∧ s.history.written <+: s'.history.written)
  sndUna : s'.snd.sndUna = s.snd.sndUna ∨ ∃ segment, arrived = some segment ∧
    segment.flags.ack = true ∧ segment.flags.rst = false ∧ s'.snd.sndUna = segment.ackNum
  state : GoesOn s s'
  queue : ∀ item ∈ s'.snd.retransmitQueue, item ∈ s.snd.retransmitQueue ∨
    (s'.state.buffered = true ∧ s'.state = s.state ∧ Announces shuts s' item.header)

namespace SendEffect

theorem buffered (h : SendEffect A F s s') (hs' : s'.state.buffered = true) :
    s.state.buffered = true := by
  rcases h.state with hs | hs | ⟨hs, -⟩
  · exact hs ▸ hs'
  · rw [hs] at hs'
    exact Bool.noConfusion hs'
  · exact hs

theorem started (h : SendEffect A F s s') (hs' : s'.Started) : s.Started := by
  rcases h.state with hs | hs | ⟨hs, -⟩
  · rwa [Socket.Started, hs] at hs'
  · exact absurd hs hs'.1
  · exact started_of_buffered hs

theorem written_prefix (h : SendEffect A F s s') : s.history.written <+: s'.history.written := by
  rcases h.written with hw | ⟨-, -, hw⟩
  · rw [hw]
  · exact hw

theorem sent_subset (h : SendEffect A F s s') : s.net.sent ⊆ s'.net.sent := by
  obtain ⟨new, hsent, -⟩ := h.sends
  rw [hsent]
  exact List.subset_append_left _ _

/-- A header is an old one, or it announces what the socket knows. -/
theorem headers (h : SendEffect A F s s') {header : TcpHeader} (hmem : header ∈ s'.headers) :
    header ∈ s.headers ∨ Announces F s' header := by
  have hqueue : ∀ header ∈ s'.snd.retransmitQueue.map (·.header),
      header ∈ s.headers ∨ Announces F s' header := by
    intro header hmem
    obtain ⟨item, hitem, rfl⟩ := List.mem_map.1 hmem
    rcases h.queue item hitem with hold | ⟨-, -, hnew⟩
    · exact .inl (List.mem_append.2 (.inr (List.mem_map.2 ⟨item, hold, rfl⟩)))
    · exact .inr hnew
  rcases List.mem_append.1 hmem with hmem | hmem
  · obtain ⟨entry, hentry, rfl⟩ := List.mem_map.1 hmem
    obtain ⟨new, hsent, hnew⟩ := h.sends
    rw [hsent] at hentry
    rcases List.mem_append.1 hentry with hold | hentry
    · exact .inl (List.mem_append.2 (.inl (List.mem_map.2 ⟨entry, hold, rfl⟩)))
    · rcases (hnew entry hentry).announces with hitem | hannounces
      · exact hqueue _ hitem
      · exact .inr hannounces
  · exact hqueue header hmem

end SendEffect

/-- An effect that sends and queues nothing. -/
theorem sendEffect_of (hiss : s'.snd.iss = s.snd.iss) (hnet : s'.net = s.net)
    (hwritten : s'.history.written = s.history.written) (hsndUna : s'.snd.sndUna = s.snd.sndUna)
    (hstate : GoesOn s s') (hqueue : s'.snd.retransmitQueue ⊆ s.snd.retransmitQueue) :
    SendEffect A F s s' :=
  ⟨hiss, .of_sent (by rw [hnet]), .inl hwritten, .inl hsndUna, hstate,
    fun _ hmem => .inl (hqueue hmem)⟩

/-- The state changes, and nothing else that matters. -/
theorem sendEffect_changeState {next : TcpState} (hsnd : SendSide.Same s.snd s'.snd)
    (hnet : s'.net = s.net) (hhistory : s'.history = s.history)
    (hnext : next = .closed ∨
      (s.state.buffered = true ∧ next.buffered = true)) :
    SendEffect A F s (tcpChangeState s' next) := by
  refine sendEffect_of ?_ ?_ ?_ ?_ ?_ ?_
  · rw [tcpChangeState_snd, hsnd.iss]
  · rw [tcpChangeState_net, hnet]
  · rw [tcpChangeState_history, hhistory]
  · rw [tcpChangeState_snd, hsnd.sndUna]
  · rcases hnext with rfl | ⟨hs, hnext⟩
    · exact .inr (.inl rfl)
    · refine .inr (.inr ⟨hs, ?_, ?_⟩)
      · rintro rfl
        exact Bool.noConfusion hnext
      · rintro rfl
        exact Bool.noConfusion hnext
  · rw [tcpChangeState_snd, hsnd.retransmitQueue]
    exact List.Subset.refl _

/-- The control block is deleted. -/
theorem sendEffect_deleted (hiss : s'.snd.iss = s.snd.iss) (hsndUna : s'.snd.sndUna = s.snd.sndUna)
    (hnet : s'.net = s.net) (hwritten : s'.history.written = s.history.written)
    (hqueue : s'.snd.retransmitQueue = [])
    (hstate : s'.state = s.state ∨ (s.state.buffered = true ∧ s'.state ≠ .listen)) :
    SendEffect A F s s' := by
  refine sendEffect_of hiss hnet hwritten hsndUna ?_ ?_
  · exact hstate.imp_right fun hs => .inr ⟨hs.1, hs.2, fun _ => hqueue⟩
  · rw [hqueue]
    exact List.nil_subset _

theorem Emits.finished (item : TcpQueueItem) (hopen : s.state ≠ .closed)
    (hmem : item ∈ s.snd.retransmitQueue) (hlen : item.length = 0) :
    Emits s { header := item.header, data := [] } := by
  refine .queued item hopen hmem rfl ?_
  rw [hlen, tcpReadTxBuffer_nil]

/-- Where a FIN is to be sent, the stream ends. -/
theorem OutInv.sndNxt_of_txDone {next : TcpState} (h : OutInv s.snd s.history.written s.state)
    (hallowed : FinAllowed s.state next) (hdone : s.txDone = true) :
    s.snd.sndNxt = seq s.snd.iss (s.history.written.length + 1) := by
  have hfin : s.state.finSent = false := by
    rcases hallowed with ⟨-, hs | hs⟩ | ⟨-, hs⟩ <;> rw [hs] <;> rfl
  have huser : s.snd.sndUser = 0 := by
    rw [Socket.txDone] at hdone
    rcases hallowed with ⟨-, hs | hs⟩ | ⟨-, hs⟩
    · exact h.done (by simp [hs]) (by simp [hs])
    · simpa [hs] using hdone
    · simpa [hs] using hdone
  rw [h.sndNxt, hfin, huser]
  rfl

theorem queue_added {item : TcpQueueItem}
    (hqueue : s'.snd.retransmitQueue = s.snd.retransmitQueue ++ [item])
    (hbuffered : s'.state.buffered = true) (hstate : s'.state = s.state)
    (hitem : Announces F s' item.header) :
    ∀ other ∈ s'.snd.retransmitQueue, other ∈ s.snd.retransmitQueue ∨
      (s'.state.buffered = true ∧ s'.state = s.state ∧ Announces F s' other.header) := by
  intro other hmem
  rw [hqueue] at hmem
  rcases List.mem_append.1 hmem with hmem | hmem
  · exact .inl hmem
  · rw [List.mem_singleton.1 hmem]
    exact .inr ⟨hbuffered, hstate, hitem⟩

/-- **What an effect does to the outgoing stream.** -/
theorem Effect.send (h : Effect T A F s s') (hout : OutAccount s) : SendEffect A F s s' := by
  cases h with
  | orderly h =>
      have hsnd := h.keeps.snd
      refine ⟨hsnd.iss, h.sends, .inl (by rw [h.keeps.same.history]), .inl hsnd.sndUna,
        .inl h.keeps.same.state, fun item hmem => .inl ?_⟩
      rwa [hsnd.retransmitQueue] at hmem
  | ack segment harrived hflag hrst hpos hle =>
      exact ⟨rfl, .of_sent rfl, .inl rfl, .inr ⟨segment, harrived, hflag, hrst, rfl⟩, .inl rfl,
        fun item hmem => .inl (List.mem_filter.1 hmem).1⟩
  | sendData item sent hstate hseq hack hsyn hfin hlen =>
      have hstate' : s.state.buffered = true ∧ s.state ≠ .closed ∧ s.state ≠ .listen ∧
          s.state ≠ .synSent := by
        rcases hstate with hs | hs <;> simp [hs, TcpState.buffered]
      obtain ⟨hbuffered, hclosed, hlisten, hsynSent⟩ := hstate'
      have hheard : s.MayAck := .inl (heard_of hclosed hlisten hsynSent)
      have hnew : ∀ s', s'.snd.iss = s.snd.iss → s'.rcv = s.rcv → s'.MayAck →
          Announces F s' item.header := fun s' hiss hrcv hmay =>
        ⟨fun hflag => Bool.noConfusion (hsyn.symm.trans hflag),
          fun _ _ => ⟨by rw [hack, hrcv], hmay⟩,
          fun hflag => Bool.noConfusion (hfin.symm.trans hflag)⟩
      cases sent with
      | false =>
          exact ⟨rfl, .of_sent rfl, .inl rfl, .inl rfl, .inl rfl,
            queue_added rfl hbuffered rfl (hnew (s.addItem item) rfl rfl hheard)⟩
      | true =>
          exact ⟨rfl, .of_sent rfl, .inl rfl, .inl rfl, .inl rfl, queue_added rfl hbuffered rfl
            (hnew ((s.addItem item).advance item.length) rfl rfl hheard)⟩
  | write data n hwrites hstate hpos =>
      have hstarted : s.Started := by
        constructor <;> rcases hstate with hs | hs <;> simp [hs]
      obtain ⟨txBuffer, overrideTimer, hsnd⟩ := copyUserData_snd s data hpos
      obtain ⟨-, hnet, -, hwritten⟩ := copyUserData_of_pos s data hpos
      refine ⟨by rw [hsnd], .of_sent (by rw [hnet]), .inr ⟨hwrites, hstarted, ?_⟩,
        .inl (by rw [hsnd]), .inl (copyUserData_state _ _ _), fun item hmem => .inl ?_⟩
      · rw [hwritten]
        exact List.prefix_append _ _
      · rwa [hsnd] at hmem
  | data | finAcked | read | disown | resize =>
      exact sendEffect_of rfl rfl rfl rfl (.inl rfl) (List.Subset.refl _)
  | fin segment next _ hfin hnext =>
      have hbuffered : s.state.buffered = true := by
        rcases hnext with ⟨hs, -⟩ | ⟨hs, -⟩ | ⟨hs, -⟩ <;> rw [hs] <;> rfl
      rw [Socket.passFin]
      split
      case isTrue htimeWait =>
        exact sendEffect_deleted (by simp; rfl) (by simp; rfl) (by simp; rfl) (by simp; rfl)
          (by simp; rfl) (.inr ⟨hbuffered, by simp⟩)
      case isFalse htimeWait =>
        refine ⟨by simp, .of_sent (by simp), .inl (by simp), .inl (by simp),
          .inr (.inr ⟨hbuffered, ?_, fun h => absurd h htimeWait⟩), fun item hmem => .inl ?_⟩
        · rcases hnext with ⟨-, rfl⟩ | ⟨-, rfl⟩ | ⟨-, rfl⟩ <;> simp
        · simpa using hmem
  | finWait2 hstate | established hstate =>
      exact sendEffect_changeState (.refl _) rfl rfl (.inr ⟨by rw [hstate]; rfl, rfl⟩)
  | timeWait hstate =>
      exact sendEffect_deleted (by simp; rfl) (by simp; rfl) (by simp; rfl) (by simp; rfl)
        (by simp; rfl) (.inr ⟨by rw [hstate]; rfl, by simp⟩)
  | synSent segment next htext harrived hsyn hrst hstate hack hnext =>
      have hbuffered : s.state.buffered = true := by rw [hstate]; rfl
      refine ⟨by simp [Socket.passSyn, Socket.ackTo],
        .of_sent (by simp [Socket.passSyn, Socket.ackTo]),
        .inl (by simp [Socket.passSyn, Socket.ackTo]), ?_, .inr (.inr ⟨hbuffered, ?_, ?_⟩),
        fun item hmem => .inl ?_⟩
      · rw [Socket.passSyn, tcpChangeState_snd]
        change s.unaOnSyn segment = s.snd.sndUna ∨ _
        rw [Socket.unaOnSyn]
        split
        case isTrue hflag => exact .inr ⟨segment, harrived, hflag, hrst, by simp [Socket.ackTo]⟩
        case isFalse => exact .inl rfl
      · rcases hnext with ⟨rfl, -⟩ | ⟨rfl, -⟩ <;> simp [Socket.passSyn]
      · rcases hnext with ⟨rfl, -⟩ | ⟨rfl, -⟩ <;> simp [Socket.passSyn]
      · rw [Socket.passSyn, tcpChangeState_snd] at hmem
        exact (List.mem_filter.1 hmem).1
  | finish | reset => exact sendEffect_changeState (.refl _) rfl rfl (.inl rfl)
  | dispose hstate => exact sendEffect_deleted rfl rfl rfl rfl rfl (.inl rfl)
  | addFin next item hshuts hallowed hdone hseq hack hsyn hfin hlen =>
      have hstate : s.state.buffered = true ∧ s.state ≠ .closed ∧ s.state ≠ .listen ∧
          s.state ≠ .synSent := by
        rcases hallowed with ⟨-, hs | hs⟩ | ⟨-, hs⟩ <;> simp [hs, TcpState.buffered]
      obtain ⟨hbuffered, hclosed, hlisten, hsynSent⟩ := hstate
      refine ⟨rfl, ⟨[_], rfl, fun entry hmem => ?_⟩, .inl rfl, .inl rfl, .inl rfl,
        queue_added rfl hbuffered rfl ⟨fun hflag => Bool.noConfusion (hsyn.symm.trans hflag),
          fun _ _ => ⟨hack, .inl (heard_of hclosed hlisten hsynSent)⟩,
          fun _ => ⟨hshuts, hseq.trans ((hout.out hbuffered).sndNxt_of_txDone hallowed hdone)⟩⟩⟩
      rw [List.mem_singleton.1 hmem]
      exact Emits.finished item hclosed (List.mem_append.2 (.inr (List.mem_singleton.2 rfl))) hlen
  | leave next hallowed =>
      refine ⟨by simp, .of_sent (by simp), .inl (by simp), .inl (by simp), .inr (.inr ?_),
        fun item hmem => .inl (by simpa using hmem)⟩
      rcases hallowed with ⟨rfl, hs | hs⟩ | ⟨rfl, hs⟩ <;> simp [hs, TcpState.buffered]
  | addSyn item hstate hsyn hfin hlen hseq hack =>
      exact ⟨rfl, .of_sent rfl, .inl rfl, .inl rfl, .inl rfl,
        queue_added rfl (congrArg TcpState.buffered hstate) rfl
          ⟨fun _ => hseq, fun hflag _ => ⟨hack hflag, .inl (.inl (.inl hstate))⟩,
            fun hflag => Bool.noConfusion (hfin.symm.trans hflag)⟩⟩

/-! ## What an effect does to the incoming stream -/

/-- The number of sequence numbers after the SYN of the peer that have been received. -/
def Socket.progress (s : Socket) : ℕ := s.received + s.history.finReceived.toNat

theorem readData_received {data : List UInt8} (hdata : data.length ≤ s.rcv.rcvUser.toNat) :
    (s.readData data).received = s.received := by
  have huser : (s.readData data).rcv.rcvUser = s.rcv.rcvUser - UInt16.ofNat data.length := by
    simp only [Socket.readData, ReceiveSide.openWindow]
    split <;> rfl
  have := s.rcv.rcvUser.toNat_lt
  rw [Socket.received, Socket.received, huser, Socket.readData, List.length_append]
  simp only [UInt16.toNat_sub, UInt16.toNat_ofNat']
  omega

theorem readData_rcv (s : Socket) (data : List UInt8) :
    (s.readData data).rcv.irs = s.rcv.irs ∧ (s.readData data).rcv.rcvNxt = s.rcv.rcvNxt := by
  simp only [Socket.readData, ReceiveSide.openWindow]
  split <;> exact ⟨rfl, rfl⟩

theorem passFin_rcv (s : Socket) (next : TcpState) : ∃ rxBuffer, (s.passFin next).rcv
    = { s.rcv with rcvNxt := s.rcv.rcvNxt + 1, rxBuffer := rxBuffer } := by
  rw [Socket.passFin]
  split <;> rw [tcpChangeState_rcv] <;> exact ⟨_, rfl⟩

theorem passSyn_rcv (s : Socket) (segment : Segment) (next : TcpState) :
    (s.passSyn segment next).rcv
      = { s.rcv with irs := segment.seqNum, rcvNxt := segment.seqNum + 1 } := by
  rw [Socket.passSyn, tcpChangeState_rcv]

theorem passSyn_history (s : Socket) (segment : Segment) (next : TcpState) :
    s.history.SamePeer (s.passSyn segment next).history :=
  samePeer_changeState _ next

/-- What has been received is not lost again. -/
theorem StreamEffect.received (h : StreamEffect T A s s') (hinv : ReceiveAccount s) :
    s.received ≤ s'.received := by
  cases h with
  | keeps h => exact h.received.ge
  | data segment _ hstate hacc hlen heq =>
      obtain ⟨spans, hre⟩ := hinv.receive (.inr hstate)
      obtain ⟨a, b, k, spans', -, hstored⟩ := receiveData_spec hre hacc hlen
      have huser := hstored.rcvUser
      rw [heq, Socket.received, Socket.received]
      simp only [huser]
      omega
  | fin segment next _ _ _ _ heq =>
      obtain ⟨rxBuffer, hrcv⟩ := passFin_rcv s next
      rw [heq, Socket.received, Socket.received, hrcv, passFin_history]
  | syn segment next _ _ _ _ _ heq =>
      rw [heq, Socket.received, Socket.received, passSyn_rcv, (passSyn_history s segment next).1]
  | read seqNum received n flags _ _ _ _ hn heq =>
      rw [heq, readData_received (le_trans (copyReceived_length _ _ _ _) hn)]

/-- The end of the stream is received in a state that receives, and leaves it. -/
theorem StreamEffect.finReceived (h : StreamEffect T A s s') :
    s'.history.finReceived = s.history.finReceived ∨
      (s.state.Receiving ∧ s'.state.finReceived = true ∧ s'.history.finReceived = true) := by
  cases h with
  | keeps h => exact .inl h.finReceived
  | data _ _ _ _ _ heq => exact .inl (by rw [heq])
  | fin segment next _ _ hstate hnext heq =>
      rw [heq, passFin_history, passFin_state]
      exact .inr ⟨hstate, hnext, rfl⟩
  | syn segment next _ _ _ _ _ heq =>
      rw [heq]
      exact .inl (passSyn_history s segment next).2.2
  | read _ _ _ _ _ _ _ _ _ heq => exact .inl (by rw [heq]; rfl)

theorem StreamEffect.progress (h : StreamEffect T A s s') (hinv : ReceiveAccount s) :
    s.progress ≤ s'.progress := by
  have hreceived := h.received hinv
  rw [Socket.progress, Socket.progress]
  rcases h.finReceived with hfin | ⟨-, -, hfin⟩
  · rw [hfin]
    omega
  · rw [hfin]
    have := s.history.finReceived.toNat_le
    simp only [Bool.toNat_true]
    omega

/-- The socket comes to know the peer by its SYN. -/
theorem StreamEffect.mayAck (h : StreamEffect T A s s') (hinv : ReceiveAccount s)
    (hmay : s'.MayAck) :
    (s.MayAck ∧ s'.rcv.irs = s.rcv.irs) ∨ ∃ segment, A = some segment ∧
      segment.flags.syn = true ∧ s.state = .synSent ∧ s'.rcv.irs = segment.seqNum := by
  cases h with
  | keeps h => exact .inl ⟨h.mayAck hmay, h.irs⟩
  | data segment _ hstate hacc hlen heq =>
      refine .inl ⟨.inl (.inl (.inr hstate)), ?_⟩
      obtain ⟨spans, hre⟩ := hinv.receive (.inr hstate)
      obtain ⟨a, b, k, spans', -, hstored⟩ := receiveData_spec hre hacc hlen
      rw [heq]
      exact hstored.irs
  | fin segment next _ _ hstate hnext heq =>
      obtain ⟨rxBuffer, hrcv⟩ := passFin_rcv s next
      rw [heq, hrcv]
      exact .inl ⟨.inl (.inl hstate), rfl⟩
  | syn segment next _ harrived hsyn hstate _ heq =>
      rw [heq, passSyn_rcv]
      exact .inr ⟨segment, harrived, hsyn, hstate, rfl⟩
  | read _ _ _ _ _ _ _ _ _ heq =>
      rw [heq] at hmay ⊢
      refine .inl ⟨hmay.imp id id, (readData_rcv s _).1⟩

/-! ## One end -/

/-- What holds of a socket that has had at most one connection. -/
structure Party (s : Socket) : Prop where
  out : OutAccount s
  receive : ReceiveAccount s
  started : s.Started → s.net.sent ≠ []
  fresh : s.net.sent = [] → ¬ s.MayAck ∧ s.snd.retransmitQueue = [] ∧
    s.history.written = [] ∧ s.history.finReceived = false
  idle : s.state = .listen ∨ s.state = .timeWait → s.snd.retransmitQueue = []
  syn : ∀ header ∈ s.headers, header.flags.syn = true → header.seqNum = s.snd.iss
  unfinished : s.state.Receiving ∨ s.state = .synSent → s.history.finReceived = false
  rcvNxt : s.MayAck → s.rcv.rcvNxt = seq (s.rcv.irs + 1) s.progress
  ended : s.Ended → s.history.finReceived = true
  finEmpty : ∀ entry ∈ s.net.sent, entry.2.header.flags.fin = true → entry.2.data = []

/-- Queued segments are sent in a state that has its buffers. -/
theorem buffered_of_queued {item : TcpQueueItem}
    (hidle : s.state = .listen ∨ s.state = .timeWait → s.snd.retransmitQueue = [])
    (hopen : s.state ≠ .closed) (hmem : item ∈ s.snd.retransmitQueue) :
    s.state.buffered = true := by
  by_contra hnot
  have hqueue : s.snd.retransmitQueue = [] := by
    refine hidle ?_
    revert hopen hnot
    cases s.state <;> simp [TcpState.buffered]
  rw [hqueue] at hmem
  exact absurd hmem (by simp)

/-- A FIN is sent without data. -/
theorem Emits.finEmpty {segment : OutSegment} (h : Emits s segment) (hout : OutAccount s)
    (hidle : s.state = .listen ∨ s.state = .timeWait → s.snd.retransmitQueue = [])
    (hflag : segment.header.flags.fin = true) : segment.data = [] := by
  cases h with
  | control hdata => exact hdata
  | queued item hopen hmem hheader hdata =>
      have hzero : item.length = 0 := by
        by_contra hpos
        have hfin := ((hout.out (buffered_of_queued hidle hopen hmem)).items item hmem
          (Nat.pos_of_ne_zero hpos)).fin
        rw [hheader, hfin] at hflag
        exact Bool.noConfusion hflag
      rw [hdata, hzero, tcpReadTxBuffer_nil]

theorem TcpState.Receiving.mayAck (h : s.state.Receiving) : s.MayAck := .inl (.inl h)

namespace Party

theorem unfinished_effect (h : Party s) (heffect : StreamEffect T A s s')
    (hs' : s'.state.Receiving ∨ s'.state = .synSent) : s'.history.finReceived = false := by
  cases heffect with
  | keeps hk =>
      rw [hk.finReceived]
      exact h.unfinished (hs'.imp hk.receiving hk.synSent)
  | data segment _ _ _ _ heq =>
      rw [heq] at hs' ⊢
      exact h.unfinished hs'
  | fin segment next _ _ _ hnext heq =>
      rw [heq, passFin_state] at hs'
      rcases hs' with (rfl | rfl | rfl | rfl) | rfl <;> simp [TcpState.finReceived] at hnext
  | syn segment next _ _ _ hstate _ heq =>
      rw [heq, (passSyn_history s segment next).2.2]
      exact h.unfinished (.inr hstate)
  | read _ _ _ _ _ _ _ _ _ heq =>
      rw [heq] at hs' ⊢
      exact h.unfinished hs'

/-- In a state that receives, RCV.NXT is after what has been received in order. -/
theorem rcvNxt_of_receiving (hreceive : ReceiveAccount s) (hs : s.state.Receiving)
    (hfin : s.history.finReceived = false) :
    s.rcv.rcvNxt = seq (s.rcv.irs + 1) s.progress := by
  obtain ⟨spans, hre⟩ := hreceive.receive hs
  rw [Socket.progress, hfin]
  exact hre.rcvNxt

theorem rcvNxt_effect (h : Party s) (hreceive : ReceiveAccount s')
    (heffect : StreamEffect T A s s') (hmay : s'.MayAck) :
    s'.rcv.rcvNxt = seq (s'.rcv.irs + 1) s'.progress := by
  have hreceiving : s'.state.Receiving → s'.rcv.rcvNxt = seq (s'.rcv.irs + 1) s'.progress :=
    fun hs' => rcvNxt_of_receiving hreceive hs' (h.unfinished_effect heffect (.inl hs'))
  cases heffect with
  | keeps hk =>
      rw [hk.rcvNxt, hk.irs, Socket.progress, hk.received, hk.finReceived]
      exact h.rcvNxt (hk.mayAck hmay)
  | data segment _ hstate _ _ heq => exact hreceiving (by rw [heq]; exact .inr hstate)
  | fin segment next _ _ hstate _ heq =>
      obtain ⟨rxBuffer, hrcv⟩ := passFin_rcv s next
      have hprogress : s'.progress = s.progress + 1 := by
        rw [Socket.progress, Socket.progress, h.unfinished (.inl hstate), heq, Socket.received,
          Socket.received, hrcv, passFin_history]
        rfl
      rw [hprogress, heq, hrcv, ← seq_add_one, ← h.rcvNxt hstate.mayAck]
  | syn segment next _ _ _ _ hnext heq => exact hreceiving (by rw [heq]; exact hnext)
  | read seqNum received n flags _ _ _ _ hn heq =>
      have hdata := le_trans (copyReceived_length s.rcv seqNum n flags) hn
      obtain ⟨hirs, hnxt⟩ := readData_rcv s (copyReceived s.rcv seqNum n flags)
      rw [heq] at hmay ⊢
      rw [hirs, hnxt, Socket.progress, readData_received hdata]
      exact h.rcvNxt hmay

theorem ended_effect (h : Party s) (heffect : StreamEffect T A s s') (hs' : s'.Ended) :
    s'.history.finReceived = true := by
  cases heffect with
  | keeps hk =>
      rw [hk.finReceived]
      exact h.ended (hk.ended hs').1
  | data segment _ hstate _ _ heq =>
      exact absurd hs' (TcpState.Receiving.not_ended (by rw [heq]; exact .inr hstate))
  | fin segment next _ _ _ _ heq => rw [heq, passFin_history]
  | syn segment next _ _ _ _ hnext heq =>
      exact absurd hs' (TcpState.Receiving.not_ended (by rw [heq]; exact hnext))
  | read _ _ _ _ _ _ _ _ _ heq =>
      rw [heq] at hs' ⊢
      exact h.ended hs'

/-- In the states that do not send, the queue is empty. -/
theorem idle_effect (h : Party s) (hsend : SendEffect A F s s')
    (hs' : s'.state = .listen ∨ s'.state = .timeWait) : s'.snd.retransmitQueue = [] := by
  have hnot : s'.state.buffered ≠ true := by
    rcases hs' with hs' | hs' <;> rw [hs'] <;> simp [TcpState.buffered]
  have hold : ∀ item ∈ s'.snd.retransmitQueue, item ∈ s.snd.retransmitQueue :=
    fun item hitem => (hsend.queue item hitem).resolve_right fun hnew => hnot hnew.1
  rcases hsend.state with hs | hs | ⟨hs, hlisten, hwait⟩
  · rw [hs] at hs'
    rw [h.idle hs'] at hold
    exact List.subset_nil.1 hold
  · rw [hs] at hs'
    rcases hs' with hs' | hs' <;> exact absurd hs' (by simp)
  · exact hwait (hs'.resolve_left hlisten)

theorem effect (h : Party s) (heffect : Effect T A F s s') : Party s' := by
  have hsend := heffect.send h.out
  have hstream := heffect.stream
  have hout : OutAccount s' := h.out.act (heffect.act (K := {}))
  have hreceive := h.receive.act rfl (heffect.act (K := { blocks := true }))
  have hidle := h.idle_effect hsend
  refine ⟨hout, hreceive, fun hs' hsent => ?_, fun hsent => ?_, hidle,
    fun header hmem hsyn => ?_, h.unfinished_effect hstream, h.rcvNxt_effect hreceive hstream,
    h.ended_effect hstream, fun entry hentry hflag => ?_⟩
  · exact h.started (hsend.started hs') (List.subset_nil.1 (hsent ▸ hsend.sent_subset))
  · -- nothing has happened yet
    have hsent' : s.net.sent = [] := List.subset_nil.1 (hsent ▸ hsend.sent_subset)
    have hnot : ¬ s.Started := fun hs => h.started hs hsent'
    obtain ⟨hmay, hqueue, hwritten, hfin⟩ := h.fresh hsent'
    refine ⟨fun hmay' => ?_, ?_, ?_, ?_⟩
    · rcases hstream.mayAck h.receive hmay' with ⟨hmay', -⟩ | ⟨-, -, -, hs, -⟩
      · exact hmay hmay'
      · exact hnot ⟨by rw [hs]; simp, by rw [hs]; simp⟩
    · refine List.eq_nil_iff_forall_not_mem.2 fun item hitem => ?_
      rcases hsend.queue item hitem with hold | ⟨hs', hs, -⟩
      · rw [hqueue] at hold
        exact absurd hold (by simp)
      · exact hnot (started_of_buffered (hs ▸ hs'))
    · rcases hsend.written with hw | ⟨-, hs, -⟩
      · rw [hw, hwritten]
      · exact absurd hs hnot
    · rcases hstream.finReceived with hf | ⟨hs, -⟩
      · rw [hf, hfin]
      · exact absurd (started_of_buffered hs.buffered) hnot
  · rw [hsend.iss]
    rcases hsend.headers hmem with hold | hnew
    · exact h.syn header hold hsyn
    · rw [hnew.syn hsyn, hsend.iss]
  · obtain ⟨new, hsent, hnew⟩ := hsend.sends
    rw [hsent] at hentry
    rcases List.mem_append.1 hentry with hentry | hentry
    · exact h.finEmpty entry hentry hflag
    · exact (hnew entry hentry).finEmpty hout hidle hflag

end Party

/-! ## The handshake -/

/-- Nothing of a connection is on the socket. -/
structure Blank (s : Socket) : Prop where
  sent : s.net.sent = []
  queue : s.snd.retransmitQueue = []
  written : s.history.written = []
  finReceived : s.history.finReceived = false
  timer : s.snd.persistTimer = false
  ended : ¬ s.Ended

/-- At most a SYN has been sent, which acknowledges one with the number `isn`. -/
structure SynOnly (isn : Option UInt32) (s : Socket) : Prop where
  queue : s.net.sent = [] → s.snd.retransmitQueue = []
  header : ∀ header ∈ s.headers, header.flags.fin = false ∧ header.seqNum = s.snd.iss ∧
    (header.flags.ack = true → ∃ irs ∈ isn, header.ackNum = irs + 1)
  data : ∀ entry ∈ s.net.sent, entry.2.data = []

theorem SynOnly.of_same {isn : Option UInt32} (h : SynOnly isn s) (hnet : s'.net.sent = s.net.sent)
    (hiss : s'.snd.iss = s.snd.iss)
    (hqueue : s'.snd.retransmitQueue = s.snd.retransmitQueue ∨ s'.snd.retransmitQueue = []) :
    SynOnly isn s' := by
  have hheaders : s'.headers ⊆ s.headers := by
    rw [Socket.headers, Socket.headers, hnet]
    rcases hqueue with hq | hq <;> rw [hq]
    · exact List.Subset.refl _
    · rw [List.map_nil, List.append_nil]
      exact List.subset_append_left _ _
  refine ⟨fun hsent => ?_, fun header hmem => ?_, fun entry hmem => ?_⟩
  · rcases hqueue with hq | hq
    · rw [hq]
      exact h.queue (hnet ▸ hsent)
    · exact hq
  · rw [hiss]
    exact h.header header (hheaders hmem)
  · exact h.data entry (hnet ▸ hmem)

/-- A connection is about to begin or has just begun. -/
structure Starts (isn : Option UInt32) (s : Socket) : Prop extends SynOnly isn s where
  written : s.history.written = []
  finReceived : s.history.finReceived = false
  state : s.state = .closed ∨ s.state = .listen ∨ s.state = .synSent ∨ s.state = .synReceived
  started : s.Started → s.net.sent ≠ []
  idle : s.state = .listen → s.snd.retransmitQueue = []
  mayAck : s.MayAck → s.state = .synReceived ∧ isn = some s.rcv.irs

theorem Blank.synOnly (h : Blank s) (isn : Option UInt32) : SynOnly isn s := by
  refine ⟨fun _ => h.queue, ?_, ?_⟩
  · rw [Socket.headers, h.sent, h.queue]
    simp
  · rw [h.sent]
    simp

theorem not_mayAck (hstate : ¬ s.state.Receiving) (hended : ¬ s.Ended)
    (htimer : s.snd.persistTimer = false) : ¬ s.MayAck := by
  rintro ((h | h) | h)
  · exact hstate h
  · exact hended h
  · exact Bool.noConfusion (htimer.symm.trans h)

theorem Blank.starts (h : Blank s) (hstate : s.state = .closed ∨ s.state = .listen)
    (isn : Option UInt32) : Starts isn s := by
  refine ⟨h.synOnly isn, h.written, h.finReceived, ?_, ?_, fun _ => h.queue, fun hmay => ?_⟩
  · exact hstate.imp_right .inl
  · rintro ⟨hclosed, hlisten⟩
    exact absurd hstate (by simp [hclosed, hlisten])
  · refine absurd hmay (not_mayAck ?_ h.ended h.timer)
    rcases hstate with hs | hs <;> simp [hs, TcpState.Receiving]

/-- The SYN is sent, or nothing is. -/
theorem Blank.sendSyn (h : Blank s) (isn : Option UInt32) (flags : TcpFlags) (ackNum : UInt32)
    (hfin : flags.fin = false) (hack : flags.ack = true → ∃ irs ∈ isn, ackNum = irs + 1) :
    let r := tcpSendSegment s flags s.snd.iss ackNum 0 true
    SynOnly isn r.2 ∧ Socket.Same s r.2 ∧ r.2.snd.persistTimer = false ∧
      (r.1 = .noError → r.2.net.sent ≠ []) := by
  intro r
  rcases tcpSendSegment_payload s flags s.snd.iss ackNum 0 true with ⟨error, herror, hr⟩ |
    ⟨data, hdata, hr⟩
  · rw [show r = _ from hr]
    exact ⟨(h.synOnly isn).of_same rfl rfl (.inl rfl),
      ⟨rfl, rfl, rfl, rfl, rfl, rfl, rfl, rfl, rfl, rfl, rfl, rfl⟩, h.timer,
      fun hno => absurd hno herror⟩
  · rw [tcpReadTxBuffer_nil] at hdata
    subst hdata
    have hsame := enqueue_same s.snd (s.header flags s.snd.iss ackNum) 0 _ rfl
    have htimer := (enqueue_level s (s.header flags s.snd.iss ackNum) 0 s.net).persistTimer
    have hnum : flags.ack = true → ∃ irs ∈ isn,
        (s.header flags s.snd.iss ackNum).ackNum = irs + 1 := by
      intro hflag
      rw [Socket.header, if_pos hflag]
      exact hack hflag
    rw [show r = _ from hr]
    simp only [if_true]
    generalize hheader : s.header flags s.snd.iss ackNum = header at *
    have hseq : header.seqNum = s.snd.iss := by rw [← hheader]; rfl
    have hflags : header.flags = flags := by rw [← hheader]; rfl
    refine ⟨⟨fun hsent => ?_, fun other hmem => ?_, fun entry hmem => ?_⟩,
      ⟨rfl, rfl, rfl, rfl, rfl, rfl, rfl, rfl, rfl, rfl, rfl, rfl⟩, htimer.trans h.timer, ?_⟩
    · simp [Network.send] at hsent
    · have hother : other = header := by
        rw [Socket.headers] at hmem
        simp only [Network.send, Network.next, h.sent, hsame.retransmitQueue, h.queue] at hmem
        simpa using hmem
      rw [hother, hflags]
      exact ⟨hfin, hseq.trans hsame.iss.symm, hnum⟩
    · simp only [Network.send, Network.next, h.sent, List.nil_append, List.mem_singleton] at hmem
      rw [hmem]
    · simp [Network.send]

/-- The SYN has been sent, and the state tells. -/
theorem SynOnly.starts {isn : Option UInt32} {next : TcpState} (h : SynOnly isn s')
    (hblank : Blank s) (hsame : Socket.Same s s') (htimer : s'.snd.persistTimer = false)
    (hsent : s'.net.sent ≠ [])
    (hnext : next = .synSent ∨ (next = .synReceived ∧ isn = some s.rcv.irs)) :
    Starts isn (tcpChangeState s' next) := by
  have hne : next ≠ .closed ∧ next ≠ .listen := by
    rcases hnext with rfl | ⟨rfl, -⟩ <;> simp
  refine ⟨h.of_same (by simp) (by simp) (.inl (by simp)), ?_, ?_, ?_, fun _ => by simpa using hsent,
    fun hs => absurd hs hne.2, fun hmay => ?_⟩
  · rw [tcpChangeState_history, hsame.history]
    exact hblank.written
  · rw [tcpChangeState_history, hsame.history]
    exact hblank.finReceived
  · exact .inr (.inr (hnext.imp_right And.left))
  · have hended : ¬ (tcpChangeState s' next).Ended := by
      rintro (hfin | ⟨hs | hs, -⟩)
      · rcases hnext with rfl | ⟨rfl, -⟩ <;> simp [TcpState.finReceived] at hfin
      · exact hne.1 hs
      · exact hne.2 hs
    rcases hnext with rfl | ⟨rfl, hisn⟩
    · refine absurd hmay (not_mayAck (by simp [TcpState.Receiving]) hended ?_)
      rw [tcpChangeState_snd, htimer]
    · rw [tcpChangeState_rcv, hsame.rcv]
      exact ⟨rfl, hisn⟩

/-- A connection that could not be opened. -/
theorem SynOnly.starts_closed {isn : Option UInt32} (h : SynOnly isn s') (hblank : Blank s)
    (hclosed : s.state = .closed) (hsame : Socket.Same s s')
    (htimer : s'.snd.persistTimer = false) : Starts isn s' := by
  have hstate : s'.state = .closed := hsame.state.trans hclosed
  have hended : ¬ s'.Ended := by
    rw [Socket.Ended, hsame.state, hsame.closedFlag, hsame.resetFlag]
    exact hblank.ended
  refine ⟨h, ?_, ?_, .inl hstate, fun hs => absurd hstate hs.1, fun hs => ?_, fun hmay => ?_⟩
  · rw [hsame.history]
    exact hblank.written
  · rw [hsame.history]
    exact hblank.finReceived
  · rw [hstate] at hs
    exact absurd hs (by simp)
  · exact absurd hmay (not_mayAck (by simp [hstate, TcpState.Receiving]) hended htimer)

theorem sendSyn_starts (h : Blank s) (hclosed : s.state = .closed) : Starts none (sendSyn s).2 := by
  obtain ⟨hsyn, hsame, htimer, hsent⟩ := h.sendSyn none { syn := true } 0 rfl (by simp)
  rw [sendSyn]
  simp only
  split
  case isTrue => exact hsyn.starts_closed h hclosed hsame htimer
  case isFalse hno => exact hsyn.starts h hsame htimer (hsent (not_not.1 hno)) (.inl rfl)

theorem tcpAbort_starts {isn : Option UInt32} (h : SynOnly isn s) (hclosed : s.state = .closed)
    (hwritten : s.history.written = []) (hfin : s.history.finReceived = false)
    (htimer : s.snd.persistTimer = false) : Starts isn (tcpAbort s).2 := by
  have habort : (tcpAbort s).2 = disposeSocket (tcpChangeState s .closed) := by
    rw [tcpAbort, hclosed]
  rw [habort]
  have hnot : ¬ (disposeSocket (tcpChangeState s .closed)).MayAck := by
    refine not_mayAck (by simp [disposeSocket, tcpDeleteControlBlock, TcpState.Receiving]) ?_ ?_
    · rintro (hs | ⟨-, -, hreset⟩)
      · simp [disposeSocket, tcpDeleteControlBlock, TcpState.finReceived] at hs
      · simp [disposeSocket, tcpDeleteControlBlock, tcpChangeState, hclosed] at hreset
    · simpa [disposeSocket, tcpDeleteControlBlock] using htimer
  refine ⟨h.of_same (by simp [disposeSocket, tcpDeleteControlBlock])
    (by simp [disposeSocket, tcpDeleteControlBlock]) (.inr rfl), ?_, ?_, .inl rfl,
    fun hs => absurd rfl hs.1, fun _ => rfl, fun hmay => absurd hmay hnot⟩
  · simpa [disposeSocket, tcpDeleteControlBlock] using hwritten
  · simpa [disposeSocket, tcpDeleteControlBlock] using hfin

theorem sendSynAck_starts {irs : UInt32} (h : Blank s) (hclosed : s.state = .closed)
    (hirs : s.rcv.irs = irs) (hnxt : s.rcv.rcvNxt = irs + 1) :
    Starts (some irs) (sendSynAck s).2 := by
  obtain ⟨hsyn, hsame, htimer, hsent⟩ := h.sendSyn (some irs) { syn := true, ack := true }
    s.rcv.rcvNxt rfl fun _ => ⟨irs, rfl, hnxt⟩
  rw [sendSynAck]
  simp only
  split
  case isTrue =>
    refine tcpAbort_starts hsyn (hsame.state.trans hclosed) ?_ ?_ htimer
    · rw [hsame.history]
      exact h.written
    · rw [hsame.history]
      exact h.finReceived
  case isFalse hno =>
    exact hsyn.starts h hsame htimer (hsent (not_not.1 hno)) (.inr ⟨rfl, by rw [hirs]⟩)

theorem openConnection_starts (h : Blank s) (hclosed : s.state = .closed) (remoteIpAddr : IpAddr)
    (remotePort : UInt16) (env : ConnectEnv) :
    Starts none (openConnection s remoteIpAddr remotePort env).2 := by
  have hblank : ∀ t : Socket, t.history = s.history.restart → t.net = s.net →
      t.snd.retransmitQueue = [] → t.snd.persistTimer = s.snd.persistTimer →
      (t.Ended → s.Ended) → Blank t := fun t hhistory hnet hqueue htimer hended =>
    ⟨by rw [hnet, h.sent], hqueue, by rw [hhistory]; rfl, by rw [hhistory]; rfl,
      by rw [htimer, h.timer], fun ht => h.ended (hended ht)⟩
  have hstarts : ∀ t : Socket, Blank t → t.state = s.state → Starts none t := fun t ht hstate =>
    ht.starts (.inl (hstate.trans hclosed)) none
  rw [openConnection]
  split
  · exact hstarts _ (hblank _ rfl rfl h.queue rfl id) rfl
  case h_2 interface addr _ =>
    simp only
    split
    · exact hstarts _ (hblank _ rfl rfl h.queue rfl id) rfl
    · split
      · exact hstarts _ (hblank _ rfl rfl rfl rfl id) rfl
      · exact sendSyn_starts (hblank _ rfl rfl h.queue rfl id) hclosed

theorem socketOpen_blank (hsent : s.net.sent = []) (type : SocketType) (port : UInt16) :
    Blank (socketOpen s type port) := by
  refine ⟨hsent, rfl, rfl, rfl, rfl, ?_⟩
  simp [Socket.Ended, socketOpen, Socket.cleared, TcpState.finReceived]

theorem acceptConnection_starts (hsent : s.net.sent = []) (listener : Socket) (port : UInt16)
    (queueItem : TcpSynQueueItem) (memory : Bool) (iss : UInt32) :
    Starts (some queueItem.isn)
      (acceptConnection listener (socketOpen s .stream port) queueItem memory iss).2 := by
  have hopen := socketOpen_blank hsent .stream port
  have hblank : Blank (inheritSettings listener (socketOpen s .stream port)) :=
    ⟨hsent, rfl, rfl, rfl, rfl, hopen.ended⟩
  rw [acceptConnection]
  split
  · exact tcpAbort_starts (hblank.synOnly _) rfl rfl rfl rfl
  · exact sendSynAck_starts ⟨hsent, rfl, rfl, rfl, rfl, hopen.ended⟩ rfl rfl rfl

/-- The number of the SYN of the peer, if the step begins a connection in answer to it. -/
def Event.isn : Event → Option UInt32
  | .accept _ _ _ queueItem _ _ => some queueItem.isn
  | _ => none

theorem Party.blank (h : Party s) (hsent : s.net.sent = []) : Blank s := by
  obtain ⟨hmay, hqueue, hwritten, hfin⟩ := h.fresh hsent
  exact ⟨hsent, hqueue, hwritten, hfin, Bool.eq_false_of_not_eq_true fun ht => hmay (.inr ht),
    fun hended => hmay (.inl (.inr hended))⟩

/-- **A step that begins a connection sends the SYN at most.** -/
theorem step_begins_starts {slot : Slot} {event : Event} (h : Party slot.socket)
    (hsent : slot.socket.net.sent = []) (hbegins : event.Begins slot.socket) :
    Starts event.isn (step slot event).socket := by
  have hblank := h.blank hsent
  cases event with
  | «open» type port =>
      have hunused : slot.socket.type = .unused := hbegins
      rw [step, if_pos hunused]
      exact (socketOpen_blank hsent type port).starts (.inl rfl) _
  | accept listener sized port queueItem memory iss =>
      have hunused : slot.socket.type = .unused := hbegins
      rw [step, if_pos hunused]
      exact acceptConnection_starts hsent listener port queueItem memory iss
  | connect remoteIpAddr remotePort env =>
      have hstate : slot.socket.state = .closed := hbegins
      rw [step]
      split
      case isFalse => exact hblank.starts (.inl hstate) _
      case isTrue =>
        have hopen := openConnection_starts hblank hstate remoteIpAddr remotePort env
        rw [endSection_socket, tcpConnect, if_pos hstate]
        simp only
        split <;> exact hopen
  | listen backlog =>
      have hstate : slot.socket.state = .closed := hbegins
      rw [step]
      split
      case isFalse => exact hblank.starts (.inl hstate) _
      case isTrue =>
        rw [tcpListen, if_neg (by simpa using hstate)]
        have hlisten : Blank (tcpChangeState { slot.socket with
            synQueueSize := min (if 0 < backlog then backlog else TCP_DEFAULT_SYN_QUEUE_SIZE)
              TCP_MAX_SYN_QUEUE_SIZE } .listen) := by
          refine ⟨hsent, hblank.queue, hblank.written, hblank.finReceived, hblank.timer, ?_⟩
          rintro (hfin | ⟨-, hflags⟩)
          · simp [TcpState.finReceived] at hfin
          · exact hblank.ended (.inr ⟨.inl hstate, hflags⟩)
        exact hlisten.starts (.inr rfl) _
  | _ => exact hbegins.elim

/-- A connection that has just begun is the first one. -/
theorem Starts.party {isn : Option UInt32} (h : Starts isn s) (hout : OutAccount s)
    (hreceive : ReceiveAccount s) : Party s := by
  refine ⟨hout, hreceive, h.started, fun hsent => ?_, fun hs => ?_,
    fun header hmem _ => (h.header header hmem).2.1, fun _ => h.finReceived, fun hmay => ?_,
    fun hended => ?_, fun entry hentry _ => h.data entry hentry⟩
  · refine ⟨fun hmay => ?_, h.queue hsent, h.written, h.finReceived⟩
    have hs := (h.mayAck hmay).1
    exact h.started ⟨by rw [hs]; simp, by rw [hs]; simp⟩ hsent
  · rcases hs with hs | hs
    · exact h.idle hs
    · exact absurd h.state (by simp [hs])
  · exact Party.rcvNxt_of_receiving hreceive (.inl (h.mayAck hmay).1) h.finReceived
  · have hstate := (h.mayAck (.inl (.inr hended))).1
    exact absurd hended (TcpState.Receiving.not_ended (.inl hstate))

/-! ## Segments that arrive -/

/-- From position `n` on, the data of the segment is that of the stream. -/
def OutSegment.Agrees (segment : OutSegment) (stream : List UInt8) (iss : UInt32) (n : ℕ) : Prop :=
  ∀ j < segment.data.length, n ≤ (segment.header.seqNum + UInt32.ofNat j - iss - 1).toNat →
    stream[(segment.header.seqNum + UInt32.ofNat j - iss - 1).toNat]? = segment.data[j]?

theorem OutSegment.Agrees.mono {segment : OutSegment} {stream stream' : List UInt8} {iss : UInt32}
    {n n' : ℕ} (h : segment.Agrees stream iss n) (hpre : stream <+: stream') (hle : n ≤ n') :
    segment.Agrees stream' iss n' := by
  intro j hj hn
  have hbyte := h j hj (hle.trans hn)
  rw [List.getElem?_eq_getElem hj] at hbyte
  obtain ⟨rest, rfl⟩ := hpre
  rw [List.getElem?_append_left (List.getElem?_eq_some_iff.1 hbyte).1, hbyte,
    List.getElem?_eq_getElem hj]

/-- The segment is what arrives when `sent` has been sent. -/
def Segment.IsCopy (segment : Segment) (sent : OutSegment) : Prop :=
  segment.toTcpHeader = sent.header ∧ segment.data = sent.data

instance (segment : Segment) (sent : OutSegment) : Decidable (segment.IsCopy sent) :=
  inferInstanceAs (Decidable (_ ∧ _))

theorem Segment.IsCopy.agrees {segment : Segment} {sent : OutSegment} {stream : List UInt8}
    {iss : UInt32} {n : ℕ} (h : segment.IsCopy sent) (hsent : sent.Agrees stream iss n) :
    segment.Agrees stream iss n := by
  intro j hj hn
  have hlength : sent.data.length = segment.length := by
    rw [← h.2, Segment.data, Memory.length_read]
  rw [h.2, show segment.seqNum = sent.header.seqNum by rw [← h.1]] at *
  exact hsent j (hlength ▸ hj) hn

/-- A copy of a segment that the socket has sent. -/
def Socket.HasSent (s : Socket) (segment : Segment) : Prop :=
  ∃ entry ∈ s.net.sent, segment.IsCopy entry.2

instance (s : Socket) (segment : Segment) : Decidable (s.HasSent segment) :=
  inferInstanceAs (Decidable (∃ entry ∈ s.net.sent, _))

theorem Socket.HasSent.header {segment : Segment} (h : s.HasSent segment) :
    segment.toTcpHeader ∈ s.headers ∧ s.net.sent ≠ [] := by
  obtain ⟨entry, hentry, hcopy⟩ := h
  refine ⟨List.mem_append.2 (.inl (List.mem_map.2 ⟨entry, hentry, hcopy.1.symm⟩)), ?_⟩
  intro hnil
  rw [hnil] at hentry
  exact absurd hentry (by simp)

/-! ## From one end to the other -/

theorem seq_inj (base : UInt32) {a b : ℕ} (ha : a < 2 ^ 32) (hb : b < 2 ^ 32)
    (h : seq base a = seq base b) : a = b := by
  have hdist := seq_sub_base base a
  rw [h, seq_sub_base, Nat.mod_eq_of_lt ha, Nat.mod_eq_of_lt hb] at hdist
  exact hdist.symm

/-- SND.UNA tells how much has been acknowledged. -/
theorem OutInv.position {snd : SendSide} {written : List UInt8} {state : TcpState}
    (h : OutInv snd written state) : ∃ p, snd.sndUna = seq snd.iss p ∧
      ackedBytes snd written state = p - 1 ∧ p ≤ written.length + 2 := by
  have hfin := state.finSent.toNat_le
  refine ⟨_, h.una_eq, ?_, by omega⟩
  rw [ackedBytes]
  omega

/-- The positions in what the socket writes do not wrap. -/
def Short (s : Socket) : Prop := s.history.written.length + 2 ^ 16 + 2 ≤ 2 ^ 32

instance (s : Socket) : Decidable (Short s) := inferInstanceAs (Decidable (_ ≤ _))

/-- What is sent is right from position `n` on, and so is what may still be sent. -/
structure RightFrom (s : Socket) (n : ℕ) : Prop where
  sent : ∀ entry ∈ s.net.sent, entry.2.Agrees s.history.written s.snd.iss n
  acked : s.state.buffered = true → ackedBytes s.snd s.history.written s.state ≤ n

/-- A segment is right from the first byte on that is not acknowledged. -/
theorem Emits.agrees {segment : OutSegment} {n : ℕ} (h : Emits s segment) (hs : Party s)
    (hshort : Short s)
    (hacked : s.state.buffered = true → ackedBytes s.snd s.history.written s.state ≤ n) :
    segment.Agrees s.history.written s.snd.iss n := by
  intro j hj hn
  cases h with
  | control hdata => exact absurd hj (by rw [hdata]; simp)
  | queued item hopen hmem hheader hdata =>
      have hbuffered := buffered_of_queued hs.idle hopen hmem
      have hinv := hs.out.out hbuffered
      have htype : s.type ≠ .unused := fun hunused => by
        rw [hs.out.unused hunused] at hbuffered
        exact Bool.noConfusion hbuffered
      have hsize : 0 < s.snd.txBufferSize := (hs.out.sized htype).1
      rw [hdata, hinv.readTxBuffer hsize hmem, Ring.length_get] at hj
      rw [Short] at hshort
      rw [hheader] at hn ⊢
      rw [hdata, hinv.carries hsize (by omega) hmem hj ((hacked hbuffered).trans hn)]

theorem RightFrom.send {n n' : ℕ} (h : RightFrom s n) (hs' : Party s') (hshort : Short s')
    (hsend : SendEffect A F s s') (hle : n ≤ n')
    (hacked : s'.state.buffered = true →
      ackedBytes s'.snd s'.history.written s'.state ≤ n') : RightFrom s' n' := by
  refine ⟨fun entry hentry => ?_, hacked⟩
  obtain ⟨new, hsent, hnew⟩ := hsend.sends
  rw [hsent] at hentry
  rcases List.mem_append.1 hentry with hentry | hentry
  · rw [hsend.iss]
    exact (h.sent entry hentry).mono hsend.written_prefix hle
  · exact (hnew entry hentry).agrees hs' hshort hacked

/-- What the socket `r` has received is what its peer `s` has written. The peer may have sent
segments that are wrong about data that has been acknowledged, which `r` has received. -/
structure Flow (s r : Socket) : Prop where
  located : r.MayAck → s.net.sent ≠ [] ∧ r.rcv.irs = s.snd.iss
  acks : ∀ header ∈ r.headers, header.flags.ack = true → header.flags.rst = false →
    s.net.sent ≠ [] ∧ ∃ m ≤ r.progress, header.ackNum = seq (s.snd.iss + 1) m
  content : Content s.history.written r
  right : ∃ n, RightFrom s n ∧ (r.history.finReceived = false → n ≤ r.received) ∧
    (r.net.sent = [] → n = 0)
  ended : r.history.finReceived = true → ∃ entry ∈ s.net.sent,
    entry.2.header.flags.fin = true ∧ entry.2.header.seqNum = seq (s.snd.iss + 1) r.received

/-- Nothing is received after the FIN, which was in order. -/
theorem StreamEffect.ended (h : StreamEffect T A r r') (hr : Party r)
    (hfin : r'.history.finReceived = true) :
    r'.received = r.received ∧ (r.history.finReceived = true ∨
      ∃ segment, A = some segment ∧ finInOrder r segment = true ∧ r.state.Receiving) := by
  cases h with
  | keeps hk => exact ⟨hk.received, .inl (hk.finReceived.symm.trans hfin)⟩
  | data segment _ hstate _ _ heq =>
      rw [heq] at hfin
      exact Bool.noConfusion ((hr.unfinished (.inl (.inr hstate))).symm.trans hfin)
  | fin segment next harrived hinOrder hstate _ heq =>
      obtain ⟨rxBuffer, hrcv⟩ := passFin_rcv r next
      refine ⟨?_, .inr ⟨segment, harrived, hinOrder, hstate⟩⟩
      rw [heq, Socket.received, Socket.received, hrcv, passFin_history]
  | syn segment next _ _ _ hstate _ heq =>
      rw [heq, (passSyn_history r segment next).2.2, hr.unfinished (.inr hstate)] at hfin
      exact Bool.noConfusion hfin
  | read seqNum received n flags _ _ _ _ hn heq =>
      rw [heq] at hfin ⊢
      exact ⟨readData_received (le_trans (copyReceived_length _ _ _ _) hn), .inl hfin⟩

namespace Flow

theorem received_le (h : Flow s r) : r.received ≤ s.history.written.length + (2 ^ 16 - 1) := by
  have hdelivered := h.content.delivered.length_le
  have := r.rcv.rcvUser.toNat_lt
  rw [Socket.received]
  omega

/-- The sender goes on from what the receiver has acknowledged. -/
theorem right_send (h : Flow s r) (hs : Party s) (hs' : Party s') (hshort : Short s')
    (hsend : SendEffect A F s s') (hpeer : ∀ segment ∈ A, r.HasSent segment) :
    ∃ n, RightFrom s' n ∧ (r.history.finReceived = false → n ≤ r.received) ∧
      (r.net.sent = [] → n = 0) := by
  obtain ⟨n, hright, hreceived, hnone⟩ := h.right
  by_cases hs'b : s'.state.buffered = true
  case neg =>
    exact ⟨n, hright.send hs' hshort hsend le_rfl fun hb => absurd hb hs'b, hreceived, hnone⟩
  have hsb := hsend.buffered hs'b
  obtain ⟨p, huna, hacked, hp⟩ := (hs.out.out hsb).position
  obtain ⟨p', huna', hacked', hp'⟩ := (hs'.out.out hs'b).position
  have hwritten := hsend.written_prefix.length_le
  rw [Short] at hshort
  rw [hsend.iss] at huna'
  rcases hsend.sndUna with hsame | ⟨segment, harrived, hack, hrst, hnum⟩
  · -- no more than before is acknowledged
    have hpp : p' = p := by
      refine seq_inj s.snd.iss (by omega) (by omega) ?_
      rw [← huna', ← huna, hsame]
    refine ⟨n, hright.send hs' hshort hsend le_rfl fun _ => ?_, hreceived, hnone⟩
    rw [hacked', hpp, ← hacked]
    exact hright.acked hsb
  · -- what the peer acknowledges it has received
    obtain ⟨hheader, hne⟩ := (hpeer segment harrived).header
    obtain ⟨-, m, hm, hackNum⟩ := h.acks _ hheader hack hrst
    have hle := h.received_le
    have hprogress : r.progress ≤ r.received + 1 := by
      have := r.history.finReceived.toNat_le
      rw [Socket.progress]
      omega
    have hpm : p' = m + 1 := by
      refine seq_inj s.snd.iss (by omega) (by omega) ?_
      rw [← huna', hnum, hackNum, seq_succ]
    refine ⟨max n m, hright.send hs' hshort hsend (le_max_left n m) fun _ => ?_, fun hfin => ?_,
      fun hnil => absurd hnil hne⟩
    · rw [hacked', hpm]
      exact le_max_right n m
    · rw [Socket.progress, hfin] at hm
      exact max_le (hreceived hfin) hm

/-- **The sender keeps the flow.** -/
theorem send (h : Flow s r) (hs : Party s) (hs' : Party s') (hshort : Short s')
    (hsend : SendEffect A F s s') (hpeer : ∀ segment ∈ A, r.HasSent segment) : Flow s' r := by
  have hsent : s.net.sent ≠ [] → s'.net.sent ≠ [] := fun hne hnil =>
    hne (List.subset_nil.1 (hnil ▸ hsend.sent_subset))
  refine ⟨fun hmay => ?_, fun header hmem hack hrst => ?_, h.content.mono hsend.written_prefix,
    h.right_send hs hs' hshort hsend hpeer, fun hfin => ?_⟩
  · obtain ⟨hne, hirs⟩ := h.located hmay
    exact ⟨hsent hne, by rw [hirs, hsend.iss]⟩
  · obtain ⟨hne, hnum⟩ := h.acks header hmem hack hrst
    rw [hsend.iss]
    exact ⟨hsent hne, hnum⟩
  · obtain ⟨entry, hentry, hflag, hseq⟩ := h.ended hfin
    rw [hsend.iss]
    exact ⟨entry, hsend.sent_subset hentry, hflag, hseq⟩

/-- What arrives is right about what has not been received. -/
theorem arrives (h : Flow s r) (hr : Party r) (hpeer : ∀ segment ∈ T, s.HasSent segment) :
    Arrives T s.history.written r := by
  intro segment hsegment hstate
  obtain ⟨n, hright, hreceived, -⟩ := h.right
  obtain ⟨entry, hentry, hcopy⟩ := hpeer segment hsegment
  rw [(h.located hstate.mayAck).2]
  exact (hcopy.agrees (hright.sent entry hentry)).mono (hreceived (hr.unfinished (.inl hstate)))

/-- **The receiver keeps the flow**: it acknowledges what it has received, no more. -/
theorem receive (h : Flow s r) (hs : Party s) (hr : Party r) (hr' : Party r') (hshort : Short s)
    (heffect : Effect T A F r r') (hpeer : ∀ segment ∈ A, s.HasSent segment)
    (htext : ∀ segment ∈ T, s.HasSent segment) : Flow s r' := by
  have hstream := heffect.stream
  have hprogress := hstream.progress hr.receive
  have hlocated : r'.MayAck → s.net.sent ≠ [] ∧ r'.rcv.irs = s.snd.iss := by
    intro hmay
    rcases hstream.mayAck hr.receive hmay with ⟨hmay', hirs⟩ | ⟨segment, harrived, hsyn, -, hirs⟩
    · rw [hirs]
      exact h.located hmay'
    · obtain ⟨hheader, hne⟩ := (hpeer segment harrived).header
      exact ⟨hne, by rw [hirs, hs.syn _ hheader hsyn]⟩
  refine ⟨hlocated, fun header hmem hack hrst => ?_, ?_, ?_, fun hfin => ?_⟩
  · rcases (heffect.send hr.out).headers hmem with hold | hnew
    · obtain ⟨hne, m, hm, hnum⟩ := h.acks header hold hack hrst
      exact ⟨hne, m, hm.trans hprogress, hnum⟩
    · obtain ⟨hnum, hmay⟩ := hnew.ack hack hrst
      obtain ⟨hne, hirs⟩ := hlocated hmay
      exact ⟨hne, r'.progress, le_rfl, by rw [hnum, hr'.rcvNxt hmay, hirs]⟩
  · have hdelivered := h.content.delivered.length_le
    rw [Short] at hshort
    exact h.content.effect hr.receive (by omega) (h.arrives hr htext) hstream
  · obtain ⟨n, hright, hreceived, hnone⟩ := h.right
    refine ⟨n, hright, fun hfin => ?_, fun hnil => hnone ?_⟩
    · refine (hreceived ?_).trans (hstream.received hr.receive)
      rcases hstream.finReceived with hf | ⟨-, -, hf⟩
      · rw [← hf, hfin]
      · rw [hfin] at hf
        exact Bool.noConfusion hf
    · exact List.subset_nil.1 (hnil ▸ (heffect.send hr.out).sent_subset)
  · obtain ⟨hreceived, hold | ⟨segment, harrived, hinOrder, hstate⟩⟩ := hstream.ended hr hfin
    · rw [hreceived]
      exact h.ended hold
    · rw [finInOrder, Bool.and_eq_true, decide_eq_true_eq] at hinOrder
      obtain ⟨entry, hentry, hcopy⟩ := hpeer segment harrived
      obtain ⟨-, hirs⟩ := h.located hstate.mayAck
      have hflag : entry.2.header.flags.fin = true := by rw [← hcopy.1]; exact hinOrder.1
      have hlength : segment.length = 0 := by
        have hdata := hs.finEmpty entry hentry hflag
        rw [← hcopy.2, Segment.data, ← List.length_eq_zero_iff, Memory.length_read] at hdata
        exact hdata
      refine ⟨entry, hentry, hflag, ?_⟩
      have hnxt := hr.rcvNxt hstate.mayAck
      rw [hinOrder.2, hlength, hirs, Socket.progress, hr.unfinished (.inl hstate)] at hnxt
      rw [hreceived, ← hcopy.1]
      simpa using hnxt

/-- The sender has begun to send. -/
theorem starts_send {isn : Option UInt32} (h : Flow s r) (hs : Party s) (hsent : s.net.sent = [])
    (hstarts : Starts isn s') : Flow s' r := by
  have hwritten : s'.history.written = s.history.written := by
    rw [hstarts.written, (hs.fresh hsent).2.2.1]
  refine ⟨fun hmay => absurd hsent (h.located hmay).1,
    fun header hmem hack hrst => absurd hsent (h.acks header hmem hack hrst).1,
    by rw [hwritten]; exact h.content,
    ⟨0, ⟨fun entry hentry => ?_, fun hb => ?_⟩, fun _ => Nat.zero_le _, fun _ => rfl⟩,
    fun hfin => ?_⟩
  · intro j hj
    rw [hstarts.data entry hentry] at hj
    exact absurd hj (by simp)
  · have hfin : s'.state.finSent = false := by
      rcases hstarts.state with hstate | hstate | hstate | hstate <;> rw [hstate] <;> rfl
    rw [ackedBytes, hstarts.written, hfin]
    simp
  · obtain ⟨entry, hentry, -⟩ := h.ended hfin
    rw [hsent] at hentry
    exact absurd hentry (by simp)

/-- The receiver has begun to receive. -/
theorem starts_receive {isn : Option UInt32} (h : Flow s r) (hsent : r.net.sent = [])
    (hstarts : Starts isn r') (hcontent : Content s.history.written r')
    (hisn : ∀ irs ∈ isn, s.net.sent ≠ [] ∧ irs = s.snd.iss) : Flow s r' := by
  refine ⟨fun hmay => hisn _ (hstarts.mayAck hmay).2, fun header hmem hack _ => ?_, hcontent, ?_,
    fun hfin => Bool.noConfusion (hstarts.finReceived.symm.trans hfin)⟩
  · obtain ⟨irs, hirs, hnum⟩ := (hstarts.header header hmem).2.2 hack
    obtain ⟨hne, rfl⟩ := hisn irs hirs
    exact ⟨hne, 0, Nat.zero_le _, by rw [hnum, seq_zero]⟩
  · obtain ⟨n, hright, -, hnone⟩ := h.right
    rw [hnone hsent] at hright
    exact ⟨0, hright, fun _ => Nat.zero_le _, fun _ => rfl⟩

end Flow

/-! ## Both ends -/

/-- A socket `s` and its peer. -/
structure Linked (peer s : Socket) : Prop where
  party : Party s
  incoming : Short peer → Flow peer s
  outgoing : Short s → Flow s peer

variable {peer : Socket}

theorem Short.of_prefix (h : Short s') (hpre : s.history.written <+: s'.history.written) :
    Short s := by
  have hle := hpre.length_le
  rw [Short] at h ⊢
  omega

theorem Linked.effect (h : Linked peer s) (hpeer : Party peer) (heffect : Effect T A F s s')
    (harrived : ∀ segment ∈ A, peer.HasSent segment)
    (htext : ∀ segment ∈ T, peer.HasSent segment) : Linked peer s' := by
  have hs' := h.party.effect heffect
  have hsend := heffect.send h.party.out
  refine ⟨hs', fun hshort => ?_, fun hshort => ?_⟩
  · exact (h.incoming hshort).receive hpeer h.party hs' hshort heffect harrived htext
  · have hflow := h.outgoing (hshort.of_prefix hsend.written_prefix)
    exact hflow.send h.party hs' hshort hsend harrived

theorem Linked.effects (h : Linked peer s) (hpeer : Party peer) (heffects : Effects T A F s s')
    (harrived : ∀ segment ∈ A, peer.HasSent segment)
    (htext : ∀ segment ∈ T, peer.HasSent segment) : Linked peer s' := by
  induction heffects with
  | refl => exact h
  | tail _ heffect ih => exact ih.effect hpeer heffect harrived htext

/-- What a step takes from the network has been sent by the peer: a segment, or the request for a
connection that a listening socket has made of its SYN. -/
def FromPeer (peer : Socket) : Event → Prop
  | .segment segment _ => peer.HasSent segment
  | .accept _ _ _ queueItem _ _ =>
      ∃ header ∈ peer.net.sent.map (·.2.header),
        header.flags.syn = true ∧ header.seqNum = queueItem.isn
  | _ => True

theorem FromPeer.isn {event : Event} (h : FromPeer peer event) (hpeer : Party peer) :
    ∀ irs ∈ event.isn, peer.net.sent ≠ [] ∧ irs = peer.snd.iss := by
  cases event with
  | accept listener sized port queueItem memory iss =>
      obtain ⟨header, hmem, hsyn, hseq⟩ := h
      intro irs hirs
      obtain rfl : queueItem.isn = irs := by simpa [Event.isn] using hirs
      refine ⟨fun hnil => ?_, ?_⟩
      · rw [hnil] at hmem
        exact absurd hmem (by simp)
      · rw [← hseq]
        exact hpeer.syn header (List.mem_append.2 (.inl hmem)) hsyn
  | _ => exact fun irs hirs => absurd hirs (by simp [Event.isn])

/-- A socket has one connection, on a cleared slot. -/
def OneConnection (slot : Slot) (event : Event) : Prop :=
  event.Begins slot.socket → slot.socket.net.sent = []

theorem Linked.step {slot : Slot} {event : Event} (h : Linked peer slot.socket)
    (hpeer : Party peer) (hstream : StreamClean slot event) (hqueue : QueueClean slot event)
    (hone : OneConnection slot event) (hfrom : FromPeer peer event) :
    Linked peer (step slot event).socket := by
  by_cases hbegins : event.Begins slot.socket
  · have hsent := hone hbegins
    have hstarts := step_begins_starts h.party hsent hbegins
    have hacts : Acts (fun _ _ => True) { blocks := true, flags := true } True slot.socket
        (Tcp.step slot event).socket :=
      step_acts slot event hstream.1 hstream.2.1 ⟨fun _ => trivial, fun _ => trivial⟩
        (fun _ => ⟨trivial, trivial⟩) fun _ => trivial
    have hreceive : ReceiveAccount (Tcp.step slot event).socket :=
      hacts.preserve (fun h hact => h.act rfl hact) h.party.receive
    have hparty := hstarts.party (h.party.out.step hqueue) hreceive
    refine ⟨hparty, fun hshort => ?_, fun hshort => ?_⟩
    · have hflow := h.incoming hshort
      refine hflow.starts_receive hsent hstarts ?_ (hfrom.isn hpeer)
      rcases step_begins_stream hbegins hstream with hbegun | hkeeps
      · exact hbegun.content hreceive _
      · exact hflow.content.keeps hkeeps
    · refine (h.outgoing (hshort.of_prefix ?_)).starts_send h.party hsent hstarts
      rw [(h.party.fresh hsent).2.2.1]
      exact List.nil_prefix
  · have hsegments : ∀ segment ∈ arriving event, peer.HasSent segment := by
      intro segment hsegment
      cases event with
      | segment other memory =>
          obtain rfl : other = segment := by simpa [arriving] using hsegment
          exact hfrom
      | _ => exact absurd hsegment (by simp [arriving])
    refine h.effects hpeer (step_effects slot event hstream.1 (hstream.2.1.flags rfl) hstream.2.2
      hbegins) hsegments fun segment hsegment => hsegments segment ?_
    rw [arrivingText] at hsegment
    split at hsegment
    · exact absurd hsegment (by simp)
    · exact hsegment

/-- The ends of a connection. -/
inductive Side where
  | left
  | right
  deriving DecidableEq

/-- The end of the peer. -/
def Side.other : Side → Side
  | .left => .right
  | .right => .left

theorem Side.other_other (side : Side) : side.other.other = side := by cases side <;> rfl

theorem Side.other_ne (side : Side) : side.other ≠ side := by cases side <;> simp [Side.other]

theorem Side.eq_or_other (a b : Side) : b = a ∨ b = a.other := by
  cases a <;> cases b <;> simp [Side.other]

/-- Two slots whose sockets exchange segments. -/
abbrev Peers := Side → Slot

def Peers.init (outcomes : Side → ℕ → SendOutcome) : Peers := fun side => .init (outcomes side)

/-- An event at one of the ends. -/
def peersStep (peers : Peers) (event : Side × Event) : Peers :=
  Function.update peers event.1 (step (peers event.1) event.2)

/-- The network may lose, repeat and reorder what is sent, but it does not alter it, and the calls
at both ends are in order. -/
def PeersClean (peers : Peers) (event : Side × Event) : Prop :=
  StreamClean (peers event.1) event.2 ∧ QueueClean (peers event.1) event.2 ∧
    OneConnection (peers event.1) event.2 ∧ FromPeer (peers event.1.other).socket event.2

/-- What the steps preserve. -/
structure PeersInv (peers : Peers) : Prop where
  party : ∀ side, Party (peers side).socket
  flow : ∀ side, Short (peers side).socket →
    Flow (peers side).socket (peers side.other).socket

theorem PeersInv.linked {peers : Peers} (h : PeersInv peers) (side : Side) :
    Linked (peers side.other).socket (peers side).socket := by
  refine ⟨h.party side, fun hshort => ?_, h.flow side⟩
  have hflow := h.flow side.other hshort
  rwa [side.other_other] at hflow

theorem Linked.peersInv {peers : Peers} (side : Side)
    (h : Linked (peers side.other).socket (peers side).socket)
    (hpeer : Party (peers side.other).socket) : PeersInv peers := by
  refine ⟨fun other => ?_, fun other hshort => ?_⟩
  · rcases side.eq_or_other other with rfl | rfl
    · exact h.party
    · exact hpeer
  · rcases side.eq_or_other other with rfl | rfl
    · exact h.outgoing hshort
    · rw [side.other_other]
      exact h.incoming hshort

theorem PeersInv.step {peers : Peers} {event : Side × Event} (h : PeersInv peers)
    (hclean : PeersClean peers event) : PeersInv (peersStep peers event) := by
  obtain ⟨side, event⟩ := event
  obtain ⟨hstream, hqueue, hone, hfrom⟩ := hclean
  have hother : peersStep peers (side, event) side.other = peers side.other :=
    Function.update_of_ne side.other_ne _ _
  have hself : peersStep peers (side, event) side = Tcp.step (peers side) event :=
    Function.update_self _ _ _
  refine Linked.peersInv side ?_ ?_
  · rw [hother, hself]
    exact (h.linked side).step (h.party side.other) hstream hqueue hone hfrom
  · rw [hother]
    exact h.party side.other

theorem blank_init (outcomes : ℕ → SendOutcome) : Blank (Slot.init outcomes).socket :=
  ⟨rfl, rfl, rfl, rfl, rfl, by simp [Slot.init, Socket.cleared, Socket.Ended, TcpState.finReceived]⟩

theorem party_init (outcomes : ℕ → SendOutcome) : Party (Slot.init outcomes).socket :=
  ((blank_init outcomes).starts (.inl rfl) none).party
    ⟨sizedInv_init outcomes, .of_not_buffered rfl⟩ (receiveAccount_init outcomes)

theorem peersInv_init (outcomes : Side → ℕ → SendOutcome) : PeersInv (Peers.init outcomes) := by
  refine ⟨fun side => party_init (outcomes side), fun side _ => ⟨fun hmay => ?_, ?_, ?_, ⟨0, ?_⟩,
    fun hfin => Bool.noConfusion hfin⟩⟩
  · exact absurd hmay ((party_init (outcomes side.other)).fresh rfl).1
  · intro header hmem
    exact absurd hmem (by simp [Socket.headers, Peers.init, Slot.init, Socket.cleared])
  · exact (begun_closed rfl rfl (.inl rfl)).content (receiveAccount_init (outcomes side.other)) _
  · exact ⟨⟨by simp [Peers.init, Slot.init, Socket.cleared], fun hs => Bool.noConfusion hs⟩,
      fun _ => Nat.zero_le _, fun _ => rfl⟩

/-! ## The end of the stream -/

/-- No FIN has been sent or queued. -/
def NoFin (s : Socket) : Prop := ∀ header ∈ s.headers, header.flags.fin = false

/-- A FIN comes after all that has been written. -/
def FinLast (s : Socket) : Prop :=
  ∀ header ∈ s.headers, header.flags.fin = true →
    header.seqNum = seq s.snd.iss (s.history.written.length + 1)

theorem NoFin.finLast (h : NoFin s) : FinLast s := fun header hmem hflag =>
  Bool.noConfusion ((h header hmem).symm.trans hflag)

theorem NoFin.effects (h : NoFin s) (hs : Party s) (hwrites : ¬ F) (heffects : Effects T A F s s') :
    NoFin s' := by
  have hall : NoFin s' ∧ Party s' := by
    induction heffects with
    | refl => exact ⟨h, hs⟩
    | tail _ heffect ih =>
        refine ⟨fun header hmem => ?_, ih.2.effect heffect⟩
        rcases (heffect.send ih.2.out).headers hmem with hold | hnew
        · exact ih.1 header hold
        · exact Bool.eq_false_of_not_eq_true fun hflag => hwrites (hnew.fin hflag).1
  exact hall.1

theorem FinLast.effects (h : FinLast s) (hs : Party s) (hshuts : F)
    (heffects : Effects T A F s s') : FinLast s' := by
  have hall : FinLast s' ∧ Party s' := by
    induction heffects with
    | refl => exact ⟨h, hs⟩
    | tail _ heffect ih =>
        refine ⟨fun header hmem hflag => ?_, ih.2.effect heffect⟩
        have hsend := heffect.send ih.2.out
        rcases hsend.headers hmem with hold | hnew
        · have hwritten := hsend.written.resolve_right fun hw => hw.1 hshuts
          rw [ih.1 header hold hflag, hsend.iss, hwritten]
        · exact (hnew.fin hflag).2
  exact hall.1

/-- No call writes once a FIN has been queued. If sending it fails it stays in the queue, though the
state does not tell. -/
def WritesBeforeFin (slot : Slot) (event : Event) : Prop := Writes slot event → NoFin slot.socket

theorem FinLast.step {slot : Slot} {event : Event} (h : FinLast slot.socket)
    (hparty : Party slot.socket) (hstream : StreamClean slot event)
    (hone : OneConnection slot event) (hwrites : WritesBeforeFin slot event) :
    FinLast (step slot event).socket := by
  by_cases hbegins : event.Begins slot.socket
  · have hstarts := step_begins_starts hparty (hone hbegins) hbegins
    exact NoFin.finLast fun header hmem => (hstarts.header header hmem).1
  · have heffects := step_effects slot event hstream.1 (hstream.2.1.flags rfl) hstream.2.2 hbegins
    by_cases hw : Writes slot event
    · exact ((hwrites hw).effects hparty (not_not.2 hw) heffects).finLast
    · exact h.effects hparty hw heffects

/-- When the FIN of the peer has been received, all that it has written has been. -/
theorem Flow.complete (h : Flow s r) (hshort : Short s) (hlast : FinLast s)
    (hfin : r.history.finReceived = true) : r.received = s.history.written.length := by
  obtain ⟨entry, hentry, hflag, hseq⟩ := h.ended hfin
  have hle := h.received_le
  rw [Short] at hshort
  rw [hlast _ (List.mem_append.2 (.inl (List.mem_map.2 ⟨entry, hentry, rfl⟩))) hflag, seq_succ]
    at hseq
  exact (seq_inj _ (by omega) (by omega) hseq).symm

theorem copyReceived_pos (rcv : ReceiveSide) (q : UInt32) {n : ℕ} (hn : 0 < n)
    (flags : SocketFlags) : 0 < (copyReceived rcv q n flags).length := by
  rw [copyReceived]
  split
  · rw [List.length_take, Memory.length_read]
    omega
  · rwa [Memory.length_read]

/-- A call that has not read anything reports the end of the stream if nothing is left of it. -/
theorem firstUnread_endOfStream {received : ℕ} (hready : s.rxReady = true)
    (h : firstUnread s received = .error .endOfStream) :
    received = 0 ∧ s.Ended ∧ s.rcv.rcvUser = 0 := by
  have hend : (if 0 < received then ErrorCode.noError else .endOfStream) = .endOfStream →
      received = 0 := by
    intro hif
    by_contra hpos
    rw [if_pos (Nat.pos_of_ne_zero hpos)] at hif
    exact absurd hif (by simp)
  rw [firstUnread] at h
  split at h
  case h_1 | h_2 | h_3 => split at h <;> exact absurd h (by simp)
  case h_4 hs | h_5 hs | h_6 hs | h_7 hs =>
    split at h
    case isTrue huser => exact ⟨hend (Except.error.inj h), .inl (by rw [hs]; rfl), huser⟩
    case isFalse => exact absurd h (by simp)
  case h_8 h1 h2 h3 h4 h5 h6 h7 =>
    split at h
    · exact absurd h (by simp)
    case isFalse hreset =>
      split at h
      · exact absurd h (by simp)
      case isFalse hclosed =>
        have hidle : s.state = .closed ∨ s.state = .listen := by
          rw [Socket.rxReady] at hready
          revert hready h1 h2 h3 h4 h5 h6 h7
          cases s.state <;> simp
        split at h
        case isTrue huser =>
          exact ⟨hend (Except.error.inj h), .inr ⟨hidle, Bool.eq_true_of_not_eq_false hclosed,
            Bool.eq_false_of_not_eq_true hreset⟩, huser⟩
        case isFalse => exact absurd h (by simp)

theorem tcpReceiveLoop_endOfStream (flags : SocketFlags) (size fuel : ℕ) (received : ℕ)
    (h : (tcpReceiveLoop flags size fuel s received).2.2 = .returns .endOfStream) :
    received = 0 ∧ (tcpReceiveLoop flags size fuel s received).1 = s ∧ s.Ended ∧
      s.rcv.rcvUser = 0 := by
  induction fuel generalizing s received with
  | zero => exact absurd h (by simp [tcpReceiveLoop])
  | succ fuel ih =>
      rw [tcpReceiveLoop] at h ⊢
      split at h
      · exact absurd h (by simp)
      case isFalse hsize =>
        split at h
        · exact absurd h (by simp)
        case isFalse hblocks =>
          rw [if_neg hsize, if_neg hblocks]
          split at h
          case h_1 error herror =>
            obtain rfl : error = .endOfStream := by simpa using h
            obtain ⟨hzero, hended, huser⟩ :=
              firstUnread_endOfStream (Bool.eq_true_of_not_eq_false hblocks) herror
            exact ⟨hzero, rfl, hended, huser⟩
          case h_2 seqNum hseq =>
            -- later rounds have read something
            have huser := firstUnread_pos hseq
            have hpos := copyReceived_pos s.rcv seqNum
              (n := min s.rcv.rcvUser.toNat (size - received)) (by omega) flags
            simp only at h
            split at h
            · exact absurd h (by simp)
            · have hzero := (ih _ h).1
              omega

theorem tcpReceive_endOfStream {size : ℕ} {flags : SocketFlags}
    (h : (tcpReceive s size flags).2.2 = .returns .endOfStream) :
    (tcpReceive s size flags).1 = s ∧ s.Ended ∧ s.rcv.rcvUser = 0 := by
  rw [tcpReceive] at h ⊢
  split at h
  · exact absurd h (by simp)
  case isFalse hlisten =>
    rw [if_neg hlisten]
    exact (tcpReceiveLoop_endOfStream _ _ _ _ h).2

/-! ## Runs -/

/-- A socket that listens, as the calls leave it. -/
def listeningSocket : Socket :=
  (run step (Slot.init fun _ => {}) [.open .stream 80, .listen 1]).socket

theorem listeningSocket_sized : listeningSocket.Sized :=
  ⟨by decide, by decide, by decide, by decide⟩

/-- A segment arrives. -/
def arrival (header : TcpHeader) (data : List UInt8) (hdata : data.length < 2 ^ 16) : Event :=
  .segment { Segment.ofData header.flags header.seqNum header.ackNum header.window data hdata with
    mss := header.mss } true

theorem oneByte_lt (a : UInt8) : [a].length < 2 ^ 16 := by simp

/-- Three bytes are sent in two segments. The second of them arrives first, and again after the
other one; the acknowledgments are lost. -/
def transfer : List (Side × Event) :=
  [(.left, .open .stream 49152), (.left, .connect (.ipv4 1) 80 ⟨.ok (0, .ipv4 2), true, 100⟩),
    (.right, .accept listeningSocket listeningSocket_sized 80
      ⟨0, .ipv4 2, 49152, .ipv4 1, 100, 1430⟩ true 500),
    (.left, arrival ⟨{ syn := true, ack := true }, 500, 101, 2860, some 1430⟩ [] noData_lt),
    (.left, .send [7, 8] { noDelay := true }), (.left, .send [9] { noDelay := true }),
    (.left, .shutdown .send),
    (.right, arrival ⟨{ psh := true, ack := true }, 103, 501, 2860, none⟩ [9] (oneByte_lt 9)),
    (.right, arrival ⟨{ psh := true, ack := true }, 101, 501, 2860, none⟩ [7, 8] (twoBytes_lt 7 8)),
    (.right, arrival ⟨{ psh := true, ack := true }, 103, 501, 2860, none⟩ [9] (oneByte_lt 9)),
    (.right, .receive 10 {}),
    (.right, arrival ⟨{ fin := true, ack := true }, 104, 501, 2860, none⟩ [] noData_lt)]

section Transfer

variable {peers : Peers} {side : Side} {data : List UInt8}

theorem arrival_clean {header : TcpHeader} {hdata : data.length < 2 ^ 16}
    (h : FromPeer (peers side.other).socket (arrival header data hdata)) :
    PeersClean peers (side, arrival header data hdata) ∧
      WritesBeforeFin (peers side) (arrival header data hdata) :=
  ⟨⟨⟨trivial, trivial, trivial⟩, ⟨trivial, trivial⟩, False.elim, h⟩, False.elim⟩

theorem send_clean {flags : SocketFlags} (h : NoFin (peers side).socket) :
    PeersClean peers (side, .send data flags) ∧ WritesBeforeFin (peers side) (.send data flags) :=
  ⟨⟨⟨trivial, trivial, trivial⟩, ⟨trivial, trivial⟩, False.elim, trivial⟩, fun _ => h⟩

end Transfer

instance (s : Socket) : Decidable (NoFin s) := inferInstanceAs (Decidable (∀ header ∈ _, _))

instance (peer : Socket) (header : TcpHeader) (data : List UInt8) (hdata : data.length < 2 ^ 16) :
    Decidable (FromPeer peer (arrival header data hdata)) :=
  inferInstanceAs (Decidable (peer.HasSent _))

theorem transfer_clean :
    Along (fun peers event => PeersClean peers event ∧ WritesBeforeFin (peers event.1) event.2)
      peersStep (Peers.init fun _ _ => {}) transfer :=
  ⟨⟨⟨⟨trivial, trivial, trivial⟩, ⟨trivial, trivial⟩, fun _ => rfl, trivial⟩, False.elim⟩,
    ⟨⟨⟨trivial, fun _ => by decide, trivial⟩, ⟨trivial, fun _ => by decide⟩, fun _ => by decide,
      trivial⟩, False.elim⟩,
    ⟨⟨⟨trivial, trivial, trivial⟩, ⟨trivial, trivial⟩, fun _ => rfl,
      ⟨⟨{ syn := true }, 100, 0, 2860, some 1430⟩, by decide, rfl, rfl⟩⟩, False.elim⟩,
    arrival_clean (by decide), send_clean (by decide), send_clean (by decide),
    ⟨⟨⟨trivial, trivial, trivial⟩, ⟨trivial, trivial⟩, False.elim, trivial⟩, False.elim⟩,
    arrival_clean (by decide), arrival_clean (by decide), arrival_clean (by decide),
    ⟨⟨⟨trivial, trivial, fun _ => by decide⟩, ⟨trivial, trivial⟩, False.elim, trivial⟩,
      False.elim⟩,
    arrival_clean (by decide), trivial⟩

/-- **TCP is reliable**: whatever the network loses, repeats and reorders, what the calls of
`tcpReceive` have returned at the one end is what the calls of `tcpSend` have taken at the other,
from the beginning on. -/
theorem delivered_isPrefix_written (outcomes : Side → ℕ → SendOutcome)
    (events : List (Side × Event))
    (h : Along PeersClean peersStep (Peers.init outcomes) events) (side : Side)
    (hshort : Short (run peersStep (Peers.init outcomes) events side).socket) :
    (run peersStep (Peers.init outcomes) events side.other).socket.history.delivered
      <+: (run peersStep (Peers.init outcomes) events side).socket.history.written := by
  have hinv : PeersInv (run peersStep (Peers.init outcomes) events) :=
    run_invariant (fun _ _ hinv hclean => hinv.step hclean) (peersInv_init outcomes) h
  exact (hinv.flow side hshort).content.delivered

theorem delivered_isPrefix_written_transfer :
    (run peersStep (Peers.init fun _ _ => {}) transfer .right).socket.history.delivered
        = [7, 8, 9] ∧
      (run peersStep (Peers.init fun _ _ => {}) transfer .right).socket.history.delivered
        <+: (run peersStep (Peers.init fun _ _ => {}) transfer .left).socket.history.written :=
  ⟨by decide, delivered_isPrefix_written _ transfer (transfer_clean.mono fun _ _ h => h.1) .left
    (by decide)⟩

/-- **Nothing is cut off**: a call of `tcpReceive` that reports the end of the stream does so after
all has been returned that the calls of `tcpSend` have taken at the other end. -/
theorem delivered_eq_written (outcomes : Side → ℕ → SendOutcome)
    (events : List (Side × Event))
    (h : Along (fun peers event => PeersClean peers event ∧
      WritesBeforeFin (peers event.1) event.2) peersStep (Peers.init outcomes) events) (side : Side)
    (hshort : Short (run peersStep (Peers.init outcomes) events side).socket) {size : ℕ}
    {flags : SocketFlags}
    (hend : (tcpReceive (run peersStep (Peers.init outcomes) events side.other).socket size
      flags).2.2 = .returns .endOfStream) :
    (tcpReceive (run peersStep (Peers.init outcomes) events side.other).socket size
      flags).1.history.delivered
      = (run peersStep (Peers.init outcomes) events side).socket.history.written := by
  have hinv : PeersInv (run peersStep (Peers.init outcomes) events) ∧
      ∀ side, FinLast (run peersStep (Peers.init outcomes) events side).socket := by
    refine run_invariant (I := fun peers => PeersInv peers ∧ ∀ side, FinLast (peers side).socket)
      (fun peers event hinv hclean => ⟨hinv.1.step hclean.1, fun other => ?_⟩)
      ⟨peersInv_init outcomes, fun side header hmem => ?_⟩ h
    · obtain ⟨⟨hstream, -, hone, -⟩, hwrites⟩ := hclean
      by_cases hother : other = event.1
      · rw [hother, peersStep, Function.update_self]
        exact (hinv.2 event.1).step (hinv.1.party event.1) hstream hone hwrites
      · rw [peersStep, Function.update_of_ne hother]
        exact hinv.2 other
    · exact absurd hmem (by simp [Socket.headers, Peers.init, Slot.init, Socket.cleared])
  generalize run peersStep (Peers.init outcomes) events = peers at hinv hshort hend ⊢
  obtain ⟨hinv, hlast⟩ := hinv
  obtain ⟨hsame, hended, huser⟩ := tcpReceive_endOfStream hend
  have hflow := hinv.flow side hshort
  have hcomplete := hflow.complete hshort (hlast side) ((hinv.party side.other).ended hended)
  rw [Socket.received, huser] at hcomplete
  rw [hsame]
  exact hflow.content.delivered.eq_of_length (by simpa using hcomplete)

theorem delivered_eq_written_transfer :
    (tcpReceive (run peersStep (Peers.init fun _ _ => {}) transfer .right).socket 10 {}).2.2
        = .returns .endOfStream ∧
      (tcpReceive (run peersStep (Peers.init fun _ _ => {}) transfer .right).socket 10
        {}).1.history.delivered
        = (run peersStep (Peers.init fun _ _ => {}) transfer .left).socket.history.written :=
  ⟨by decide, delivered_eq_written _ transfer transfer_clean .left (by decide) (by decide)⟩

end Tcp
