import CycloneTcp.Core.TcpReassembly
import CycloneTcp.Core.TcpSteps
import CycloneTcp.Core.TcpSlot

set_option autoImplicit false

/-! # Segments that are not processed

The checks that every synchronized state makes before anything else. A segment outside the receive
window is answered by an ACK at most, one with an unexpected SYN by a reset, and neither changes the
socket. The code counts the data of a segment only: a FIN takes no room in the window. -/

namespace Tcp

/-- The states with a receive window: the connection knows the sequence numbers of the peer. -/
def TcpState.receives : TcpState → Bool
  | .closed | .listen | .synSent => false
  | _ => true

/-- The acceptability test of RFC 793 for a segment that takes `length` sequence numbers from `seqNum`
on, modulo `2 ^ 32`. -/
def SegmentAcceptable (rcvNxt : UInt32) (rcvWnd : UInt16) (seqNum : UInt32) (length : ℕ) : Prop :=
  if length = 0 then
    if rcvWnd = 0 then seqNum = rcvNxt else (seqNum - rcvNxt).toNat < rcvWnd.toNat
  else
    rcvWnd ≠ 0 ∧ ((seqNum - rcvNxt).toNat < rcvWnd.toNat ∨
      (seqNum + UInt32.ofNat length - 1 - rcvNxt).toNat < rcvWnd.toNat)

instance (rcvNxt : UInt32) (rcvWnd : UInt16) (seqNum : UInt32) (length : ℕ) :
    Decidable (SegmentAcceptable rcvNxt rcvWnd seqNum length) := by
  unfold SegmentAcceptable
  infer_instance

/-- The test of the code is that of RFC 793 for the data of the segment. -/
theorem acceptable_eq (rcv : ReceiveSide) (segment : Segment) :
    acceptable rcv segment = true ↔
      SegmentAcceptable rcv.rcvNxt rcv.rcvWnd segment.seqNum segment.length := by
  rw [SegmentAcceptable]
  split
  case isTrue hlen =>
    rw [acceptable]
    by_cases hwnd : rcv.rcvWnd = 0
    · rw [if_pos ⟨hlen, hwnd⟩, if_pos hwnd, decide_eq_true_eq]
    · rw [if_neg (fun h => hwnd h.2), if_pos hlen, if_neg hwnd, Bool.and_eq_true, decide_eq_true_eq,
        decide_eq_true_eq, in_window_iff]
  case isFalse hlen => rw [acceptable_iff (Nat.pos_of_ne_zero hlen)]

/-- Every field of the socket is unchanged; what lies below it and the history variables are no
fields. -/
def Unchanged (s s' : Socket) : Prop := s' = { s with net := s'.net, history := s'.history }

/-- The segments sent on the way from one socket to another. -/
def Answers (s s' : Socket) (segments : List OutSegment) : Prop :=
  s'.net.sent = s.net.sent ++ segments.map (Prod.mk s.state)

/-- The answer to a segment outside the window. -/
def Socket.duplicateAck (s : Socket) : OutSegment where
  header := s.header { ack := true } s.snd.sndNxt s.rcv.rcvNxt
  data := []

/-- The socket with the history variable that `tcpProcessSegment` updates first. -/
def Socket.noteAck (s : Socket) (segment : Segment) : Socket :=
  { s with history := { s.history with finAcked := s.history.finAcked || acksFin s segment } }

/-- A segment without data that is not queued is sent or not. -/
theorem tcpSendSegment_control (s : Socket) (flags : TcpFlags) (seqNum ackNum : UInt32) :
    ∃ net, (tcpSendSegment s flags seqNum ackNum 0 false).2 = { s with net := net } ∧
      (net.sent = s.net.sent ∨ net.sent = s.net.sent ++
        [(s.state, { header := s.header flags seqNum ackNum, data := [] })]) := by
  have hpayload : s.snd.payload (s.net.outcomes 0).chunks seqNum 0 = (.noError, .empty) := rfl
  simp only [tcpSendSegment, hpayload]
  split
  · exact ⟨_, rfl, .inl rfl⟩
  · split
    · exact ⟨_, rfl, .inl rfl⟩
    · split
      · exact ⟨_, rfl, .inl rfl⟩
      · split
        · exact ⟨_, rfl, .inl rfl⟩
        · exact ⟨_, rfl, .inr rfl⟩

/-- The eight states make the same checks before they do anything else: a segment that `checkSegment`
drops at once, and `tcpStateTimeWait` in the same way, is dropped in each of them. -/
theorem tcpProcessSegment_dropped {s s' : Socket} {segment : Segment} (memory : Bool)
    (hstate : s.state.receives = true)
    (hcheck : ∀ checkAck process,
      checkSegment (s.noteAck segment) segment checkAck process = s')
    (htime : tcpStateTimeWait (s.noteAck segment) segment = s') :
    tcpProcessSegment s segment memory = s' := by
  rw [tcpProcessSegment, show ({ s with history := { s.history with
    finAcked := s.history.finAcked || acksFin s segment } } : Socket) = s.noteAck segment from rfl]
  have hnote : (s.noteAck segment).state = s.state := rfl
  cases h : s.state with
  | closed | listen | synSent => simp [h, TcpState.receives] at hstate
  | timeWait =>
      simp only [hnote, h]
      exact htime
  | synReceived | established | closeWait | lastAck | finWait1 | finWait2 | closing =>
      simp only [hnote, h]
      exact hcheck _ _

/-- A segment outside the window. -/
theorem tcpProcessSegment_outside {s : Socket} {segment : Segment} (memory : Bool)
    (hstate : s.state.receives = true) (hacc : acceptable s.rcv segment = false) :
    tcpProcessSegment s segment memory =
      if segment.flags.rst then s.noteAck segment else tcpSendAck (s.noteAck segment) := by
  have hacc' : acceptable (s.noteAck segment).rcv segment = false := hacc
  have hseq : tcpCheckSequenceNumber (s.noteAck segment) segment =
      (.failure, if segment.flags.rst then s.noteAck segment
        else tcpSendAck (s.noteAck segment)) := by
    rw [tcpCheckSequenceNumber, hacc']
    rfl
  refine tcpProcessSegment_dropped memory hstate (fun checkAck process => ?_) ?_
  · rw [checkSegment, hseq]
    rfl
  · rw [tcpStateTimeWait, hseq]
    rfl

/-- An acceptable segment with the SYN bit and without the RST bit. -/
theorem tcpProcessSegment_syn {s : Socket} {segment : Segment} (memory : Bool)
    (hstate : s.state.receives = true) (hacc : acceptable s.rcv segment = true)
    (hsyn : segment.flags.syn = true) (hrst : segment.flags.rst = false) :
    tcpProcessSegment s segment memory = (tcpCheckSyn (s.noteAck segment) segment).2 := by
  have hacc' : acceptable (s.noteAck segment).rcv segment = true := hacc
  have hseq : tcpCheckSequenceNumber (s.noteAck segment) segment = (.noError, s.noteAck segment) := by
    rw [tcpCheckSequenceNumber, if_pos hacc']
  obtain ⟨s', hs'⟩ : ∃ s', tcpCheckSyn (s.noteAck segment) segment = (.failure, s') := by
    rw [tcpCheckSyn, if_pos hsyn]
    split
    · exact ⟨_, rfl⟩
    · exact ⟨_, rfl⟩
  refine tcpProcessSegment_dropped memory hstate (fun checkAck process => ?_) ?_
  · rw [checkSegment, hseq]
    simp only [hrst, hs']
    rfl
  · rw [tcpStateTimeWait, hseq]
    simp only [hrst, hs']
    rfl

/-- The reset that answers an unexpected SYN. -/
def Socket.synReset (s : Socket) (segment : Segment) : OutSegment where
  header :=
    if segment.flags.ack then s.header { rst := true } segment.ackNum 0
    else s.header { rst := true, ack := true } 0
      (segment.seqNum + UInt32.ofNat segment.length + 1)
  data := []

/-- The socket is unchanged, and `answer` is all that is sent, if anything. -/
def Dropped (s s' : Socket) (answer : OutSegment) : Prop :=
  Unchanged s s' ∧ (Answers s s' [] ∨ Answers s s' [answer])

/-- **A segment outside the receive window does not change a connection**, whatever its flags, its
acknowledgment, its window and its data, nor does one with a SYN in the window that is no reset. The
window test is that of RFC 793 for the data of the segment. -/
theorem outsideWindow_dropped (s : Socket) (segment : Segment) (memory : Bool)
    (hstate : s.state.receives = true) :
    let s' := tcpProcessSegment s segment memory
    (¬ SegmentAcceptable s.rcv.rcvNxt s.rcv.rcvWnd segment.seqNum segment.length →
      Dropped s s' s.duplicateAck ∧ (segment.flags.rst = true → Answers s s' [])) ∧
    (SegmentAcceptable s.rcv.rcvNxt s.rcv.rcvWnd segment.seqNum segment.length →
      segment.flags.syn = true → segment.flags.rst = false →
        Dropped s s' (s.synReset segment)) := by
  intro s'
  have hnote : Unchanged s (s.noteAck segment) ∧ Answers s (s.noteAck segment) [] :=
    ⟨rfl, (List.append_nil _).symm⟩
  constructor
  · intro hout
    have hacc : acceptable s.rcv segment = false := by
      rw [← Bool.not_eq_true, acceptable_eq]
      exact hout
    have hs' : s' = if segment.flags.rst then s.noteAck segment
        else tcpSendAck (s.noteAck segment) := tcpProcessSegment_outside memory hstate hacc
    by_cases hrst : segment.flags.rst = true
    · rw [hs', if_pos hrst]
      exact ⟨⟨hnote.1, .inl hnote.2⟩, fun _ => hnote.2⟩
    · rw [hs', if_neg hrst]
      refine ⟨?_, fun h => absurd h hrst⟩
      obtain ⟨net, hack, hsent⟩ :=
        tcpSendSegment_control (s.noteAck segment) { ack := true } s.snd.sndNxt s.rcv.rcvNxt
      have hack' : tcpSendAck (s.noteAck segment) = { s.noteAck segment with net := net } := hack
      rw [hack']
      refine ⟨rfl, ?_⟩
      rcases hsent with hsent | hsent
      · exact .inl (hsent.trans (List.append_nil _).symm)
      · exact .inr hsent
  · intro hin hsyn hrst
    have hs' : s' = (tcpCheckSyn (s.noteAck segment) segment).2 :=
      tcpProcessSegment_syn memory hstate ((acceptable_eq _ _).2 hin) hsyn hrst
    rw [hs', tcpCheckSyn, if_pos hsyn]
    by_cases hackbit : segment.flags.ack = true
    · rw [if_pos hackbit]
      obtain ⟨net, hreset, hsent⟩ :=
        tcpSendSegment_control (s.noteAck segment) { rst := true } segment.ackNum 0
      simp only [hreset]
      refine ⟨rfl, ?_⟩
      rcases hsent with hsent | hsent
      · exact .inl (hsent.trans (List.append_nil _).symm)
      · refine .inr (hsent.trans ?_)
        rw [Socket.synReset, if_pos hackbit]
        rfl
    · rw [if_neg hackbit]
      obtain ⟨net, hreset, hsent⟩ := tcpSendSegment_control (s.noteAck segment)
        { rst := true, ack := true } 0 (segment.seqNum + UInt32.ofNat segment.length + 1)
      simp only [hreset]
      refine ⟨rfl, ?_⟩
      rcases hsent with hsent | hsent
      · exact .inl (hsent.trans (List.append_nil _).symm)
      · refine .inr (hsent.trans ?_)
        rw [Socket.synReset, if_neg hackbit]
        rfl

/-- A connection whose receive buffer is full: it holds one byte. -/
def fullWindow : Socket :=
  (run step (Slot.init fun _ => {}) ([.open .stream 49152, .setRxBufferSize 1] ++
    handshake 100 500 1000 ++
    [.segment (.ofData { ack := true } 501 101 1000 [7] (by decide)) true])).socket

/-- A blind reset: its sequence number is not in the window. -/
theorem outsideWindow_dropped_blindReset :
    let segment := Segment.ofData { rst := true } 700 0 0 [] (by decide)
    Unchanged fullWindow (tcpProcessSegment fullWindow segment true) ∧
      Answers fullWindow (tcpProcessSegment fullWindow segment true) [] := by
  obtain ⟨hout, -⟩ := outsideWindow_dropped fullWindow
    (Segment.ofData { rst := true } 700 0 0 [] (by decide)) true (by decide)
  obtain ⟨hdropped, hrst⟩ := hout (by decide)
  exact ⟨hdropped.1, hrst rfl⟩

/-- The sequence numbers a segment takes when its SYN and its FIN are counted. -/
def Segment.sequenceLength (segment : Segment) : ℕ :=
  segment.length + (if segment.flags.syn then 1 else 0) + (if segment.flags.fin then 1 else 0)

/-- A reset with the SYN bit closes the connection, and a FIN is processed although the window has no
room for it. -/
theorem outsideWindow_not_dropped :
    (¬ ∀ (s : Socket) (segment : Segment) (memory : Bool), s.state.receives = true →
      SegmentAcceptable s.rcv.rcvNxt s.rcv.rcvWnd segment.seqNum segment.sequenceLength →
        segment.flags.syn = true → Unchanged s (tcpProcessSegment s segment memory)) ∧
    ¬ ∀ (s : Socket) (segment : Segment) (memory : Bool), s.state.receives = true →
      ¬ SegmentAcceptable s.rcv.rcvNxt s.rcv.rcvWnd segment.seqNum segment.sequenceLength →
        Unchanged s (tcpProcessSegment s segment memory) := by
  constructor
  · intro h
    have hstate := congrArg Socket.state
      (h (run step (Slot.init fun _ => {}) (.open .stream 49152 :: handshake 100 500 1000)).socket
        (.ofData { syn := true, rst := true } 501 0 0 [] (by decide)) true (by decide) (by decide) rfl)
    exact absurd hstate (by decide)
  · intro h
    have hstate := congrArg Socket.state
      (h fullWindow (.ofData { fin := true, ack := true } 502 101 1000 [] (by decide)) true
        (by decide) (by decide))
    exact absurd hstate (by decide)

end Tcp
