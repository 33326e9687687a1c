import CycloneTcp.Core.TcpSteps
import CycloneTcp.Core.TcpSlot

set_option autoImplicit false

/-! # Sending

What a call of `tcpSendSegment` leaves behind when it fails, and what the loops that send new data do
with the windows. The segment is queued before it is handed to the network, so a refusal from below
comes too late: the queue holds a segment that its caller believes unsent. -/

namespace Tcp

/-! ## A send that fails -/

/-- The retransmission queue, the round-trip measurement and the retransmission timer are
unchanged. -/
structure SendSide.Untouched (snd snd' : SendSide) : Prop where
  retransmitQueue : snd'.retransmitQueue = snd.retransmitQueue
  rttBusy : snd'.rttBusy = snd.rttBusy
  rttSeqNum : snd'.rttSeqNum = snd.rttSeqNum
  n : snd'.n = snd.n
  retransmitTimer : snd'.retransmitTimer = snd.retransmitTimer
  retransmitCount : snd'.retransmitCount = snd.retransmitCount

theorem SendSide.Untouched.refl (snd : SendSide) : snd.Untouched snd :=
  ⟨rfl, rfl, rfl, rfl, rfl, rfl⟩

/-- Nothing stops the segment above the network: there are a buffer and a queue item, the data can be
read and the peer is known. -/
structure ReachesNetwork (s : Socket) (seqNum : UInt32) (length : ℕ) : Prop where
  buffer : (s.net.outcomes 0).buffer = true
  payload : (s.snd.payload (s.net.outcomes 0).chunks seqNum length).1 = .noError
  remote : s.remoteIpAddr ≠ .unspecified
  item : (s.net.outcomes 0).item = true

/-- Above the network a send fails without a trace, and below it has queued the segment. -/
theorem tcpSendSegment_reaches (s : Socket) (flags : TcpFlags) (seqNum ackNum : UInt32)
    (length : ℕ) :
    (¬ ReachesNetwork s seqNum length ∧
      ∃ error, error ≠ ErrorCode.noError ∧
        tcpSendSegment s flags seqNum ackNum length true = (error, { s with net := s.net.next })) ∨
    (ReachesNetwork s seqNum length ∧
      tcpSendSegment s flags seqNum ackNum length true
        = ((s.net.outcomes 0).ip,
          { s with
            snd := s.snd.enqueue (s.header flags seqNum ackNum) length
            net := s.net.next.send s.state
              { header := s.header flags seqNum ackNum
                data := (s.snd.payload (s.net.outcomes 0).chunks seqNum length).2.data } })) := by
  by_cases hbuffer : (s.net.outcomes 0).buffer = false
  · refine .inl ⟨fun h => ?_, .outOfMemory, by simp, by simp only [tcpSendSegment, if_pos hbuffer]⟩
    simp [h.buffer] at hbuffer
  by_cases hpayload : (s.snd.payload (s.net.outcomes 0).chunks seqNum length).1 ≠ .noError
  · refine .inl ⟨fun h => hpayload h.payload, _, hpayload, ?_⟩
    simp only [tcpSendSegment, if_neg hbuffer, if_pos hpayload]
  by_cases hremote : s.remoteIpAddr = .unspecified
  · refine .inl ⟨fun h => h.remote hremote, .invalidAddress, by simp, ?_⟩
    simp only [tcpSendSegment, if_neg hbuffer, if_neg hpayload, if_pos hremote]
  by_cases hitem : (s.net.outcomes 0).item = false
  · refine .inl ⟨fun h => ?_, .outOfMemory, by simp, ?_⟩
    · simp [h.item] at hitem
    · simp [tcpSendSegment, hbuffer, not_not.1 hpayload, hremote, hitem]
  · refine .inr ⟨⟨by simpa using hbuffer, not_not.1 hpayload, hremote, by simpa using hitem⟩, ?_⟩
    simp [tcpSendSegment, hbuffer, not_not.1 hpayload, hremote, hitem]

theorem enqueue_queue (snd : SendSide) (header : TcpHeader) (length : ℕ) :
    (snd.enqueue header length).retransmitQueue
      = snd.retransmitQueue ++ [{ header := header, length := length, sacked := false }] := by
  rw [SendSide.enqueue]
  split_ifs <;> rfl

/-- A call leaves no trace when it fails exactly if it does not fail below. -/
theorem tcpSendSegment_untouched (s : Socket) (flags : TcpFlags) (seqNum ackNum : UInt32)
    (length : ℕ) :
    let r := tcpSendSegment s flags seqNum ackNum length true
    (r.1 ≠ .noError → s.snd.Untouched r.2.snd) ↔
      (ReachesNetwork s seqNum length → (s.net.outcomes 0).ip = .noError) := by
  intro r
  rcases tcpSendSegment_reaches s flags seqNum ackNum length with ⟨hstop, error, -, h⟩ | ⟨hreach, h⟩
  · have hr : r.2.snd = s.snd := congrArg (fun r => r.2.snd) h
    rw [hr]
    exact ⟨fun _ hreach => absurd hreach hstop, fun _ _ => .refl _⟩
  · have hstatus : r.1 = (s.net.outcomes 0).ip := congrArg Prod.fst h
    have hsnd : r.2.snd = s.snd.enqueue (s.header flags seqNum ackNum) length :=
      congrArg (fun r => r.2.snd) h
    rw [hstatus, hsnd]
    constructor
    · intro huntouched _
      by_contra hip
      have hqueue := (huntouched hip).retransmitQueue
      rw [enqueue_queue] at hqueue
      simp at hqueue
    · intro hip hne
      exact absurd (hip hreach) hne

/-! ## What the callers queue -/

/-- The segments take the sequence numbers from `a` up to `b`, one after the other. -/
def Tiled : UInt32 → List TcpQueueItem → UInt32 → Prop
  | a, [], b => a = b
  | a, item :: items, b =>
      item.header.seqNum = a ∧ Tiled (a + UInt32.ofNat item.segmentLength) items b

/-- The segments that have been queued, if any, start at `start` and end at SND.NXT. -/
def QueuedUpTo (start : UInt32) (snd snd' : SendSide) : Prop :=
  ∃ items, snd'.retransmitQueue = snd.retransmitQueue ++ items ∧
    (items ≠ [] → Tiled start items snd'.sndNxt)

theorem QueuedUpTo.none {start : UInt32} {snd snd' : SendSide}
    (h : snd'.retransmitQueue = snd.retransmitQueue) : QueuedUpTo start snd snd' :=
  ⟨[], by rw [h, List.append_nil], fun h => absurd rfl h⟩

/-- The network never refuses a segment. -/
def Network.Accepts (net : Network) : Prop := ∀ i, (net.outcomes i).ip = .noError

theorem Network.Accepts.next {net : Network} (h : net.Accepts) : net.next.Accepts :=
  fun i => h (i + 1)

theorem enqueue_sndNxt (snd : SendSide) (header : TcpHeader) (length : ℕ) :
    (snd.enqueue header length).sndNxt = snd.sndNxt := by
  rw [SendSide.enqueue]
  split_ifs <;> rfl

/-- The socket once `n` bytes of new data have been queued and handed to the network. -/
def Socket.queued (s : Socket) (n : ℕ) : Socket :=
  let header := s.header { psh := true, ack := true } s.snd.sndNxt s.rcv.rcvNxt
  { s with
    snd := s.snd.enqueue header n
    net := s.net.next.send s.state
      { header := header
        data := (s.snd.payload (s.net.outcomes 0).chunks s.snd.sndNxt n).2.data } }

/-- The socket once they are counted as sent. -/
def Socket.pushed (s : Socket) (n : ℕ) : Socket :=
  { s.queued n with snd := (s.queued n).snd.advance n }

/-- The number of bytes a round of the loop sends. -/
def SendSide.roundLength (socket : SendSide) (u : UInt32) : ℕ :=
  min (min u.toNat socket.sndUser.toNat) socket.smss.toNat

/-- How a round of the loop ends: with the loop, with a failed send, or with the next round. -/
inductive Round (sends : SendSide → UInt32 → ℕ → Bool) (fuel : ℕ) (u : UInt32) (s : Socket)
    (r : ErrorCode × Socket) : Prop
  | stop (h : s.snd.sndUser = 0 ∨ u.toBitVec.toInt ≤ 0 ∨ sends s.snd u (s.snd.roundLength u) = false)
      (hr : r = (.noError, s))
  | fail (hgo : s.snd.sndUser ≠ 0 ∧ 0 < u.toBitVec.toInt) (error : ErrorCode)
      (herror : error ≠ .noError) (hr : r = (error, { s with net := s.net.next }))
  | refuse (hgo : s.snd.sndUser ≠ 0 ∧ 0 < u.toBitVec.toInt)
      (hreach : ReachesNetwork s s.snd.sndNxt (s.snd.roundLength u))
      (hip : (s.net.outcomes 0).ip ≠ .noError)
      (hr : r = ((s.net.outcomes 0).ip, s.queued (s.snd.roundLength u)))
  | next (hgo : s.snd.sndUser ≠ 0 ∧ 0 < u.toBitVec.toInt)
      (hreach : ReachesNetwork s s.snd.sndNxt (s.snd.roundLength u))
      (hr : r = sendLoop sends fuel (u - UInt32.ofNat (s.snd.roundLength u))
        (s.pushed (s.snd.roundLength u)))

theorem sendLoop_round (sends : SendSide → UInt32 → ℕ → Bool) (fuel : ℕ) (u : UInt32) (s : Socket) :
    Round sends fuel u s (sendLoop sends (fuel + 1) u s) := by
  rw [sendLoop]
  split
  case isTrue h => exact .stop (h.imp id .inl) rfl
  case isFalse h =>
    obtain ⟨huser, hu⟩ := not_or.1 h
    have hgo : s.snd.sndUser ≠ 0 ∧ 0 < u.toBitVec.toInt := ⟨huser, not_le.1 hu⟩
    have hn : min (min u.toNat s.snd.sndUser.toNat) s.snd.smss.toNat = s.snd.roundLength u := rfl
    simp only [hn]
    split
    case isFalse hsends => exact .stop (.inr (.inr (by simpa using hsends))) rfl
    case isTrue hsends =>
      rcases tcpSendSegment_reaches s { psh := true, ack := true } s.snd.sndNxt s.rcv.rcvNxt
        (s.snd.roundLength u) with ⟨-, error, herror, h⟩ | ⟨hreach, h⟩
      · rw [h]
        exact .fail hgo error herror (if_pos herror)
      · rw [h]
        by_cases hip : (s.net.outcomes 0).ip = .noError
        · exact .next hgo hreach (if_neg (not_not.2 hip))
        · exact .refuse hgo hreach hip (if_pos hip)

/-- The queue item for the `n` bytes. -/
def Socket.dataItem (s : Socket) (n : ℕ) : TcpQueueItem :=
  { header := s.header { psh := true, ack := true } s.snd.sndNxt s.rcv.rcvNxt
    length := n, sacked := false }

theorem pushed_queue (s : Socket) (n : ℕ) :
    (s.pushed n).snd.retransmitQueue = s.snd.retransmitQueue ++ [s.dataItem n] :=
  enqueue_queue _ _ _

theorem pushed_sndNxt (s : Socket) (n : ℕ) :
    (s.pushed n).snd.sndNxt = s.snd.sndNxt + UInt32.ofNat n := by
  simp only [Socket.pushed, Socket.queued, SendSide.advance, enqueue_sndNxt]

/-- On a network that accepts everything, what the loop queues is what it counts as sent. -/
theorem sendLoop_tiled (sends : SendSide → UInt32 → ℕ → Bool) (fuel : ℕ) (u : UInt32) (s : Socket)
    (hnet : s.net.Accepts) :
    ∃ items, (sendLoop sends fuel u s).2.snd.retransmitQueue = s.snd.retransmitQueue ++ items ∧
      Tiled s.snd.sndNxt items (sendLoop sends fuel u s).2.snd.sndNxt := by
  induction fuel generalizing u s with
  | zero => exact ⟨[], (List.append_nil _).symm, rfl⟩
  | succ fuel ih =>
      cases sendLoop_round sends fuel u s with
      | stop h hr => exact ⟨[], by rw [hr, List.append_nil], by rw [hr]; rfl⟩
      | fail hgo error herror hr => exact ⟨[], by rw [hr, List.append_nil], by rw [hr]; rfl⟩
      | refuse hgo hreach hip hr => exact absurd (hnet 0) hip
      | next hgo hreach hr =>
          obtain ⟨items, hqueue, htiled⟩ :=
            ih (u - UInt32.ofNat (s.snd.roundLength u)) (s.pushed (s.snd.roundLength u)) hnet.next
          rw [hr]
          refine ⟨s.dataItem (s.snd.roundLength u) :: items, ?_, rfl, ?_⟩
          · rw [hqueue, pushed_queue, List.append_assoc, List.singleton_append]
          · rw [pushed_sndNxt] at htiled
            exact htiled

theorem sendLoop_queuedUpTo (sends : SendSide → UInt32 → ℕ → Bool) (fuel : ℕ) (u : UInt32)
    (s : Socket) (hnet : s.net.Accepts) :
    QueuedUpTo s.snd.sndNxt s.snd (sendLoop sends fuel u s).2.snd := by
  obtain ⟨items, hqueue, htiled⟩ := sendLoop_tiled sends fuel u s hnet
  exact ⟨items, hqueue, fun _ => htiled⟩

theorem tickOverride_queuedUpTo (s : Socket) (elapsed : Elapsed) (hnet : s.net.Accepts) :
    QueuedUpTo s.snd.sndNxt s.snd (tickOverride s elapsed).snd := by
  have hloop := sendLoop_queuedUpTo (fun _ _ _ => true) s.snd.sndUser.toNat s.snd.usableWindow s hnet
  rw [tickOverride]
  split
  · simp only
    split
    · exact hloop
    · exact hloop
  · exact .none rfl

theorem sendFin_queuedUpTo (s : Socket) (how : SocketShutdown) (next : TcpState)
    (hnet : s.net.Accepts) :
    QueuedUpTo s.snd.sndNxt s.snd (sendFin s how next).1.snd := by
  rw [sendFin]
  rcases tcpSendSegment_reaches s { fin := true, ack := true } s.snd.sndNxt s.rcv.rcvNxt 0
    with ⟨-, error, herror, h⟩ | ⟨-, h⟩
  · rw [h]
    simp only [if_pos herror]
    exact .none rfl
  · rw [h]
    simp only [hnet 0, ne_eq, not_true_eq_false, if_false, tcpChangeState_snd, enqueue_sndNxt]
    refine ⟨[_], enqueue_queue _ _ _, fun _ => ⟨rfl, ?_⟩⟩
    simp [Tiled, TcpQueueItem.segmentLength, Socket.header]

theorem sendSyn_queuedUpTo (s : Socket) (hnxt : s.snd.sndNxt = s.snd.iss + 1)
    (hnet : s.net.Accepts) : QueuedUpTo s.snd.iss s.snd (sendSyn s).2.snd := by
  rw [sendSyn]
  rcases tcpSendSegment_reaches s { syn := true } s.snd.iss 0 0 with ⟨-, error, herror, h⟩ | ⟨-, h⟩
  · rw [h]
    simp only [if_pos herror]
    exact .none rfl
  · rw [h]
    simp only [hnet 0, ne_eq, not_true_eq_false, if_false, tcpChangeState_snd]
    refine ⟨[_], enqueue_queue _ _ _, fun _ => ⟨rfl, ?_⟩⟩
    simp [Tiled, TcpQueueItem.segmentLength, Socket.header, enqueue_sndNxt, hnxt]

/-- **A failed send leaves no trace** exactly if the network does not refuse what has been queued. Where
it refuses nothing, what the callers queue starts where unsent data starts and ends at SND.NXT. -/
theorem failedSend_untouched_iff (s : Socket) :
    (∀ (flags : TcpFlags) (seqNum ackNum : UInt32) (length : ℕ),
      let r := tcpSendSegment s flags seqNum ackNum length true
      (r.1 ≠ .noError → s.snd.Untouched r.2.snd) ↔
        (ReachesNetwork s seqNum length → (s.net.outcomes 0).ip = .noError)) ∧
    (s.net.Accepts →
      (∀ flags, QueuedUpTo s.snd.sndNxt s.snd (tcpNagleAlgo s flags).2.snd) ∧
      (∀ elapsed, QueuedUpTo s.snd.sndNxt s.snd (tickOverride s elapsed).snd) ∧
      (∀ how next, QueuedUpTo s.snd.sndNxt s.snd (sendFin s how next).1.snd) ∧
      ∀ iss, QueuedUpTo iss (activeBlock s iss).snd (sendSyn (activeBlock s iss)).2.snd) := by
  refine ⟨tcpSendSegment_untouched s, fun hnet => ⟨?_, ?_, ?_, ?_⟩⟩
  · intro flags
    exact sendLoop_queuedUpTo _ _ _ s hnet
  · intro elapsed
    exact tickOverride_queuedUpTo s elapsed hnet
  · intro how next
    exact sendFin_queuedUpTo s how next hnet
  · intro iss
    exact sendSyn_queuedUpTo (activeBlock s iss) rfl hnet

/-- An established connection; the network refuses the third segment, a FIN, and a byte is sent after
that. -/
def refusedFin : List Event :=
  .open .stream 49152 :: handshake 100 500 1000 ++ [.shutdown .send, .send [7] { noDelay := true }]

def refuseThird (i : ℕ) : SendOutcome := if i = 2 then { ip := .failure } else {}

/-- The FIN stays in the queue, with the sequence number that the byte gets. -/
theorem refusedFin_not_untouched :
    (¬ ∀ (s : Socket) (flags : TcpFlags) (seqNum ackNum : UInt32) (length : ℕ),
      (tcpSendSegment s flags seqNum ackNum length true).1 ≠ .noError →
        s.snd.Untouched (tcpSendSegment s flags seqNum ackNum length true).2.snd) ∧
    let s := (run step (Slot.init refuseThird) refusedFin).socket
    s.snd.retransmitQueue.map (fun item => (item.header.seqNum, item.header.flags.fin, item.length))
      = [(101, true, 0), (101, false, 1)] := by
  refine ⟨fun h => ?_, by decide⟩
  have huntouched := h (run step (Slot.init refuseThird) (refusedFin.take 3)).socket
    { fin := true, ack := true } 101 501 0 (by decide)
  exact absurd huntouched.retransmitQueue (by decide)

/-! ## New data and the windows -/

/-- What the receiver window, the send buffer and the congestion window admit in flight. -/
def SendSide.windowLimit (socket : SendSide) : ℕ :=
  min (min socket.sndWnd.toNat socket.txBufferSize) socket.cwnd.toNat

/-- The segments carry new data from `nxt` on without a gap: each of them holds between 1 and `smss`
bytes and ends at most `limit` bytes behind `una`. -/
def NewData (smss limit : ℕ) (una : UInt32) : UInt32 → List OutSegment → Prop
  | _, [] => True
  | nxt, segment :: segments =>
      segment.header.seqNum = nxt ∧ 1 ≤ segment.data.length ∧ segment.data.length ≤ smss ∧
        (nxt + UInt32.ofNat segment.data.length - una).toNat ≤ limit ∧
        NewData smss limit una (nxt + UInt32.ofNat segment.data.length) segments

/-- The sequence number behind the segments. -/
def afterData (nxt : UInt32) (segments : List OutSegment) : UInt32 :=
  segments.foldl (fun nxt segment => nxt + UInt32.ofNat segment.data.length) nxt

/-- What is sent respects both windows, and the books are kept: a segment that the network has refused
is the last one and does not count as sent. -/
structure SendsNewData (s : Socket) (error : ErrorCode) (s' : Socket) : Prop where
  sent : ∃ counted refused : List OutSegment,
    s'.net.sent = s.net.sent ++ (counted ++ refused).map (Prod.mk s.state) ∧
    NewData s.snd.smss.toNat s.snd.windowLimit s.snd.sndUna s.snd.sndNxt (counted ++ refused) ∧
    refused.length ≤ 1 ∧ (error = .noError → refused = []) ∧
    s'.snd.sndNxt = afterData s.snd.sndNxt counted
  total : s'.snd.sndNxt + s'.snd.sndUser.toUInt32 = s.snd.sndNxt + s.snd.sndUser.toUInt32
  sndUna : s'.snd.sndUna = s.snd.sndUna
  windowLimit : s'.snd.windowLimit = s.snd.windowLimit
  inFlight : s'.snd.flightSize.toNat ≤ s.snd.windowLimit ∨ s'.snd.sndNxt = s.snd.sndNxt
  shrunk : s.snd.windowLimit ≤ s.snd.flightSize.toNat → s'.net = s.net

/-- Nothing is left to send, or no room to send it. -/
def Exhausted (s : Socket) : Prop :=
  s.snd.sndUser = 0 ∨ s.snd.windowLimit ≤ s.snd.flightSize.toNat

theorem SendsNewData.refl (s : Socket) (error : ErrorCode) : SendsNewData s error s :=
  ⟨⟨[], [], by simp, trivial, by simp, fun _ => rfl, rfl⟩, rfl, rfl, rfl, .inr rfl, fun _ => rfl⟩

theorem windowLimit_lt (snd : SendSide) : snd.windowLimit < 2 ^ 16 :=
  lt_of_le_of_lt (min_le_right _ _) snd.cwnd.toNat_lt

/-! ### The usable window -/

section Usable

variable {snd : SendSide}

/-- Where the windows are not exceeded, the usable window is what they leave. -/
theorem usableWindow_toNat (h : snd.flightSize.toNat ≤ snd.windowLimit) :
    snd.usableWindow.toNat + snd.flightSize.toNat = snd.windowLimit := by
  have hlimit := windowLimit_lt snd
  have husable : snd.usableWindow = UInt32.ofNat snd.windowLimit - snd.flightSize := rfl
  rw [husable, UInt32.toNat_sub, UInt32.toNat_ofNat']
  have := snd.flightSize.toNat_lt
  omega

theorem toInt_eq {u : UInt32} (h : u.toNat < 2 ^ 31) : u.toBitVec.toInt = u.toNat := by
  rw [BitVec.toInt_eq_toNat_cond, UInt32.toNat_toBitVec, if_pos (by omega)]

/-- A window that has shrunk below what is in flight is negative. -/
theorem usableWindow_nonpos (hflight : snd.flightSize.toNat < 2 ^ 31)
    (h : snd.windowLimit ≤ snd.flightSize.toNat) : snd.usableWindow.toBitVec.toInt ≤ 0 := by
  have hlimit := windowLimit_lt snd
  have husable : snd.usableWindow = UInt32.ofNat snd.windowLimit - snd.flightSize := rfl
  have hnat : snd.usableWindow.toNat
      = (2 ^ 32 - snd.flightSize.toNat + snd.windowLimit) % 2 ^ 32 := by
    rw [husable, UInt32.toNat_sub, UInt32.toNat_ofNat']
    omega
  rw [BitVec.toInt_eq_toNat_cond, UInt32.toNat_toBitVec]
  split <;> omega

end Usable

/-! ### The loop -/

theorem netBufferConcat_length {dest src : FlatBuffer} {srcOffset length : ℕ}
    (h : (FlatBuffer.netBufferConcat dest src srcOffset length).1 = .noError) :
    (FlatBuffer.netBufferConcat dest src srcOffset length).2.length = dest.length + length := by
  rw [FlatBuffer.netBufferConcat] at h ⊢
  by_cases hoff : src.length ≤ srcOffset
  · rw [if_pos hoff] at h
    cases h
  · rw [if_neg hoff] at h ⊢
    simp only at h ⊢
    by_cases hn : min length (src.length - srcOffset) < length
    · rw [if_pos hn] at h
      cases h
    · omega

theorem tcpReadTxBuffer_length {socket : SendSide} {seqNum : UInt32} {length : ℕ}
    (h : (tcpReadTxBuffer socket seqNum .empty length).1 = .noError) :
    (tcpReadTxBuffer socket seqNum .empty length).2.length = length := by
  have hempty : FlatBuffer.empty.length = 0 := rfl
  rw [tcpReadTxBuffer] at h ⊢
  simp only at h ⊢
  split at h
  case isTrue hle =>
    rw [if_pos hle, netBufferConcat_length h]
    omega
  case isFalse hle =>
    rw [if_neg hle]
    split at h
    case isTrue hfirst =>
      rw [if_pos hfirst, netBufferConcat_length h, netBufferConcat_length hfirst]
      omega
    case isFalse hfirst => exact absurd h hfirst

/-- A segment that reaches the network carries as many bytes as it should. -/
theorem ReachesNetwork.data_length {s : Socket} {seqNum : UInt32} {length : ℕ}
    (h : ReachesNetwork s seqNum length) :
    (s.snd.payload (s.net.outcomes 0).chunks seqNum length).2.data.length = length := by
  have hpayload := h.payload
  rw [FlatBuffer.data, Memory.length_read]
  rw [SendSide.payload] at hpayload ⊢
  split at hpayload
  case isTrue hzero => rw [if_pos hzero, hzero]; rfl
  case isFalse hzero =>
    rw [if_neg hzero]
    split at hpayload
    case isTrue => cases hpayload
    case isFalse hchunks => rw [if_neg hchunks, tcpReadTxBuffer_length hpayload]

section Pushed

variable (s : Socket) (n : ℕ)

theorem enqueue_windowLimit (snd : SendSide) (header : TcpHeader) (length : ℕ) :
    (snd.enqueue header length).windowLimit = snd.windowLimit := by
  rw [SendSide.enqueue]
  split_ifs <;> rfl

theorem enqueue_fields (snd : SendSide) (header : TcpHeader) (length : ℕ) :
    (snd.enqueue header length).sndUna = snd.sndUna ∧
      (snd.enqueue header length).sndUser = snd.sndUser ∧
      (snd.enqueue header length).smss = snd.smss := by
  rw [SendSide.enqueue]
  split_ifs <;> exact ⟨rfl, rfl, rfl⟩

theorem pushed_sndUna : (s.pushed n).snd.sndUna = s.snd.sndUna := (enqueue_fields _ _ _).1

theorem pushed_smss : (s.pushed n).snd.smss = s.snd.smss := (enqueue_fields _ _ _).2.2

theorem pushed_sndUser : (s.pushed n).snd.sndUser = s.snd.sndUser - UInt16.ofNat n :=
  congrArg (· - UInt16.ofNat n) (enqueue_fields _ _ _).2.1

theorem pushed_windowLimit : (s.pushed n).snd.windowLimit = s.snd.windowLimit :=
  enqueue_windowLimit _ _ _

theorem queued_sndUna : (s.queued n).snd.sndUna = s.snd.sndUna := (enqueue_fields _ _ _).1

theorem queued_windowLimit : (s.queued n).snd.windowLimit = s.snd.windowLimit :=
  enqueue_windowLimit _ _ _

theorem queued_sndNxt : (s.queued n).snd.sndNxt = s.snd.sndNxt := enqueue_sndNxt _ _ _

theorem queued_sndUser : (s.queued n).snd.sndUser = s.snd.sndUser := (enqueue_fields _ _ _).2.1

/-- The segment that the round hands to the network. -/
def Socket.dataSegment : OutSegment where
  header := s.header { psh := true, ack := true } s.snd.sndNxt s.rcv.rcvNxt
  data := (s.snd.payload (s.net.outcomes 0).chunks s.snd.sndNxt n).2.data

theorem queued_sent : (s.queued n).net.sent = s.net.sent ++ [(s.state, s.dataSegment n)] := rfl

variable {s n}

theorem pushed_sndUser_toNat (hn : n ≤ s.snd.sndUser.toNat) :
    (s.pushed n).snd.sndUser.toNat = s.snd.sndUser.toNat - n := by
  have := s.snd.sndUser.toNat_lt
  rw [pushed_sndUser, UInt16.toNat_sub, UInt16.toNat_ofNat']
  omega

/-- The bytes that are sent have been unsent before. -/
theorem pushed_total (hn : n ≤ s.snd.sndUser.toNat) :
    (s.pushed n).snd.sndNxt + (s.pushed n).snd.sndUser.toUInt32
      = s.snd.sndNxt + s.snd.sndUser.toUInt32 := by
  apply UInt32.toNat_inj.1
  have hnxt := s.snd.sndNxt.toNat_lt
  have huser := s.snd.sndUser.toNat_lt
  rw [UInt32.toNat_add, UInt32.toNat_add, UInt16.toNat_toUInt32, UInt16.toNat_toUInt32,
    pushed_sndUser_toNat hn, pushed_sndNxt, UInt32.toNat_add, UInt32.toNat_ofNat']
  omega

theorem pushed_flightSize (hn : s.snd.flightSize.toNat + n < 2 ^ 32) :
    (s.pushed n).snd.flightSize.toNat = s.snd.flightSize.toNat + n := by
  have hnxt := s.snd.sndNxt.toNat_lt
  have huna := s.snd.sndUna.toNat_lt
  rw [SendSide.flightSize, UInt32.toNat_sub] at hn ⊢
  rw [SendSide.flightSize, UInt32.toNat_sub, pushed_sndNxt, pushed_sndUna, UInt32.toNat_add,
    UInt32.toNat_ofNat']
  omega

end Pushed

/-- What a round that sends can send: at least one byte, no more than the usable window, the data or a
segment holds. -/
theorem roundLength_bounds {snd : SendSide} {u : UInt32} (hmss : 0 < snd.smss.toNat)
    (huser : snd.sndUser ≠ 0) (hu : 0 < u.toBitVec.toInt) :
    1 ≤ snd.roundLength u ∧ snd.roundLength u ≤ u.toNat ∧
      snd.roundLength u ≤ snd.sndUser.toNat ∧ snd.roundLength u ≤ snd.smss.toNat := by
  have huser' : snd.sndUser.toNat ≠ 0 := fun h => huser (UInt16.toNat_inj.1 h)
  have hu' : u.toNat ≠ 0 := by
    intro h
    rw [UInt32.toNat_inj.1 (h.trans rfl : u.toNat = (0 : UInt32).toNat)] at hu
    exact absurd hu (by decide)
  rw [SendSide.roundLength]
  omega

/-- The loop keeps the windows, round by round. -/
theorem sendLoop_sendsNewData (sends : SendSide → UInt32 → ℕ → Bool) (fuel : ℕ) (u : UInt32)
    (s : Socket) (hmss : 0 < s.snd.smss.toNat)
    (hu : u.toNat + s.snd.flightSize.toNat = s.snd.windowLimit) :
    SendsNewData s (sendLoop sends fuel u s).1 (sendLoop sends fuel u s).2 := by
  induction fuel generalizing u s with
  | zero => exact .refl s _
  | succ fuel ih =>
      have hlimit := windowLimit_lt s.snd
      cases sendLoop_round sends fuel u s with
      | stop h hr =>
          rw [hr]
          exact .refl s _
      | fail hgo error herror hr =>
          rw [hr]
          refine ⟨⟨[], [], by simp [Network.next], trivial, by simp, fun _ => rfl, rfl⟩, rfl, rfl, rfl,
            .inr rfl, fun hfull => ?_⟩
          have := roundLength_bounds hmss hgo.1 hgo.2
          omega
      | refuse hgo hreach hip hr =>
          obtain ⟨hpos, hnu, hnuser, hnmss⟩ := roundLength_bounds hmss hgo.1 hgo.2
          have hlength : (s.dataSegment (s.snd.roundLength u)).data.length = s.snd.roundLength u :=
            hreach.data_length
          have hflight := pushed_flightSize (s := s) (n := s.snd.roundLength u) (by omega)
          rw [SendSide.flightSize, pushed_sndNxt, pushed_sndUna] at hflight
          rw [hr]
          refine ⟨⟨[], [s.dataSegment (s.snd.roundLength u)], queued_sent s _, ?_, by simp,
            fun h => absurd h hip, queued_sndNxt s _⟩, ?_, queued_sndUna s _, queued_windowLimit s _,
            .inr (queued_sndNxt s _), fun hfull => by omega⟩
          · refine ⟨rfl, by omega, by omega, ?_, trivial⟩
            rw [hlength, hflight]
            omega
          · rw [queued_sndNxt, queued_sndUser]
      | next hgo hreach hr =>
          obtain ⟨hpos, hnu, hnuser, hnmss⟩ := roundLength_bounds hmss hgo.1 hgo.2
          have hlength : (s.dataSegment (s.snd.roundLength u)).data.length = s.snd.roundLength u :=
            hreach.data_length
          have hflight := pushed_flightSize (s := s) (n := s.snd.roundLength u) (by omega)
          have hround : (UInt32.ofNat (s.snd.roundLength u)).toNat = s.snd.roundLength u :=
            UInt32.toNat_ofNat_of_lt' (lt_of_le_of_lt hnu u.toNat_lt)
          have hrest := ih (u - UInt32.ofNat (s.snd.roundLength u)) (s.pushed (s.snd.roundLength u))
            (by rw [pushed_smss]; exact hmss)
            (by
              rw [pushed_windowLimit, hflight, UInt32.toNat_sub_of_le _ _
                (UInt32.le_iff_toNat_le.2 (by omega)), hround]
              omega)
          obtain ⟨⟨counted, refused, hsent, hdata, hrefused, hdone, hnxt⟩, htotal, huna, hwindow,
            hin, -⟩ := hrest
          rw [pushed_smss, pushed_windowLimit, pushed_sndUna, pushed_sndNxt] at hdata
          rw [pushed_sndNxt] at hnxt
          rw [hr]
          refine ⟨⟨s.dataSegment (s.snd.roundLength u) :: counted, refused, ?_, ?_, hrefused, hdone, ?_⟩,
            htotal.trans (pushed_total hnuser), huna.trans (pushed_sndUna s _),
            hwindow.trans (pushed_windowLimit s _), ?_, fun hfull => by omega⟩
          · rw [hsent]
            exact (congrArg (· ++ _) (queued_sent s _)).trans (List.append_assoc _ _ _)
          · refine ⟨rfl, by omega, by omega, ?_, ?_⟩
            · rw [hlength, ← pushed_sndNxt, ← pushed_sndUna s (s.snd.roundLength u)]
              exact hflight.trans_le (by omega)
            · rw [hlength]
              exact hdata
          · rw [hnxt, afterData, afterData, List.foldl_cons, hlength]
          · rw [pushed_windowLimit] at hin
            rcases hin with hin | hin
            · exact .inl hin
            · left
              rw [SendSide.flightSize, hin, huna, ← SendSide.flightSize, hflight]
              omega

/-- As many rounds as there are bytes are enough, whatever ends the loop. -/
theorem sendLoop_fuel (sends : SendSide → UInt32 → ℕ → Bool) {fuel : ℕ} (u : UInt32) (s : Socket)
    (hmss : 0 < s.snd.smss.toNat) (h : s.snd.sndUser.toNat ≤ fuel) :
    sendLoop sends fuel u s = sendLoop sends s.snd.sndUser.toNat u s := by
  suffices hall : ∀ (fuel fuel' : ℕ) (u : UInt32) (s : Socket), 0 < s.snd.smss.toNat →
      s.snd.sndUser.toNat ≤ fuel → s.snd.sndUser.toNat ≤ fuel' →
        sendLoop sends fuel u s = sendLoop sends fuel' u s from
    hall fuel s.snd.sndUser.toNat u s hmss h (le_refl _)
  intro fuel
  induction fuel with
  | zero =>
      intro fuel' u s _ hzero _
      have huser : s.snd.sndUser = 0 := UInt16.toNat_inj.1 (Nat.le_zero.1 hzero)
      cases fuel' with
      | zero => rfl
      | succ fuel' => rw [sendLoop, sendLoop, if_pos (.inl huser)]
  | succ fuel ih =>
      intro fuel' u s hmss hle hle'
      cases fuel' with
      | zero =>
          have huser : s.snd.sndUser = 0 := UInt16.toNat_inj.1 (Nat.le_zero.1 hle')
          rw [sendLoop, sendLoop, if_pos (.inl huser)]
      | succ fuel' =>
          rw [sendLoop, sendLoop]
          by_cases hstop : s.snd.sndUser = 0 ∨ u.toBitVec.toInt ≤ 0
          · rw [if_pos hstop, if_pos hstop]
          rw [if_neg hstop, if_neg hstop]
          obtain ⟨huser, hu⟩ := not_or.1 hstop
          obtain ⟨hpos, -, hnuser, -⟩ := roundLength_bounds hmss huser (not_le.1 hu)
          have hn : min (min u.toNat s.snd.sndUser.toNat) s.snd.smss.toNat = s.snd.roundLength u :=
            rfl
          have hsent := pushed_sndUser_toNat hnuser
          simp only [hn]
          congr 1
          rcases tcpSendSegment_reaches s { psh := true, ack := true } s.snd.sndNxt s.rcv.rcvNxt
            (s.snd.roundLength u) with ⟨-, error, herror, h⟩ | ⟨-, h⟩
          · rw [h, if_pos herror, if_pos herror]
          · rw [h]
            by_cases hip : (s.net.outcomes 0).ip = .noError
            · rw [if_neg (not_not.2 hip), if_neg (not_not.2 hip)]
              refine ih fuel' _ (s.pushed (s.snd.roundLength u)) ?_ ?_ ?_
              · rw [pushed_smss]
                exact hmss
              · omega
              · omega
            · rw [if_pos hip, if_pos hip]

/-- A loop that sends whatever it can stops when there is nothing to send or no room. -/
theorem sendLoop_exhausted {sends : SendSide → UInt32 → ℕ → Bool} (fuel : ℕ) (u : UInt32)
    (s : Socket) (hsends : ∀ snd u n, 0 < n → sends snd u n = true) (hmss : 0 < s.snd.smss.toNat)
    (hu : u.toNat + s.snd.flightSize.toNat = s.snd.windowLimit) (hfuel : s.snd.sndUser.toNat ≤ fuel)
    (hok : (sendLoop sends fuel u s).1 = .noError) : Exhausted (sendLoop sends fuel u s).2 := by
  induction fuel generalizing u s with
  | zero => exact .inl (UInt16.toNat_inj.1 (Nat.le_zero.1 hfuel))
  | succ fuel ih =>
      have hlimit := windowLimit_lt s.snd
      cases sendLoop_round sends fuel u s with
      | stop h hr =>
          rw [hr]
          by_cases huser : s.snd.sndUser = 0
          · exact .inl huser
          have hint := toInt_eq (u := u) (by omega)
          by_cases hpos : 0 < u.toBitVec.toInt
          · obtain ⟨hround, -⟩ := roundLength_bounds hmss huser hpos
            rcases h with h | h | h
            · exact absurd h huser
            · omega
            · rw [hsends _ _ _ hround] at h
              cases h
          · right
            change s.snd.windowLimit ≤ s.snd.flightSize.toNat
            omega
      | fail hgo error herror hr =>
          rw [hr] at hok
          exact absurd hok herror
      | refuse hgo hreach hip hr =>
          rw [hr] at hok
          exact absurd hok hip
      | next hgo hreach hr =>
          obtain ⟨hpos, hnu, hnuser, hnmss⟩ := roundLength_bounds hmss hgo.1 hgo.2
          have hflight := pushed_flightSize (s := s) (n := s.snd.roundLength u) (by omega)
          have hround : (UInt32.ofNat (s.snd.roundLength u)).toNat = s.snd.roundLength u :=
            UInt32.toNat_ofNat_of_lt' (lt_of_le_of_lt hnu u.toNat_lt)
          rw [hr] at hok ⊢
          refine ih _ _ ?_ ?_ ?_ hok
          · rw [pushed_smss]
            exact hmss
          · rw [pushed_windowLimit, hflight, UInt32.toNat_sub_of_le _ _
              (UInt32.le_iff_toNat_le.2 (by omega)), hround]
            omega
          · rw [pushed_sndUser_toNat hnuser]
            omega

/-- A window that is full or has shrunk stops the loop before its first round. -/
theorem sendLoop_full (sends : SendSide → UInt32 → ℕ → Bool) (s : Socket)
    (hflight : s.snd.flightSize.toNat < 2 ^ 31)
    (h : s.snd.windowLimit ≤ s.snd.flightSize.toNat) :
    sendLoop sends s.snd.sndUser.toNat s.snd.usableWindow s = (.noError, s) := by
  cases s.snd.sndUser.toNat with
  | zero => rfl
  | succ fuel => rw [sendLoop, if_pos (.inr (usableWindow_nonpos hflight h))]

/-- How the loop is entered, in `tcpNagleAlgo` and in `tcpTick`. -/
theorem newData_sendsNewData (sends : SendSide → UInt32 → ℕ → Bool) (s : Socket)
    (hmss : 0 < s.snd.smss) (hflight : s.snd.flightSize.toNat < 2 ^ 31) :
    let r := sendLoop sends s.snd.sndUser.toNat s.snd.usableWindow s
    SendsNewData s r.1 r.2 ∧
      (∀ fuel, s.snd.sndUser.toNat ≤ fuel → sendLoop sends fuel s.snd.usableWindow s = r) ∧
      ((∀ snd u n, 0 < n → sends snd u n = true) → r.1 = .noError → Exhausted r.2) := by
  intro r
  have hmss' : 0 < s.snd.smss.toNat := UInt16.lt_iff_toNat_lt.1 hmss
  refine ⟨?_, fun fuel hfuel => sendLoop_fuel sends _ s hmss' hfuel, fun hsends hok => ?_⟩
  · rcases Nat.lt_or_ge s.snd.flightSize.toNat s.snd.windowLimit with h | h
    · exact sendLoop_sendsNewData sends _ _ s hmss' (usableWindow_toNat h.le)
    · rw [show r = (.noError, s) from sendLoop_full sends s hflight h]
      exact .refl s _
  · rcases Nat.lt_or_ge s.snd.flightSize.toNat s.snd.windowLimit with h | h
    · exact sendLoop_exhausted _ _ s hsends hmss' (usableWindow_toNat h.le) (le_refl _) hok
    · rw [show r = (.noError, s) from sendLoop_full sends s hflight h]
      exact .inr h

/-- The timer sends what the loop sends. -/
theorem tickOverride_sendsNewData (s : Socket) (elapsed : Elapsed) (hmss : 0 < s.snd.smss)
    (hflight : s.snd.flightSize.toNat < 2 ^ 31) :
    ∃ error, SendsNewData s error (tickOverride s elapsed) := by
  obtain ⟨hsends, -, -⟩ := newData_sendsNewData (fun _ _ _ => true) s hmss hflight
  rw [tickOverride]
  split
  · generalize sendLoop (fun _ _ _ => true) s.snd.sndUser.toNat s.snd.usableWindow s = r at hsends ⊢
    refine ⟨r.1, ?_⟩
    dsimp only
    split
    · exact ⟨hsends.sent, hsends.total, hsends.sndUna, hsends.windowLimit, hsends.inFlight,
        hsends.shrunk⟩
    · exact hsends
  · exact ⟨.noError, .refl s _⟩

/-- **New data respects both windows** on every path that sends it. -/
theorem newData_respects_windows (s : Socket) (hmss : 0 < s.snd.smss)
    (hflight : s.snd.flightSize.toNat < 2 ^ 31) :
    (∀ flags : SocketFlags,
      let r := tcpNagleAlgo s flags
      SendsNewData s r.1 r.2 ∧
        (∀ fuel, s.snd.sndUser.toNat ≤ fuel →
          sendLoop (nagleSends flags) fuel s.snd.usableWindow s = r) ∧
        (flags.noDelay = true → r.1 = .noError → Exhausted r.2)) ∧
      ∀ elapsed : Elapsed,
        (∃ error, SendsNewData s error (tickOverride s elapsed)) ∧
          ∀ fuel, s.snd.sndUser.toNat ≤ fuel →
            sendLoop (fun _ _ _ => true) fuel s.snd.usableWindow s
              = sendLoop (fun _ _ _ => true) s.snd.sndUser.toNat s.snd.usableWindow s := by
  refine ⟨fun flags => ?_, fun elapsed => ⟨tickOverride_sendsNewData s elapsed hmss hflight, ?_⟩⟩
  · obtain ⟨hsends, hfuel, hdone⟩ := newData_sendsNewData (nagleSends flags) s hmss hflight
    refine ⟨hsends, hfuel, fun hnodelay hok => hdone (fun snd u n hn => ?_) hok⟩
    simp [nagleSends, hnodelay, hn]
  · obtain ⟨-, hfuel, -⟩ := newData_sendsNewData (fun _ _ _ => true) s hmss hflight
    exact hfuel

/-- An established connection whose peer announces a window of one byte, with two bytes to send. -/
def smallWindow : Socket :=
  (run step (Slot.init fun _ => {})
    (.open .stream 49152 :: handshake 100 500 1 ++ [.send [7, 8] { noDelay := true }])).socket

/-- One byte is in flight, and nothing more is sent. -/
theorem newData_respects_windows_smallWindow :
    smallWindow.snd.flightSize = 1 ∧ smallWindow.snd.sndUser = 1 ∧
      SendsNewData smallWindow (tcpNagleAlgo smallWindow {}).1 (tcpNagleAlgo smallWindow {}).2 :=
  ⟨by decide, by decide,
    ((newData_respects_windows smallWindow (by decide) (by decide)).1 {}).1⟩

end Tcp
