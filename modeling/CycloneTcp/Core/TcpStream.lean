import CycloneTcp.Core.TcpEffects
import CycloneTcp.Core.TcpRetransmission

set_option autoImplicit false

/-! # The incoming stream

Over all its calls on a connection, `tcpReceive` returns the stream of the peer from its beginning
on, whatever the order in which segments arrive, how often and in which pieces. A segment needs to
be right about data that has not been received in order yet, and about no other. -/

namespace Tcp

open Serial

/-! ## Segments of a stream -/

/-- The data of a segment. -/
def Segment.data (segment : Segment) : List UInt8 :=
  segment.buffer.cells.read segment.offset segment.length

theorem Segment.getElem?_data (segment : Segment) {j : ℕ} (hj : j < segment.length) :
    segment.data[j]? = some (segment.buffer.cells (segment.offset + j)) := by
  rw [Segment.data, List.getElem?_eq_getElem (by rwa [Memory.length_read]), Memory.getElem_read]

/-- From position `n` on, the data of the segment is that of the stream. -/
def Segment.Agrees (segment : Segment) (stream : List UInt8) (irs : UInt32) (n : ℕ) : Prop :=
  ∀ j < segment.length, n ≤ (segment.seqNum + UInt32.ofNat j - irs - 1).toNat →
    stream[(segment.seqNum + UInt32.ofNat j - irs - 1).toNat]? = segment.data[j]?

instance (segment : Segment) (stream : List UInt8) (irs : UInt32) (n : ℕ) :
    Decidable (segment.Agrees stream irs n) :=
  inferInstanceAs (Decidable (∀ j < segment.length, _ → _))

theorem Segment.Agrees.mono {segment : Segment} {stream : List UInt8} {irs : UInt32} {n m : ℕ}
    (h : segment.Agrees stream irs n) (hle : n ≤ m) : segment.Agrees stream irs m :=
  fun j hj hm => h j hj (hle.trans hm)

/-- Byte `p` of the stream is in the buffer. -/
def ReceiveSide.Stores (rcv : ReceiveSide) (stream : List UInt8) (p : ℕ) : Prop :=
  stream[p]? = some (rcv.rxBuffer.cells (p % rcv.rxBufferSize))

theorem netBufferCopy_length (dest src : FlatBuffer) (destOffset srcOffset length : ℕ) :
    (dest.netBufferCopy destOffset src srcOffset length).2.length = dest.length := by
  rw [FlatBuffer.netBufferCopy]
  split_ifs <;> rfl

theorem tcpWriteRxBuffer_length (rcv : ReceiveSide) (q : UInt32) (data : FlatBuffer)
    (o length : ℕ) :
    (tcpWriteRxBuffer rcv q data o length).rxBuffer.length = rcv.rxBuffer.length := by
  rw [tcpWriteRxBuffer]
  split_ifs
  · exact netBufferCopy_length _ _ _ _ _
  · exact (netBufferCopy_length _ _ _ _ _).trans (netBufferCopy_length _ _ _ _ _)

/-- Within the window, `receiveData` stores what the segment brings and keeps what it finds. -/
theorem Stored.stores {rcv : ReceiveSide} {segment : Segment} {n a b k lo p : ℕ}
    {spans spans' : List Span} {stream : List UInt8}
    (h : Stored rcv segment n spans a b k spans' (receiveData rcv segment))
    (hbuffer : rcv.rxBuffer.length = rcv.rxBufferSize) (hagrees : segment.Agrees stream rcv.irs n)
    (hlo : lo ≤ n) (hroom : n + rcv.rcvWnd.toNat ≤ lo + rcv.rxBufferSize)
    (hshort : n + rcv.rcvWnd.toNat ≤ 2 ^ 32) (hp : lo ≤ p) (hp' : p < n + rcv.rcvWnd.toNat)
    (hstores : (a ≤ p ∧ p < b) ∨ rcv.Stores stream p) :
    (receiveData rcv segment).Stores stream p := by
  obtain ⟨hge, hlt, hle, hwithin⟩ := h.trimmed
  generalize hd : (seq (rcv.irs + 1) a - segment.seqNum).toNat = d at hwithin
  have hlength : segment.offset + d + (b - a) ≤ segment.buffer.length := by
    have := segment.offset_le
    rw [Segment.length] at hwithin
    omega
  have hcells : (receiveData rcv segment).rxBuffer.cells = Ring.put rcv.rxBufferSize a
      rcv.rxBuffer.cells (segment.buffer.cells.read (segment.offset + d) (b - a)) := by
    rw [h.rxBuffer, hd, tcpWriteRxBuffer_eq (by omega) hbuffer (by omega) hlength,
      ReceiveSide.setCells_cells, dist_seq, Nat.mod_eq_of_lt (by omega)]
  have hcount : (segment.buffer.cells.read (segment.offset + d) (b - a)).length = b - a := by
    rw [Memory.length_read]
  rw [ReceiveSide.Stores, h.rxBufferSize, hcells]
  by_cases hin : a ≤ p ∧ p < b
  · -- the byte of the segment is that of the stream
    obtain ⟨i, rfl⟩ := Nat.exists_eq_add_of_le hin.1
    have hposition : segment.seqNum + UInt32.ofNat (d + i) - rcv.irs - 1
        = seq (rcv.irs + 1) (a + i) - rcv.irs - 1 := by
      rw [← hd, ← seq, ← seq_add, Serial.seq_dist, seq_add]
    have hbyte := hagrees (d + i) (by omega) (by
      rw [hposition, dist_seq, Nat.mod_eq_of_lt (by omega)]
      omega)
    rw [hposition, dist_seq, Nat.mod_eq_of_lt (by omega), segment.getElem?_data (by omega)] at hbyte
    rw [hbyte, Ring.put_apply _ _ _ (by omega) (by omega), Memory.getElem_read, Nat.add_assoc]
  · rw [Ring.put_of_ne]
    · exact hstores.resolve_left hin
    · intro i hi
      exact Ring.mod_ne (by omega) (by omega) (by omega)

/-- What is read from the buffer is the stream. -/
theorem copyReceived_isPrefix {rcv : ReceiveSide} {stream : List UInt8} {p n : ℕ}
    (hsize : 0 < rcv.rxBufferSize) (hbuffer : rcv.rxBuffer.length = rcv.rxBufferSize)
    (hn : n ≤ rcv.rxBufferSize) (hshort : p < 2 ^ 32)
    (hstores : ∀ q, p ≤ q → q < p + n → rcv.Stores stream q) (flags : SocketFlags) :
    copyReceived rcv (seq (rcv.irs + 1) p) n flags <+: stream.drop p := by
  have hread : (tcpReadRxBuffer rcv (seq (rcv.irs + 1) p) (fun _ => 0) 0 n).read 0 n
      = (stream.drop p).take n := by
    rw [tcpReadRxBuffer_eq _ _ hsize hbuffer hn, Memory.read_write_of_length _ _ (by simp),
      dist_seq, Nat.mod_eq_of_lt hshort]
    apply List.ext_getElem?
    intro i
    by_cases hi : i < n
    · rw [List.getElem?_eq_getElem (by simpa using hi), Ring.getElem_get, List.getElem?_take,
        if_pos hi, List.getElem?_drop]
      exact (hstores (p + i) (by omega) (by omega)).symm
    · rw [List.getElem?_eq_none (by simpa using hi), List.getElem?_eq_none (by simp; omega)]
  rw [copyReceived]
  simp only [hread]
  split
  · exact (List.take_prefix _ _).trans (List.take_prefix _ _)
  · exact List.take_prefix _ _

/-! ## The invariant -/

/-- What has been received of `stream`. Bytes that can be read are in the buffer unless it has been
released. -/
structure Content (stream : List UInt8) (s : Socket) : Prop where
  delivered : s.history.delivered <+: stream
  buffer : s.state.buffered = true → s.rcv.rxBuffer.length = s.rcv.rxBufferSize
  receiving : s.state.Receiving → ∃ spans, Reassembly s.rcv s.received spans ∧
    ∀ c ∈ spans, ∀ p, c.Has p → s.rcv.Stores stream p
  ended : s.Ended → RxClosed s.rcv s.received
  unread : s.state.Receiving ∨ s.Ended → 0 < s.rcv.rxBuffer.length →
    s.rcv.rxBuffer.length = s.rcv.rxBufferSize ∧
      ∀ p, s.history.delivered.length ≤ p → p < s.received → s.rcv.Stores stream p

theorem TcpState.Receiving.buffered {state : TcpState} (h : state.Receiving) :
    state.buffered = true := by
  rcases h with rfl | rfl | rfl | rfl <;> rfl

theorem TcpState.Receiving.not_ended {s : Socket} (h : s.state.Receiving) : ¬ s.Ended := by
  rintro (hfin | ⟨hstate | hstate, -⟩)
  · rcases h with hs | hs | hs | hs <;> simp [hs, TcpState.finReceived] at hfin
  · simp [hstate, TcpState.Receiving] at h
  · simp [hstate, TcpState.Receiving] at h

/-- Nothing is received or read. -/
structure KeepsStream (s s' : Socket) : Prop where
  delivered : s'.history.delivered = s.history.delivered
  connections : s'.history.connections = s.history.connections
  finReceived : s'.history.finReceived = s.history.finReceived
  irs : s'.rcv.irs = s.rcv.irs
  rcvNxt : s'.rcv.rcvNxt = s.rcv.rcvNxt
  rcvUser : s'.rcv.rcvUser = s.rcv.rcvUser
  timer : KeepsTimer s s'
  buffered : s'.state.buffered = true → s.state.buffered = true ∧ s'.rcv = s.rcv
  synSent : s'.state = .synSent → s.state = .synSent
  receiving : s'.state.Receiving → s.state.Receiving
  ended : s'.Ended → s.Ended ∧ ∃ rxBuffer, s'.rcv = { s.rcv with rxBuffer := rxBuffer } ∧
    (rxBuffer = s.rcv.rxBuffer ∨ rxBuffer.length = 0)

theorem KeepsStream.received {s s' : Socket} (h : KeepsStream s s') : s'.received = s.received := by
  rw [Socket.received, Socket.received, h.delivered, h.rcvUser]

theorem KeepsStream.mayAck {s s' : Socket} (h : KeepsStream s s') (hmay : s'.MayAck) :
    s.MayAck := by
  rcases hmay with hheard | htimer
  · exact .inl (hheard.imp h.receiving fun hended => (h.ended hended).1)
  · rcases h.timer with hsame | hstate
    · exact .inr (hsame.symm.trans htimer)
    · exact .inl (heard_of_synchronized hstate)

/-- The effects, as far as the incoming stream is concerned. -/
inductive StreamEffect (text arrived : Option Segment) (s s' : Socket) : Prop
  | keeps (h : KeepsStream s s')
  | data (segment : Segment) (htext : text = some segment)
      (hstate : s.state = .established ∨ s.state = .finWait1 ∨ s.state = .finWait2)
      (hacc : acceptable s.rcv segment = true) (hlen : 0 < segment.length)
      (heq : s' = { s with rcv := receiveData s.rcv segment })
  | fin (segment : Segment) (next : TcpState) (harrived : arrived = some segment)
      (hfin : finInOrder s segment = true) (hstate : s.state.Receiving)
      (hnext : next.finReceived = true) (heq : s' = s.passFin next)
  | syn (segment : Segment) (next : TcpState) (htext : text = none)
      (harrived : arrived = some segment) (hsyn : segment.flags.syn = true)
      (hstate : s.state = .synSent) (hnext : next.Receiving) (heq : s' = s.passSyn segment next)
  | read (seqNum : UInt32) (received n : ℕ) (flags : SocketFlags) (hready : s.rxReady = true)
      (hbuffer : 0 < s.rcv.rxBuffer.length) (hseq : firstUnread s received = .ok seqNum)
      (hpos : 0 < n) (hn : n ≤ s.rcv.rcvUser.toNat)
      (heq : s' = s.readData (copyReceived s.rcv seqNum n flags))

/-- The part of the history that tells of the peer is the same. -/
def History.SamePeer (history history' : History) : Prop :=
  history'.delivered = history.delivered ∧ history'.connections = history.connections ∧
    history'.finReceived = history.finReceived

/-- Changes that leave the receive side alone and the state in its class. -/
theorem keepsStream_of {s s' : Socket} (hhistory : s.history.SamePeer s'.history)
    (hrcv : s'.rcv = s.rcv) (htimer : KeepsTimer s s')
    (hbuffered : s'.state.buffered = true → s.state.buffered = true)
    (hsynSent : s'.state = .synSent → s.state = .synSent)
    (hreceiving : s'.state.Receiving → s.state.Receiving) (hended : s'.Ended → s.Ended) :
    KeepsStream s s' :=
  ⟨hhistory.1, hhistory.2.1, hhistory.2.2, by rw [hrcv], by rw [hrcv], by rw [hrcv], htimer,
    fun h => ⟨hbuffered h, hrcv⟩, hsynSent, hreceiving,
    fun h => ⟨hended h, s.rcv.rxBuffer, by rw [hrcv], .inl rfl⟩⟩

/-- Changes that leave the receive side and the state alone. -/
theorem keepsStream_of_same {s s' : Socket} (hhistory : s.history.SamePeer s'.history)
    (hrcv : s'.rcv = s.rcv) (htimer : KeepsTimer s s') (hstate : s'.state = s.state)
    (hclosed : s'.closedFlag = s.closedFlag) (hreset : s'.resetFlag = s.resetFlag) :
    KeepsStream s s' := by
  refine keepsStream_of hhistory hrcv htimer ?_ ?_ ?_ ?_
  · rw [hstate]
    exact id
  · rw [hstate]
    exact id
  · rw [hstate]
    exact id
  · rw [Socket.Ended, Socket.Ended, hstate, hclosed, hreset]
    exact id

theorem samePeer_changeState (s : Socket) (next : TcpState) :
    s.history.SamePeer (tcpChangeState s next).history := by
  rw [tcpChangeState_history]
  exact ⟨rfl, rfl, rfl⟩

/-- A change to a state with a connection. -/
theorem keepsStream_changeState {s t : Socket} {next : TcpState} (hhistory : t.history = s.history)
    (hrcv : t.rcv = s.rcv) (htimer : t.snd.persistTimer = s.snd.persistTimer)
    (hnext : next.buffered = true) (hbuffered : s.state.buffered = true)
    (hsynSent : next ≠ .synSent) (hreceiving : next.Receiving → s.state.Receiving)
    (hfin : next.finReceived = true → s.state.finReceived = true) :
    KeepsStream s (tcpChangeState t next) := by
  have hpeer := samePeer_changeState t next
  rw [hhistory] at hpeer
  refine keepsStream_of hpeer (by simpa using hrcv) (.inl (by simpa using htimer))
    (fun _ => hbuffered) (fun h => absurd h hsynSent) hreceiving ?_
  rintro (h | ⟨h | h, -⟩)
  · exact .inl (hfin h)
  · rw [tcpChangeState_state] at h
    simp [h, TcpState.buffered] at hnext
  · rw [tcpChangeState_state] at h
    simp [h, TcpState.buffered] at hnext

/-- A connection ends. -/
theorem keepsStream_closed (s : Socket) : KeepsStream s (tcpChangeState s .closed) := by
  refine keepsStream_of (samePeer_changeState s .closed) (by simp) (.inl (by simp))
    (by simp [TcpState.buffered]) (by simp) (by simp [TcpState.Receiving]) ?_
  rintro (h | ⟨-, hclosed, hreset⟩)
  · simp [TcpState.finReceived] at h
  · -- the flag that is set tells whether the FIN of the peer had been received
    by_cases hstate : s.state = .lastAck ∨ s.state = .timeWait
    · left
      rcases hstate with hs | hs <;> rw [hs] <;> rfl
    · simp [tcpChangeState, hstate] at hreset

theorem keepsStream_released {s s' : Socket} (hhistory : s.history.SamePeer s'.history)
    (htimer : s'.snd.persistTimer = s.snd.persistTimer) (hbuffered : s'.state.buffered = false)
    (hended : s'.Ended → s.Ended)
    (hrcv : s'.rcv = { s.rcv with rxBuffer := s.rcv.rxBuffer.netBufferRelease }) :
    KeepsStream s s' := by
  have hnot : s'.state.buffered ≠ true := by
    rw [hbuffered]
    exact Bool.false_ne_true
  exact ⟨hhistory.1, hhistory.2.1, hhistory.2.2, by rw [hrcv], by rw [hrcv], by rw [hrcv],
    .inl htimer, fun h => absurd h hnot, fun h => absurd (by rw [h]; rfl) hnot,
    fun h => absurd h.buffered hnot, fun h => ⟨hended h, _, hrcv, .inr rfl⟩⟩

/-- **What an effect does to the incoming stream.** -/
theorem Effect.stream {text arrived : Option Segment} {shuts : Prop} {s s' : Socket}
    (h : Effect text arrived shuts s s') : StreamEffect text arrived s s' := by
  cases h with
  | orderly h =>
      have hsame := h.keeps.same
      refine .keeps (keepsStream_of_same ?_ hsame.rcv h.timer hsame.state hsame.closedFlag
        hsame.resetFlag)
      rw [hsame.history]
      exact ⟨rfl, rfl, rfl⟩
  | ack | finAcked | addFin | addSyn | disown =>
      exact .keeps (keepsStream_of_same ⟨rfl, rfl, rfl⟩ rfl (.inl rfl) rfl rfl rfl)
  | sendData item sent =>
      cases sent <;>
        exact .keeps (keepsStream_of_same ⟨rfl, rfl, rfl⟩ rfl (.inl rfl) rfl rfl rfl)
  | write data n _ hstate hpos =>
      have htimer := (copyUserData_level s data n).persistTimer
      rw [copyUserData, if_pos hpos] at htimer ⊢
      exact .keeps (keepsStream_of_same ⟨rfl, rfl, rfl⟩ rfl (.inl htimer) rfl rfl rfl)
  | data segment htext hstate hacc hlen => exact .data segment htext hstate hacc hlen rfl
  | fin segment next harrived hfin hnext =>
      refine .fin segment next harrived hfin ?_ ?_ rfl
      · rcases hnext with ⟨hs, -⟩ | ⟨hs, -⟩ | ⟨hs, -⟩ <;> simp [hs, TcpState.Receiving]
      · rcases hnext with ⟨-, rfl⟩ | ⟨-, rfl⟩ | ⟨-, rfl⟩ <;> rfl
  | finWait2 hstate | established hstate =>
      exact .keeps (keepsStream_changeState rfl rfl rfl rfl (by rw [hstate]; rfl) (by simp)
        (by simp [hstate, TcpState.Receiving]) (by simp [TcpState.finReceived]))
  | timeWait hstate =>
      refine .keeps (keepsStream_released (samePeer_changeState (tcpDeleteControlBlock s) _) ?_ rfl
        (fun _ => .inl (by rw [hstate]; rfl)) ?_)
      · rw [tcpChangeState_snd]
        rfl
      · rw [tcpChangeState_rcv]
        rfl
  | synSent segment next htext harrived hsyn _ hstate hack hnext =>
      refine .syn segment next htext harrived hsyn hstate ?_ rfl
      rcases hnext with ⟨rfl, -⟩ | ⟨rfl, -⟩ <;> simp [TcpState.Receiving]
  | finish | reset => exact .keeps (keepsStream_closed s)
  | dispose hstate =>
      refine .keeps (keepsStream_released ⟨rfl, rfl, rfl⟩ rfl ?_ id rfl)
      exact congrArg TcpState.buffered hstate
  | leave next hallowed =>
      rcases hallowed with ⟨rfl, hs | hs⟩ | ⟨rfl, hs⟩ <;>
        exact .keeps (keepsStream_changeState rfl rfl rfl rfl (by simp [hs, TcpState.buffered])
          (by simp) (by simp [hs, TcpState.Receiving]) (by simp [hs, TcpState.finReceived]))
  | read seqNum received n flags hready hbuffer hseq hpos hn =>
      exact .read seqNum received n flags hready hbuffer hseq hpos hn rfl
  | resize txBufferSize rxBufferSize hstate htype hflag =>
      refine .keeps ⟨rfl, rfl, rfl, rfl, rfl, rfl, .inl rfl, fun h => ?_, id, fun h => ?_,
        fun h => ?_⟩
      · exact absurd (congrArg TcpState.buffered hstate) (by rw [h]; simp [TcpState.buffered])
      · exact absurd h.buffered (by rw [hstate]; simp [TcpState.buffered])
      · refine ⟨h, s.rcv.rxBuffer, ?_, .inl rfl⟩
        rcases hflag with hsize | hflag
        · rw [hsize]
        · exfalso
          rcases h with h | ⟨-, h, -⟩
          · rw [hstate] at h
            simp [TcpState.finReceived] at h
          · rw [hflag] at h
            exact Bool.noConfusion h

/-! ## The effects keep the invariant -/

namespace Content

variable {stream : List UInt8} {s s' : Socket}

theorem mono {stream' : List UInt8} (h : Content stream s) (hpre : stream <+: stream') :
    Content stream' s := by
  have hstores : ∀ {rcv : ReceiveSide} {p : ℕ}, rcv.Stores stream p → rcv.Stores stream' p := by
    intro rcv p hp
    obtain ⟨rest, rfl⟩ := hpre
    rw [ReceiveSide.Stores, List.getElem?_append_left (List.getElem?_eq_some_iff.1 hp).1]
    exact hp
  refine ⟨h.delivered.trans hpre, h.buffer, fun hs => ?_, h.ended, fun hs hpos => ?_⟩
  · obtain ⟨spans, hre, hspans⟩ := h.receiving hs
    exact ⟨spans, hre, fun c hc p hp => hstores (hspans c hc p hp)⟩
  · obtain ⟨hbuffer, hunread⟩ := h.unread hs hpos
    exact ⟨hbuffer, fun p hp hp' => hstores (hunread p hp hp')⟩

theorem keeps (h : Content stream s) (hk : KeepsStream s s') : Content stream s' := by
  have hreceived := hk.received
  refine ⟨by rw [hk.delivered]; exact h.delivered, fun hs => ?_, fun hs => ?_, fun hs => ?_, ?_⟩
  · obtain ⟨hbuffered, hrcv⟩ := hk.buffered hs
    rw [hrcv]
    exact h.buffer hbuffered
  · have hrcv := (hk.buffered hs.buffered).2
    rw [hreceived, hrcv]
    exact h.receiving (hk.receiving hs)
  · obtain ⟨hended, rxBuffer, hrcv, -⟩ := hk.ended hs
    obtain ⟨hnxt, hroom, hsize⟩ := h.ended hended
    rw [hreceived, hrcv]
    exact ⟨hnxt, hroom, hsize⟩
  · rintro (hs | hs) hpos
    · have hrcv := (hk.buffered hs.buffered).2
      rw [hreceived, hk.delivered, hrcv]
      rw [hrcv] at hpos
      exact h.unread (.inl (hk.receiving hs)) hpos
    · obtain ⟨hended, rxBuffer, hrcv, rfl | hzero⟩ := hk.ended hs
      · rw [hreceived, hk.delivered, hrcv]
        rw [hrcv] at hpos
        exact h.unread (.inr hended) hpos
      · rw [hrcv] at hpos
        exact absurd hzero hpos.ne'

theorem data (h : Content stream s) (hshort : s.history.delivered.length + 2 ^ 16 ≤ 2 ^ 32)
    {segment : Segment}
    (hstate : s.state = .established ∨ s.state = .finWait1 ∨ s.state = .finWait2)
    (hacc : acceptable s.rcv segment = true) (hlen : 0 < segment.length)
    (hagrees : segment.Agrees stream s.rcv.irs s.received) :
    Content stream { s with rcv := receiveData s.rcv segment } := by
  have hreceiving : s.state.Receiving := .inr hstate
  have hbuffer := h.buffer hreceiving.buffered
  obtain ⟨spans, hre, hspans⟩ := h.receiving hreceiving
  obtain ⟨a, b, k, spans', hre', hstored⟩ := receiveData_spec hre hacc hlen
  have hroom := hre.room
  have hsize := hre.size
  rw [TCP_MAX_RX_BUFFER_SIZE] at hsize
  have hwnd := hstored.rcvWnd
  have huser := hstored.rcvUser
  have hn : s.received = s.history.delivered.length + s.rcv.rcvUser.toNat := rfl
  have hpos : 0 < s.rcv.rxBuffer.length := by
    have := hstored.trimmed.lt
    have := hstored.trimmed.left_ge
    have := hstored.trimmed.right_le
    omega
  obtain ⟨-, hunread⟩ := h.unread (.inl hreceiving) hpos
  -- what is unread or received out of order is inside one turn of the buffer
  have hstores : ∀ p, s.history.delivered.length ≤ p → p < s.received + s.rcv.rcvWnd.toNat →
      (a ≤ p ∧ p < b) ∨ s.rcv.Stores stream p → (receiveData s.rcv segment).Stores stream p :=
    fun p hp hp' => hstored.stores hbuffer hagrees (by omega) (by omega) (by omega) hp hp'
  have hhas : ∀ p, s.received ≤ p → p < s.received + s.rcv.rcvWnd.toNat →
      (p < s.received + k ∨ ∃ c ∈ spans', c.Has p) →
        (receiveData s.rcv segment).Stores stream p := by
    intro p hp hp' hcases
    refine hstores p (by omega) hp' ?_
    rcases hstored.has p (hcases.imp_left fun hk => ⟨hp, hk⟩) with hin | ⟨c, hc, hin⟩
    · exact .inl hin
    · exact .inr (hspans c hc p hin)
  generalize receiveData s.rcv segment = rcv' at *
  have hreceived : Socket.received { s with rcv := rcv' } = s.received + k := by
    simp only [Socket.received, huser]
    omega
  have hbuffer' : rcv'.rxBuffer.length = rcv'.rxBufferSize := by
    rw [hstored.rxBuffer, hstored.rxBufferSize, ← hbuffer]
    exact tcpWriteRxBuffer_length _ _ _ _ _
  refine ⟨h.delivered, fun _ => hbuffer', fun _ => ⟨spans', ?_, fun c hc p hp => ?_⟩, fun hs => ?_,
    fun _ _ => ⟨hbuffer', fun p hp hp' => ?_⟩⟩
  · rw [hreceived]
    exact hre'
  · have hin := (hre'.inside c hc).2
    rw [Span.Inside] at hin
    rw [Span.Has] at hp
    exact hhas p (by omega) (by omega) (.inr ⟨c, hc, hp⟩)
  · exact absurd hs (TcpState.Receiving.not_ended (s := { s with rcv := rcv' }) hreceiving)
  · rw [hreceived] at hp'
    by_cases hold : p < s.received
    · exact hstores p hp (by omega) (.inr (hunread p hp hold))
    · exact hhas p (by omega) (by omega) (.inl hp')

theorem fin (h : Content stream s) {next : TcpState} (hstate : s.state.Receiving)
    (hnext : next.finReceived = true) : Content stream (s.passFin next) := by
  obtain ⟨spans, hre, -⟩ := h.receiving hstate
  have hclosed := hre.rxClosed
  have hnot : ¬ next.Receiving := by
    rintro (rfl | rfl | rfl | rfl) <;> simp [TcpState.finReceived] at hnext
  obtain ⟨rxBuffer, hrcv, hbuffer⟩ : ∃ rxBuffer, (s.passFin next).rcv
      = { s.rcv with rcvNxt := s.rcv.rcvNxt + 1, rxBuffer := rxBuffer } ∧
        ((rxBuffer = s.rcv.rxBuffer ∧ next ≠ .timeWait) ∨
          (rxBuffer.length = 0 ∧ next = .timeWait)) := by
    rw [Socket.passFin]
    split
    case isTrue htimeWait =>
      rw [tcpChangeState_rcv]
      exact ⟨_, rfl, .inr ⟨rfl, htimeWait⟩⟩
    case isFalse htimeWait =>
      rw [tcpChangeState_rcv]
      exact ⟨_, rfl, .inl ⟨rfl, htimeWait⟩⟩
  have hreceived : (s.passFin next).received = s.received := by
    rw [Socket.received, Socket.received, hrcv, passFin_history]
  refine ⟨by rw [passFin_history]; exact h.delivered, fun hs => ?_, fun hs => ?_, fun _ => ?_,
    fun _ hpos => ?_⟩
  · rw [passFin_state] at hs
    rw [hrcv]
    rcases hbuffer with ⟨rfl, -⟩ | ⟨-, rfl⟩
    · exact h.buffer hstate.buffered
    · exact Bool.noConfusion hs
  · rw [passFin_state] at hs
    exact absurd hs hnot
  · rw [hreceived, hrcv]
    exact ⟨hclosed.rcvNxt, hclosed.room, hclosed.size⟩
  · rw [hreceived, passFin_history, hrcv]
    rw [hrcv] at hpos
    rcases hbuffer with ⟨rfl, -⟩ | ⟨hzero, -⟩
    · exact h.unread (.inl hstate) hpos
    · exact absurd hzero hpos.ne'

theorem syn (h : Content stream s) (hfresh : RxFresh s.rcv) (hdelivered : s.history.delivered = [])
    {segment : Segment} {next : TcpState} (hstate : s.state = .synSent) (hnext : next.Receiving) :
    Content stream (s.passSyn segment next) := by
  have hrcv : (s.passSyn segment next).rcv
      = { s.rcv with irs := segment.seqNum, rcvNxt := segment.seqNum + 1 } := by
    rw [Socket.passSyn, tcpChangeState_rcv]
  have hhistory : (s.passSyn segment next).history.delivered = [] := by
    rw [Socket.passSyn, tcpChangeState_history]
    exact hdelivered
  have hreceived : (s.passSyn segment next).received = 0 := by
    rw [Socket.received, hhistory, hrcv, hfresh.rcvUser]
    rfl
  have hbuffer : (s.passSyn segment next).rcv.rxBuffer.length
      = (s.passSyn segment next).rcv.rxBufferSize := by
    rw [hrcv]
    exact h.buffer (by rw [hstate]; rfl)
  refine ⟨by rw [hhistory]; exact List.nil_prefix, fun _ => hbuffer, fun _ => ⟨[], ?_, by simp⟩,
    fun hs => ?_, fun _ _ => ⟨hbuffer, fun p _ hp => ?_⟩⟩
  · rw [hreceived, hrcv]
    exact reassembly_zero ⟨hfresh.rcvUser, hfresh.rcvWnd, hfresh.size, hfresh.sackBlock⟩ rfl
  · exact absurd hs (TcpState.Receiving.not_ended (by rw [Socket.passSyn]; exact hnext))
  · rw [hreceived] at hp
    omega

/-- A call that reads begins at the first byte that has not been read. -/
theorem firstUnread_eq (h : Content stream s) {received : ℕ} {seqNum : UInt32}
    (hready : s.rxReady = true) (hseq : firstUnread s received = .ok seqNum) :
    s.Heard ∧ seqNum = seq (s.rcv.irs + 1) s.history.delivered.length := by
  have hback : ∀ q : UInt32, q = seq (s.rcv.irs + 1) s.received →
      q - s.rcv.rcvUser.toUInt32 = seq (s.rcv.irs + 1) s.history.delivered.length := by
    rintro q rfl
    have hword : s.rcv.rcvUser.toUInt32 = UInt32.ofNat s.rcv.rcvUser.toNat := by
      apply UInt32.toNat_inj.1
      have := s.rcv.rcvUser.toNat_lt
      rw [UInt16.toNat_toUInt32, UInt32.toNat_ofNat']
      omega
    rw [hword, seq_sub _ (by rw [Socket.received]; omega), Socket.received, Nat.add_sub_cancel]
  have hclosed : ∀ hended : s.Ended, s.rcv.rcvNxt - 1 = seq (s.rcv.irs + 1) s.received := by
    intro hended
    rw [(h.ended hended).rcvNxt, show (1 : UInt32) = UInt32.ofNat 1 from rfl,
      seq_sub _ (by omega), Nat.add_sub_cancel]
  rcases firstUnread_cases hready hseq with ⟨hs, rfl⟩ | ⟨hs, rfl⟩
  · obtain ⟨spans, hre, -⟩ := h.receiving hs
    exact ⟨.inl hs, hback _ hre.rcvNxt⟩
  · exact ⟨.inr hs, hback _ (hclosed hs)⟩

theorem read (h : Content stream s) (hshort : s.history.delivered.length + 2 ^ 16 ≤ 2 ^ 32)
    {seqNum : UInt32} {received n : ℕ} {flags : SocketFlags} (hready : s.rxReady = true)
    (hbuffer : 0 < s.rcv.rxBuffer.length) (hseq : firstUnread s received = .ok seqNum)
    (hn : n ≤ s.rcv.rcvUser.toNat) :
    Content stream (s.readData (copyReceived s.rcv seqNum n flags)) := by
  obtain ⟨hstate, rfl⟩ := h.firstUnread_eq hready hseq
  obtain ⟨hlength, hunread⟩ := h.unread hstate hbuffer
  have hroom : s.rcv.rcvUser.toNat + s.rcv.rcvWnd.toNat ≤ s.rcv.rxBufferSize ∧
      s.rcv.rxBufferSize ≤ TCP_MAX_RX_BUFFER_SIZE := by
    rcases hstate with hs | hs
    · obtain ⟨spans, hre, -⟩ := h.receiving hs
      exact ⟨hre.room, hre.size⟩
    · exact ⟨(h.ended hs).room, (h.ended hs).size⟩
  have hpre : copyReceived s.rcv (seq (s.rcv.irs + 1) s.history.delivered.length) n flags
      <+: stream.drop s.history.delivered.length :=
    copyReceived_isPrefix (by omega) hlength (by omega) (by omega)
      (fun q hq hq' => hunread q hq (by rw [Socket.received]; omega)) flags
  have hdata : (copyReceived s.rcv (seq (s.rcv.irs + 1) s.history.delivered.length) n flags).length
      ≤ s.rcv.rcvUser.toNat := le_trans (copyReceived_length _ _ _ _) hn
  generalize copyReceived s.rcv (seq (s.rcv.irs + 1) s.history.delivered.length) n flags = data
    at hpre hdata ⊢
  obtain ⟨user, wnd, hby⟩ := readData_spec hdata hroom.1 hroom.2
  have hreceived := hby.received
  have hrcv := hby.rcv
  generalize hs' : s.readData data = s' at hreceived hrcv
  have hdelivered : s'.history.delivered = s.history.delivered ++ data := by rw [← hs']; rfl
  have hstate' : s'.state = s.state := by rw [← hs']; rfl
  have hended : s'.Ended → s.Ended := by
    rw [← hs']
    exact id
  refine ⟨?_, fun hs => ?_, fun hs => ?_, fun hs => ?_, fun hs hpos => ?_⟩
  · obtain ⟨rest, hrest⟩ := h.delivered
    rw [← hrest, List.drop_left] at hpre
    rw [hdelivered, ← hrest]
    exact (List.prefix_append_right_inj _).2 hpre
  · rw [hrcv]
    exact h.buffer (hstate' ▸ hs)
  · obtain ⟨spans, hre, hspans⟩ := h.receiving (hstate' ▸ hs)
    rw [hreceived, hrcv]
    exact ⟨spans, hre.read hby.wnd_ge hby.room, hspans⟩
  · rw [hreceived, hrcv]
    exact ⟨(h.ended (hended hs)).rcvNxt, hby.room, hroom.2⟩
  · rw [hreceived, hrcv, hdelivered, List.length_append]
    exact ⟨hlength, fun p hp hp' => hunread p (by omega) hp'⟩

end Content

/-- A segment that can extend the stream is right about what has not been received yet. -/
def Arrives (text : Option Segment) (stream : List UInt8) (s : Socket) : Prop :=
  ∀ segment ∈ text, s.state.Receiving → segment.Agrees stream s.rcv.irs s.received

instance (state : TcpState) : Decidable state.Receiving := inferInstanceAs (Decidable (_ ∨ _))

instance (text : Option Segment) (stream : List UInt8) (s : Socket) :
    Decidable (Arrives text stream s) :=
  inferInstanceAs (Decidable (∀ segment ∈ text, _ → _))

/-- What the steps preserve, as long as the positions in the stream do not wrap. -/
structure StreamAccount (streams : ℕ → List UInt8) (s : Socket) : Prop
    extends ReceiveAccount s where
  content : s.history.delivered.length + 2 ^ 16 ≤ 2 ^ 32 →
    Content (streams s.history.connections) s

section Effects

variable {text arrived : Option Segment} {s s' : Socket}

theorem StreamEffect.delivered (h : StreamEffect text arrived s s') :
    s.history.delivered.length ≤ s'.history.delivered.length ∧
      s'.history.connections = s.history.connections := by
  cases h with
  | keeps h => exact ⟨(congrArg List.length h.delivered).ge, h.connections⟩
  | data segment _ _ _ _ heq => rw [heq]; exact ⟨le_rfl, rfl⟩
  | fin segment next _ _ _ _ heq => rw [heq, passFin_history]; exact ⟨le_rfl, rfl⟩
  | syn segment next _ _ _ _ _ heq =>
      rw [heq, Socket.passSyn, tcpChangeState_history]
      exact ⟨le_rfl, rfl⟩
  | read seqNum received n flags _ _ _ _ _ heq =>
      rw [heq, Socket.readData]
      simp

/-- What has been received grows. -/
theorem Arrives.effect {stream : List UInt8} (h : Arrives text stream s) (hinv : ReceiveAccount s)
    (heffect : StreamEffect text arrived s s') : Arrives text stream s' := by
  intro segment hsegment hs'
  cases heffect with
  | keeps hk =>
      rw [hk.received, hk.irs]
      exact h segment hsegment (hk.receiving hs')
  | data other htext hstate hacc hlen heq =>
      obtain ⟨spans, hre⟩ := hinv.receive (.inr hstate)
      obtain ⟨a, b, k, spans', -, hstored⟩ := receiveData_spec hre hacc hlen
      have huser := hstored.rcvUser
      rw [heq, Socket.received]
      simp only [hstored.irs, huser]
      exact (h segment hsegment (.inr hstate)).mono (by rw [Socket.received]; omega)
  | fin segment next _ _ _ hnext heq =>
      rw [heq, passFin_state] at hs'
      rcases hs' with rfl | rfl | rfl | rfl <;> simp [TcpState.finReceived] at hnext
  | syn other next htext =>
      rw [hsegment] at htext
      exact absurd htext (by simp)
  | read seqNum received n flags hready _ hseq hpos hn heq =>
      have hstate : s.state.Receiving := by
        rw [heq] at hs'
        exact hs'
      obtain ⟨spans, hre⟩ := hinv.receive hstate
      obtain ⟨user, wnd, hby⟩ := readData_spec
        (le_trans (copyReceived_length s.rcv seqNum n flags) hn) hre.room hre.size
      rw [heq, hby.received, hby.rcv]
      exact h segment hsegment hstate

theorem Content.effect {stream : List UInt8} (h : Content stream s) (hinv : ReceiveAccount s)
    (hshort : s.history.delivered.length + 2 ^ 16 ≤ 2 ^ 32) (harrives : Arrives text stream s)
    (heffect : StreamEffect text arrived s s') : Content stream s' := by
  cases heffect with
  | keeps hk => exact h.keeps hk
  | data segment htext hstate hacc hlen heq =>
      rw [heq]
      exact h.data hshort hstate hacc hlen (harrives segment htext (.inr hstate))
  | fin segment next _ _ hstate hnext heq =>
      rw [heq]
      exact h.fin hstate hnext
  | syn segment next _ _ _ hstate hnext heq =>
      obtain ⟨hfresh, hdelivered⟩ := hinv.synSent hstate
      rw [heq]
      exact h.syn hfresh hdelivered hstate hnext
  | read seqNum received n flags hready hbuffer hseq _ hn heq =>
      rw [heq]
      exact h.read hshort hready hbuffer hseq hn

/-- **A step that does not begin a connection keeps what has been received.** -/
theorem StreamAccount.effects {streams : ℕ → List UInt8} (h : StreamAccount streams s)
    (harrives : Arrives text (streams s.history.connections) s)
    {shuts : Prop} (heffects : Effects text arrived shuts s s') : StreamAccount streams s' := by
  have hall : StreamAccount streams s' ∧ Arrives text (streams s'.history.connections) s' := by
    induction heffects with
    | refl => exact ⟨h, harrives⟩
    | tail _ heffect ih =>
        obtain ⟨hinv, harr⟩ := ih
        obtain ⟨hle, hconnections⟩ := heffect.stream.delivered
        rw [hconnections]
        have hact := heffect.act (K := { blocks := true })
        refine ⟨⟨hinv.toReceiveAccount.act rfl hact, fun hshort => ?_⟩,
          harr.effect hinv.toReceiveAccount heffect.stream⟩
        rw [hconnections]
        exact (hinv.content (by omega)).effect hinv.toReceiveAccount (by omega) harr heffect.stream
  exact hall.1

end Effects

/-! ## New connections -/

/-- Nothing has been received on the connection. -/
structure Begun (s : Socket) : Prop where
  delivered : s.history.delivered = []
  ended : ¬ s.Ended
  fresh : s.state.buffered = true → s.rcv.rxBuffer.length = s.rcv.rxBufferSize ∧
    s.rcv.rcvUser = 0 ∧ s.rcv.sackBlock = []

theorem Begun.content {s : Socket} (h : Begun s) (hinv : ReceiveAccount s) (stream : List UInt8) :
    Content stream s := by
  refine ⟨by rw [h.delivered]; exact List.nil_prefix, fun hs => (h.fresh hs).1, fun hs => ?_,
    fun hs => absurd hs h.ended, fun hs _ => ?_⟩
  · obtain ⟨spans, hre⟩ := hinv.receive hs
    obtain ⟨-, -, hblocks⟩ := h.fresh hs.buffered
    rw [hre.sackBlock, List.map_eq_nil_iff] at hblocks
    subst hblocks
    exact ⟨[], hre, by simp⟩
  · obtain ⟨hbuffer, huser, -⟩ := h.fresh (hs.resolve_right h.ended).buffered
    refine ⟨hbuffer, fun p hp hp' => ?_⟩
    rw [Socket.received, huser] at hp'
    simp only [UInt16.toNat_zero] at hp'
    omega

/-- A socket without a connection that the peer has not finished. -/
theorem begun_closed {s : Socket} (hstate : s.state = .closed)
    (hdelivered : s.history.delivered = [])
    (hflags : s.closedFlag = false ∨ s.resetFlag = true) : Begun s := by
  refine ⟨hdelivered, ?_, fun hs => ?_⟩
  · rintro (hfin | ⟨-, hclosed, hreset⟩)
    · simp [hstate, TcpState.finReceived] at hfin
    · rcases hflags with hflag | hflag
      · exact Bool.noConfusion (hflag.symm.trans hclosed)
      · exact Bool.noConfusion (hreset.symm.trans hflag)
  · rw [hstate] at hs
    exact Bool.noConfusion hs

section Begins

variable {K : Remains} {s : Socket}

/-- The SYN has been sent. -/
theorem Prepared.begun {s' : Socket} (h : Prepared K s) (hblocks : K.blocks = true)
    (hsame : Socket.Same s s') {next : TcpState} (hnext : next = .synSent ∨ next = .synReceived) :
    Begun (tcpChangeState s' next) := by
  refine ⟨?_, ?_, fun _ => ?_⟩
  · rw [tcpChangeState_history, hsame.history]
    exact h.delivered
  · rcases hnext with rfl | rfl <;> simp [Socket.Ended, TcpState.finReceived]
  · rw [tcpChangeState_rcv, hsame.rcv]
    exact ⟨h.rxBuffer, h.rcvUser, h.unused.2.1 hblocks⟩

theorem sendSyn_begun (h : Prepared K s) (hblocks : K.blocks = true) (hflags : K.flags = true) :
    Begun (sendSyn s).2 := by
  have hsent : Socket.Same s (tcpSendSegment s { syn := true } s.snd.iss 0 0 true).2 := by
    rcases tcpSendSegment_queued_quiet s { syn := true } s.snd.iss 0 0 rfl with hq | ⟨-, hq⟩
    · exact (addItem_same s _).trans hq.same
    · exact hq.same
  rw [sendSyn]
  simp only
  split
  · refine begun_closed (hsent.state.trans h.state) ?_ (.inl ?_)
    · rw [hsent.history]
      exact h.delivered
    · rw [hsent.closedFlag]
      exact (h.unused.2.2.2.2 hflags).1
  · exact h.begun hblocks hsent (.inl rfl)

theorem tcpAbort_begun (hstate : s.state = .closed) (hdelivered : s.history.delivered = []) :
    Begun (tcpAbort s).2 := by
  rw [tcpAbort, hstate]
  simp only
  refine begun_closed rfl ?_ (.inr ?_)
  · rw [disposeSocket, tcpDeleteControlBlock, tcpChangeState_history]
    exact hdelivered
  · simp [disposeSocket, tcpDeleteControlBlock, tcpChangeState, hstate]

theorem sendSynAck_begun (h : Prepared K s) (hblocks : K.blocks = true) :
    Begun (sendSynAck s).2 := by
  have hsent : Socket.Same s
      (tcpSendSegment s { syn := true, ack := true } s.snd.iss s.rcv.rcvNxt 0 true).2 := by
    rcases tcpSendSegment_queued_quiet s { syn := true, ack := true } s.snd.iss s.rcv.rcvNxt 0 rfl
      with hq | ⟨-, hq⟩
    · exact (addItem_same s _).trans hq.same
    · exact hq.same
  rw [sendSynAck]
  simp only
  split
  · refine tcpAbort_begun (hsent.state.trans h.state) ?_
    rw [hsent.history]
    exact h.delivered
  · exact h.begun hblocks hsent (.inr rfl)

theorem openConnection_begun (hstate : s.state = .closed) (htype : s.type ≠ .unused)
    (hunused : s.Unused K) (hblocks : K.blocks = true) (hflags : K.flags = true)
    (remoteIpAddr : IpAddr) (remotePort : UInt16) (env : ConnectEnv) :
    Begun (openConnection s remoteIpAddr remotePort env).2 := by
  have hflag := (hunused.2.2.2.2 hflags).1
  rw [openConnection]
  split
  · exact begun_closed hstate rfl (.inl hflag)
  case h_2 interface addr _ =>
    simp only
    split
    · exact begun_closed hstate rfl (.inl hflag)
    · split
      · exact begun_closed hstate rfl (.inl hflag)
      · refine sendSyn_begun ?_ hblocks hflags
        exact activeBlock_prepared (s := { s with
          remoteIpAddr := remoteIpAddr, remotePort := remotePort, history := s.history.restart
          interface := some interface, localIpAddr := addr, ownedFlag := true })
          hstate htype hunused s.history rfl env.iss

theorem acceptConnection_begun (listener : Socket) (port : UInt16) (queueItem : TcpSynQueueItem)
    (memory : Bool) (iss : UInt32) :
    Begun (acceptConnection listener (socketOpen s .stream port) queueItem memory iss).2 := by
  have hunused := socketOpen_unused (K := { blocks := true }) s .stream port
  rw [acceptConnection]
  split
  · exact tcpAbort_begun rfl rfl
  · have hprepared := passiveBlock_prepared
      (s := inheritSettings listener (socketOpen s .stream port)) listener rfl
      (by simp [inheritSettings, socketOpen]) hunused s.history rfl queueItem iss
    exact sendSynAck_begun hprepared rfl

end Begins

/-- No call sends a FIN that the state does not allow, a socket is connected only if neither blocks
received out of order nor the flags of an earlier connection are left on it, and no call reads from
a buffer that has been released. -/
def StreamClean (slot : Slot) (event : Event) : Prop :=
  FinInState slot event ∧ UnusedSocket { blocks := true, flags := true } slot event ∧
    ReadsBuffer slot event

theorem UnusedSocket.flags {K : Remains} {slot : Slot} {event : Event}
    (h : UnusedSocket K slot event) (hflags : K.flags = true) :
    UnusedSocket { flags := true } slot event := by
  cases event with
  | connect remoteIpAddr remotePort env =>
      intro hs
      exact ⟨by simp, by simp, by simp, by simp, fun _ => (h hs).2.2.2.2 hflags⟩
  | listen backlog =>
      intro hs
      exact ⟨by simp, by simp, by simp, by simp, by simp⟩
  | setRxBufferSize size =>
      intro hs _
      exact h hs hflags
  | _ => trivial

/-- A step that begins a connection begins its stream. -/
theorem step_begins_stream {slot : Slot} {event : Event} (hbegins : event.Begins slot.socket)
    (hclean : StreamClean slot event) :
    Begun (step slot event).socket ∨ KeepsStream slot.socket (step slot event).socket := by
  cases event with
  | «open» type port =>
      have hunused : slot.socket.type = .unused := hbegins
      rw [step, if_pos hunused]
      exact .inl (begun_closed rfl rfl (.inl rfl))
  | accept listener sized port queueItem memory iss =>
      have hunused : slot.socket.type = .unused := hbegins
      rw [step, if_pos hunused]
      exact .inl (acceptConnection_begun listener port queueItem memory iss)
  | connect remoteIpAddr remotePort env =>
      have hstate : slot.socket.state = .closed := hbegins
      rw [step]
      split
      case isFalse =>
        exact .inr (keepsStream_of_same ⟨rfl, rfl, rfl⟩ rfl (.inl rfl) rfl rfl rfl)
      case isTrue htype =>
        have hopen := openConnection_begun hstate (by simp [htype]) (hclean.2.1 hstate) rfl rfl
          remoteIpAddr remotePort env
        left
        rw [endSection_socket, tcpConnect, if_pos hstate]
        simp only
        split <;> exact hopen
  | listen backlog =>
      have hstate : slot.socket.state = .closed := hbegins
      right
      rw [step]
      split
      case isFalse => exact keepsStream_of_same ⟨rfl, rfl, rfl⟩ rfl (.inl rfl) rfl rfl rfl
      case isTrue =>
        rw [tcpListen, if_neg (by simpa using hstate)]
        refine keepsStream_of ⟨rfl, rfl, rfl⟩ rfl (.inl rfl) (fun h => Bool.noConfusion h)
          (by simp) (by simp [TcpState.Receiving]) ?_
        rintro (h | ⟨-, hflags⟩)
        · simp [TcpState.finReceived] at h
        · exact .inr ⟨.inl hstate, hflags⟩
  | _ => exact hbegins.elim

/-! ## Runs -/

/-- A segment that arrives brings the stream, as far as it has not been received. -/
def CarriesStream (streams : ℕ → List UInt8) (slot : Slot) (event : Event) : Prop :=
  Arrives (arriving event) (streams slot.socket.history.connections) slot.socket

instance (streams : ℕ → List UInt8) (slot : Slot) (event : Event) :
    Decidable (CarriesStream streams slot event) := inferInstanceAs (Decidable (Arrives _ _ _))

theorem StreamAccount.step {streams : ℕ → List UInt8} {slot : Slot} {event : Event}
    (h : StreamAccount streams slot.socket) (hclean : StreamClean slot event)
    (hcarries : CarriesStream streams slot event) :
    StreamAccount streams (step slot event).socket := by
  by_cases hbegins : event.Begins slot.socket
  · have hacts : Acts (fun _ _ => True) { blocks := true, flags := true } True slot.socket
        (Tcp.step slot event).socket :=
      step_acts slot event hclean.1 hclean.2.1 ⟨fun _ => trivial, fun _ => trivial⟩
        (fun _ => ⟨trivial, trivial⟩) fun _ => trivial
    have hreceive : ReceiveAccount (Tcp.step slot event).socket :=
      hacts.preserve (fun h hact => h.act rfl hact) h.toReceiveAccount
    refine ⟨hreceive, fun hshort => ?_⟩
    rcases step_begins_stream hbegins hclean with hbegun | hkeeps
    · exact hbegun.content hreceive _
    · rw [hkeeps.delivered] at hshort
      rw [hkeeps.connections]
      exact (h.content hshort).keeps hkeeps
  · refine h.effects (fun segment hsegment hs => ?_)
      (step_effects slot event hclean.1 (hclean.2.1.flags rfl) hclean.2.2 hbegins)
    rw [arrivingText] at hsegment
    split at hsegment
    · exact absurd hsegment (by simp)
    · exact hcarries segment hsegment hs

theorem streamAccount_init (streams : ℕ → List UInt8) (outcomes : ℕ → SendOutcome) :
    StreamAccount streams (Slot.init outcomes).socket :=
  ⟨receiveAccount_init outcomes, fun _ =>
    (begun_closed rfl rfl (.inl rfl)).content (receiveAccount_init outcomes) _⟩

/-- **The receive side is reliable**: if the segments that arrive are right about what has not been
received yet, then the calls of `tcpReceive` return the stream of the peer from its beginning on. -/
theorem delivered_isPrefix (streams : ℕ → List UInt8) (outcomes : ℕ → SendOutcome)
    (events : List Event)
    (h : Along (fun slot event => StreamClean slot event ∧ CarriesStream streams slot event) step
      (Slot.init outcomes) events)
    (hshort : (run step (Slot.init outcomes) events).socket.history.delivered.length + 2 ^ 16
      ≤ 2 ^ 32) :
    (run step (Slot.init outcomes) events).socket.history.delivered
      <+: streams (run step (Slot.init outcomes) events).socket.history.connections := by
  have hinv : StreamAccount streams (run step (Slot.init outcomes) events).socket :=
    run_invariant (I := fun slot => StreamAccount streams slot.socket)
      (fun slot event hinv hevent => hinv.step hevent.1 hevent.2)
      (streamAccount_init streams outcomes) h
  exact (hinv.content hshort).delivered

theorem twoBytes_lt (a b : UInt8) : [a, b].length < 2 ^ 16 := by simp

/-- The peer, whose initial sequence number is 500, sends two bytes. -/
def bringing (seqNum : UInt32) (a b : UInt8) : Event :=
  .segment (.ofData { ack := true } seqNum 101 1000 [a, b] (twoBytes_lt a b)) true

/-- The first bytes arrive last, and a segment that is wrong about what has been received brings one
more. -/
def reordered : List Event :=
  .open .stream 49152 :: handshake 100 500 1000 ++
    [bringing 503 9 6, bringing 501 7 8, bringing 504 1 5, .receive 10 {}]

theorem delivered_isPrefix_reordered :
    (run step (Slot.init fun _ => {}) reordered).socket.history.delivered = [7, 8, 9, 6, 5] ∧
      (run step (Slot.init fun _ => {}) reordered).socket.history.delivered
        <+: [7, 8, 9, 6, 5, 4] :=
  ⟨by decide, delivered_isPrefix (fun _ => [7, 8, 9, 6, 5, 4]) _ _
    ⟨⟨⟨trivial, trivial, trivial⟩, by decide⟩, ⟨⟨trivial, fun _ => by decide, trivial⟩, by decide⟩,
      ⟨⟨trivial, trivial, trivial⟩, by decide⟩, ⟨⟨trivial, trivial, trivial⟩, by decide⟩,
      ⟨⟨trivial, trivial, trivial⟩, by decide⟩, ⟨⟨trivial, trivial, trivial⟩, by decide⟩,
      ⟨⟨trivial, trivial, fun _ => by decide⟩, by decide⟩, trivial⟩ (by decide)⟩

/-- Two bytes have been received and not read as the connection enters the TIME-WAIT state. -/
def readInTimeWait : List Event :=
  .open .stream 49152 :: handshake 100 500 1000 ++
    [bringing 501 7 8, .shutdown .send,
      .segment (.ofData { fin := true, ack := true } 503 102 1000 [] noData_lt) true, .receive 2 {}]

/-- The buffer has been released: what is read is not what has been received. -/
theorem readInTimeWait_delivered :
    (run step (Slot.init fun _ => {}) readInTimeWait).socket.state = .timeWait ∧
      (run step (Slot.init fun _ => {}) readInTimeWait).socket.history.delivered = [0, 0] := by
  decide

end Tcp
