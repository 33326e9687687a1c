import CycloneTcp.Core.TcpAccounting

/-! # Retransmission

What is sent and not acknowledged is covered by the retransmission queue, and what is written and
not acknowledged is in the send buffer. A segment that has been acknowledged in part stays in the
queue as it is, while the slots of the acknowledged part are used again: there a retransmission
carries newer data. -/

set_option autoImplicit false

namespace Tcp

open Serial

variable {R : TcpState → Bool → Prop} {K : Remains}

/-- The states of a connection that has its buffers. -/
def TcpState.buffered : TcpState → Bool
  | .closed | .listen | .timeWait => false
  | _ => true

theorem seq_succ (base : UInt32) (n : ℕ) : seq base (n + 1) = seq (base + 1) n := by
  rw [Nat.add_comm, ← seq_seq]
  rfl

/-! ## The invariant -/

/-- The segment occupies the sequence number. -/
def TcpQueueItem.Covers (item : TcpQueueItem) (q : UInt32) : Prop :=
  (q - item.header.seqNum).toNat < item.segmentLength

instance (item : TcpQueueItem) (q : UInt32) : Decidable (item.Covers q) :=
  inferInstanceAs (Decidable (_ < _))

/-- The number of bytes that have been acknowledged. -/
def ackedBytes (snd : SendSide) (written : List UInt8) (state : TcpState) : ℕ :=
  written.length - snd.sndUser.toNat + state.finSent.toNat - (snd.sndNxt - snd.sndUna).toNat

/-- A queued segment of data that has been written, not all of it acknowledged. -/
structure ItemWritten (snd : SendSide) (written : List UInt8) (state : TcpState)
    (item : TcpQueueItem) : Prop where
  syn : item.header.flags.syn = false
  fin : item.header.flags.fin = false
  le_size : item.length ≤ snd.txBufferSize
  position : ∃ p, item.header.seqNum = seq snd.iss (p + 1) ∧
    p + item.length ≤ written.length ∧ ackedBytes snd written state < p + item.length

/-- The send side with its queue and its buffer. The buffer holds the stream as long as the
distances of its positions do not wrap. -/
structure OutInv (snd : SendSide) (written : List UInt8) (state : TcpState) : Prop
    extends SendInv snd written state where
  flight : (snd.sndNxt - snd.sndUna).toNat
    ≤ written.length - snd.sndUser.toNat + 1 + state.finSent.toNat
  buffer : snd.txBuffer.length = snd.txBufferSize
  held : written.length < 2 ^ 32 → Ring.Holds snd.txBufferSize snd.txBuffer.cells
    (written.getD · 0) (ackedBytes snd written state) written.length
  items : ∀ item ∈ snd.retransmitQueue, 0 < item.length → ItemWritten snd written state item
  covered : ∀ q, (q - snd.sndUna).toNat < (snd.sndNxt - snd.sndUna).toNat →
    ∃ item ∈ snd.retransmitQueue, item.Covers q

theorem ItemWritten.mono {snd snd' : SendSide} {written written' : List UInt8}
    {state state' : TcpState} {item : TcpQueueItem} (h : ItemWritten snd written state item)
    (hiss : snd'.iss = snd.iss) (hsize : snd'.txBufferSize = snd.txBufferSize)
    (hwritten : written.length ≤ written'.length)
    (hacked : ackedBytes snd' written' state' ≤ ackedBytes snd written state) :
    ItemWritten snd' written' state' item := by
  obtain ⟨p, hseq, hle, hlt⟩ := h.position
  refine ⟨h.syn, h.fin, by rw [hsize]; exact h.le_size, p, by rw [hiss]; exact hseq, ?_, ?_⟩
  · exact hle.trans hwritten
  · exact hacked.trans_lt hlt

namespace OutInv

variable {snd snd' : SendSide} {written : List UInt8} {state state' : TcpState}

/-- The counters move, but nothing is written or acknowledged. -/
theorem of_acked (h : OutInv snd written state) (hsend : SendInv snd' written state')
    (hiss : snd'.iss = snd.iss) (hbuffer : snd'.txBuffer = snd.txBuffer)
    (hsize : snd'.txBufferSize = snd.txBufferSize)
    (hqueue : snd'.retransmitQueue = snd.retransmitQueue)
    (hacked : ackedBytes snd' written state' = ackedBytes snd written state)
    (hflight : (snd'.sndNxt - snd'.sndUna).toNat
      ≤ written.length - snd'.sndUser.toNat + 1 + state'.finSent.toNat)
    (hcovered : ∀ q, (q - snd'.sndUna).toNat < (snd'.sndNxt - snd'.sndUna).toNat →
      ∃ item ∈ snd.retransmitQueue, item.Covers q) : OutInv snd' written state' where
  toSendInv := hsend
  flight := hflight
  buffer := by rw [hbuffer, hsize]; exact h.buffer
  held hlen := by rw [hbuffer, hsize, hacked]; exact h.held hlen
  items item hmem hpos := by
    rw [hqueue] at hmem
    exact (h.items item hmem hpos).mono hiss hsize le_rfl hacked.le
  covered := by rw [hqueue]; exact hcovered

theorem congr (h : OutInv snd written state) (hsame : SendSide.Same snd snd') :
    OutInv snd' written state := by
  refine h.of_acked (h.toSendInv.congr hsame) hsame.iss hsame.txBuffer hsame.txBufferSize
    hsame.retransmitQueue ?_ ?_ ?_
  · rw [ackedBytes, ackedBytes, hsame.sndUser, hsame.sndNxt, hsame.sndUna]
  · rw [hsame.sndUser, hsame.sndNxt, hsame.sndUna]
    exact h.flight
  · rw [hsame.sndNxt, hsame.sndUna]
    exact h.covered

theorem changeState (h : OutInv snd written state) (next : TcpState)
    (hfin : next.finSent = state.finSent)
    (hdone : next ≠ .established → next ≠ .closeWait →
      state ≠ .established ∧ state ≠ .closeWait) : OutInv snd written next :=
  h.of_acked (h.toSendInv.changeState next hfin hdone) rfl rfl rfl rfl
    (by rw [ackedBytes, ackedBytes, hfin]) (by rw [hfin]; exact h.flight) h.covered

theorem length_le (h : OutInv snd written state) {item : TcpQueueItem}
    (hmem : item ∈ snd.retransmitQueue) : item.length ≤ 22880 := by
  rcases Nat.eq_zero_or_pos item.length with hzero | hpos
  · rw [hzero]
    exact Nat.zero_le _
  · exact (h.items item hmem hpos).le_size.trans h.size

theorem segmentLength_le (h : OutInv snd written state) {item : TcpQueueItem}
    (hmem : item ∈ snd.retransmitQueue) : item.segmentLength ≤ 22881 := by
  have hlen := h.length_le hmem
  rw [TcpQueueItem.segmentLength]
  split_ifs <;> omega

/-! ## Acknowledgments -/

end OutInv

theorem ItemWritten.segmentLength {snd : SendSide} {written : List UInt8} {state : TcpState}
    {item : TcpQueueItem} (h : ItemWritten snd written state item) :
    item.segmentLength = item.length := by
  rw [TcpQueueItem.segmentLength, h.syn, h.fin]
  rfl

theorem not_acknowledged_iff (a : UInt32) (item : TcpQueueItem) :
    (!acknowledged a item) = true ↔
      2 ^ 31 ≤ (a - (item.header.seqNum + UInt32.ofNat item.segmentLength)).toNat := by
  rw [acknowledged, tcpCmpSeq, Bool.not_eq_true', decide_eq_false_iff_not, cmp_nonneg, not_lt]

/-- A segment that occupies a sequence number from `a` on is not acknowledged by `a`. -/
theorem TcpQueueItem.Covers.not_acknowledged {item : TcpQueueItem} {q a : UInt32}
    (h : item.Covers q) (hnear : (q - a).toNat + item.segmentLength < 2 ^ 31) :
    (!acknowledged a item) = true := by
  rw [not_acknowledged_iff]
  rw [Covers] at h
  have := q.toNat_lt
  have := a.toNat_lt
  have := item.header.seqNum.toNat_lt
  simp only [UInt32.toNat_sub, UInt32.toNat_add, UInt32.toNat_ofNat'] at h hnear ⊢
  omega

namespace OutInv

variable {snd : SendSide} {written : List UInt8} {state : TcpState}

/-- The position of a number that is not past SND.NXT. -/
theorem eq_seq_of_le {iss nxt a : UInt32} {n : ℕ} (hnxt : nxt = seq iss n)
    (hle : (nxt - a).toNat ≤ n) : a = seq iss (n - (nxt - a).toNat) := by
  rw [← seq_sub _ hle, ← hnxt, UInt32.ofNat_toNat]
  apply UInt32.toNat_inj.1
  have := nxt.toNat_lt
  have := a.toNat_lt
  simp only [UInt32.toNat_sub]
  omega

theorem una_eq (h : OutInv snd written state) :
    snd.sndUna = seq snd.iss (written.length - snd.sndUser.toNat + 1 + state.finSent.toNat
      - (snd.sndNxt - snd.sndUna).toNat) := eq_seq_of_le h.sndNxt h.flight

theorem ackTo (h : OutInv snd written state) {a : UInt32}
    (hsum : (a - snd.sndUna).toNat + (snd.sndNxt - a).toNat = (snd.sndNxt - snd.sndUna).toNat) :
    OutInv { snd with
      sndUna := a
      retransmitQueue := snd.retransmitQueue.filter (fun item => !acknowledged a item) }
      written state := by
  have hflight := h.flight
  have hflight_le := h.flight_le
  have hroom := h.room
  have ha := eq_seq_of_le h.sndNxt (a := a) (by omega)
  refine ⟨⟨?_, h.size, h.sndUser_le, h.sndNxt, h.done⟩, ?_, h.buffer, fun hlen => ?_, ?_, ?_⟩
  · change snd.sndUser.toNat + (snd.sndNxt - a).toNat ≤ snd.txBufferSize + state.finSent.toNat
    omega
  · change (snd.sndNxt - a).toNat ≤ written.length - snd.sndUser.toNat + 1 + state.finSent.toNat
    omega
  · refine (h.held hlen).mono ?_ le_rfl
    change _ ≤ written.length - snd.sndUser.toNat + state.finSent.toNat - (snd.sndNxt - a).toNat
    rw [ackedBytes]
    omega
  · intro item hmem hpos
    obtain ⟨hmem, hleft⟩ := List.mem_filter.1 hmem
    have hitem := h.items item hmem hpos
    obtain ⟨p, hseq, hle, hlt⟩ := hitem.position
    refine ⟨hitem.syn, hitem.fin, hitem.le_size, p, hseq, hle, ?_⟩
    change written.length - snd.sndUser.toNat + state.finSent.toNat - (snd.sndNxt - a).toNat
      < p + item.length
    rw [not_acknowledged_iff, hitem.segmentLength, hseq, seq_add] at hleft
    rw [ackedBytes] at hlt
    by_contra hge
    generalize (snd.sndNxt - a).toNat = f' at *
    rw [ha, sub_toNat _ (by omega) (by omega)] at hleft
    omega
  · intro q hq
    replace hq : (q - a).toNat < (snd.sndNxt - a).toNat := hq
    have hbefore : (q - snd.sndUna).toNat < (snd.sndNxt - snd.sndUna).toNat := by
      have := q.toNat_lt
      have := a.toNat_lt
      have := snd.sndUna.toNat_lt
      have := snd.sndNxt.toNat_lt
      simp only [UInt32.toNat_sub] at hq hsum hflight_le ⊢
      omega
    obtain ⟨item, hmem, hcovers⟩ := h.covered q hbefore
    have hlen := h.segmentLength_le hmem
    exact ⟨item, List.mem_filter.2 ⟨hmem, hcovers.not_acknowledged (by omega)⟩, hcovers⟩

/-! ## Segments that are sent -/

theorem addItem (h : OutInv snd written state) (item : TcpQueueItem)
    (hitem : 0 < item.length → ItemWritten snd written state item) :
    OutInv { snd with retransmitQueue := snd.retransmitQueue ++ [item] } written state where
  toSendInv := ⟨h.room, h.size, h.sndUser_le, h.sndNxt, h.done⟩
  flight := h.flight
  buffer := h.buffer
  held := h.held
  items other hmem hpos := by
    have hold : ItemWritten snd written state other := by
      rcases List.mem_append.1 hmem with hmem | hmem
      · exact h.items other hmem hpos
      · rw [List.mem_singleton.1 hmem] at hpos ⊢
        exact hitem hpos
    exact hold.mono rfl rfl le_rfl le_rfl
  covered q hq := by
    obtain ⟨other, hmem, hcovers⟩ := h.covered q hq
    exact ⟨other, List.mem_append.2 (.inl hmem), hcovers⟩

/-- The unsent data begins at SND.NXT. -/
theorem itemWritten (h : OutInv snd written state)
    (hstate : state = .established ∨ state = .closeWait) {item : TcpQueueItem}
    (hseq : item.header.seqNum = snd.sndNxt) (hsyn : item.header.flags.syn = false)
    (hfin : item.header.flags.fin = false) (hlen : item.length ≤ snd.sndUser.toNat)
    (hpos : 0 < item.length) : ItemWritten snd written state item := by
  have hnot : state.finSent = false := by rcases hstate with rfl | rfl <;> rfl
  have hroom := h.room
  have hle := h.sndUser_le
  have hnxt := h.sndNxt
  rw [hnot, Bool.toNat_false] at hroom hnxt
  refine ⟨hsyn, hfin, by omega, written.length - snd.sndUser.toNat, hseq.trans hnxt, by omega, ?_⟩
  rw [ackedBytes, hnot, Bool.toNat_false]
  omega

/-- A sequence number below the next SND.NXT is below SND.NXT or in between. -/
theorem between_of_lt {una nxt q : UInt32} {n : ℕ}
    (hq : (q - una).toNat < (nxt + UInt32.ofNat n - una).toNat) :
    (q - una).toNat < (nxt - una).toNat ∨ (q - nxt).toNat < n := by
  have := una.toNat_lt
  have := nxt.toNat_lt
  have := q.toNat_lt
  simp only [UInt32.toNat_sub, UInt32.toNat_add, UInt32.toNat_ofNat'] at hq ⊢
  omega

theorem advance (h : OutInv snd written state) {n : ℕ} (hn : n ≤ snd.sndUser.toNat)
    (hqueued : ∃ item ∈ snd.retransmitQueue, item.header.seqNum = snd.sndNxt ∧
      item.segmentLength = n) : OutInv (snd.advance n) written state := by
  have hflight_le := h.flight_le
  have hsend : SendInv (snd.advance n) written state :=
    h.toSendInv.advance hn snd.retransmitQueue
  have huser : (snd.sndUser - UInt16.ofNat n).toNat = snd.sndUser.toNat - n := by
    have := snd.sndUser.toNat_lt
    have hword : (UInt16.ofNat n).toNat = n := by
      rw [UInt16.toNat_ofNat']
      omega
    rw [UInt16.toNat_sub_of_le _ _ (by rw [UInt16.le_iff_toNat_le, hword]; omega), hword]
  have hnxt : (snd.sndNxt + UInt32.ofNat n - snd.sndUna).toNat
      = (snd.sndNxt - snd.sndUna).toNat + n := toNat_add_ofNat_sub (by omega)
  have hle := h.sndUser_le
  have hflight := h.flight
  refine h.of_acked hsend rfl rfl rfl rfl ?_ ?_ ?_
  · rw [ackedBytes, ackedBytes]
    change written.length - (snd.sndUser - UInt16.ofNat n).toNat + state.finSent.toNat
      - (snd.sndNxt + UInt32.ofNat n - snd.sndUna).toNat = _
    rw [huser, hnxt]
    omega
  · change (snd.sndNxt + UInt32.ofNat n - snd.sndUna).toNat
      ≤ written.length - (snd.sndUser - UInt16.ofNat n).toNat + 1 + state.finSent.toNat
    rw [huser, hnxt]
    omega
  · intro q hq
    replace hq : (q - snd.sndUna).toNat < (snd.sndNxt + UInt32.ofNat n - snd.sndUna).toNat := hq
    rcases between_of_lt hq with hq | hq
    · exact h.covered q hq
    · obtain ⟨item, hmem, hseq, hlen⟩ := hqueued
      refine ⟨item, hmem, ?_⟩
      rw [TcpQueueItem.Covers, hseq, hlen]
      exact hq

theorem leave (h : OutInv snd written state) {next : TcpState} (hallowed : FinAllowed state next)
    (hdone : snd.sndUser = 0)
    (hqueued : ∃ item ∈ snd.retransmitQueue, item.header.seqNum = snd.sndNxt ∧
      item.segmentLength = 1) : OutInv { snd with sndNxt := snd.sndNxt + 1 } written next := by
  have hflight_le := h.flight_le
  have hflight := h.flight
  have hfin : state.finSent = false ∧ next.finSent = true := by
    rcases hallowed with ⟨rfl, rfl | rfl⟩ | ⟨rfl, rfl⟩ <;> exact ⟨rfl, rfl⟩
  have hnxt : (snd.sndNxt + 1 - snd.sndUna).toNat = (snd.sndNxt - snd.sndUna).toNat + 1 :=
    toNat_add_ofNat_sub (n := 1) (by omega)
  rw [hfin.1, Bool.toNat_false] at hflight
  refine h.of_acked (h.toSendInv.leave hallowed hdone) rfl rfl rfl rfl ?_ ?_ ?_
  · rw [ackedBytes, ackedBytes]
    change written.length - snd.sndUser.toNat + next.finSent.toNat
      - (snd.sndNxt + 1 - snd.sndUna).toNat = _
    rw [hnxt, hfin.1, hfin.2, Bool.toNat_true, Bool.toNat_false]
    omega
  · change (snd.sndNxt + 1 - snd.sndUna).toNat
      ≤ written.length - snd.sndUser.toNat + 1 + next.finSent.toNat
    rw [hnxt, hfin.2, Bool.toNat_true]
    omega
  · intro q hq
    replace hq : (q - snd.sndUna).toNat < (snd.sndNxt + 1 - snd.sndUna).toNat := hq
    rcases between_of_lt (n := 1) hq with hq | hq
    · exact h.covered q hq
    · obtain ⟨item, hmem, hseq, hlen⟩ := hqueued
      refine ⟨item, hmem, ?_⟩
      rw [TcpQueueItem.Covers, hseq, hlen]
      exact hq

end OutInv

/-! ## Writing -/

theorem copyUserData_txBuffer (s : Socket) (data : List UInt8) {n : ℕ} (hpos : 0 < n)
    (hsize : 0 < s.snd.txBufferSize) (hbuffer : s.snd.txBuffer.length = s.snd.txBufferSize)
    (hroom : n ≤ s.snd.txBufferSize) (hn : n ≤ data.length) :
    (copyUserData s data n).snd.txBuffer = { s.snd.txBuffer with
      cells := Ring.put s.snd.txBufferSize
        (s.snd.sndNxt + s.snd.sndUser.toUInt32 - s.snd.iss - 1).toNat s.snd.txBuffer.cells
        (data.take n) } := by
  rw [copyUserData, if_pos hpos]
  simp only
  rw [tcpWriteTxBuffer_eq hsize hbuffer hroom hn]
  rfl

theorem OutInv.write {s : Socket} (h : OutInv s.snd s.history.written s.state)
    (hstate : s.state = .established ∨ s.state = .closeWait) (data : List UInt8) {n : ℕ}
    (hpos : 0 < n) (hn : n ≤ data.length)
    (hroom : s.snd.pending.toNat + n ≤ s.snd.txBufferSize) :
    OutInv (copyUserData s data n).snd (s.history.written ++ data.take n) s.state := by
  have hsend := h.toSendInv.write hstate data hpos hn hroom
  have hbuffer := copyUserData_txBuffer s data hpos (by omega) h.buffer (by omega) hn
  obtain ⟨txBuffer, overrideTimer, hsnd⟩ := copyUserData_snd s data hpos
  rw [hsnd] at hsend hbuffer ⊢
  replace hbuffer : txBuffer = _ := hbuffer
  rw [pending_toNat h.toSendInv] at hroom
  have hnot : s.state.finSent = false := by rcases hstate with hs | hs <;> rw [hs] <;> rfl
  have hle := h.sndUser_le
  have hsize := h.size
  rw [TCP_MAX_TX_BUFFER_SIZE] at hsize
  have huser : (s.snd.sndUser + UInt16.ofNat n).toNat = s.snd.sndUser.toNat + n :=
    toNat_add_ofNat16 (by omega)
  have hlen : (s.history.written ++ data.take n).length = s.history.written.length + n := by
    rw [List.length_append, List.length_take]
    omega
  generalize hsnd' : ({ s.snd with
    sndUser := s.snd.sndUser + UInt16.ofNat n
    txBuffer := txBuffer
    overrideTimer := overrideTimer } : SendSide) = snd' at hsend ⊢
  have hacked : ackedBytes snd' (s.history.written ++ data.take n) s.state
      = ackedBytes s.snd s.history.written s.state := by
    subst hsnd'
    rw [ackedBytes, ackedBytes, hlen]
    change _ - (s.snd.sndUser + UInt16.ofNat n).toNat + _ - _ = _
    rw [huser]
    congr 2
    omega
  refine ⟨hsend, ?_, ?_, fun hshort => ?_, fun item hmem hitem => ?_, ?_⟩
  · have hflight := h.flight
    subst hsnd'
    rw [hlen]
    change _ ≤ _ - (s.snd.sndUser + UInt16.ofNat n).toNat + 1 + _
    rw [huser]
    change (s.snd.sndNxt - s.snd.sndUna).toNat ≤ _
    omega
  · subst hsnd'
    rw [hbuffer]
    exact h.buffer
  · rw [hlen] at hshort
    rw [hacked, hlen]
    -- the first free slot is that of the next position of the stream
    have hnext : (s.snd.sndNxt + s.snd.sndUser.toUInt32 - s.snd.iss - 1).toNat
        = s.history.written.length := by
      rw [h.sndNxt, hnot, Bool.toNat_false, seq_add_word]
      have hpos' : s.history.written.length - s.snd.sndUser.toNat + 1 + 0 + s.snd.sndUser.toNat
          = s.history.written.length + 1 := by omega
      rw [hpos', seq_succ, dist_seq, Nat.mod_eq_of_lt (by omega)]
    subst hsnd'
    change Ring.Holds s.snd.txBufferSize txBuffer.cells _ _ _
    rw [hbuffer, hnext]
    have hacked_eq : ackedBytes s.snd s.history.written s.state
        = s.history.written.length - s.snd.sndUser.toNat - (s.snd.sndNxt - s.snd.sndUna).toNat := by
      rw [ackedBytes, hnot]
      rfl
    have hvalue : ∀ (i : ℕ) (hi : i < (data.take n).length), (data.take n)[i]
        = (s.history.written ++ data.take n).getD (s.history.written.length + i) 0 := by
      intro i hi
      rw [List.getD_eq_getElem?_getD, List.getElem?_append_right (by omega),
        Nat.add_sub_cancel_left, List.getElem?_eq_getElem hi, Option.getD_some]
    have hold : Ring.Holds s.snd.txBufferSize s.snd.txBuffer.cells
        ((s.history.written ++ data.take n).getD · 0)
        (ackedBytes s.snd s.history.written s.state) s.history.written.length := by
      intro p hp hp'
      rw [h.held (by omega) p hp hp']
      change s.history.written.getD p 0 = (s.history.written ++ data.take n).getD p 0
      rw [List.getD_eq_getElem?_getD, List.getD_eq_getElem?_getD, List.getElem?_append_left hp']
    have hcount : (data.take n).length = n := by
      rw [List.length_take]
      omega
    refine (hold.put (data.take n) le_rfl ?_ ?_ ?_ hvalue).append ?_ le_rfl
    · rw [hacked_eq]
      omega
    · rw [hacked_eq]
      omega
    · rw [hcount, hacked_eq]
      omega
    · have hself : Ring.Holds s.snd.txBufferSize (Ring.put s.snd.txBufferSize
          s.history.written.length s.snd.txBuffer.cells (data.take n))
          ((s.history.written ++ data.take n).getD · 0) s.history.written.length
          (s.history.written.length + (data.take n).length) :=
        .put_self (data.take n) (by rw [hcount]; omega) hvalue
      rwa [hcount] at hself
  · subst hsnd'
    refine (h.items item hmem hitem).mono rfl rfl ?_ hacked.le
    rw [hlen]
    omega
  · subst hsnd'
    exact h.covered

/-! ## New connections -/

/-- The SYN of a new connection is sent. -/
theorem OutInv.of_prepared {s : Socket} (h : Prepared K s) (hdata : K.data = true)
    (hqueue : K.queue = true) (hsized : s.Sized) {next : TcpState}
    (hnext : next = .synSent ∨ next = .synReceived) (item : TcpQueueItem)
    (hsyn : item.header.flags.syn = true) (hseq : item.header.seqNum = s.snd.iss)
    (hlen : item.length = 0) : OutInv (s.addItem item).snd s.history.written next := by
  have hsend := h.sendInv hdata hsized next hnext
  have hone : (s.snd.sndNxt - s.snd.sndUna).toNat = 1 := by
    rw [h.sndNxt, h.sndUna, UInt32.add_comm, UInt32.add_sub_cancel]
    rfl
  refine ⟨⟨hsend.room, hsend.size, hsend.sndUser_le, hsend.sndNxt, hsend.done⟩, ?_, h.txBuffer,
    fun _ => ?_, fun other hmem hpos => ?_, fun q hq => ?_⟩
  · change (s.snd.sndNxt - s.snd.sndUna).toNat ≤ _
    omega
  · rw [h.written]
    exact Ring.Holds.nil (Nat.zero_le _)
  · have hzero : other.length = 0 := by
      rcases List.mem_append.1 hmem with hmem | hmem
      · exact (h.unused.2.2.1 hqueue other hmem).2.2
      · rw [List.mem_singleton.1 hmem, hlen]
    omega
  · refine ⟨item, List.mem_append.2 (.inr (List.mem_singleton.2 rfl)), ?_⟩
    replace hq : (q - s.snd.sndUna).toNat < (s.snd.sndNxt - s.snd.sndUna).toNat := hq
    rw [hone, h.sndUna] at hq
    rw [TcpQueueItem.Covers, TcpQueueItem.segmentLength, hsyn, hseq]
    exact hq

/-- What a socket is in a state that has its buffers. -/
def Out (s : Socket) : Prop := s.state.buffered = true → OutInv s.snd s.history.written s.state

theorem Out.of_not_buffered {s : Socket} (h : s.state.buffered = false) : Out s :=
  fun hs => absurd (h.symm.trans hs) (by simp)

theorem Out.congr {s s' : Socket} (h : Out s) (hstate : s'.state = s.state)
    (hwritten : s'.history.written = s.history.written) (hsnd : SendSide.Same s.snd s'.snd) :
    Out s' := by
  intro hs
  rw [hstate] at hs ⊢
  rw [hwritten]
  exact (h hs).congr hsnd

theorem tcpAbort_not_buffered {s : Socket} (hstate : s.state = .closed) :
    (tcpAbort s).2.state.buffered = false := by
  rw [tcpAbort, hstate]
  rfl

theorem sendSyn_out {s : Socket} (h : Prepared K s) (hdata : K.data = true)
    (hqueue : K.queue = true) (hsized : s.Sized) : Out (sendSyn s).2 := by
  have hqueued := tcpSendSegment_queued_quiet s { syn := true } s.snd.iss 0 0 rfl
  rw [sendSyn]
  simp only at hqueued ⊢
  generalize tcpSendSegment s { syn := true } s.snd.iss 0 0 true = r at hqueued ⊢
  split
  case isTrue =>
    refine .of_not_buffered ?_
    rcases hqueued with hsent | ⟨-, hsent⟩
    · exact congrArg TcpState.buffered (hsent.same.state.trans h.state)
    · exact congrArg TcpState.buffered (hsent.same.state.trans h.state)
  case isFalse herror =>
    have hsent := (hqueued.resolve_right fun hfailed => hfailed.1 (not_not.1 herror)).keeps
    have hout := OutInv.of_prepared h hdata hqueue hsized (.inl rfl)
      (s.queueItem { syn := true } s.snd.iss 0 0) rfl rfl rfl
    intro _
    rw [tcpChangeState_snd, tcpChangeState_history, hsent.same.history]
    exact hout.congr hsent.snd

theorem sendSynAck_out {s : Socket} (h : Prepared K s) (hdata : K.data = true)
    (hqueue : K.queue = true) (hsized : s.Sized) : Out (sendSynAck s).2 := by
  have hqueued := tcpSendSegment_queued_quiet s { syn := true, ack := true } s.snd.iss
    s.rcv.rcvNxt 0 rfl
  rw [sendSynAck]
  simp only at hqueued ⊢
  generalize tcpSendSegment s { syn := true, ack := true } s.snd.iss s.rcv.rcvNxt 0 true = r
    at hqueued ⊢
  split
  case isTrue =>
    refine .of_not_buffered (tcpAbort_not_buffered ?_)
    rcases hqueued with hsent | ⟨-, hsent⟩
    · exact hsent.same.state.trans h.state
    · exact hsent.same.state.trans h.state
  case isFalse herror =>
    have hsent := (hqueued.resolve_right fun hfailed => hfailed.1 (not_not.1 herror)).keeps
    have hout := OutInv.of_prepared h hdata hqueue hsized (.inr rfl)
      (s.queueItem { syn := true, ack := true } s.snd.iss s.rcv.rcvNxt 0) rfl rfl rfl
    intro _
    rw [tcpChangeState_snd, tcpChangeState_history, hsent.same.history]
    exact hout.congr hsent.snd

theorem openConnection_out {s : Socket} (hstate : s.state = .closed) (htype : s.type ≠ .unused)
    (hunused : s.Unused K) (hdata : K.data = true) (hqueue : K.queue = true) (hsized : s.Sized)
    (remoteIpAddr : IpAddr) (remotePort : UInt16) (env : ConnectEnv) :
    Out (openConnection s remoteIpAddr remotePort env).2 := by
  have hclosed : ∀ t : Socket, t.state = s.state → Out t := fun t ht =>
    .of_not_buffered (congrArg TcpState.buffered (ht.trans hstate))
  rw [openConnection]
  split
  · exact hclosed _ rfl
  case h_2 interface addr _ =>
    simp only
    split
    · exact hclosed _ rfl
    · split
      · exact hclosed _ rfl
      · refine sendSyn_out ?_ hdata hqueue hsized
        exact activeBlock_prepared (s := { s with
          remoteIpAddr := remoteIpAddr, remotePort := remotePort, history := s.history.restart
          interface := some interface, localIpAddr := addr, ownedFlag := true })
          hstate htype hunused s.history rfl env.iss

theorem acceptConnection_out {s : Socket} (listener : Socket) (hlistener : listener.Sized)
    (port : UInt16) (queueItem : TcpSynQueueItem) (memory : Bool) (iss : UInt32) :
    Out (acceptConnection listener (socketOpen s .stream port) queueItem memory iss).2 := by
  have hunused := socketOpen_unused (K := { data := true, queue := true }) s .stream port
  rw [acceptConnection]
  split
  · exact .of_not_buffered (tcpAbort_not_buffered rfl)
  · have hprepared := passiveBlock_prepared
      (s := inheritSettings listener (socketOpen s .stream port)) listener rfl
      (by simp [inheritSettings, socketOpen]) hunused s.history rfl queueItem iss
    exact sendSynAck_out hprepared rfl rfl hlistener

/-! ## Runs -/

/-- What the steps preserve. -/
structure OutAccount (s : Socket) : Prop extends SizedInv s where
  out : Out s

/-- The actions on a connection. -/
theorem OutAccount.act {s s' : Socket} (h : OutAccount s) (hact : Act R K False s s') :
    OutAccount s' := by
  refine ⟨h.toSizedInv.act hact, ?_⟩
  cases hact with
  | keep hk => exact h.out.congr hk.same.state (by rw [hk.same.history]) hk.snd
  | ack a hpos hle =>
      intro hs
      have hinv := h.out hs
      have hflight := hinv.flight_le
      exact hinv.ackTo (ack_between hpos hle (by omega))
  | sendData item sent hstate hseq hsyn hfin hlen =>
      have hinv : OutInv s.snd s.history.written s.state :=
        h.out (by rcases hstate with hs | hs <;> rw [hs] <;> rfl)
      have hadd := hinv.addItem item (hinv.itemWritten hstate hseq hsyn hfin hlen)
      intro _
      cases sent with
      | false => exact hadd
      | true =>
          refine hadd.advance hlen
            ⟨item, List.mem_append.2 (.inr (List.mem_singleton.2 rfl)), hseq, ?_⟩
          rw [TcpQueueItem.segmentLength, hsyn, hfin]
          rfl
  | write data n hstate hpos hn hroom =>
      have hinv : OutInv s.snd s.history.written s.state :=
        h.out (by rcases hstate with hs | hs <;> rw [hs] <;> rfl)
      intro _
      rw [(copyUserData_of_pos s data hpos).2.2.2, copyUserData_state]
      exact hinv.write hstate data hpos hn hroom
  | data | finAcked | read => exact h.out.congr rfl rfl (.refl _)
  | fin segment next hfin hnext =>
      rw [Socket.passFin]
      split
      case isTrue htimeWait => exact .of_not_buffered rfl
      case isFalse htimeWait =>
        intro _
        rw [tcpChangeState_snd, tcpChangeState_history]
        rcases hnext with ⟨hs, rfl⟩ | ⟨hs, rfl⟩ | ⟨hs, rfl⟩
        · exact (h.out (by rw [hs]; rfl)).changeState _ (by rw [hs]; rfl) (by simp)
        · exact (h.out (by rw [hs]; rfl)).changeState _ (by rw [hs]; rfl) (by simp [hs])
        · exact absurd rfl htimeWait
  | finWait2 hstate hacked =>
      intro _
      rw [tcpChangeState_snd, tcpChangeState_history]
      exact (h.out (by rw [hstate]; rfl)).changeState _ (by rw [hstate]; rfl) (by simp [hstate])
  | established hstate =>
      intro _
      rw [tcpChangeState_snd, tcpChangeState_history]
      exact (h.out (by rw [hstate]; rfl)).changeState _ (by rw [hstate]; rfl) (by simp)
  | synSent segment next hstate hack hnext =>
      have hinv : OutInv s.snd s.history.written s.state := h.out (by rw [hstate]; rfl)
      have hsum : (s.unaOnSyn segment - s.snd.sndUna).toNat
          + (s.snd.sndNxt - s.unaOnSyn segment).toNat = (s.snd.sndNxt - s.snd.sndUna).toNat := by
        rw [Socket.unaOnSyn]
        split
        case isTrue hflag => rw [hack hflag, UInt32.sub_self]; rfl
        case isFalse => rw [UInt32.sub_self]; exact Nat.zero_add _
      have hacked := hinv.ackTo hsum
      intro _
      rw [Socket.passSyn, tcpChangeState_snd, tcpChangeState_history]
      refine hacked.changeState _ ?_ (by simp [hstate])
      rw [hstate]
      rcases hnext with ⟨rfl, -⟩ | ⟨rfl, -⟩ <;> rfl
  | addFin next item data hallowed hseq hsyn hfin hlen =>
      intro hs
      exact (h.out hs).addItem item fun hpos => absurd hlen hpos.ne'
  | addSyn item hstate hsyn hfin hlen hseq =>
      intro hs
      exact (h.out hs).addItem item fun hpos => absurd hlen hpos.ne'
  | leave next hallowed hdone item hmem hseq hsyn hfin hlen =>
      have hbuffered : s.state.buffered = true := by
        rcases hallowed with ⟨-, hs | hs⟩ | ⟨-, hs⟩ <;> rw [hs] <;> rfl
      have hinv := h.out hbuffered
      have huser : s.snd.sndUser = 0 := by
        rw [Socket.txDone] at hdone
        rcases hallowed with ⟨-, hs | hs⟩ | ⟨-, hs⟩
        · exact hinv.done (by simp [hs]) (by simp [hs])
        · rw [hs] at hdone
          simpa using hdone
        · rw [hs] at hdone
          simpa using hdone
      intro _
      rw [tcpChangeState_snd, tcpChangeState_history]
      refine hinv.leave hallowed huser ⟨item, hmem, hseq, ?_⟩
      rw [TcpQueueItem.segmentLength, hsyn, hfin, hlen]
      rfl
  | timeWait | finish | reset => exact .of_not_buffered rfl
  | dispose hstate => exact .of_not_buffered (congrArg TcpState.buffered hstate)
  | disown hstate => exact .of_not_buffered (congrArg TcpState.buffered hstate)
  | resize txBufferSize rxBufferSize hstate =>
      exact .of_not_buffered (congrArg TcpState.buffered hstate)
  | opened hopens | configure _ hopens | connect hopens | accept hopens | listen hopens =>
      exact hopens.elim

/-- No call sends a FIN that the state does not allow, and a socket is connected only if neither
unsent data nor segments other than a SYN are left on it. -/
def QueueClean (slot : Slot) (event : Event) : Prop :=
  FinInState slot event ∧ UnusedSocket { data := true, queue := true } slot event

/-- A step that begins a connection sends its SYN. -/
theorem step_begins_out {slot : Slot} {event : Event} (h : SizedInv slot.socket)
    (hbegins : event.Begins slot.socket) (hclean : QueueClean slot event) :
    Out (step slot event).socket := by
  cases event with
  | «open» type port =>
      have hunused : slot.socket.type = .unused := hbegins
      rw [step, if_pos hunused]
      exact .of_not_buffered rfl
  | accept listener sized port queueItem memory iss =>
      have hunused : slot.socket.type = .unused := hbegins
      rw [step, if_pos hunused]
      exact acceptConnection_out listener sized port queueItem memory iss
  | connect remoteIpAddr remotePort env =>
      have hstate : slot.socket.state = .closed := hbegins
      rw [step]
      split
      case isFalse => exact .of_not_buffered (congrArg TcpState.buffered hstate)
      case isTrue htype =>
        have htype' : slot.socket.type ≠ .unused := by simp [htype]
        have hopen := openConnection_out hstate htype' (hclean.2 hstate) rfl rfl (h.sized htype')
          remoteIpAddr remotePort env
        rw [endSection_socket, tcpConnect, if_pos hstate]
        simp only
        split <;> exact hopen
  | listen backlog =>
      have hstate : slot.socket.state = .closed := hbegins
      rw [step]
      split
      case isFalse => exact .of_not_buffered (congrArg TcpState.buffered hstate)
      case isTrue =>
        rw [tcpListen, if_neg (by simpa using hstate)]
        exact .of_not_buffered rfl
  | _ => exact hbegins.elim

theorem QueueClean.acts {slot : Slot} {event : Event} (h : QueueClean slot event) {O : Prop}
    (hopens : event.Begins slot.socket → O) :
    Acts (fun _ _ => True) { data := true, queue := true } O slot.socket
      (step slot event).socket :=
  step_acts slot event h.1 h.2 ⟨fun _ => trivial, fun _ => trivial⟩
    (fun _ => ⟨trivial, trivial⟩) hopens

theorem OutAccount.step {slot : Slot} {event : Event} (h : OutAccount slot.socket)
    (hclean : QueueClean slot event) : OutAccount (step slot event).socket := by
  by_cases hbegins : event.Begins slot.socket
  · have hsized : SizedInv (Tcp.step slot event).socket :=
      (hclean.acts (O := True) fun _ => trivial).preserve (fun h hact => h.act hact) h.toSizedInv
    exact ⟨hsized, step_begins_out h.toSizedInv hbegins hclean⟩
  · exact (hclean.acts hbegins).preserve (fun h hact => h.act hact) h

/-! ## What is retransmitted -/

theorem retransmitLoop_sent (state : TcpState) (snd : SendSide) (net : Network) (length : ℕ)
    (queue : List TcpQueueItem) :
    ∃ new, (retransmitLoop state snd net length queue).2.sent = net.sent ++ new ∧
      ∀ entry ∈ new, ∃ item ∈ queue, entry.2.header = item.header ∧
        entry.2.data
          = (tcpReadTxBuffer snd item.header.seqNum .empty item.length).2.data := by
  induction queue generalizing net length with
  | nil => exact ⟨[], by simp [retransmitLoop], by simp⟩
  | cons queueItem queue ih =>
      simp only [retransmitLoop]
      split
      · exact ⟨[], by simp, by simp⟩
      split
      · exact ⟨[], by simp [Network.next], by simp⟩
      split
      · exact ⟨[], by simp [Network.next], by simp⟩
      split
      · exact ⟨[], by simp [Network.next], by simp⟩
      split
      · refine ⟨[_], rfl, fun entry hmem => ?_⟩
        rw [List.mem_singleton.1 hmem]
        exact ⟨queueItem, by simp, rfl, rfl⟩
      · obtain ⟨new, hsent, hnew⟩ := ih (net.next.send state {
          header := queueItem.header
          data := (tcpReadTxBuffer snd queueItem.header.seqNum .empty queueItem.length).2.data })
          (length + queueItem.length)
        refine ⟨(state, {
          header := queueItem.header
          data := (tcpReadTxBuffer snd queueItem.header.seqNum .empty queueItem.length).2.data })
          :: new, by rw [hsent]; simp [Network.send, Network.next], ?_⟩
        intro entry hmem
        rcases List.mem_cons.1 hmem with rfl | hmem
        · exact ⟨queueItem, by simp, rfl, rfl⟩
        · obtain ⟨item, hitem, heq⟩ := hnew entry hmem
          exact ⟨item, by simp [hitem], heq⟩

/-- The retransmission queue covers what is sent and not acknowledged, and a segment that
`tcpRetransmitSegment` builds carries what has been written, at the sequence numbers that are
`counted`. -/
structure RetransmitsWritten (counted : UInt32 → Prop) (s : Socket) : Prop where
  covered : ∀ q, (q - s.snd.sndUna).toNat < (s.snd.sndNxt - s.snd.sndUna).toNat →
    ∃ item ∈ s.snd.retransmitQueue, item.Covers q
  carries : ∀ entry ∈ (tcpRetransmitSegment s).net.sent.drop s.net.sent.length,
    ∃ item ∈ s.snd.retransmitQueue, entry.2.header = item.header ∧
      entry.2.data.length = item.length ∧ ∀ j < item.length,
        counted (item.header.seqNum + UInt32.ofNat j) →
        entry.2.data[j]? = s.history.written[
          (item.header.seqNum + UInt32.ofNat j - s.snd.iss - 1).toNat]?

/-- The sequence number is not acknowledged. -/
def Unacknowledged (s : Socket) (q : UInt32) : Prop := 0 ≤ tcpCmpSeq q s.snd.sndUna

theorem OutInv.readTxBuffer {snd : SendSide} {written : List UInt8} {state : TcpState}
    (h : OutInv snd written state) (hsize : 0 < snd.txBufferSize) {item : TcpQueueItem}
    (hmem : item ∈ snd.retransmitQueue) :
    (tcpReadTxBuffer snd item.header.seqNum .empty item.length).2.data
      = Ring.get snd.txBufferSize (item.header.seqNum - snd.iss - 1).toNat item.length
          snd.txBuffer.cells := by
  have hle : item.length ≤ snd.txBufferSize := by
    rcases Nat.eq_zero_or_pos item.length with hzero | hpos
    · omega
    · exact (h.items item hmem hpos).le_size
  rw [tcpReadTxBuffer_eq _ hsize h.buffer hle, FlatBuffer.data]
  simp only [FlatBuffer.empty, Nat.zero_add]
  exact Memory.read_write_of_length _ _ (Ring.length_get _ _ _ _)

/-- A queued segment, as the buffer has it, carries what has been written from the first byte on
that is not acknowledged. -/
theorem OutInv.carries {snd : SendSide} {written : List UInt8} {state : TcpState}
    (h : OutInv snd written state) (hsize : 0 < snd.txBufferSize)
    (hshort : written.length < 2 ^ 32 - 1) {item : TcpQueueItem}
    (hmem : item ∈ snd.retransmitQueue) {j : ℕ} (hj : j < item.length)
    (hacked : ackedBytes snd written state
      ≤ (item.header.seqNum + UInt32.ofNat j - snd.iss - 1).toNat) :
    (tcpReadTxBuffer snd item.header.seqNum .empty item.length).2.data[j]?
      = written[(item.header.seqNum + UInt32.ofNat j - snd.iss - 1).toNat]? := by
  obtain ⟨p, hseq, hle, hlt⟩ := (h.items item hmem (by omega)).position
  have hdist : (item.header.seqNum + UInt32.ofNat j - snd.iss - 1).toNat = p + j := by
    rw [hseq, seq_add, show p + 1 + j = p + j + 1 by omega, seq_succ, dist_seq,
      Nat.mod_eq_of_lt (by omega)]
  have hfirst : (item.header.seqNum - snd.iss - 1).toNat = p := by
    rw [hseq, seq_succ, dist_seq, Nat.mod_eq_of_lt (by omega)]
  rw [hdist] at hacked ⊢
  rw [h.readTxBuffer hsize hmem, List.getElem?_eq_getElem (by rw [Ring.length_get]; exact hj),
    Ring.getElem_get, hfirst, h.held (by omega) (p + j) hacked (by omega)]
  change some (written.getD (p + j) 0) = _
  rw [List.getD_eq_getElem?_getD, List.getElem?_eq_getElem (by omega), Option.getD_some]

theorem retransmitsWritten (s : Socket) (h : OutAccount s) (hstate : s.state.buffered = true)
    (hshort : s.history.written.length < 2 ^ 32 - 1) :
    RetransmitsWritten (Unacknowledged s) s := by
  have hinv := h.out hstate
  have htype : s.type ≠ .unused := fun hunused => by
    rw [h.unused hunused] at hstate
    exact Bool.noConfusion hstate
  have hsize : 0 < s.snd.txBufferSize := (h.sized htype).1
  refine ⟨hinv.covered, fun entry hentry => ?_⟩
  obtain ⟨new, hsent, hnew⟩ := retransmitLoop_sent s.state s.snd s.net 0 s.snd.retransmitQueue
  rw [tcpRetransmitSegment, hsent, List.drop_left] at hentry
  obtain ⟨item, hmem, hheader, hdata⟩ := hnew entry hentry
  refine ⟨item, hmem, hheader, ?_, fun j hj hcounted => ?_⟩
  · rw [hdata, hinv.readTxBuffer hsize hmem, Ring.length_get]
  · obtain ⟨p, hseq, hle, hlt⟩ := (hinv.items item hmem (by omega)).position
    have hacked : ackedBytes s.snd s.history.written s.state ≤ p + j := by
      by_contra hbefore
      have hlen := hinv.length_le hmem
      rw [ackedBytes] at hlt hbefore
      rw [Unacknowledged, tcpCmpSeq, hseq, seq_add, hinv.una_eq, cmp_seq _ (by omega) (by omega)]
        at hcounted
      omega
    rw [hdata]
    refine hinv.carries hsize hshort hmem hj ?_
    rwa [hseq, seq_add, show p + 1 + j = p + j + 1 by omega, seq_succ, dist_seq,
      Nat.mod_eq_of_lt (by omega)]

/-- A connection on a socket with a send buffer of `size` bytes. -/
def connectWith (size : ℕ) : List Event :=
  [.open .stream 49152, .setTxBufferSize size] ++ handshake 100 500 1000

/-- `n` bytes of what has been sent are acknowledged. -/
def acknowledging (n : UInt32) : Event :=
  .segment (.ofData { ack := true } 501 (101 + n) 1000 [] noData_lt) true

/-- **The send side is reliable**: in every state that a run reaches on which no remains of an
earlier connection are queued, what is sent and not acknowledged is covered by the retransmission
queue and retransmitted as it was written. -/
theorem retransmitsWritten_of_queueClean (outcomes : ℕ → SendOutcome) (events : List Event)
    (h : Along QueueClean step (Slot.init outcomes) events)
    (hstate : (run step (Slot.init outcomes) events).socket.state.synchronized = true)
    (hwait : (run step (Slot.init outcomes) events).socket.state ≠ .timeWait)
    (hshort : (run step (Slot.init outcomes) events).socket.history.written.length < 2 ^ 32 - 1) :
    RetransmitsWritten (Unacknowledged (run step (Slot.init outcomes) events).socket)
      (run step (Slot.init outcomes) events).socket := by
  have hinv : OutAccount (run step (Slot.init outcomes) events).socket :=
    run_invariant (I := fun slot => OutAccount slot.socket)
      (fun slot event hinv hevent => hinv.step hevent)
      ⟨sizedInv_init outcomes, .of_not_buffered rfl⟩ h
  refine retransmitsWritten _ hinv ?_ hshort
  revert hstate hwait
  cases (run step (Slot.init outcomes) events).socket.state <;>
    simp [TcpState.synchronized, TcpState.buffered]

/-- A segment of two bytes, one of them acknowledged. -/
theorem retransmitsWritten_acknowledging :
    RetransmitsWritten (Unacknowledged (run step (Slot.init fun _ => {})
        (connectWith 2 ++ [.send [7, 8] {}, acknowledging 1])).socket)
      (run step (Slot.init fun _ => {})
        (connectWith 2 ++ [.send [7, 8] {}, acknowledging 1])).socket :=
  retransmitsWritten_of_queueClean _ _
    ⟨⟨trivial, trivial⟩, ⟨trivial, trivial⟩, ⟨trivial, fun _ => by decide⟩, ⟨trivial, trivial⟩,
      ⟨trivial, trivial⟩, ⟨trivial, trivial⟩, trivial⟩ (by decide) (by decide) (by decide)

/-- The slot of an acknowledged byte is used for the next one, and the segment is still queued. -/
def slotReused : Socket :=
  (run step (Slot.init fun _ => {})
    (connectWith 2 ++ [.send [7, 8] {}, acknowledging 1, .send [9] {}])).socket

/-- The retransmission of the segment carries the new byte in the place of the old one. -/
theorem slotReused_not_retransmitsWritten : ¬ RetransmitsWritten (fun _ => True) slotReused := by
  intro h
  have hwritten : ∀ entry ∈ (tcpRetransmitSegment slotReused).net.sent.drop
      slotReused.net.sent.length, ∃ item ∈ slotReused.snd.retransmitQueue,
        entry.2.header = item.header ∧ ∀ j < item.length, entry.2.data[j]?
          = slotReused.history.written[
            (item.header.seqNum + UInt32.ofNat j - slotReused.snd.iss - 1).toNat]? := by
    intro entry hentry
    obtain ⟨item, hmem, hheader, -, hvalues⟩ := h.carries entry hentry
    exact ⟨item, hmem, hheader, fun j hj => hvalues j hj trivial⟩
  exact absurd hwritten (by decide)

end Tcp
