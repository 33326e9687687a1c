import CycloneTcp.Core.TcpTransitions

set_option autoImplicit false

/-! # The send side of a connection

How many bytes have been written, sent and acknowledged. The counters are 16 or 32 bits wide and the
code subtracts without looking: the invariant says that they are the exact numbers of bytes. -/

namespace Tcp

open Serial

/-- Our FIN has been sent. -/
def TcpState.finSent : TcpState → Bool
  | .finWait1 | .finWait2 | .closing | .lastAck | .timeWait => true
  | _ => false

/-- The send side after `written` has been written: all but `sndUser` bytes of it have been sent, after
the SYN and before the FIN. -/
structure SendInv (snd : SendSide) (written : List UInt8) (state : TcpState) : Prop where
  room : snd.sndUser.toNat + (snd.sndNxt - snd.sndUna).toNat
    ≤ snd.txBufferSize + state.finSent.toNat
  size : snd.txBufferSize ≤ TCP_MAX_TX_BUFFER_SIZE
  sndUser_le : snd.sndUser.toNat ≤ written.length
  sndNxt : snd.sndNxt
    = seq snd.iss (written.length - snd.sndUser.toNat + 1 + state.finSent.toNat)
  done : state ≠ .established → state ≠ .closeWait → snd.sndUser = 0

namespace SendInv

variable {snd : SendSide} {written : List UInt8} {state : TcpState}

theorem congr {snd' : SendSide} (h : SendInv snd written state) (hsame : SendSide.Same snd snd') :
    SendInv snd' written state where
  room := by rw [hsame.sndUser, hsame.sndNxt, hsame.sndUna, hsame.txBufferSize]; exact h.room
  size := by rw [hsame.txBufferSize]; exact h.size
  sndUser_le := by rw [hsame.sndUser]; exact h.sndUser_le
  sndNxt := by rw [hsame.sndUser, hsame.sndNxt, hsame.iss]; exact h.sndNxt
  done h1 h2 := by rw [hsame.sndUser]; exact h.done h1 h2

/-- The distance from SND.UNA to SND.NXT is not larger than the buffer. -/
theorem flight_le (h : SendInv snd written state) :
    snd.sndUser.toNat + (snd.sndNxt - snd.sndUna).toNat ≤ 22881 := by
  have hroom := h.room
  have hsize := h.size
  rw [TCP_MAX_TX_BUFFER_SIZE] at hsize
  have : state.finSent.toNat ≤ 1 := Bool.toNat_le _
  omega

theorem una_le (h : SendInv snd written state) : 0 ≤ tcpCmpSeq snd.sndNxt snd.sndUna := by
  rw [tcpCmpSeq, cmp_nonneg]
  have := h.flight_le
  omega

/-- The state changes, and with it neither what has been sent nor what may be written. -/
theorem changeState (h : SendInv snd written state) (next : TcpState)
    (hfin : next.finSent = state.finSent)
    (hdone : next ≠ .established → next ≠ .closeWait →
      state ≠ .established ∧ state ≠ .closeWait) : SendInv snd written next where
  room := by rw [hfin]; exact h.room
  size := h.size
  sndUser_le := h.sndUser_le
  sndNxt := by rw [hfin]; exact h.sndNxt
  done h1 h2 := h.done (hdone h1 h2).1 (hdone h1 h2).2

end SendInv

/-- An acceptable ACK divides the data in flight. -/
theorem ack_between {una nxt a : UInt32} (hpos : 0 < tcpCmpSeq a una) (hle : tcpCmpSeq a nxt ≤ 0)
    (hd : (nxt - una).toNat < 2 ^ 31) :
    (a - una).toNat + (nxt - a).toNat = (nxt - una).toNat := by
  rw [tcpCmpSeq, cmp_pos] at hpos
  have hback : ¬ (0 < (a - nxt).toNat ∧ (a - nxt).toNat < 2 ^ 31) := by
    rw [← cmp_pos]
    exact not_lt.2 hle
  have := a.toNat_lt
  have := una.toNat_lt
  have := nxt.toNat_lt
  simp only [UInt32.toNat_sub] at hpos hback hd ⊢
  omega

theorem SendInv.ackTo {snd : SendSide} {written : List UInt8} {state : TcpState}
    (h : SendInv snd written state) {a : UInt32} (hpos : 0 < tcpCmpSeq a snd.sndUna)
    (hle : tcpCmpSeq a snd.sndNxt ≤ 0) (queue : List TcpQueueItem) :
    SendInv { snd with sndUna := a, retransmitQueue := queue } written state where
  room := by
    have hflight := h.flight_le
    have hsum := ack_between hpos hle (by omega)
    have hroom := h.room
    change snd.sndUser.toNat + (snd.sndNxt - a).toNat ≤ snd.txBufferSize + state.finSent.toNat
    omega
  size := h.size
  sndUser_le := h.sndUser_le
  sndNxt := h.sndNxt
  done := h.done

theorem toNat_add_ofNat_sub {nxt una : UInt32} {n : ℕ} (h : (nxt - una).toNat + n < 2 ^ 32) :
    (nxt + UInt32.ofNat n - una).toNat = (nxt - una).toNat + n := by
  have := una.toNat_lt
  have := nxt.toNat_lt
  simp only [UInt32.toNat_sub, UInt32.toNat_add, UInt32.toNat_ofNat'] at h ⊢
  omega

theorem SendInv.advance {snd : SendSide} {written : List UInt8} {state : TcpState}
    (h : SendInv snd written state) {n : ℕ} (hn : n ≤ snd.sndUser.toNat)
    (queue : List TcpQueueItem) :
    SendInv ({ snd with retransmitQueue := queue }.advance n) written state := by
  have hflight := h.flight_le
  have huser : (snd.sndUser - UInt16.ofNat n).toNat = snd.sndUser.toNat - n := by
    have := snd.sndUser.toNat_lt
    have hword : (UInt16.ofNat n).toNat = n := by
      rw [UInt16.toNat_ofNat']
      omega
    rw [UInt16.toNat_sub_of_le _ _ (by rw [UInt16.le_iff_toNat_le, hword]; omega), hword]
  have hnxt : (snd.sndNxt + UInt32.ofNat n - snd.sndUna).toNat
      = (snd.sndNxt - snd.sndUna).toNat + n := toNat_add_ofNat_sub (by omega)
  have hle := h.sndUser_le
  have hroom := h.room
  refine ⟨?_, h.size, ?_, ?_, ?_⟩
  · change (snd.sndUser - UInt16.ofNat n).toNat + (snd.sndNxt + UInt32.ofNat n - snd.sndUna).toNat
      ≤ snd.txBufferSize + state.finSent.toNat
    omega
  · change (snd.sndUser - UInt16.ofNat n).toNat ≤ written.length
    omega
  · change snd.sndNxt + UInt32.ofNat n = seq snd.iss
      (written.length - (snd.sndUser - UInt16.ofNat n).toNat + 1 + state.finSent.toNat)
    rw [h.sndNxt, seq_add, huser]
    congr 1
    omega
  · intro h1 h2
    have hzero := h.done h1 h2
    change snd.sndUser - UInt16.ofNat n = 0
    apply UInt16.toNat_inj.1
    rw [huser, hzero]
    simp

theorem pending_toNat {snd : SendSide} {written : List UInt8} {state : TcpState}
    (h : SendInv snd written state) :
    snd.pending.toNat = snd.sndUser.toNat + (snd.sndNxt - snd.sndUna).toNat := by
  have hflight := h.flight_le
  have := snd.sndUna.toNat_lt
  have := snd.sndNxt.toNat_lt
  rw [SendSide.pending]
  simp only [UInt32.toNat_sub, UInt32.toNat_add, UInt16.toNat_toUInt32] at hflight ⊢
  omega

theorem toNat_add_ofNat16 {x : UInt16} {n : ℕ} (h : x.toNat + n < 2 ^ 16) :
    (x + UInt16.ofNat n).toNat = x.toNat + n := by
  rw [UInt16.toNat_add, UInt16.toNat_ofNat']
  omega

/-- What `copyUserData` does to the send side. -/
theorem copyUserData_snd (s : Socket) (data : List UInt8) {n : ℕ} (hn : 0 < n) :
    ∃ txBuffer overrideTimer, (copyUserData s data n).snd = { s.snd with
      sndUser := s.snd.sndUser + UInt16.ofNat n
      txBuffer := txBuffer
      overrideTimer := overrideTimer } := by
  rw [copyUserData, if_pos hn]
  simp only [tcpWriteTxBuffer]
  split
  · exact ⟨_, _, rfl⟩
  · exact ⟨_, _, rfl⟩

theorem SendInv.write {s : Socket} (h : SendInv s.snd s.history.written s.state)
    (hstate : s.state = .established ∨ s.state = .closeWait) (data : List UInt8) {n : ℕ}
    (hpos : 0 < n) (hn : n ≤ data.length)
    (hroom : s.snd.pending.toNat + n ≤ s.snd.txBufferSize) :
    SendInv (copyUserData s data n).snd (s.history.written ++ data.take n) s.state := by
  obtain ⟨txBuffer, overrideTimer, hsnd⟩ := copyUserData_snd s data hpos
  rw [pending_toNat h] at hroom
  have hsize := h.size
  rw [TCP_MAX_TX_BUFFER_SIZE] at hsize
  have huser : (s.snd.sndUser + UInt16.ofNat n).toNat = s.snd.sndUser.toNat + n :=
    toNat_add_ofNat16 (by omega)
  have hlen : (s.history.written ++ data.take n).length = s.history.written.length + n := by
    rw [List.length_append, List.length_take]
    omega
  have hle := h.sndUser_le
  rw [hsnd]
  refine ⟨?_, h.size, ?_, ?_, ?_⟩
  · change (s.snd.sndUser + UInt16.ofNat n).toNat + (s.snd.sndNxt - s.snd.sndUna).toNat
      ≤ s.snd.txBufferSize + s.state.finSent.toNat
    omega
  · change (s.snd.sndUser + UInt16.ofNat n).toNat ≤ _
    rw [huser, hlen]
    omega
  · change s.snd.sndNxt = seq s.snd.iss (_ - (s.snd.sndUser + UInt16.ofNat n).toNat + 1 + _)
    rw [huser, hlen, h.sndNxt]
    congr 2
    omega
  · intro h1 h2
    rcases hstate with hstate | hstate
    · exact absurd hstate h1
    · exact absurd hstate h2

theorem SendInv.leave {snd : SendSide} {written : List UInt8} {state next : TcpState}
    (h : SendInv snd written state) (hallowed : FinAllowed state next) (hdone : snd.sndUser = 0) :
    SendInv { snd with sndNxt := snd.sndNxt + 1 } written next := by
  have hflight := h.flight_le
  have hroom := h.room
  have hfin : state.finSent = false ∧ next.finSent = true := by
    rcases hallowed with ⟨rfl, rfl | rfl⟩ | ⟨rfl, rfl⟩ <;> exact ⟨rfl, rfl⟩
  have hnxt : (snd.sndNxt + 1 - snd.sndUna).toNat = (snd.sndNxt - snd.sndUna).toNat + 1 :=
    toNat_add_ofNat_sub (n := 1) (by omega)
  refine ⟨?_, h.size, h.sndUser_le, ?_, fun _ _ => hdone⟩
  · change snd.sndUser.toNat + (snd.sndNxt + 1 - snd.sndUna).toNat
      ≤ snd.txBufferSize + next.finSent.toNat
    rw [hfin.1, Bool.toNat_false] at hroom
    rw [hfin.2, Bool.toNat_true]
    omega
  · change snd.sndNxt + 1 = seq snd.iss (written.length - snd.sndUser.toNat + 1 + next.finSent.toNat)
    rw [h.sndNxt, hfin.1, hfin.2, seq_add_one]
    rfl

/-- A prepared control block, its SYN counted as sent. -/
theorem Prepared.sendInv {s : Socket} {kinds : Remains} (h : Prepared kinds s)
    (hkinds : kinds.data = true) (hsized : s.Sized) (next : TcpState)
    (hnext : next = .synSent ∨ next = .synReceived) : SendInv s.snd s.history.written next := by
  have huser : s.snd.sndUser = 0 := h.unused.1 hkinds
  have hfin : next.finSent = false := by rcases hnext with rfl | rfl <;> rfl
  refine ⟨?_, hsized.2.1, ?_, ?_, fun _ _ => huser⟩
  · rw [huser, h.sndUna, h.sndNxt, UInt32.add_comm, UInt32.add_sub_cancel, hfin]
    exact hsized.1
  · rw [huser]
    exact Nat.zero_le _
  · rw [h.sndNxt, huser, h.written, hfin]
    rfl

/-! ## The sizes of the buffers -/

variable {R : TcpState → Bool → Prop} {K : Remains} {O : Prop}

/-- A socket that is not in use is closed, one that is in use has buffers of acceptable sizes. -/
structure SizedInv (s : Socket) : Prop where
  unused : s.type = .unused → s.state = .closed
  sized : s.type ≠ .unused → s.Sized

theorem socketOpen_sized (s : Socket) (type : SocketType) (port : UInt16) :
    (socketOpen s type port).Sized := by
  simp [Socket.Sized, socketOpen, Socket.cleared, TCP_DEFAULT_TX_BUFFER_SIZE,
    TCP_DEFAULT_RX_BUFFER_SIZE, TCP_MAX_TX_BUFFER_SIZE, TCP_MAX_RX_BUFFER_SIZE]

@[simp] theorem openWindow_rxBufferSize (rcv : ReceiveSide) :
    rcv.openWindow.rxBufferSize = rcv.rxBufferSize := by
  rw [ReceiveSide.openWindow]
  split <;> rfl

@[simp] theorem readData_rxBufferSize (s : Socket) (data : List UInt8) :
    (s.readData data).rcv.rxBufferSize = s.rcv.rxBufferSize := by
  simp [Socket.readData]

@[simp] theorem receiveData_rxBufferSize (rcv : ReceiveSide) (segment : Segment) :
    (receiveData rcv segment).rxBufferSize = rcv.rxBufferSize := by
  have hwrite : ∀ q data o len,
      (tcpWriteRxBuffer rcv q data o len).rxBufferSize = rcv.rxBufferSize := by
    intro q data o len
    rw [tcpWriteRxBuffer]
    split <;> rfl
  simp only [receiveData, tcpUpdateSackBlocks, ReceiveSide.advance]
  split_ifs <;> exact hwrite _ _ _ _

theorem SizedInv.act {s s' : Socket} (h : SizedInv s) (hact : Act R K O s s') : SizedInv s' := by
  refine ⟨hact.unused h.unused, ?_⟩
  intro htype
  have hsame : s'.type = s.type → s'.snd.txBufferSize = s.snd.txBufferSize →
      s'.rcv.rxBufferSize = s.rcv.rxBufferSize → s'.Sized := by
    intro h1 h2 h3
    rw [Socket.Sized, h2, h3]
    exact h.sized (by rwa [← h1])
  cases hact with
  | keep hk => exact hsame hk.same.type hk.snd.txBufferSize (by rw [hk.same.rcv])
  | ack | finAcked | disown | addFin | addSyn => exact hsame rfl rfl rfl
  | sendData item sent => cases sent <;> exact hsame rfl rfl rfl
  | write data n hs hpos =>
      obtain ⟨txBuffer, overrideTimer, hsnd⟩ := copyUserData_snd s data hpos
      exact hsame (copyUserData_of_pos s data hpos).1 (by rw [hsnd])
        (by rw [copyUserData, if_pos hpos])
  | data segment =>
      have hsize := receiveData_rxBufferSize s.rcv segment
      generalize receiveData s.rcv segment = rcv' at *
      exact hsame rfl rfl hsize
  | fin segment next =>
      refine hsame (passFin_type s next) ?_ ?_ <;> rw [Socket.passFin] <;>
        split <;> simp [tcpDeleteControlBlock]
  | finWait2 | established | finish | reset | connect | accept | listen | leave =>
      exact hsame (by simp) (by simp) (by simp)
  | timeWait =>
      exact hsame (by simp [tcpDeleteControlBlock]) (by simp [tcpDeleteControlBlock])
        (by simp [tcpDeleteControlBlock])
  | synSent segment next =>
      exact hsame (by simp [Socket.passSyn, Socket.ackTo]) (by simp [Socket.passSyn, Socket.ackTo])
        (by simp [Socket.passSyn])
  | dispose => exact absurd rfl htype
  | read => exact hsame rfl rfl (readData_rxBufferSize _ _)
  | opened hopens type port => exact socketOpen_sized s type port
  | configure _ hopens hstate htype' hunused hstate' htype'' hunused' hsized =>
      exact hsized (h.sized htype')
  | resize txBufferSize rxBufferSize hstate htype' hflag hsized => exact hsized (h.sized htype')

/-! ## The accounts -/

/-- What the actions preserve: the accounts of every connection. -/
structure SendAccount (s : Socket) : Prop extends SizedInv s where
  send : s.state ≠ .closed → s.state ≠ .listen → SendInv s.snd s.history.written s.state

namespace SendAccount

variable {s s' : Socket}

/-- The queue and the buffer are not counted. -/
theorem of_same (h : SendAccount s) (hinv : SizedInv s') (hstate : s'.state = s.state)
    (hsnd : SendSide.Same s.snd { s'.snd with
      txBuffer := s.snd.txBuffer, retransmitQueue := s.snd.retransmitQueue })
    (hwritten : s'.history.written = s.history.written) : SendAccount s' := by
  refine ⟨hinv, ?_⟩
  rw [hstate, hwritten]
  intro h1 h2
  have hsend := (h.send h1 h2).congr hsnd
  exact ⟨hsend.room, hsend.size, hsend.sndUser_le, hsend.sndNxt, hsend.done⟩

/-- A change of state that is none to the send side. -/
theorem changeState (h : SendAccount s) (hinv : SizedInv s') (hopen : s.state ≠ .closed)
    (hlisten : s.state ≠ .listen)
    (hsnd : SendSide.Same s.snd { s'.snd with
      txBuffer := s.snd.txBuffer, retransmitQueue := s.snd.retransmitQueue })
    (hwritten : s'.history.written = s.history.written) (hfin : s'.state.finSent = s.state.finSent)
    (hdone : s'.state ≠ .established → s'.state ≠ .closeWait →
      s.state ≠ .established ∧ s.state ≠ .closeWait) : SendAccount s' := by
  refine ⟨hinv, ?_⟩
  rw [hwritten]
  intro _ _
  have hsend := ((h.send hopen hlisten).changeState s'.state hfin hdone).congr hsnd
  exact ⟨hsend.room, hsend.size, hsend.sndUser_le, hsend.sndNxt, hsend.done⟩

theorem synSent_step (h : SendAccount s) {segment : Segment} {next : TcpState}
    (hinv : SizedInv (s.passSyn segment next)) (hstate : s.state = .synSent)
    (hack : segment.flags.ack = true → segment.ackNum = s.snd.sndNxt)
    (hnext : next = .established ∨ next = .synReceived) :
    SendAccount (s.passSyn segment next) := by
  refine ⟨hinv, fun _ _ => ?_⟩
  have hsend : SendInv s.snd s.history.written s.state :=
    h.send (by simp [hstate]) (by simp [hstate])
  have huser : s.snd.sndUser = 0 := hsend.done (by simp [hstate]) (by simp [hstate])
  have hfin : next.finSent = s.state.finSent := by
    rcases hnext with rfl | rfl <;> rw [hstate] <;> rfl
  have hroom := hsend.room
  simp only [Socket.passSyn, tcpChangeState_snd, tcpChangeState_history, tcpChangeState_state]
  refine ⟨?_, hsend.size, hsend.sndUser_le, by rw [hfin]; exact hsend.sndNxt, fun _ _ => huser⟩
  change s.snd.sndUser.toNat + (s.snd.sndNxt - s.unaOnSyn segment).toNat
    ≤ s.snd.txBufferSize + next.finSent.toNat
  rw [hfin, Socket.unaOnSyn]
  split
  case isTrue hflag =>
    rw [hack hflag, UInt32.sub_self, UInt32.toNat_zero]
    omega
  case isFalse => exact hroom

theorem leave (h : SendAccount s) {next : TcpState} (hallowed : FinAllowed s.state next)
    (hdone : s.txDone = true) :
    SendInv { s.snd with sndNxt := s.snd.sndNxt + 1 } s.history.written next := by
  have hopen : s.state ≠ .closed ∧ s.state ≠ .listen := by
    rcases hallowed with ⟨-, hs | hs⟩ | ⟨-, hs⟩ <;> simp [hs]
  have hsend := h.send hopen.1 hopen.2
  refine hsend.leave hallowed ?_
  rw [Socket.txDone] at hdone
  rcases hallowed with ⟨-, hs | hs⟩ | ⟨-, hs⟩
  · exact hsend.done (by simp [hs]) (by simp [hs])
  · rw [hs] at hdone
    simpa using hdone
  · rw [hs] at hdone
    simpa using hdone

/-- **The actions keep the accounts of the send side.** -/
theorem act (h : SendAccount s) (hdata : K.data = true) (hact : Act R K O s s') :
    SendAccount s' := by
  have hinv := h.toSizedInv.act hact
  have hclosed : s'.state = .closed → SendAccount s' := fun hs => ⟨hinv, fun h1 => absurd hs h1⟩
  cases hact with
  | keep hk =>
      have hsnd := hk.snd
      exact h.of_same hinv hk.same.state
        ⟨hsnd.iss, hsnd.sndUna, hsnd.sndNxt, hsnd.sndUser, rfl, hsnd.txBufferSize, rfl⟩
        (by rw [hk.same.history])
  | ack a hpos hle => exact ⟨hinv, fun h1 h2 => (h.send h1 h2).ackTo hpos hle _⟩
  | sendData item sent hstate hseq hsyn hfin hlen =>
      have hsend := h.send (by rcases hstate with hs | hs <;> simp [hs])
        (by rcases hstate with hs | hs <;> simp [hs])
      cases sent with
      | false => exact h.of_same hinv rfl (.refl _) rfl
      | true => exact ⟨hinv, fun _ _ => hsend.advance hlen _⟩
  | write data n hstate hpos hn hroom =>
      have hsend := h.send (by rcases hstate with hs | hs <;> simp [hs])
        (by rcases hstate with hs | hs <;> simp [hs])
      refine ⟨hinv, fun _ _ => ?_⟩
      rw [(copyUserData_of_pos s data hpos).2.2.2, copyUserData_state]
      exact hsend.write hstate data hpos hn hroom
  | data | finAcked | disown | addFin | read | addSyn => exact h.of_same hinv rfl (.refl _) rfl
  | fin segment next hfin hnext =>
      refine h.changeState hinv ?_ ?_ ?_ (by simp) ?_ ?_
      · rcases hnext with ⟨hs, -⟩ | ⟨hs, -⟩ | ⟨hs, -⟩ <;> simp [hs]
      · rcases hnext with ⟨hs, -⟩ | ⟨hs, -⟩ | ⟨hs, -⟩ <;> simp [hs]
      · rw [Socket.passFin]
        split
        · rw [tcpChangeState_snd]
          exact ⟨rfl, rfl, rfl, rfl, rfl, rfl, rfl⟩
        · rw [tcpChangeState_snd]
          exact .refl _
      · rcases hnext with ⟨hs, rfl⟩ | ⟨hs, rfl⟩ | ⟨hs, rfl⟩ <;> simp [hs, TcpState.finSent]
      · rcases hnext with ⟨hs, rfl⟩ | ⟨hs, rfl⟩ | ⟨hs, rfl⟩ <;> simp [hs]
  | finWait2 hstate | established hstate =>
      refine h.changeState hinv (by simp [hstate]) (by simp [hstate]) ?_ (by simp)
        (by simp [hstate, TcpState.finSent]) (by simp [hstate])
      rw [tcpChangeState_snd]
      exact .refl _
  | timeWait hstate =>
      refine h.changeState hinv (by simp [hstate]) (by simp [hstate]) ?_
        (by simp [tcpDeleteControlBlock]) (by simp [hstate, TcpState.finSent]) (by simp [hstate])
      rw [tcpChangeState_snd]
      exact ⟨rfl, rfl, rfl, rfl, rfl, rfl, rfl⟩
  | synSent segment next hstate hack hnext =>
      exact h.synSent_step hinv hstate hack (by tauto)
  | finish | reset => exact hclosed rfl
  | dispose hstate => exact hclosed hstate
  | leave next hallowed hdone =>
      refine ⟨hinv, fun _ _ => ?_⟩
      rw [tcpChangeState_snd, tcpChangeState_history, tcpChangeState_state]
      exact h.leave hallowed hdone
  | opened => exact hclosed rfl
  | configure _ hopens hstate htype hun hstate' => exact hclosed hstate'
  | resize txBufferSize rxBufferSize hstate => exact hclosed hstate
  | connect hopens hp =>
      refine ⟨hinv, fun _ _ => ?_⟩
      rw [tcpChangeState_snd, tcpChangeState_history, tcpChangeState_state]
      exact hp.sendInv hdata (h.sized hp.type) _ (.inl rfl)
  | accept hopens hp =>
      refine ⟨hinv, fun _ _ => ?_⟩
      rw [tcpChangeState_snd, tcpChangeState_history, tcpChangeState_state]
      exact hp.sendInv hdata (h.sized hp.type) _ (.inr rfl)
  | listen => exact ⟨hinv, fun _ h2 => absurd rfl h2⟩

end SendAccount

end Tcp
