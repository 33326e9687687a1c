import CycloneTcp.Core.TcpReassembly
import CycloneTcp.Core.TcpSending

set_option autoImplicit false

/-! # The receive side of a connection

How many bytes have been received and read, and how far the window goes. -/

namespace Tcp

open Serial

/-- The FIN of the peer has been received. -/
def TcpState.finReceived : TcpState → Bool
  | .closeWait | .closing | .lastAck | .timeWait => true
  | _ => false

/-- The receive side after the FIN of the peer, when `n` bytes have been received. -/
structure RxClosed (rcv : ReceiveSide) (n : ℕ) : Prop where
  rcvNxt : rcv.rcvNxt = seq (rcv.irs + 1) (n + 1)
  room : rcv.rcvUser.toNat + rcv.rcvWnd.toNat ≤ rcv.rxBufferSize
  size : rcv.rxBufferSize ≤ TCP_MAX_RX_BUFFER_SIZE

/-- The receive side before the SYN of the peer. -/
structure RxFresh (rcv : ReceiveSide) : Prop where
  rcvUser : rcv.rcvUser = 0
  rcvWnd : rcv.rcvWnd.toNat = rcv.rxBufferSize
  size : rcv.rxBufferSize ≤ TCP_MAX_RX_BUFFER_SIZE
  sackBlock : rcv.sackBlock = []

/-- Number of data bytes received in order. -/
def Socket.received (s : Socket) : ℕ := s.history.delivered.length + s.rcv.rcvUser.toNat

/-- Opening the window uses the room that is left, no more. -/
theorem openWindow_spec (rcv : ReceiveSide)
    (hroom : rcv.rcvUser.toNat + rcv.rcvWnd.toNat ≤ rcv.rxBufferSize)
    (hsize : rcv.rxBufferSize ≤ TCP_MAX_RX_BUFFER_SIZE) :
    ∃ rcvWnd, rcv.openWindow = { rcv with rcvWnd := rcvWnd } ∧
      rcv.rcvWnd.toNat ≤ rcvWnd.toNat ∧ rcv.rcvUser.toNat + rcvWnd.toNat ≤ rcv.rxBufferSize := by
  rw [TCP_MAX_RX_BUFFER_SIZE] at hsize
  have hsum : (rcv.rcvWnd + (UInt16.ofNat rcv.rxBufferSize - rcv.rcvUser - rcv.rcvWnd)).toNat
      = rcv.rxBufferSize - rcv.rcvUser.toNat := by
    have := rcv.rcvUser.toNat_lt
    have := rcv.rcvWnd.toNat_lt
    simp only [UInt16.toNat_add, UInt16.toNat_sub, UInt16.toNat_ofNat']
    omega
  rw [ReceiveSide.openWindow]
  split
  · exact ⟨_, rfl, by omega, by omega⟩
  · exact ⟨_, rfl, le_rfl, hroom⟩

theorem copyReceived_length (rcv : ReceiveSide) (q : UInt32) (n : ℕ) (flags : SocketFlags) :
    (copyReceived rcv q n flags).length ≤ n := by
  rw [copyReceived]
  split
  · rw [List.length_take]
    exact le_trans (Nat.min_le_right _ _) (by simp)
  · simp

/-- The receive side after `data` has been read: the window may have grown. -/
structure ReadBy (s s' : Socket) (data : List UInt8) (user wnd : UInt16) : Prop where
  rcv : s'.rcv = { s.rcv with rcvUser := user, rcvWnd := wnd }
  rcvUser : user.toNat + data.length = s.rcv.rcvUser.toNat
  wnd_ge : s.rcv.rcvWnd.toNat ≤ wnd.toNat
  room : user.toNat + wnd.toNat ≤ s.rcv.rxBufferSize

theorem readData_spec {s : Socket} {data : List UInt8} (hdata : data.length ≤ s.rcv.rcvUser.toNat)
    (hroom : s.rcv.rcvUser.toNat + s.rcv.rcvWnd.toNat ≤ s.rcv.rxBufferSize)
    (hsize : s.rcv.rxBufferSize ≤ TCP_MAX_RX_BUFFER_SIZE) :
    ∃ user wnd, ReadBy s (s.readData data) data user wnd := by
  have huser : (s.rcv.rcvUser - UInt16.ofNat data.length).toNat + data.length
      = s.rcv.rcvUser.toNat := by
    have := s.rcv.rcvUser.toNat_lt
    simp only [UInt16.toNat_sub, UInt16.toNat_ofNat']
    omega
  obtain ⟨rcvWnd, heq, hge, hle⟩ := openWindow_spec
    { s.rcv with rcvUser := s.rcv.rcvUser - UInt16.ofNat data.length }
    (show (s.rcv.rcvUser - UInt16.ofNat data.length).toNat + s.rcv.rcvWnd.toNat
      ≤ s.rcv.rxBufferSize by omega) hsize
  exact ⟨_, rcvWnd, heq, huser, hge, hle⟩

theorem ReadBy.received {s : Socket} {data : List UInt8} {user wnd : UInt16}
    (h : ReadBy s (s.readData data) data user wnd) :
    (s.readData data).received = s.received := by
  have huser := h.rcvUser
  rw [Socket.received, Socket.received, h.rcv]
  simp only [Socket.readData, List.length_append]
  omega

/-- A larger window does not disturb the reassembly. -/
theorem Reassembly.read {rcv : ReceiveSide} {n : ℕ} {spans : List Span}
    (h : Reassembly rcv n spans) {rcvUser rcvWnd : UInt16} (hge : rcv.rcvWnd.toNat ≤ rcvWnd.toNat)
    (hroom : rcvUser.toNat + rcvWnd.toNat ≤ rcv.rxBufferSize) :
    Reassembly { rcv with rcvUser := rcvUser, rcvWnd := rcvWnd } n spans := by
  refine ⟨h.rcvNxt, hroom, h.size, h.sackBlock, ?_, h.apart⟩
  intro c hc
  obtain ⟨hgt, hin⟩ := h.inside c hc
  refine ⟨hgt, hin.1, hin.2.1, le_trans hin.2.2 ?_⟩
  exact Nat.add_le_add_left hge n

theorem Reassembly.rxClosed {rcv : ReceiveSide} {n : ℕ} {spans : List Span}
    (h : Reassembly rcv n spans) : RxClosed { rcv with rcvNxt := rcv.rcvNxt + 1 } n :=
  ⟨by rw [h.rcvNxt, seq_add_one], h.room, h.size⟩

/-- Reassembly begins after the SYN. -/
theorem reassembly_zero {rcv : ReceiveSide} (h : RxFresh rcv) (hnxt : rcv.rcvNxt = rcv.irs + 1) :
    Reassembly rcv 0 [] :=
  ⟨by rw [hnxt, seq_zero], by rw [h.rcvUser, h.rcvWnd]; simp, h.size, by rw [h.sackBlock]; rfl,
    by simp, .nil⟩

theorem Prepared.rxFresh {s : Socket} {kinds : Remains} (h : Prepared kinds s)
    (hkinds : kinds.blocks = true) (hsized : s.Sized) : RxFresh s.rcv := by
  have hsize := hsized.2.2.2
  refine ⟨h.rcvUser, ?_, hsize, h.unused.2.1 hkinds⟩
  rw [TCP_MAX_RX_BUFFER_SIZE] at hsize
  rw [h.rcvWnd, UInt16.toNat_ofNat']
  omega


/-! ## The accounts -/

variable {R : TcpState → Bool → Prop} {K : Remains} {O : Prop}

/-- The states in which data may still arrive. -/
def TcpState.Receiving (state : TcpState) : Prop :=
  state = .synReceived ∨ state = .established ∨ state = .finWait1 ∨ state = .finWait2

/-- What the actions preserve: the accounts of every connection. -/
structure ReceiveAccount (s : Socket) : Prop extends SizedInv s where
  synSent : s.state = .synSent → RxFresh s.rcv ∧ s.history.delivered = []
  receive : s.state.Receiving → ∃ spans, Reassembly s.rcv s.received spans
  received : s.state.finReceived = true → RxClosed s.rcv s.received

namespace ReceiveAccount

variable {s s' : Socket}

/-- Steps that leave the receive side alone, apart from the buffer. -/
theorem of_same (h : ReceiveAccount s) (hinv : SizedInv s') (hsyn : s'.state = .synSent →
      s.state = .synSent)
    (hreceive : s'.state.Receiving → s.state.Receiving)
    (hfin : s'.state.finReceived = true → s.state.finReceived = true)
    (hrcv : s'.rcv = { s.rcv with rxBuffer := s'.rcv.rxBuffer })
    (hdelivered : s'.history.delivered = s.history.delivered) : ReceiveAccount s' := by
  have hreceived : s'.received = s.received := by
    rw [Socket.received, Socket.received, hrcv, hdelivered]
  refine ⟨hinv, ?_, ?_, ?_⟩
  · rw [hdelivered, hrcv]
    intro hs
    obtain ⟨hfresh, hdel⟩ := h.synSent (hsyn hs)
    exact ⟨⟨hfresh.rcvUser, hfresh.rcvWnd, hfresh.size, hfresh.sackBlock⟩, hdel⟩
  · rw [hreceived, hrcv]
    intro hs
    obtain ⟨spans, hre⟩ := h.receive (hreceive hs)
    exact ⟨spans, hre.rcvNxt, hre.room, hre.size, hre.sackBlock, hre.inside, hre.apart⟩
  · rw [hreceived, hrcv]
    intro hs
    have hrx := h.received (hfin hs)
    exact ⟨hrx.rcvNxt, hrx.room, hrx.size⟩

/-- Steps that change neither the state nor the receive side. -/
theorem of_rcv (h : ReceiveAccount s) (hinv : SizedInv s') (hstate : s'.state = s.state)
    (hrcv : s'.rcv = s.rcv) (hdelivered : s'.history.delivered = s.history.delivered) :
    ReceiveAccount s' :=
  h.of_same hinv (by rw [hstate]; exact id) (by rw [hstate]; exact id) (by rw [hstate]; exact id)
    (by rw [hrcv]) hdelivered

/-- Nothing is promised in a state without a connection. -/
theorem of_idle (hinv : SizedInv s) (hstate : s.state = .closed ∨ s.state = .listen) :
    ReceiveAccount s where
  toSizedInv := hinv
  synSent h := by rcases hstate with hs | hs <;> simp [hs] at h
  receive h := by rcases hstate with hs | hs <;> simp [TcpState.Receiving, hs] at h
  received h := by rcases hstate with hs | hs <;> simp [TcpState.finReceived, hs] at h

theorem data (h : ReceiveAccount s) {segment : Segment}
    (hinv : SizedInv { s with rcv := receiveData s.rcv segment })
    (hstate : s.state = .established ∨ s.state = .finWait1 ∨ s.state = .finWait2)
    (hacc : acceptable s.rcv segment = true) (hlen : 0 < segment.length) :
    ReceiveAccount { s with rcv := receiveData s.rcv segment } := by
  obtain ⟨spans, hre⟩ := h.receive (.inr hstate)
  obtain ⟨a, b, k, spans', hre', hstored⟩ := receiveData_spec hre hacc hlen
  generalize receiveData s.rcv segment = rcv' at *
  have hopen : s.state ≠ .synSent ∧ s.state.finReceived = false := by
    rcases hstate with hs | hs | hs <;> rw [hs] <;> exact ⟨by simp, rfl⟩
  refine ⟨hinv, fun hs => absurd hs hopen.1, fun _ => ⟨spans', ?_⟩, fun hs => ?_⟩
  · have hn : Socket.received { s with rcv := rcv' } = s.received + k := by
      simp only [Socket.received, hstored.rcvUser]
      omega
    rw [hn]
    exact hre'
  · change s.state.finReceived = true at hs
    rw [hopen.2] at hs
    exact absurd hs (by simp)

theorem read (h : ReceiveAccount s) {seqNum : UInt32} {n : ℕ} {flags : SocketFlags}
    (hinv : SizedInv (s.readData (copyReceived s.rcv seqNum n flags)))
    (hn : n ≤ s.rcv.rcvUser.toNat) (hpos : 0 < n) :
    ReceiveAccount (s.readData (copyReceived s.rcv seqNum n flags)) := by
  have hdata : (copyReceived s.rcv seqNum n flags).length ≤ s.rcv.rcvUser.toNat :=
    le_trans (copyReceived_length _ _ _ _) hn
  generalize copyReceived s.rcv seqNum n flags = data at *
  refine ⟨hinv, fun hs => ?_, fun hs => ?_, fun hs => ?_⟩
  · rw [(h.synSent hs).1.rcvUser] at hn
    simp only [UInt16.toNat_zero] at hn
    omega
  · obtain ⟨spans, hre⟩ := h.receive hs
    obtain ⟨user, wnd, hby⟩ := readData_spec hdata hre.room hre.size
    refine ⟨spans, ?_⟩
    rw [hby.received, hby.rcv]
    exact hre.read hby.wnd_ge hby.room
  · have hrx := h.received hs
    obtain ⟨user, wnd, hby⟩ := readData_spec hdata hrx.room hrx.size
    rw [hby.received, hby.rcv]
    exact ⟨hrx.rcvNxt, hby.room, hrx.size⟩

theorem fin (h : ReceiveAccount s) {next : TcpState} (hinv : SizedInv (s.passFin next))
    (hnext : (s.state = .established ∧ next = .closeWait) ∨
      (s.state = .finWait1 ∧ next = .closing) ∨ (s.state = .finWait2 ∧ next = .timeWait)) :
    ReceiveAccount (s.passFin next) := by
  obtain ⟨spans, hre⟩ := h.receive (by
    rcases hnext with ⟨hs, -⟩ | ⟨hs, -⟩ | ⟨hs, -⟩ <;> simp [TcpState.Receiving, hs])
  have hkind : next ≠ .synSent ∧ ¬ next.Receiving := by
    rcases hnext with ⟨-, rfl⟩ | ⟨-, rfl⟩ | ⟨-, rfl⟩ <;> simp [TcpState.Receiving]
  have hrx := hre.rxClosed
  refine ⟨hinv, fun hs => absurd hs (by simpa using hkind.1),
    fun hs => absurd hs (by simpa using hkind.2), fun _ => ?_⟩
  rw [Socket.received, passFin_history, Socket.passFin]
  split
  · rw [tcpChangeState_rcv]
    exact ⟨hrx.rcvNxt, hrx.room, hrx.size⟩
  · rw [tcpChangeState_rcv]
    exact hrx

theorem synSent_step (h : ReceiveAccount s) {segment : Segment} {next : TcpState}
    (hinv : SizedInv (s.passSyn segment next)) (hstate : s.state = .synSent)
    (hnext : next = .established ∨ next = .synReceived) :
    ReceiveAccount (s.passSyn segment next) := by
  obtain ⟨hfresh, hdelivered⟩ := h.synSent hstate
  have hre : Reassembly { s.rcv with irs := segment.seqNum, rcvNxt := segment.seqNum + 1 } 0 [] :=
    reassembly_zero ⟨hfresh.rcvUser, hfresh.rcvWnd, hfresh.size, hfresh.sackBlock⟩ rfl
  refine ⟨hinv, fun hs => ?_, fun _ => ⟨[], ?_⟩, fun hs => ?_⟩
  · rcases hnext with rfl | rfl <;> simp [Socket.passSyn] at hs
  · have hzero : (s.passSyn segment next).received = 0 := by
      simp [Socket.passSyn, Socket.received, Socket.ackTo, hdelivered, hfresh.rcvUser]
    rw [hzero, Socket.passSyn, tcpChangeState_rcv]
    exact hre
  · rcases hnext with rfl | rfl <;> simp [Socket.passSyn, TcpState.finReceived] at hs

/-- A connection begins. -/
theorem begin (h : ReceiveAccount s) {next : TcpState} (hinv : SizedInv (tcpChangeState s next))
    (hp : Prepared K s) (hblocks : K.blocks = true)
    (hnext : next = .synSent ∨ next = .synReceived ∧ s.rcv.rcvNxt = s.rcv.irs + 1) :
    ReceiveAccount (tcpChangeState s next) := by
  have hfresh := hp.rxFresh hblocks (h.sized hp.type)
  refine ⟨hinv, fun _ => ?_, fun hs => ⟨[], ?_⟩, fun hs => ?_⟩
  · rw [tcpChangeState_rcv, tcpChangeState_history]
    exact ⟨hfresh, hp.delivered⟩
  · rw [Socket.received, tcpChangeState_rcv, tcpChangeState_history]
    simp only [hp.delivered, hfresh.rcvUser]
    rcases hnext with rfl | ⟨-, hnxt⟩
    · simp [TcpState.Receiving] at hs
    · exact reassembly_zero hfresh hnxt
  · rcases hnext with rfl | ⟨rfl, -⟩ <;> simp [TcpState.finReceived] at hs

/-- **The actions keep the accounts of the receive side.** -/
theorem act (h : ReceiveAccount s) (hblocks : K.blocks = true) (hact : Act R K O s s') :
    ReceiveAccount s' := by
  have hinv := h.toSizedInv.act hact
  cases hact with
  | keep hk => exact h.of_rcv hinv hk.same.state hk.same.rcv (by rw [hk.same.history])
  | ack | finAcked | disown | addFin | addSyn => exact h.of_rcv hinv rfl rfl rfl
  | sendData item sent => cases sent <;> exact h.of_rcv hinv rfl rfl rfl
  | write data n hstate hpos =>
      exact h.of_rcv hinv (copyUserData_state s data n) (by rw [copyUserData, if_pos hpos])
        (by rw [copyUserData, if_pos hpos])
  | data segment hstate hacc hlen => exact h.data hinv hstate hacc hlen
  | fin segment next hfin hnext => exact h.fin hinv hnext
  | finWait2 hstate | established hstate =>
      refine h.of_same hinv (by simp) (by simp [TcpState.Receiving, hstate])
        (by simp [TcpState.finReceived]) ?_ (by simp)
      rw [tcpChangeState_rcv]
  | timeWait hstate =>
      refine h.of_same hinv (by simp) (by simp [TcpState.Receiving])
        (by simp [TcpState.finReceived, hstate]) ?_ (by simp [tcpDeleteControlBlock])
      rw [tcpChangeState_rcv]
      rfl
  | synSent segment next hstate hack hnext => exact h.synSent_step hinv hstate (by tauto)
  | finish | reset => exact of_idle hinv (.inl rfl)
  | dispose hstate => exact of_idle hinv (.inl hstate)
  | leave next hallowed =>
      refine h.of_same hinv ?_ ?_ ?_ ?_ (by simp)
      · rcases hallowed with ⟨rfl, -⟩ | ⟨rfl, -⟩ <;> simp
      · rcases hallowed with ⟨rfl, hs | hs⟩ | ⟨rfl, hs⟩ <;> simp [TcpState.Receiving, hs]
      · rcases hallowed with ⟨rfl, hs | hs⟩ | ⟨rfl, hs⟩ <;> simp [TcpState.finReceived, hs]
      · rw [tcpChangeState_rcv]
  | read seqNum received n flags hseq hpos hn => exact h.read hinv hn hpos
  | opened => exact of_idle hinv (.inl rfl)
  | configure _ hopens hstate htype hun hstate' => exact of_idle hinv (.inl hstate')
  | resize txBufferSize rxBufferSize hstate => exact of_idle hinv (.inl hstate)
  | connect hopens hp => exact h.begin hinv hp hblocks (.inl rfl)
  | accept hopens hp hnxt => exact h.begin hinv hp hblocks (.inr ⟨rfl, hnxt⟩)
  | listen => exact of_idle hinv (.inr rfl)

end ReceiveAccount

end Tcp
