import CycloneTcp.Core.TcpSlot
import Mathlib.Logic.Relation

set_option autoImplicit false

/-! # What a step can do

The functions of the source interleave what matters to a connection with congestion control, timers
and the segments they send. `Act` lists what matters: the actions by which the state, the sequence
numbers, the buffers and the queue of a socket change. Every step of a slot is a sequence of actions
(`step_acts`), so an invariant is checked against the actions, once each, and not against the code. -/

namespace Tcp

/-! ## Steps that matter to nobody -/

/-- The part of the send side that the data of a connection depends on is unchanged. -/
structure SendSide.Same (snd snd' : SendSide) : Prop where
  iss : snd'.iss = snd.iss
  sndUna : snd'.sndUna = snd.sndUna
  sndNxt : snd'.sndNxt = snd.sndNxt
  sndUser : snd'.sndUser = snd.sndUser
  txBuffer : snd'.txBuffer = snd.txBuffer
  txBufferSize : snd'.txBufferSize = snd.txBufferSize
  retransmitQueue : snd'.retransmitQueue = snd.retransmitQueue

namespace SendSide.Same

variable {a b c : SendSide}

theorem refl (a : SendSide) : Same a a := ⟨rfl, rfl, rfl, rfl, rfl, rfl, rfl⟩

theorem trans (h : Same a b) (h' : Same b c) : Same a c :=
  ⟨h'.iss.trans h.iss, h'.sndUna.trans h.sndUna, h'.sndNxt.trans h.sndNxt,
    h'.sndUser.trans h.sndUser, h'.txBuffer.trans h.txBuffer,
    h'.txBufferSize.trans h.txBufferSize, h'.retransmitQueue.trans h.retransmitQueue⟩

end SendSide.Same

/-- The rest of a socket is unchanged, the timers, the pending connection requests and the network
excepted. -/
structure Socket.Same (s s' : Socket) : Prop where
  type : s'.type = s.type
  ownedFlag : s'.ownedFlag = s.ownedFlag
  interface : s'.interface = s.interface
  localIpAddr : s'.localIpAddr = s.localIpAddr
  localPort : s'.localPort = s.localPort
  remoteIpAddr : s'.remoteIpAddr = s.remoteIpAddr
  remotePort : s'.remotePort = s.remotePort
  state : s'.state = s.state
  closedFlag : s'.closedFlag = s.closedFlag
  resetFlag : s'.resetFlag = s.resetFlag
  rcv : s'.rcv = s.rcv
  history : s'.history = s.history

namespace Socket.Same

variable {a b c : Socket}

theorem refl (a : Socket) : Same a a := ⟨rfl, rfl, rfl, rfl, rfl, rfl, rfl, rfl, rfl, rfl, rfl, rfl⟩

theorem trans (h : Same a b) (h' : Same b c) : Same a c :=
  ⟨h'.type.trans h.type, h'.ownedFlag.trans h.ownedFlag, h'.interface.trans h.interface,
    h'.localIpAddr.trans h.localIpAddr, h'.localPort.trans h.localPort,
    h'.remoteIpAddr.trans h.remoteIpAddr, h'.remotePort.trans h.remotePort,
    h'.state.trans h.state, h'.closedFlag.trans h.closedFlag, h'.resetFlag.trans h.resetFlag,
    h'.rcv.trans h.rcv, h'.history.trans h.history⟩

end Socket.Same

/-- Segments have been sent, none of them a FIN unless it is a queued one. -/
def SendsOnly (fins : List TcpHeader) (state : TcpState) (net net' : Network) : Prop :=
  ∃ new, net'.sent = net.sent ++ new ∧
    ∀ entry ∈ new, entry.2.header.flags.fin = true → entry.1 = state ∧ entry.2.header ∈ fins

theorem SendsOnly.refl (fins : List TcpHeader) (state : TcpState) (net : Network) :
    SendsOnly fins state net net := ⟨[], by simp, by simp⟩

theorem SendsOnly.trans {fins : List TcpHeader} {state : TcpState} {a b c : Network}
    (h : SendsOnly fins state a b) (h' : SendsOnly fins state b c) : SendsOnly fins state a c := by
  obtain ⟨xs, hxs, hx⟩ := h
  obtain ⟨ys, hys, hy⟩ := h'
  refine ⟨xs ++ ys, by rw [hys, hxs, List.append_assoc], ?_⟩
  intro entry hmem
  rcases List.mem_append.1 hmem with hmem | hmem
  · exact hx entry hmem
  · exact hy entry hmem

theorem SendsOnly.mono {fins fins' : List TcpHeader} {state : TcpState} {a b : Network}
    (h : SendsOnly fins state a b) (hsub : fins ⊆ fins') : SendsOnly fins' state a b := by
  obtain ⟨xs, hxs, hx⟩ := h
  exact ⟨xs, hxs, fun entry hmem hfin => ⟨(hx entry hmem hfin).1, hsub (hx entry hmem hfin).2⟩⟩

/-- What congestion control, timers, control segments and retransmissions do to a socket. -/
structure Keeps (s s' : Socket) : Prop where
  same : Socket.Same s s'
  snd : SendSide.Same s.snd s'.snd
  net : SendsOnly (if s.state = .closed then [] else s.snd.retransmitQueue.map (·.header)) s.state
    s.net s'.net

namespace Keeps

variable {a b c : Socket}

theorem refl (a : Socket) : Keeps a a := ⟨.refl a, .refl a.snd, .refl _ _ _⟩

theorem trans (h : Keeps a b) (h' : Keeps b c) : Keeps a c := by
  refine ⟨h.same.trans h'.same, h.snd.trans h'.snd, h.net.trans ?_⟩
  have hnet := h'.net
  rwa [h.same.state, h.snd.retransmitQueue] at hnet

end Keeps

/-! ## Actions -/

/-- The data up to `a` has been acknowledged. -/
def Socket.ackTo (s : Socket) (a : UInt32) : Socket :=
  { s with snd := { s.snd with
    sndUna := a
    retransmitQueue := s.snd.retransmitQueue.filter (fun item => !acknowledged a item) } }

/-- A segment has been added to the retransmission queue. -/
def Socket.addItem (s : Socket) (item : TcpQueueItem) : Socket :=
  { s with snd := { s.snd with retransmitQueue := s.snd.retransmitQueue ++ [item] } }

/-- `n` bytes have been sent. -/
def Socket.advance (s : Socket) (n : ℕ) : Socket := { s with snd := s.snd.advance n }

/-- The FIN of the peer has been received. -/
def Socket.passFin (s : Socket) (next : TcpState) : Socket :=
  let s := { s with
    rcv := { s.rcv with rcvNxt := s.rcv.rcvNxt + 1 }
    history := { s.history with finReceived := true } }
  if next = .timeWait then tcpChangeState (tcpDeleteControlBlock s) .timeWait
  else tcpChangeState s next

/-- SND.UNA after the SYN of the peer. -/
def Socket.unaOnSyn (s : Socket) (segment : Segment) : UInt32 :=
  if segment.flags.ack then segment.ackNum else s.snd.sndUna

/-- The SYN of the peer has been received in the SYN-SENT state. -/
def Socket.passSyn (s : Socket) (segment : Segment) (next : TcpState) : Socket :=
  let rcv := { s.rcv with irs := segment.seqNum, rcvNxt := segment.seqNum + 1 }
  tcpChangeState { s.ackTo (s.unaOnSyn segment) with rcv := rcv } next

/-- `data` has been read. -/
def Socket.readData (s : Socket) (data : List UInt8) : Socket :=
  { s with
    rcv := { s.rcv with rcvUser := s.rcv.rcvUser - UInt16.ofNat data.length }.openWindow
    history := { s.history with delivered := s.history.delivered ++ data } }

/-- A control block that is ready for the handshake. -/
structure Prepared (kinds : Remains) (s : Socket) : Prop where
  state : s.state = .closed
  type : s.type ≠ .unused
  unused : s.Unused kinds
  sndUna : s.snd.sndUna = s.snd.iss
  sndNxt : s.snd.sndNxt = s.snd.iss + 1
  txBuffer : s.snd.txBuffer.length = s.snd.txBufferSize
  rcvUser : s.rcv.rcvUser = 0
  rcvWnd : s.rcv.rcvWnd = UInt16.ofNat s.rcv.rxBufferSize
  rxBuffer : s.rcv.rxBuffer.length = s.rcv.rxBufferSize
  written : s.history.written = []
  delivered : s.history.delivered = []
  finAcked : s.history.finAcked = false
  finReceived : s.history.finReceived = false

/-- The actions. `R` tells where the connection may be lost: reset, aborted or timed out in a state,
with its FIN acknowledged or not. The socket is taken into use, if `opens` allows it, without remains
of the given kinds. -/
inductive Act (R : TcpState → Bool → Prop) (kinds : Remains) (opens : Prop) :
    Socket → Socket → Prop
  | keep {s s' : Socket} (h : Keeps s s') : Act R kinds opens s s'
  | ack (s : Socket) (a : UInt32) (hpos : 0 < tcpCmpSeq a s.snd.sndUna)
      (hle : tcpCmpSeq a s.snd.sndNxt ≤ 0) : Act R kinds opens s (s.ackTo a)
  | sendData (s : Socket) (item : TcpQueueItem) (sent : Bool)
      (hstate : s.state = .established ∨ s.state = .closeWait)
      (hseq : item.header.seqNum = s.snd.sndNxt) (hsyn : item.header.flags.syn = false)
      (hfin : item.header.flags.fin = false) (hlen : item.length ≤ s.snd.sndUser.toNat) :
      Act R kinds opens s (if sent then (s.addItem item).advance item.length else s.addItem item)
  | write (s : Socket) (data : List UInt8) (n : ℕ)
      (hstate : s.state = .established ∨ s.state = .closeWait) (hpos : 0 < n)
      (hn : n ≤ data.length) (hroom : s.snd.pending.toNat + n ≤ s.snd.txBufferSize) :
      Act R kinds opens s (copyUserData s data n)
  | data (s : Socket) (segment : Segment)
      (hstate : s.state = .established ∨ s.state = .finWait1 ∨ s.state = .finWait2)
      (hacc : acceptable s.rcv segment = true) (hlen : 0 < segment.length) :
      Act R kinds opens s { s with rcv := receiveData s.rcv segment }
  | fin (s : Socket) (segment : Segment) (next : TcpState) (hfin : finInOrder s segment = true)
      (hnext : (s.state = .established ∧ next = .closeWait) ∨
        (s.state = .finWait1 ∧ next = .closing) ∨ (s.state = .finWait2 ∧ next = .timeWait)) :
      Act R kinds opens s (s.passFin next)
  | finAcked (s : Socket) (segment : Segment) (h : acksFin s segment = true) :
      Act R kinds opens s { s with history := { s.history with finAcked := true } }
  | finWait2 (s : Socket) (hstate : s.state = .finWait1) (hacked : s.history.finAcked = true) :
      Act R kinds opens s (tcpChangeState s .finWait2)
  | timeWait (s : Socket) (hstate : s.state = .closing) (hacked : s.history.finAcked = true) :
      Act R kinds opens s (tcpChangeState (tcpDeleteControlBlock s) .timeWait)
  | synSent (s : Socket) (segment : Segment) (next : TcpState) (hstate : s.state = .synSent)
      (hack : segment.flags.ack = true → segment.ackNum = s.snd.sndNxt)
      (hnext : (next = .established ∧ 0 < tcpCmpSeq (s.unaOnSyn segment) s.snd.iss) ∨
        (next = .synReceived ∧ tcpCmpSeq (s.unaOnSyn segment) s.snd.iss ≤ 0)) :
      Act R kinds opens s (s.passSyn segment next)
  | established (s : Socket) (hstate : s.state = .synReceived) :
      Act R kinds opens s (tcpChangeState s .established)
  | finish (s : Socket)
      (h : (s.state = .lastAck ∧ s.history.finAcked = true) ∨ s.state = .timeWait) :
      Act R kinds opens s (tcpChangeState s .closed)
  | reset (s : Socket) (hR : R s.state s.history.finAcked) : Act R kinds opens s (tcpChangeState s .closed)
  | dispose (s : Socket) (hstate : s.state = .closed) : Act R kinds opens s (disposeSocket s)
  | disown (s : Socket) (hstate : s.state = .timeWait) : Act R kinds opens s { s with ownedFlag := false }
  | addFin (s : Socket) (next : TcpState) (item : TcpQueueItem) (data : List UInt8)
      (hallowed : FinAllowed s.state next) (hseq : item.header.seqNum = s.snd.sndNxt)
      (hsyn : item.header.flags.syn = false) (hfin : item.header.flags.fin = true)
      (hlen : item.length = 0) :
      Act R kinds opens s { s.addItem item with
        net := s.net.next.send s.state { header := item.header, data := data } }
  | leave (s : Socket) (next : TcpState) (hallowed : FinAllowed s.state next)
      (hdone : s.txDone = true) (item : TcpQueueItem) (hmem : item ∈ s.snd.retransmitQueue)
      (hseq : item.header.seqNum = s.snd.sndNxt) (hsyn : item.header.flags.syn = false)
      (hfin : item.header.flags.fin = true) (hlen : item.length = 0) :
      Act R kinds opens s (tcpChangeState
        { s with snd := { s.snd with sndNxt := s.snd.sndNxt + 1 } } next)
  | read (s : Socket) (seqNum : UInt32) (received n : ℕ) (flags : SocketFlags)
      (hseq : firstUnread s received = .ok seqNum) (hpos : 0 < n)
      (hn : n ≤ s.rcv.rcvUser.toNat) :
      Act R kinds opens s (s.readData (copyReceived s.rcv seqNum n flags))
  | opened (s : Socket) (hopens : opens) (type : SocketType) (port : UInt16)
      (htype : s.type = .unused) : Act R kinds opens s (socketOpen s type port)
  | configure (s s' : Socket) (hopens : opens) (hstate : s.state = .closed)
      (htype : s.type ≠ .unused) (hunused : s.Unused kinds) (hstate' : s'.state = .closed)
      (htype' : s'.type = s.type) (hunused' : s'.Unused kinds) (hsized : s.Sized → s'.Sized)
      (hnet : SendsOnly [] .closed s.net s'.net)
      (hchanges : s'.history.changes = s.history.changes)
      (hacked : s'.history.finAcked = false) : Act R kinds opens s s'
  | resize (s : Socket) (txBufferSize rxBufferSize : ℕ) (hstate : s.state = .closed)
      (htype : s.type ≠ .unused)
      (hflag : rxBufferSize = s.rcv.rxBufferSize ∨ (kinds.flags = true → s.closedFlag = false))
      (hsized : s.Sized → 1 ≤ txBufferSize ∧ txBufferSize ≤ TCP_MAX_TX_BUFFER_SIZE ∧
        1 ≤ rxBufferSize ∧ rxBufferSize ≤ TCP_MAX_RX_BUFFER_SIZE) :
      Act R kinds opens s { s with
        snd := { s.snd with txBufferSize := txBufferSize }
        rcv := { s.rcv with rxBufferSize := rxBufferSize } }
  | connect (s : Socket) (hopens : opens) (h : Prepared kinds s) :
      Act R kinds opens s (tcpChangeState s .synSent)
  | accept (s : Socket) (hopens : opens) (h : Prepared kinds s)
      (hnxt : s.rcv.rcvNxt = s.rcv.irs + 1) : Act R kinds opens s (tcpChangeState s .synReceived)
  | listen (s : Socket) (hopens : opens) (hstate : s.state = .closed) (htype : s.type ≠ .unused)
      (hunused : s.Unused { fin := kinds.fin }) :
      Act R kinds opens s (tcpChangeState s .listen)
  | addSyn (s : Socket) (item : TcpQueueItem)
      (hstate : s.state = .synSent ∨ s.state = .synReceived)
      (hsyn : item.header.flags.syn = true) (hfin : item.header.flags.fin = false)
      (hlen : item.length = 0) (hseq : item.header.seqNum = s.snd.iss) : Act R kinds opens s (s.addItem item)

/-- A sequence of actions. -/
abbrev Acts (R : TcpState → Bool → Prop) (kinds : Remains) (opens : Prop) : Socket → Socket → Prop :=
  Relation.ReflTransGen (Act R kinds opens)

/-! ## What the results have of the socket -/

@[simp] theorem tcpChangeState_state (s : Socket) (next : TcpState) :
    (tcpChangeState s next).state = next := rfl

@[simp] theorem tcpChangeState_type (s : Socket) (next : TcpState) :
    (tcpChangeState s next).type = s.type := by
  rw [tcpChangeState]
  split_ifs <;> rfl

@[simp] theorem tcpChangeState_snd (s : Socket) (next : TcpState) :
    (tcpChangeState s next).snd = s.snd := by
  rw [tcpChangeState]
  split_ifs <;> rfl

@[simp] theorem tcpChangeState_rcv (s : Socket) (next : TcpState) :
    (tcpChangeState s next).rcv = s.rcv := by
  rw [tcpChangeState]
  split_ifs <;> rfl

@[simp] theorem tcpChangeState_net (s : Socket) (next : TcpState) :
    (tcpChangeState s next).net = s.net := by
  rw [tcpChangeState]
  split_ifs <;> rfl

@[simp] theorem tcpChangeState_history (s : Socket) (next : TcpState) :
    (tcpChangeState s next).history =
      { s.history with changes := s.history.changes ++ [(s.state, next)] } := by
  rw [tcpChangeState]
  split_ifs <;> rfl

@[simp] theorem passFin_state (s : Socket) (next : TcpState) : (s.passFin next).state = next := by
  rw [Socket.passFin]
  split_ifs with h
  · exact h.symm
  · rfl

@[simp] theorem passFin_type (s : Socket) (next : TcpState) :
    (s.passFin next).type = s.type := by
  rw [Socket.passFin]
  split_ifs <;> simp [tcpDeleteControlBlock]

@[simp] theorem passFin_net (s : Socket) (next : TcpState) : (s.passFin next).net = s.net := by
  rw [Socket.passFin]
  split_ifs <;> simp [tcpDeleteControlBlock]

@[simp] theorem passFin_history (s : Socket) (next : TcpState) :
    (s.passFin next).history = { s.history with
      finReceived := true, changes := s.history.changes ++ [(s.state, next)] } := by
  rw [Socket.passFin]
  split_ifs with h
  · simp [tcpDeleteControlBlock, h]
  · simp

theorem copyUserData_of_pos (s : Socket) (data : List UInt8) {n : ℕ} (hn : 0 < n) :
    (copyUserData s data n).type = s.type ∧ (copyUserData s data n).net = s.net ∧
      (copyUserData s data n).snd.retransmitQueue = s.snd.retransmitQueue ∧
      (copyUserData s data n).history =
        { s.history with written := s.history.written ++ data.take n } := by
  rw [copyUserData, if_pos hn]
  exact ⟨rfl, rfl, by simp only [tcpWriteTxBuffer]; split <;> rfl, rfl⟩

/-- What every action preserves, a sequence of actions preserves. -/
theorem Acts.preserve {R : TcpState → Bool → Prop} {kinds : Remains} {opens : Prop}
    {I : Socket → Prop} (hact : ∀ {s s' : Socket}, I s → Act R kinds opens s s' → I s')
    {s s' : Socket} (h : Acts R kinds opens s s') (hs : I s) : I s' := by
  induction h with
  | refl => exact hs
  | tail _ hstep ih => exact hact ih hstep

theorem Keeps.acts {R : TcpState → Bool → Prop} {kinds : Remains} {opens : Prop} {s s' : Socket}
    (h : Keeps s s') : Acts R kinds opens s s' :=
  .single (.keep h)

end Tcp
