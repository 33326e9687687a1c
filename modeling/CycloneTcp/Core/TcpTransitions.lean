import CycloneTcp.Core.TcpCallSteps

set_option autoImplicit false

/-! # State transitions

The changes of state in a run, against the edges of the RFC 793 diagram. The code takes an edge that
is not there when a call that waits to send a FIN resumes on a connection that has been lost
meanwhile: the event it waits for is signalled then, too, and the state is not looked at again. -/

namespace Tcp

/-! ## The diagram -/

/-- The edges. Any state may be left for CLOSED: by an abort, a reset or a timeout. A request taken from
a listening socket is answered by a socket of its own, which goes from CLOSED to SYN-RECEIVED. -/
def edge : TcpState → TcpState → Bool
  | _, .closed => true
  | .closed, .synSent | .closed, .listen | .closed, .synReceived => true
  | .synSent, .established | .synSent, .synReceived => true
  | .synReceived, .established | .synReceived, .finWait1 => true
  | .established, .finWait1 | .established, .closeWait => true
  | .closeWait, .lastAck => true
  | .finWait1, .finWait2 | .finWait1, .closing => true
  | .finWait2, .timeWait | .closing, .timeWait => true
  | _, _ => false

/-- The changes lead from one state to another without a gap. -/
def Path : TcpState → List (TcpState × TcpState) → TcpState → Prop
  | a, [], b => a = b
  | a, change :: changes, b => change.1 = a ∧ Path change.2 changes b

theorem Path.concat {a b : TcpState} {changes : List (TcpState × TcpState)}
    (h : Path a changes b) (c : TcpState) : Path a (changes ++ [(b, c)]) c := by
  induction changes generalizing a with
  | nil => exact ⟨h.symm, rfl⟩
  | cons change changes ih => exact ⟨h.1, ih h.2⟩

/-- The states of a socket without a peer: there is nobody to send a FIN to. -/
def TcpState.Alone (state : TcpState) : Prop :=
  state = .closed ∨ state = .listen ∨ state = .synSent

instance (state : TcpState) : Decidable state.Alone := inferInstanceAs (Decidable (_ ∨ _))

/-- The connection logic follows the diagram. -/
structure FollowsProtocol (s : Socket) : Prop where
  path : Path .closed s.history.changes s.state
  edges : ∀ change ∈ s.history.changes, edge change.1 change.2 = true
  /-- A FIN is sent to a peer only, the first time and later. -/
  sent : ∀ entry ∈ s.net.sent, entry.2.header.flags.fin = true → ¬ entry.1.Alone
  /-- A FIN is queued when it is sent for the first time, in a state that it may leave. -/
  queued : ∀ item ∈ s.snd.retransmitQueue, item.header.flags.fin = true →
    ∃ entry ∈ s.net.sent, entry.2.header = item.header ∧ ∃ next, FinAllowed entry.1 next

/-- The step leaves CLOSED, if only in passing. -/
def LeavesClosed (s s' : Socket) : Prop :=
  ¬ ∃ new, s'.history.changes = s.history.changes ++ new ∧
    ∀ change ∈ new, change.1 = .closed → change.2 = .closed

/-! ## The changes of an action -/

variable {R : TcpState → Bool → Prop} {K : Remains} {O : Prop}

/-- The states that an action leads from and to, and what is recorded of it. -/
theorem Act.change {s s' : Socket} (h : Act R K O s s') :
    (s'.history.changes = s.history.changes ∧
      (s'.state = s.state ∨ s.type = .unused ∧ s'.state = .closed)) ∨
    (s'.history.changes = s.history.changes ++ [(s.state, s'.state)] ∧
      edge s.state s'.state = true ∧ (s.state = .closed → s'.state ≠ .closed → O)) := by
  cases h with
  | keep h => exact .inl ⟨by rw [h.same.history], .inl h.same.state⟩
  | ack | data | finAcked | disown | addFin | read | resize | addSyn => exact .inl ⟨rfl, .inl rfl⟩
  | sendData item sent =>
      cases sent
      · exact .inl ⟨rfl, .inl rfl⟩
      · exact .inl ⟨rfl, .inl rfl⟩
  | write data n hstate hpos =>
      obtain ⟨-, -, -, hhistory⟩ := copyUserData_of_pos s data hpos
      exact .inl ⟨by rw [hhistory], .inl (copyUserData_state s data n)⟩
  | fin segment next hfin hnext =>
      refine .inr ?_
      rcases hnext with ⟨hstate, rfl⟩ | ⟨hstate, rfl⟩ | ⟨hstate, rfl⟩ <;> simp [hstate, edge]
  | finWait2 hstate | established hstate => simp [hstate, edge]
  | timeWait hstate => simp [hstate, tcpDeleteControlBlock, edge]
  | synSent segment next hstate hack hnext =>
      refine .inr ?_
      rw [Socket.passSyn]
      rcases hnext with ⟨rfl, -⟩ | ⟨rfl, -⟩ <;> simp [hstate, Socket.ackTo, edge]
  | finish | reset => simp [edge]
  | dispose hstate => exact .inl ⟨rfl, .inl rfl⟩
  | leave next hallowed =>
      refine .inr ?_
      rcases hallowed with ⟨rfl, hstate | hstate⟩ | ⟨rfl, hstate⟩ <;> simp [hstate, edge]
  | opened hopens type port htype => exact .inl ⟨rfl, .inr ⟨htype, rfl⟩⟩
  | configure _ hopens hstate htype hunused hstate' htype' hunused' hsized hnet hchanges =>
      exact .inl ⟨hchanges, .inl (hstate'.trans hstate.symm)⟩
  | connect hopens h => simp [h.state, edge, hopens]
  | accept hopens h => simp [h.state, edge, hopens]
  | listen hopens hstate => simp [hstate, edge, hopens]

/-- Without the calls that open a connection, a socket does not leave CLOSED. -/
theorem Acts.not_leavesClosed {s s' : Socket} (h : Acts R K False s s') : ¬ LeavesClosed s s' := by
  rw [LeavesClosed, not_not]
  induction h with
  | refl => exact ⟨[], by simp, by simp⟩
  | tail _ hact ih =>
      obtain ⟨new, hnew, hclosed⟩ := ih
      rcases hact.change with ⟨hchanges, -⟩ | ⟨hchanges, -, hopens⟩
      · exact ⟨new, by rw [hchanges, hnew], hclosed⟩
      · refine ⟨new ++ [(_, _)], by rw [hchanges, hnew, List.append_assoc], ?_⟩
        intro change hmem hstate
        rcases List.mem_append.1 hmem with hmem | hmem
        · exact hclosed change hmem hstate
        · rw [List.mem_singleton] at hmem
          subst hmem
          by_contra hne
          exact hopens hstate hne

/-! ## The invariant -/

/-- What the actions preserve: besides the protocol, that a socket without a peer has no FIN to
retransmit and that a socket that is not in use is closed. -/
structure ProtocolInv (s : Socket) : Prop extends FollowsProtocol s where
  noFin : s.state = .listen ∨ s.state = .synSent →
    ∀ item ∈ s.snd.retransmitQueue, item.header.flags.fin = false
  unused : s.type = .unused → s.state = .closed

/-- The part of the invariant that is about FINs, for a socket whose queue has only old segments and
that has sent only queued FINs. -/
theorem ProtocolInv.sent_of_sendsOnly {s s' : Socket} (h : ProtocolInv s)
    (hnet : SendsOnly (if s.state = .closed then [] else s.snd.retransmitQueue.map (·.header))
      s.state s.net s'.net) :
    ∀ entry ∈ s'.net.sent, entry.2.header.flags.fin = true → ¬ entry.1.Alone := by
  obtain ⟨new, hnew, hfins⟩ := hnet
  intro entry hmem hfin
  rw [hnew] at hmem
  rcases List.mem_append.1 hmem with hmem | hmem
  · exact h.sent entry hmem hfin
  · obtain ⟨hstate, hqueue⟩ := hfins entry hmem hfin
    rw [hstate]
    split at hqueue
    · exact absurd hqueue List.not_mem_nil
    case isFalse hopen =>
      obtain ⟨item, hitem, hheader⟩ := List.mem_map.1 hqueue
      rintro (hclosed | hstate)
      · exact hopen hclosed
      · have hno := h.noFin hstate item hitem
        rw [hheader, hfin] at hno
        exact absurd hno (by simp)

/-- The changes of a socket that follows the protocol go on to follow it. -/
theorem FollowsProtocol.changes {s s' : Socket} (h : FollowsProtocol s)
    (hunused : s.type = .unused → s.state = .closed) (hact : Act R K O s s') :
    Path .closed s'.history.changes s'.state ∧
      ∀ change ∈ s'.history.changes, edge change.1 change.2 = true := by
  rcases hact.change with ⟨hchanges, hstate⟩ | ⟨hchanges, hedge, -⟩
  · have hsame : s'.state = s.state := by
      rcases hstate with hstate | ⟨htype, hstate⟩
      · exact hstate
      · rw [hstate, hunused htype]
    rw [hchanges, hsame]
    exact ⟨h.path, h.edges⟩
  · rw [hchanges]
    refine ⟨h.path.concat _, ?_⟩
    intro change hmem
    rcases List.mem_append.1 hmem with hmem | hmem
    · exact h.edges change hmem
    · rw [List.mem_singleton] at hmem
      subst hmem
      exact hedge

/-- A socket becomes unused in the CLOSED state only, and leaves it as a socket in use. -/
theorem Act.unused {s s' : Socket} (hact : Act R K O s s')
    (hunused : s.type = .unused → s.state = .closed) : s'.type = .unused → s'.state = .closed := by
  intro htype
  cases hact with
  | keep h => rw [h.same.state]; exact hunused (h.same.type.symm.trans htype)
  | ack | data | finAcked | disown | addFin | read | addSyn => exact hunused htype
  | sendData item sent => cases sent <;> exact hunused htype
  | write data n hstate hpos =>
      rw [copyUserData_state]
      exact hunused ((copyUserData_of_pos s data hpos).1.symm.trans htype)
  | fin segment next hfin hnext =>
      simp [hunused (by simpa using htype)] at hnext
  | finWait2 hstate | established hstate => simp [hunused (by simpa using htype)] at hstate
  | timeWait hstate =>
      simp [hunused (by simpa [tcpDeleteControlBlock] using htype)] at hstate
  | synSent segment next hstate =>
      simp [hunused (by simpa [Socket.passSyn, Socket.ackTo] using htype)] at hstate
  | finish | reset => rfl
  | dispose hstate => exact hstate
  | leave next hallowed =>
      simp [hunused (by simpa using htype), FinAllowed] at hallowed
  | opened => rfl
  | configure _ hopens hstate htype' hunused' hstate' => exact hstate'
  | resize _ _ hstate => exact hstate
  | connect hopens h => exact absurd (by simpa using htype) h.type
  | accept hopens h => exact absurd (by simpa using htype) h.type
  | listen hopens hstate htype' => exact absurd (by simpa using htype) htype'

/-- A FIN in the queue was there before, in the same state or one with a peer, or has just been sent. -/
theorem Act.queue {s s' : Socket} (hact : Act R K O s s') (hkinds : K.fin = true)
    (item : TcpQueueItem) (hmem : item ∈ s'.snd.retransmitQueue)
    (hfin : item.header.flags.fin = true) :
    item ∈ s.snd.retransmitQueue ∧
        (s'.state = s.state ∨ ¬ (s'.state = .listen ∨ s'.state = .synSent)) ∨
      (∃ next, FinAllowed s.state next) ∧ s'.state = s.state ∧
        ∃ entry ∈ s'.net.sent, entry.1 = s.state ∧ entry.2.header = item.header := by
  have hnone : ∀ {t : Socket} {kinds : Remains}, t.Unused kinds → kinds.fin = true →
      item ∈ t.snd.retransmitQueue → False := by
    intro t kinds hunused hkind hqueue
    rw [hunused.2.2.2.1 hkind item hqueue] at hfin
    exact absurd hfin (by simp)
  cases hact with
  | keep h =>
      rw [h.snd.retransmitQueue] at hmem
      exact .inl ⟨hmem, .inl h.same.state⟩
  | ack => exact .inl ⟨List.mem_of_mem_filter hmem, .inl rfl⟩
  | data | finAcked | disown | read | resize => exact .inl ⟨hmem, .inl rfl⟩
  | sendData item' sent hstate hseq hsyn hfin' =>
      have hqueue : item ∈ s.snd.retransmitQueue ++ [item'] := by cases sent <;> exact hmem
      rcases List.mem_append.1 hqueue with hqueue | hqueue
      · exact .inl ⟨hqueue, .inl (by cases sent <;> rfl)⟩
      · rw [List.mem_singleton.1 hqueue, hfin'] at hfin
        exact absurd hfin (by simp)
  | write data n hstate hpos =>
      rw [(copyUserData_of_pos s data hpos).2.2.1] at hmem
      exact .inl ⟨hmem, .inl (copyUserData_state s data n)⟩
  | fin segment next hfin' hnext =>
      rw [Socket.passFin] at hmem ⊢
      rcases hnext with ⟨-, rfl⟩ | ⟨-, rfl⟩ | ⟨-, rfl⟩
      · exact .inl ⟨by simpa using hmem, .inr (by simp)⟩
      · exact .inl ⟨by simpa using hmem, .inr (by simp)⟩
      · exact absurd hmem (by simp [tcpDeleteControlBlock])
  | finWait2 | established | finish | reset => exact .inl ⟨by simpa using hmem, .inr (by simp)⟩
  | timeWait | dispose => exact absurd hmem (by simp [tcpDeleteControlBlock, disposeSocket])
  | synSent segment next hstate hack hnext =>
      rw [Socket.passSyn, tcpChangeState_snd] at hmem
      refine .inl ⟨List.mem_of_mem_filter hmem, .inr ?_⟩
      rcases hnext with ⟨rfl, -⟩ | ⟨rfl, -⟩ <;> simp [Socket.passSyn]
  | addFin next item' data hallowed =>
      rcases List.mem_append.1 hmem with hqueue | hqueue
      · exact .inl ⟨hqueue, .inl rfl⟩
      · refine .inr ⟨⟨next, hallowed⟩, rfl, _, List.mem_append_right _ (List.mem_singleton_self _), rfl, ?_⟩
        rw [List.mem_singleton.1 hqueue]
  | leave next hallowed =>
      refine .inl ⟨by simpa using hmem, .inr ?_⟩
      rcases hallowed with ⟨rfl, -⟩ | ⟨rfl, -⟩ <;> simp
  | opened => exact absurd hmem (by simp [socketOpen, Socket.cleared])
  | configure _ hopens hstate htype hunused hstate' htype' hunused' => exact (hnone hunused' hkinds hmem).elim
  | connect hopens h => exact (hnone h.unused hkinds (by simpa using hmem)).elim
  | accept hopens h => exact (hnone h.unused hkinds (by simpa using hmem)).elim
  | listen hopens hstate htype hunused => exact (hnone hunused hkinds (by simpa using hmem)).elim
  | addSyn item' hstate hsyn hfin' =>
      rcases List.mem_append.1 hmem with hqueue | hqueue
      · exact .inl ⟨hqueue, .inl rfl⟩
      · rw [List.mem_singleton.1 hqueue, hfin'] at hfin
        exact absurd hfin (by simp)

/-- An action sends FINs that are queued, or the FIN that it queues. -/
theorem Act.sent {s s' : Socket} (hact : Act R K O s s') :
    SendsOnly (if s.state = .closed then [] else s.snd.retransmitQueue.map (·.header))
      s.state s.net s'.net ∨
    (∃ next, FinAllowed s.state next) ∧ ∃ entry, entry.1 = s.state ∧
      s'.net.sent = s.net.sent ++ [entry] := by
  cases hact with
  | keep h => exact .inl h.net
  | ack | data | finAcked | disown | read | resize | addSyn => exact .inl (.refl _ _ _)
  | sendData item sent => cases sent <;> exact .inl (.refl _ _ _)
  | write data n hstate hpos =>
      rw [(copyUserData_of_pos s data hpos).2.1]
      exact .inl (.refl _ _ _)
  | fin segment next =>
      rw [passFin_net]
      exact .inl (.refl _ _ _)
  | finWait2 | established | finish | reset | connect | accept | listen =>
      rw [tcpChangeState_net]
      exact .inl (.refl _ _ _)
  | timeWait | synSent | leave =>
      simp only [Socket.passSyn, tcpChangeState_net]
      exact .inl (.refl _ _ _)
  | dispose | opened => exact .inl (.refl _ _ _)
  | addFin next item data hallowed => exact .inr ⟨⟨next, hallowed⟩, _, rfl, rfl⟩
  | configure _ hopens hstate htype hunused hstate' htype' hunused' hsized hnet =>
      rw [if_pos hstate, hstate]
      exact .inl hnet

theorem FinAllowed.not_alone {state next : TcpState} (h : FinAllowed state next) :
    ¬ state.Alone := by
  rcases h with ⟨-, hstate | hstate⟩ | ⟨-, hstate⟩ <;> rw [hstate] <;> decide

theorem ProtocolInv.act {s s' : Socket} (h : ProtocolInv s) (hkinds : K.fin = true)
    (hact : Act R K O s s') : ProtocolInv s' := by
  obtain ⟨hpath, hedges⟩ := h.changes h.unused hact
  have hsub : s.net.sent ⊆ s'.net.sent := by
    rcases hact.sent with ⟨new, hnew, -⟩ | ⟨-, entry, -, hnew⟩ <;> rw [hnew] <;>
      exact List.subset_append_left _ _
  refine ⟨⟨hpath, hedges, ?_, ?_⟩, ?_, hact.unused h.unused⟩
  · rcases hact.sent with hnet | ⟨⟨next, hallowed⟩, entry, hstate, hnew⟩
    · exact h.sent_of_sendsOnly hnet
    · intro entry' hmem hfin
      rw [hnew] at hmem
      rcases List.mem_append.1 hmem with hmem | hmem
      · exact h.sent entry' hmem hfin
      · rw [List.mem_singleton.1 hmem, hstate]
        exact hallowed.not_alone
  · intro item hmem hfin
    rcases hact.queue hkinds item hmem hfin with ⟨hqueue, -⟩ | ⟨hallowed, -, entry, hentry, hstate, hheader⟩
    · obtain ⟨entry, hentry, hheader⟩ := h.queued item hqueue hfin
      exact ⟨entry, hsub hentry, hheader⟩
    · exact ⟨entry, hentry, hheader, by rwa [hstate]⟩
  · intro hstate item hmem
    by_contra hfin
    rw [Bool.not_eq_false] at hfin
    rcases hact.queue hkinds item hmem hfin with ⟨hqueue, hsame | hpeer⟩ | ⟨⟨next, hallowed⟩, hsame, -⟩
    · rw [hsame] at hstate
      rw [h.noFin hstate item hqueue] at hfin
      exact absurd hfin (by simp)
    · exact hpeer hstate
    · rw [hsame] at hstate
      exact hallowed.not_alone (.inr hstate)

/-! ## Runs -/

/-- No call sends a FIN that the state does not allow, and no FIN is left on a socket that is connected
or made to listen. -/
def FinsInOrder (slot : Slot) (event : Event) : Prop :=
  FinInState slot event ∧ UnusedSocket { fin := true } slot event

theorem ProtocolInv.step {slot : Slot} {event : Event} (h : ProtocolInv slot.socket)
    (hevent : FinsInOrder slot event) : ProtocolInv (step slot event).socket := by
  have hacts : Acts (fun _ _ => True) { fin := true } True slot.socket (Tcp.step slot event).socket :=
    step_acts slot event hevent.1 hevent.2 ⟨fun _ => trivial, fun _ => trivial⟩
      (fun _ => ⟨trivial, trivial⟩) fun _ => trivial
  exact hacts.preserve (fun hinv hact => hinv.act rfl hact) h

theorem protocolInv_init (outcomes : ℕ → SendOutcome) : ProtocolInv (Slot.init outcomes).socket where
  path := rfl
  edges := by simp [Slot.init, Socket.cleared]
  sent := by simp [Slot.init, Socket.cleared]
  queued := by simp [Slot.init, Socket.cleared]
  noFin := by simp [Slot.init, Socket.cleared]
  unused _ := rfl

/-- **The connection logic follows the protocol** in every run without FINs out of order, and a socket
leaves the CLOSED state by `tcpConnect`, `tcpListen` or `tcpAccept` only. -/
theorem followsProtocol_of_finsInOrder (outcomes : ℕ → SendOutcome) (events : List Event)
    (h : Along FinsInOrder step (Slot.init outcomes) events) :
    FollowsProtocol (run step (Slot.init outcomes) events).socket ∧
      ∀ event, FinsInOrder (run step (Slot.init outcomes) events) event → ¬ event.Opens →
        ¬ LeavesClosed (run step (Slot.init outcomes) events).socket
          (step (run step (Slot.init outcomes) events) event).socket := by
  constructor
  · exact (run_invariant (I := fun slot => ProtocolInv slot.socket)
      (fun _ _ => ProtocolInv.step) (protocolInv_init outcomes) h).toFollowsProtocol
  · intro event hevent hopens
    by_cases hopen : ∃ type port, event = .open type port
    · -- a socket that is opened stays in the CLOSED state
      obtain ⟨type, port, rfl⟩ := hopen
      rw [LeavesClosed, not_not, step]
      split
      · exact ⟨[], by simp [socketOpen, Socket.cleared, History.restart], by simp⟩
      · exact ⟨[], by simp, by simp⟩
    have hbegins : ¬ event.Begins (run step (Slot.init outcomes) events).socket := by
      cases event with
      | «open» type port => exact absurd ⟨type, port, rfl⟩ hopen
      | connect | listen | accept => exact absurd trivial hopens
      | _ => exact id
    have hacts : Acts (fun _ _ => True) { fin := true } False
        (run step (Slot.init outcomes) events).socket
        (step (run step (Slot.init outcomes) events) event).socket :=
      step_acts _ event hevent.1 hevent.2 ⟨fun _ => trivial, fun _ => trivial⟩
        (fun _ => ⟨trivial, trivial⟩) hbegins
    exact hacts.not_leavesClosed

/-- A graceful shutdown: it meets the condition. -/
theorem followsProtocol_shutdown :
    FollowsProtocol (run step (Slot.init fun _ => {})
        (.open .stream 49152 :: handshake 100 500 1000 ++ [.shutdown .send])).socket ∧
      ∀ event, FinsInOrder (run step (Slot.init fun _ => {})
          (.open .stream 49152 :: handshake 100 500 1000 ++ [.shutdown .send])) event →
        ¬ event.Opens → ¬ LeavesClosed (run step (Slot.init fun _ => {})
            (.open .stream 49152 :: handshake 100 500 1000 ++ [.shutdown .send])).socket
          (step (run step (Slot.init fun _ => {})
            (.open .stream 49152 :: handshake 100 500 1000 ++ [.shutdown .send])) event).socket :=
  followsProtocol_of_finsInOrder _ _
    ⟨⟨trivial, trivial⟩, ⟨trivial, fun _ => by decide⟩, ⟨trivial, trivial⟩, ⟨trivial, trivial⟩,
      trivial⟩

/-- The peer's window is closed, so `tcpShutdown` waits for a byte to be sent; a reset arrives, and the
call goes on. -/
def shutdownAcrossReset : List Event :=
  .open .stream 49152 :: handshake 100 500 0 ++
    [.send [7] {}, .shutdown .send,
      .segment (.ofData { rst := true } 501 0 0 [] noData_lt) true, .resume 1 false]

/-- A FIN is sent on the connection that has been reset, and the socket goes from CLOSED to
FIN-WAIT-1. -/
theorem shutdownAcrossReset_not_followsProtocol :
    ¬ FollowsProtocol (run step (Slot.init fun _ => {}) shutdownAcrossReset).socket := by
  intro h
  have hchange : (TcpState.closed, TcpState.finWait1) ∈
      (run step (Slot.init fun _ => {}) shutdownAcrossReset).socket.history.changes := by decide
  exact absurd (h.edges _ hchange) (by decide)

end Tcp
