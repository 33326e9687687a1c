import CycloneTcp.Core.TcpAccounting

set_option autoImplicit false

/-! # What a successful call means

`tcpShutdown` waits for the acknowledgment of the FIN, and `tcpSend` with `SOCKET_FLAG_WAIT_ACK` for
that of its data. The events they wait for are signalled on a connection that has been lost, too, and
`tcpShutdown` takes them for what it waits for. What its result means therefore depends on whether
the connection has been kept. -/

namespace Tcp

open Serial

variable {R : TcpState → Bool → Prop} {K : Remains} {O : Prop}

/-! ## Acknowledgment of the FIN -/

/-- An ACK of SND.NXT has arrived after the FIN: it covers the SYN, all that has been written and the
FIN. -/
structure Delivered (s : Socket) : Prop where
  finAcked : s.history.finAcked = true
  sndUser : s.snd.sndUser = 0
  sndNxt : s.snd.sndNxt = seq s.snd.iss (s.history.written.length + 2)

/-- What the actions preserve: the history variables tell the truth. -/
structure DeliveryInv (s : Socket) : Prop extends SendAccount s where
  acked : s.history.finAcked = true →
    (s.state.finSent = true ∨ s.state = .closed ∨ s.state = .listen) ∧ Delivered s
  closing : s.state = .finWait2 ∨ s.state = .timeWait → s.history.finAcked = true
  received : s.state.finReceived = true → s.history.finReceived = true

namespace DeliveryInv

variable {s s' : Socket}

theorem finAcked_eq (h : DeliveryInv s) (hfin : s.state.finSent = false) (h1 : s.state ≠ .closed)
    (h2 : s.state ≠ .listen) : s.history.finAcked = false := by
  by_contra hacked
  rw [Bool.not_eq_false] at hacked
  rcases (h.acked hacked).1 with hs | hs | hs
  · rw [hfin] at hs
    exact absurd hs (by simp)
  · exact h1 hs
  · exact h2 hs

/-- Once the FIN has been sent, its acknowledgment covers everything. -/
theorem delivered (h : SendAccount s) (hfin : s.state.finSent = true) {history : History}
    (hacked : history.finAcked = true) (hwritten : history.written = s.history.written) :
    Delivered { s with history := history } := by
  have hsend := h.send (by intro hs; simp [hs, TcpState.finSent] at hfin)
    (by intro hs; simp [hs, TcpState.finSent] at hfin)
  have huser : s.snd.sndUser = 0 := by
    refine hsend.done ?_ ?_ <;> intro hs <;> simp [hs, TcpState.finSent] at hfin
  refine ⟨hacked, huser, ?_⟩
  have hnxt := hsend.sndNxt
  rw [huser, hfin] at hnxt
  change s.snd.sndNxt = seq s.snd.iss (history.written.length + 2)
  rw [hnxt, hwritten]
  rfl

/-- Steps that matter neither to the FIN nor to what has been sent. -/
theorem of_same (h : DeliveryInv s) (hacc : SendAccount s') (hstate : s'.state = s.state)
    (hiss : s'.snd.iss = s.snd.iss) (huser : s'.snd.sndUser = s.snd.sndUser)
    (hnxt : s'.snd.sndNxt = s.snd.sndNxt) (hhistory : s'.history.written = s.history.written ∧
      s'.history.finAcked = s.history.finAcked ∧ s'.history.finReceived = s.history.finReceived) :
    DeliveryInv s' := by
  obtain ⟨hwritten, hacked, hreceived⟩ := hhistory
  refine ⟨hacc, ?_, ?_, ?_⟩
  · rw [hstate, hacked]
    intro hs
    obtain ⟨hopen, hdel⟩ := h.acked hs
    exact ⟨hopen, by rw [hacked]; exact hs, by rw [huser]; exact hdel.sndUser,
      by rw [hnxt, hiss, hwritten]; exact hdel.sndNxt⟩
  · rw [hstate, hacked]
    exact h.closing
  · rw [hstate, hreceived]
    exact h.received

/-- Steps of a connection that has not seen an ACK of its FIN. -/
theorem of_unacked (hacc : SendAccount s') (hacked : s'.history.finAcked = false)
    (hclosing : ¬ (s'.state = .finWait2 ∨ s'.state = .timeWait))
    (hreceived : s'.state.finReceived = true → s'.history.finReceived = true) :
    DeliveryInv s' where
  toSendAccount := hacc
  acked hs := absurd hs (by simp [hacked])
  closing hs := absurd hs hclosing
  received := hreceived

/-- A change of state after which nothing more is promised of the FINs. -/
theorem of_closed (h : DeliveryInv s) (hacc : SendAccount s')
    (hstate : s'.state = .closed ∨ s'.state = .listen) (hsnd : s'.snd.iss = s.snd.iss ∧
      s'.snd.sndUser = s.snd.sndUser ∧ s'.snd.sndNxt = s.snd.sndNxt)
    (hhistory : s'.history.written = s.history.written ∧
      s'.history.finAcked = s.history.finAcked) : DeliveryInv s' := by
  refine ⟨hacc, fun hs => ⟨.inr hstate, ?_⟩, ?_, ?_⟩
  · rw [hhistory.2] at hs
    have hdel := (h.acked hs).2
    exact ⟨by rw [hhistory.2]; exact hs, by rw [hsnd.2.1]; exact hdel.sndUser,
      by rw [hsnd.2.2, hsnd.1, hhistory.1]; exact hdel.sndNxt⟩
  · rcases hstate with hs | hs <;> simp [hs]
  · rcases hstate with hs | hs <;> simp [hs, TcpState.finReceived]

theorem fin (h : DeliveryInv s) {next : TcpState} (hacc : SendAccount (s.passFin next))
    (hnext : (s.state = .established ∧ next = .closeWait) ∨
      (s.state = .finWait1 ∧ next = .closing) ∨ (s.state = .finWait2 ∧ next = .timeWait)) :
    DeliveryInv (s.passFin next) := by
  have hsnd : (s.passFin next).snd.iss = s.snd.iss ∧
      (s.passFin next).snd.sndUser = s.snd.sndUser ∧
      (s.passFin next).snd.sndNxt = s.snd.sndNxt := by
    rw [Socket.passFin]
    split
    · rw [tcpChangeState_snd]
      exact ⟨rfl, rfl, rfl⟩
    · rw [tcpChangeState_snd]
      exact ⟨rfl, rfl, rfl⟩
  refine ⟨hacc, ?_, ?_, fun _ => by rw [passFin_history]⟩
  · rw [passFin_history, passFin_state]
    intro hs
    have hdel := (h.acked hs).2
    refine ⟨.inl ?_, by rw [passFin_history]; exact hs, by rw [hsnd.2.1]; exact hdel.sndUser,
      by rw [hsnd.2.2, hsnd.1, passFin_history]; exact hdel.sndNxt⟩
    rcases hnext with ⟨hstate, -⟩ | ⟨-, rfl⟩ | ⟨-, rfl⟩
    · have hno := h.finAcked_eq (by rw [hstate]; rfl) (by simp [hstate]) (by simp [hstate])
      exact absurd hs (by simp [hno])
    · rfl
    · rfl
  · rw [passFin_history, passFin_state]
    rcases hnext with ⟨-, rfl⟩ | ⟨-, rfl⟩ | ⟨hstate, rfl⟩
    · simp
    · simp
    · exact fun _ => h.closing (.inl hstate)

/-- **The actions keep the history truthful.** -/
theorem act (h : DeliveryInv s) (hdata : K.data = true) (hact : Act R K O s s') :
    DeliveryInv s' := by
  have hacc := h.toSendAccount.act hdata hact
  cases hact with
  | keep hk =>
      exact h.of_same hacc hk.same.state hk.snd.iss hk.snd.sndUser hk.snd.sndNxt
        (by rw [hk.same.history]; exact ⟨rfl, rfl, rfl⟩)
  | ack | disown | addFin | addSyn | read | data =>
      exact h.of_same hacc rfl rfl rfl rfl ⟨rfl, rfl, rfl⟩
  | sendData item sent hstate =>
      have hno := h.finAcked_eq (by rcases hstate with hs | hs <;> rw [hs] <;> rfl)
        (by rcases hstate with hs | hs <;> simp [hs]) (by rcases hstate with hs | hs <;> simp [hs])
      cases sent <;> refine of_unacked hacc hno ?_ h.received
      · rcases hstate with hs | hs <;> simp [Socket.addItem, hs]
      · rcases hstate with hs | hs <;> simp [Socket.advance, Socket.addItem, hs]
  | write data n hstate hpos =>
      have hno := h.finAcked_eq (by rcases hstate with hs | hs <;> rw [hs] <;> rfl)
        (by rcases hstate with hs | hs <;> simp [hs]) (by rcases hstate with hs | hs <;> simp [hs])
      obtain ⟨-, -, -, hhistory⟩ := copyUserData_of_pos s data hpos
      refine of_unacked hacc (by rw [hhistory]; exact hno) ?_ ?_
      · rw [copyUserData_state]
        rcases hstate with hs | hs <;> simp [hs]
      · rw [copyUserData_state, hhistory]
        exact h.received
  | fin segment next hfin hnext => exact h.fin hacc hnext
  | finAcked segment hacks =>
      have hfin : s.state.finSent = true := by
        simp only [acksFin, Bool.and_eq_true, Bool.or_eq_true, decide_eq_true_eq] at hacks
        rcases hacks.1.1 with (hs | hs) | hs <;> rw [hs] <;> rfl
      exact ⟨hacc, fun _ => ⟨.inl hfin, delivered h.toSendAccount hfin rfl rfl⟩, fun _ => rfl,
        h.received⟩
  | finWait2 hstate hacked =>
      have hdel := (h.acked hacked).2
      refine ⟨hacc, fun _ => ⟨.inl rfl, ?_⟩, ?_, fun hs => absurd hs (by simp [TcpState.finReceived])⟩
      · exact ⟨by simpa using hacked, by simpa using hdel.sndUser, by simpa using hdel.sndNxt⟩
      · simpa using hacked
  | timeWait hstate hacked =>
      have hdel := (h.acked hacked).2
      refine ⟨hacc, fun _ => ⟨.inl rfl, ?_⟩, ?_, fun _ => ?_⟩
      · exact ⟨by simpa [tcpDeleteControlBlock] using hacked,
          by simpa [tcpDeleteControlBlock] using hdel.sndUser,
          by simpa [tcpDeleteControlBlock] using hdel.sndNxt⟩
      · simpa [tcpDeleteControlBlock] using hacked
      · simpa [tcpDeleteControlBlock] using h.received (by rw [hstate]; rfl)
  | synSent segment next hstate hack hnext =>
      have hno := h.finAcked_eq (by rw [hstate]; rfl) (by simp [hstate]) (by simp [hstate])
      refine of_unacked hacc (by simpa [Socket.passSyn, Socket.ackTo] using hno) ?_ ?_
      · rcases hnext with ⟨rfl, -⟩ | ⟨rfl, -⟩ <;> simp [Socket.passSyn]
      · rcases hnext with ⟨rfl, -⟩ | ⟨rfl, -⟩ <;> simp [Socket.passSyn, TcpState.finReceived]
  | established hstate =>
      have hno := h.finAcked_eq (by rw [hstate]; rfl) (by simp [hstate]) (by simp [hstate])
      exact of_unacked hacc (by simpa using hno) (by simp) (by simp [TcpState.finReceived])
  | finish | reset =>
      exact h.of_closed hacc (.inl rfl) (by simp) (by simp)
  | dispose hstate => exact h.of_closed hacc (.inl hstate) ⟨rfl, rfl, rfl⟩ ⟨rfl, rfl⟩
  | leave next hallowed =>
      have hno := h.finAcked_eq (by rcases hallowed with ⟨-, hs | hs⟩ | ⟨-, hs⟩ <;> rw [hs] <;> rfl)
        (by rcases hallowed with ⟨-, hs | hs⟩ | ⟨-, hs⟩ <;> simp [hs])
        (by rcases hallowed with ⟨-, hs | hs⟩ | ⟨-, hs⟩ <;> simp [hs])
      refine of_unacked hacc (by simpa using hno) ?_ ?_
      · rcases hallowed with ⟨rfl, -⟩ | ⟨rfl, -⟩ <;> simp
      · rw [tcpChangeState_state, tcpChangeState_history]
        rcases hallowed with ⟨rfl, -⟩ | ⟨rfl, hs⟩
        · simp [TcpState.finReceived]
        · exact fun _ => h.received (by rw [hs]; rfl)
  | opened =>
      exact of_unacked hacc rfl (by simp [socketOpen, Socket.cleared])
        (by simp [socketOpen, Socket.cleared, TcpState.finReceived])
  | configure _ hopens hstate htype hun hstate' htype' hun' hsized hnet hchanges hacked =>
      exact of_unacked hacc hacked (by simp [hstate']) (by simp [hstate', TcpState.finReceived])
  | resize txBufferSize rxBufferSize hstate =>
      exact h.of_closed hacc (.inl hstate) ⟨rfl, rfl, rfl⟩ ⟨rfl, rfl⟩
  | connect hopens hp | accept hopens hp =>
      exact of_unacked hacc (by simpa using hp.finAcked) (by simp)
        (by simp [TcpState.finReceived])
  | listen hopens hstate => exact h.of_closed hacc (.inr rfl) (by simp) (by simp)

end DeliveryInv

/-! ## Calls that wait -/

/-- What the NO_ERROR of a call promises. -/
inductive Promise where
  /-- The data has been acknowledged. -/
  | data
  /-- The data and the FIN have been acknowledged. -/
  | fin
  /-- The FIN of the peer has been received, too. -/
  | bothFins
  deriving DecidableEq, Repr

/-- The promise of `tcpShutdown`. -/
def SocketShutdown.promise : SocketShutdown → Promise
  | .both => .bothFins
  | _ => .fin

/-- The promise of a call that waits. -/
def Call.promise : Call → Option Promise
  | .send _ flags => if flags.waitAck then some .data else none
  | .sendAck => some .data
  | .flush how _ | .sendFin how _ | .finAcked how => some how.promise
  | .finReceived .both => some .bothFins
  | _ => none

/-- The promise holds. -/
def Promise.Kept (s : Socket) : Promise → Prop
  | .data => s.snd.sndUser = 0 ∧ s.snd.sndUna = seq s.snd.iss (s.history.written.length + 1)
  | .fin => Delivered s
  | .bothFins => Delivered s ∧ s.history.finReceived = true

/-- The call takes the event that it waits for as its success. -/
def Call.TrustsEvent (call : Call) : Prop := call = .finAcked .send ∨ call = .finReceived .both

/-- How far the connection is while the call waits. -/
def Call.Waits (s : Socket) : Call → Prop
  | .finAcked .send =>
      s.state.finSent = true ∨ s.state = .closed ∧ s.history.finAcked = true
  | .finReceived .both =>
      s.history.finAcked = true ∧ (s.state = .finWait2 ∨ s.state = .timeWait ∨
        s.state = .closed ∧ s.history.finReceived = true)
  | _ => True

/-- The connection may be lost before the FIN is sent and after it is over. -/
def BeforeFin (state : TcpState) (_ : Bool) : Prop := state.finSent = true → state = .timeWait

/-- A connection that is kept goes on towards what `.finAcked .send` waits for. -/
theorem waits_finAcked {s s' : Socket} (h : DeliveryInv s)
    (hw : Call.Waits s (.finAcked .send)) (hact : Act BeforeFin K False s s') :
    Call.Waits s' (.finAcked .send) := by
  have hopen : s.state.finSent = false → s.state ≠ .closed → False := by
    rintro hfin hne
    rcases hw with hs | ⟨hs, -⟩
    · rw [hfin] at hs
      exact absurd hs (by simp)
    · exact hne hs
  simp only [Call.Waits] at hw ⊢
  cases hact with
  | keep hk => rwa [hk.same.state, hk.same.history]
  | ack | disown | addFin | addSyn | read | data | dispose | resize => exact hw
  | sendData item sent => cases sent <;> exact hw
  | write data n hstate =>
      exact (hopen (by rcases hstate with hs | hs <;> rw [hs] <;> rfl)
        (by rcases hstate with hs | hs <;> simp [hs])).elim
  | fin segment next hfin hnext =>
      refine .inl ?_
      rw [passFin_state]
      rcases hnext with ⟨hs, -⟩ | ⟨-, rfl⟩ | ⟨-, rfl⟩
      · exact (hopen (by rw [hs]; rfl) (by simp [hs])).elim
      · rfl
      · rfl
  | finAcked segment hacks => exact hw.imp_right fun h => ⟨h.1, rfl⟩
  | finWait2 | timeWait => exact .inl rfl
  | synSent segment next hs => exact (hopen (by rw [hs]; rfl) (by simp [hs])).elim
  | established hs => exact (hopen (by rw [hs]; rfl) (by simp [hs])).elim
  | finish hs =>
      refine .inr ⟨rfl, ?_⟩
      rw [tcpChangeState_history]
      rcases hs with ⟨-, hacked⟩ | hs
      · exact hacked
      · exact h.closing (.inr hs)
  | reset hR =>
      refine .inr ⟨rfl, ?_⟩
      rw [tcpChangeState_history]
      rcases hw with hs | ⟨-, hacked⟩
      · exact h.closing (.inr (hR hs))
      · exact hacked
  | leave next hallowed =>
      exact (hopen (by rcases hallowed with ⟨-, hs | hs⟩ | ⟨-, hs⟩ <;> rw [hs] <;> rfl)
        (by rcases hallowed with ⟨-, hs | hs⟩ | ⟨-, hs⟩ <;> simp [hs])).elim
  | opened hopens | configure _ hopens | connect hopens | accept hopens | listen hopens =>
      exact hopens.elim

/-- A connection that is kept goes on towards what `.finReceived .both` waits for. -/
theorem waits_finReceived {s s' : Socket} (h : DeliveryInv s)
    (hw : Call.Waits s (.finReceived .both)) (hact : Act BeforeFin K False s s') :
    Call.Waits s' (.finReceived .both) := by
  have hopen : s.state ≠ .finWait2 → s.state ≠ .timeWait → s.state ≠ .closed → False := by
    intro h1 h2 h3
    rcases hw.2 with hs | hs | ⟨hs, -⟩
    · exact h1 hs
    · exact h2 hs
    · exact h3 hs
  simp only [Call.Waits] at hw ⊢
  cases hact with
  | keep hk => rwa [hk.same.state, hk.same.history]
  | ack | disown | addFin | addSyn | read | data | dispose | resize => exact hw
  | sendData item sent => cases sent <;> exact hw
  | write data n hstate =>
      rcases hstate with hs | hs <;> exact (hopen (by simp [hs]) (by simp [hs]) (by simp [hs])).elim
  | fin segment next hfin hnext =>
      rw [passFin_state, passFin_history]
      rcases hnext with ⟨hs, -⟩ | ⟨hs, -⟩ | ⟨-, rfl⟩
      · exact (hopen (by simp [hs]) (by simp [hs]) (by simp [hs])).elim
      · exact (hopen (by simp [hs]) (by simp [hs]) (by simp [hs])).elim
      · exact ⟨hw.1, .inr (.inl rfl)⟩
  | finAcked segment hacks => exact ⟨rfl, hw.2⟩
  | finWait2 hs | timeWait hs | synSent segment next hs | established hs =>
      exact (hopen (by simp [hs]) (by simp [hs]) (by simp [hs])).elim
  | finish hs =>
      rw [tcpChangeState_history]
      refine ⟨hw.1, .inr (.inr ⟨rfl, ?_⟩)⟩
      rcases hs with ⟨hs, -⟩ | hs
      · exact (hopen (by simp [hs]) (by simp [hs]) (by simp [hs])).elim
      · exact h.received (by rw [hs]; rfl)
  | reset hR =>
      rw [tcpChangeState_history]
      refine ⟨hw.1, .inr (.inr ⟨rfl, ?_⟩)⟩
      rcases hw.2 with hs | hs | ⟨-, hreceived⟩
      · exact absurd (hR (by rw [hs]; rfl)) (by simp [hs])
      · exact h.received (by rw [hs]; rfl)
      · exact hreceived
  | leave next hallowed =>
      rcases hallowed with ⟨-, hs | hs⟩ | ⟨-, hs⟩ <;>
        exact (hopen (by simp [hs]) (by simp [hs]) (by simp [hs])).elim
  | opened hopens | configure _ hopens | connect hopens | accept hopens | listen hopens =>
      exact hopens.elim

/-- Along a step that keeps the connection, calls that trust their event stay in sight of it. -/
theorem Acts.waits {s s' : Socket} (hacts : Acts BeforeFin K False s s') (hdata : K.data = true)
    (h : DeliveryInv s) {call : Call} (hcall : call.TrustsEvent) (hw : call.Waits s) :
    call.Waits s' := by
  have hall : DeliveryInv s' ∧ call.Waits s' := by
    refine hacts.preserve (I := fun t => DeliveryInv t ∧ call.Waits t) ?_ ⟨h, hw⟩
    rintro t t' ⟨hinv, hwt⟩ hact
    refine ⟨hinv.act hdata hact, ?_⟩
    rcases hcall with rfl | rfl
    · exact waits_finAcked hinv hwt hact
    · exact waits_finReceived hinv hwt hact
  exact hall.2

theorem waits_of_not_trusts {s : Socket} {call : Call} (h : ¬ call.TrustsEvent) :
    call.Waits s := by
  unfold Call.Waits
  split
  · exact absurd (.inl rfl) h
  · exact absurd (.inr rfl) h
  · trivial

/-! ## Sections of calls -/

/-- The section of a call that a step runs, and how it ends. -/
def callSection (slot : Slot) : Event → Option (Socket × Outcome)
  | .connect remoteIpAddr remotePort env =>
      if slot.socket.type = .stream then some (tcpConnect slot.socket remoteIpAddr remotePort env)
      else none
  | .send data flags =>
      if slot.socket.type = .stream then
        let (socket, _, outcome) := tcpSend slot.socket data flags
        some (socket, outcome)
      else none
  | .receive size flags =>
      if slot.socket.type = .stream then
        let (socket, _, outcome) := tcpReceive slot.socket size flags
        some (socket, outcome)
      else none
  | .shutdown how =>
      if slot.socket.type = .stream then some (tcpShutdown slot.socket how) else none
  | .resume i false =>
      slot.calls[i]?.map fun call =>
        let (socket, _, outcome) := resumeCall slot.socket call
        (socket, outcome)
  | _ => none

theorem endSection_calls {slot : Slot} {socket : Socket} {outcome : Outcome} {call : Call}
    (h : call ∈ (slot.endSection socket outcome).calls) : call ∈ slot.calls ∨
      some (socket, outcome) = some ((slot.endSection socket outcome).socket, .blocks call) := by
  rw [endSection_socket]
  cases outcome with
  | blocks call' =>
      rcases List.mem_append.1 h with h | h
      · exact .inl h
      · exact .inr (by rw [List.mem_singleton.1 h])
  | returns error => exact .inl h

/-- The calls after a step have waited before or begin to wait in it. -/
theorem step_calls (slot : Slot) (event : Event) {call : Call}
    (h : call ∈ (step slot event).calls) :
    call ∈ slot.calls ∨
      callSection slot event = some ((step slot event).socket, .blocks call) := by
  cases event with
  | connect remoteIpAddr remotePort env =>
      rw [step] at h ⊢
      rw [callSection]
      split_ifs at h ⊢
      · generalize tcpConnect slot.socket remoteIpAddr remotePort env = r at h ⊢
        exact endSection_calls h
      · exact .inl h
  | send data flags =>
      rw [step] at h ⊢
      rw [callSection]
      split_ifs at h ⊢
      · generalize tcpSend slot.socket data flags = r at h ⊢
        exact endSection_calls h
      · exact .inl h
  | receive size flags =>
      rw [step] at h ⊢
      rw [callSection]
      split_ifs at h ⊢
      · generalize tcpReceive slot.socket size flags = r at h ⊢
        exact endSection_calls h
      · exact .inl h
  | shutdown how =>
      rw [step] at h ⊢
      rw [callSection]
      split_ifs at h ⊢
      · generalize tcpShutdown slot.socket how = r at h ⊢
        exact endSection_calls h
      · exact .inl h
  | resume i missed =>
      rw [step] at h ⊢
      cases hcall : slot.calls[i]? with
      | none =>
          rw [hcall] at h
          exact .inl h
      | some call' =>
          rw [hcall] at h
          have hsub : slot.calls.eraseIdx i ⊆ slot.calls := List.eraseIdx_subset
          cases missed with
          | true => exact .inl (hsub h)
          | false =>
              rw [callSection, hcall, Option.map_some]
              simp only [Bool.false_eq_true, if_false] at h ⊢
              generalize resumeCall slot.socket call' = r at h ⊢
              exact (endSection_calls h).imp_left (@hsub call)
  | «open» | accept | listen | abort | segment | tick =>
      rw [step] at h
      split at h <;> exact .inl h
  | setTxBufferSize | setRxBufferSize | dequeue => exact .inl h

theorem callSection_socket {slot : Slot} {event : Event} {socket : Socket} {outcome : Outcome}
    (h : callSection slot event = some (socket, outcome)) : (step slot event).socket = socket := by
  cases event with
  | connect | send | receive | shutdown =>
      rw [callSection] at h
      split at h
      case isTrue htype =>
        rw [step, if_pos htype, endSection_socket]
        exact congrArg Prod.fst (Option.some.inj h)
      case isFalse => exact absurd h (by simp)
  | resume i missed =>
      cases missed with
      | true => exact absurd h (by simp [callSection])
      | false =>
          rw [callSection] at h
          cases hcall : slot.calls[i]? with
          | none =>
              rw [hcall] at h
              exact absurd h (by simp)
          | some call =>
              rw [hcall] at h
              rw [Option.map_some] at h
              rw [step, hcall]
              simp only [Bool.false_eq_true, if_false]
              rw [endSection_socket]
              exact congrArg Prod.fst (Option.some.inj h)
  | _ => exact absurd h (by simp [callSection])

/-! ## How sections end -/

/-- What the section of a call promises, if it ends with NO_ERROR. -/
def promise (slot : Slot) : Event → Option Promise
  | .send _ flags => if flags.waitAck then some .data else none
  | .shutdown how =>
      if how ≠ .receive ∧ slot.socket.state ∈ [.synReceived, .established, .finWait1, .closeWait,
        .closing, .lastAck] then some how.promise else none
  | .resume i _ => slot.calls[i]?.bind Call.promise
  | _ => none

/-- The call is not done yet, or has failed. -/
def Unfinished (s : Socket) : Outcome → Prop
  | .blocks call => call.Waits s
  | .returns error => error ≠ .noError

/-- The outcome keeps what NO_ERROR promises. -/
def Truthful (s : Socket) (promise : Option Promise) : Outcome → Prop
  | .blocks call => call.Waits s
  | .returns error => error = .noError → ∀ p ∈ promise, p.Kept s

theorem Unfinished.truthful {s : Socket} {outcome : Outcome} (h : Unfinished s outcome)
    (promise : Option Promise) : Truthful s promise outcome := by
  cases outcome with
  | blocks call => exact h
  | returns error => exact fun herror => absurd herror h

/-- Nothing waits, and all that has been written has been acknowledged. -/
theorem kept_of_txAcked {s : Socket} (h : SendAccount s)
    (hstate : s.state = .established ∨ s.state = .closeWait) (hacked : s.txAcked = true) :
    Promise.data.Kept s := by
  have hsend := h.send (by rcases hstate with hs | hs <;> simp [hs])
    (by rcases hstate with hs | hs <;> simp [hs])
  have hflags : s.snd.sndUser = 0 ∧ 0 ≤ tcpCmpSeq s.snd.sndUna s.snd.sndNxt := by
    rw [Socket.txAcked] at hacked
    rcases hstate with hs | hs <;> rw [hs] at hacked <;> simpa using hacked
  have hfin : s.state.finSent = false := by rcases hstate with hs | hs <;> rw [hs] <;> rfl
  have huna : s.snd.sndUna = s.snd.sndNxt := by
    have hflight := hsend.flight_le
    have hcmp := hflags.2
    rw [tcpCmpSeq, cmp_nonneg] at hcmp
    have := s.snd.sndUna.toNat_lt
    have := s.snd.sndNxt.toNat_lt
    apply UInt32.toNat_inj.1
    simp only [UInt32.toNat_sub] at hcmp hflight
    omega
  refine ⟨hflags.1, ?_⟩
  have hnxt := hsend.sndNxt
  rw [hflags.1, hfin] at hnxt
  rw [huna, hnxt]
  rfl

theorem sendAcked_truthful {s : Socket} (h : SendAccount s) (hacked : s.txAcked = true) :
    Truthful s (some .data) (sendAcked s) := by
  rw [sendAcked]
  split
  case h_1 hs =>
    rintro - p ⟨⟩
    exact kept_of_txAcked h (.inl hs) hacked
  case h_2 hs =>
    rintro - p ⟨⟩
    exact kept_of_txAcked h (.inr hs) hacked
  case h_3 => exact fun herror => absurd herror (by simp)

theorem awaitAck_truthful {s : Socket} (flags : SocketFlags) (h : SendAccount s) :
    Truthful s (if flags.waitAck then some .data else none) (awaitAck s flags) := by
  rw [awaitAck]
  by_cases hwait : flags.waitAck = true
  · rw [if_pos hwait, if_pos hwait]
    split
    case isTrue hacked => exact sendAcked_truthful h hacked
    case isFalse => trivial
  · rw [if_neg hwait, if_neg hwait]
    rintro - p ⟨⟩

theorem tcpSendLoop_truthful (flags : SocketFlags) (fuel : ℕ) (s : Socket) (data : List UInt8)
    (h : SendAccount (tcpSendLoop flags fuel s data).1) :
    Truthful (tcpSendLoop flags fuel s data).1 (if flags.waitAck then some .data else none)
      (tcpSendLoop flags fuel s data).2.2 := by
  induction fuel generalizing s data with
  | zero => exact fun herror => absurd herror (by simp)
  | succ fuel ih =>
      rw [tcpSendLoop] at h ⊢
      by_cases hready : s.txReady = false
      · rw [if_pos hready]
        trivial
      · rw [if_neg hready] at h ⊢
        cases hs : s.state <;> simp only [hs] at h ⊢
        case closed | listen | synSent | synReceived =>
          intro herror
          rw [closedError] at herror
          split_ifs at herror
        case lastAck | finWait1 | finWait2 | closing | timeWait =>
          exact fun herror => absurd herror (by simp)
        case established | closeWait =>
          by_cases hfull : s.snd.txBufferSize ≤ s.snd.pending.toNat
          · rw [if_pos hfull]
            exact fun herror => absurd herror (by simp)
          · rw [if_neg hfull] at h ⊢
            by_cases hmore :
                min (s.snd.txBufferSize - s.snd.pending.toNat) data.length < data.length
            · rw [if_pos hmore] at h ⊢
              exact ih _ _ h
            · rw [if_neg hmore] at h ⊢
              exact awaitAck_truthful flags h

theorem tcpSend_truthful (s : Socket) (data : List UInt8) (flags : SocketFlags)
    (h : SendAccount (tcpSend s data flags).1) :
    Truthful (tcpSend s data flags).1 (if flags.waitAck then some .data else none)
      (tcpSend s data flags).2.2 := by
  rw [tcpSend] at h ⊢
  split at h
  case isTrue hstate =>
    rw [if_pos hstate]
    exact fun herror => absurd herror (by simp)
  case isFalse hstate =>
    rw [if_neg hstate]
    exact tcpSendLoop_truthful _ _ _ _ h

theorem truthful_returns (s : Socket) (error : ErrorCode) :
    Truthful s none (.returns error) := by
  rintro - p ⟨⟩

/-- `tcpReceive` promises nothing. -/
theorem tcpReceiveLoop_truthful (flags : SocketFlags) (size fuel : ℕ) (s : Socket)
    (received : ℕ) : Truthful (tcpReceiveLoop flags size fuel s received).1 none
      (tcpReceiveLoop flags size fuel s received).2.2 := by
  induction fuel generalizing s received with
  | zero => exact truthful_returns _ _
  | succ fuel ih =>
      rw [tcpReceiveLoop]
      split
      · exact truthful_returns _ _
      · split
        · trivial
        · split
          · exact truthful_returns _ _
          · simp only
            split
            · exact truthful_returns _ _
            · exact ih _ _

theorem tcpReceive_truthful (s : Socket) (size : ℕ) (flags : SocketFlags) :
    Truthful (tcpReceive s size flags).1 none (tcpReceive s size flags).2.2 := by
  rw [tcpReceive]
  split
  · exact truthful_returns _ _
  · exact tcpReceiveLoop_truthful _ _ _ _ _

theorem finAcked_waits {s : Socket} (how : SocketShutdown) (hfin : s.state.finSent = true) :
    (Call.finAcked how).Waits s := by
  cases how
  · trivial
  · exact .inl hfin
  · trivial

theorem sendFin_unfinished {s : Socket} (how : SocketShutdown) {next : TcpState}
    (hallowed : FinAllowed s.state next) :
    Unfinished (sendFin s how next).1 (sendFin s how next).2 := by
  rw [sendFin]
  generalize tcpSendSegment s { fin := true, ack := true } s.snd.sndNxt s.rcv.rcvNxt 0 true = r
  simp only
  split
  case isTrue herror => exact herror
  case isFalse =>
    have hnext : next.finSent = true := by rcases hallowed with ⟨rfl, -⟩ | ⟨rfl, -⟩ <;> rfl
    rw [awaitFinAcked, Socket.txShutdown, tcpChangeState_state]
    rcases hallowed with ⟨rfl, -⟩ | ⟨rfl, -⟩ <;> exact finAcked_waits how rfl

theorem awaitTxDone_unfinished {s : Socket} (how : SocketShutdown) {next : TcpState}
    (hallowed : FinAllowed s.state next) :
    Unfinished (awaitTxDone s how next).1 (awaitTxDone s how next).2 := by
  rw [awaitTxDone]
  split
  · exact sendFin_unfinished how hallowed
  · trivial

theorem flush_unfinished {s : Socket} (how : SocketShutdown) {next : TcpState}
    (hallowed : s.txReady = true → (s.state = .established ∨ s.state = .closeWait) →
      FinAllowed s.state next) :
    Unfinished (flush s how next).1 (flush s how next).2 := by
  rw [flush]
  rcases tcpSendLoop_nil_cases s with ⟨outcome, heq, hne⟩ | ⟨hstate, hready, heq⟩
  · rw [heq]
    cases outcome with
    | blocks call => trivial
    | returns error =>
        cases error
        case noError => exact absurd rfl hne
        all_goals exact fun herror => absurd herror (by simp)
  · rw [heq]
    refine awaitTxDone_unfinished how ?_
    rw [(tcpNagleAlgo_acts (R := BeforeFin) (K := {}) (O := True) s { noDelay := true } hstate).2.state]
    exact hallowed hready hstate

theorem txShutdown_cases {s : Socket} (h : s.txShutdown = true) :
    s.state = .finWait2 ∨ s.state = .timeWait ∨ s.state = .closed := by
  cases hs : s.state <;> simp [Socket.txShutdown, hs] at h ⊢

/-- Where the FIN has been acknowledged, so has everything else. -/
theorem DeliveryInv.closing_delivered {s : Socket} (h : DeliveryInv s)
    (hstate : s.state = .finWait2 ∨ s.state = .timeWait) : Delivered s :=
  (h.acked (h.closing hstate)).2

/-- The end of `tcpShutdown`, once the event that it has waited for is there. -/
theorem shutdownReceive_truthful {s : Socket} (h : DeliveryInv s) (how : SocketShutdown)
    (hw : (Call.finAcked how).Waits s) (hdone : s.txShutdown = true) :
    Truthful s (some how.promise) (shutdownReceive s how) := by
  rw [shutdownReceive]
  rcases txShutdown_cases hdone with hs | hs | hs
  · have hdel := h.closing_delivered (.inl hs)
    cases how with
    | send =>
        rintro - p ⟨⟩
        exact hdel
    | receive =>
        rw [if_neg (by simp), hs]
        simp [Socket.rxShutdown, hs, Truthful, Call.Waits]
    | both =>
        rw [if_neg (by simp), hs]
        simp only [Socket.rxShutdown, hs, Bool.false_eq_true, if_false]
        exact ⟨hdel.finAcked, .inl hs⟩
  · have hdel := h.closing_delivered (.inr hs)
    have hreceived := h.received (by rw [hs]; rfl)
    cases how with
    | send =>
        rintro - p ⟨⟩
        exact hdel
    | receive =>
        rw [if_neg (by simp), hs]
        rintro - p ⟨⟩
        exact hdel
    | both =>
        rw [if_neg (by simp), hs]
        rintro - p ⟨⟩
        exact ⟨hdel, hreceived⟩
  · cases how with
    | send =>
        rintro - p ⟨⟩
        rcases hw with hfin | ⟨-, hacked⟩
        · simp [hs, TcpState.finSent] at hfin
        · exact (h.acked hacked).2
    | receive | both =>
        rw [if_neg (by simp), hs]
        exact fun herror => absurd herror (by simp)

theorem awaitFinAcked_truthful {s : Socket} (h : DeliveryInv s) (how : SocketShutdown)
    (hw : (Call.finAcked how).Waits s) :
    Truthful s (some how.promise) (awaitFinAcked s how) := by
  rw [awaitFinAcked]
  split
  case isTrue hdone => exact shutdownReceive_truthful h how hw hdone
  case isFalse => exact hw

/-- `SOCKET_SD_RECEIVE` promises nothing. -/
theorem shutdownReceive_waits (s : Socket) (how : SocketShutdown) (hhow : how ≠ .both) :
    Truthful s none (shutdownReceive s how) := by
  have hwaits : Truthful s none (.blocks (.finReceived how)) := by
    cases how with
    | send | receive => trivial
    | both => exact absurd rfl hhow
  rw [shutdownReceive]
  split
  · exact truthful_returns _ _
  · split
    case h_1 | h_2 | h_8 => exact truthful_returns _ _
    all_goals
      split
      · exact truthful_returns _ _
      · exact hwaits

theorem tcpShutdown_truthful {slot : Slot} (how : SocketShutdown) (h : DeliveryInv slot.socket) :
    Truthful (tcpShutdown slot.socket how).1 (promise slot (.shutdown how))
      (tcpShutdown slot.socket how).2 := by
  rw [tcpShutdown]
  by_cases hhow : how = .receive
  · rw [if_pos hhow, promise, if_neg (by simp [hhow])]
    exact shutdownReceive_waits _ _ (by simp [hhow])
  · rw [if_neg hhow]
    have hnone : ∀ state : TcpState, slot.socket.state = state → state ∉ [TcpState.synReceived,
        .established, .finWait1, .closeWait, .closing, .lastAck] →
        promise slot (.shutdown how) = none := by
      intro state hstate hnot
      rw [promise, hstate, if_neg fun h => hnot h.2]
    have hsome : ∀ state : TcpState, slot.socket.state = state →
        (state = .finWait1 ∨ state = .closing ∨ state = .lastAck) →
        Truthful slot.socket (promise slot (.shutdown how))
          (awaitFinAcked slot.socket how) := by
      intro state hstate hor
      rw [promise, hstate, if_pos ⟨hhow, by rcases hor with rfl | rfl | rfl <;> simp⟩]
      refine awaitFinAcked_truthful h how (finAcked_waits how ?_)
      rw [hstate]
      rcases hor with rfl | rfl | rfl <;> rfl
    cases hs : slot.socket.state with
    | closed | listen =>
        rw [hnone _ hs (by simp)]
        exact truthful_returns _ _
    | synReceived => exact (flush_unfinished how fun _ _ => .inl ⟨rfl, .inl hs⟩).truthful _
    | established => exact (flush_unfinished how fun _ _ => .inl ⟨rfl, .inr hs⟩).truthful _
    | closeWait => exact (flush_unfinished how fun _ _ => .inr ⟨rfl, hs⟩).truthful _
    | finWait1 | closing | lastAck => exact hsome _ hs (by simp)
    | synSent | finWait2 | timeWait =>
        rw [hnone _ hs (by simp)]
        refine shutdownReceive_waits _ _ ?_
        split <;> simp_all

theorem resumeCall_truthful {s : Socket} {call : Call} (h : DeliveryInv s)
    (hend : DeliveryInv (resumeCall s call).1) (hw : call.Waits s)
    (hfin : ∀ next ∈ sendsFin s call, FinAllowed s.state next) :
    Truthful (resumeCall s call).1 call.promise (resumeCall s call).2.2 := by
  have htimeout : ∀ promise : Option Promise, Truthful s promise (.returns .timeout) :=
    fun _ herror => absurd herror (by simp)
  cases call with
  | connect =>
      rw [resumeCall]
      simp only
      split
      · exact truthful_returns _ _
      case h_2 hblocks =>
        cases houtcome : awaitConnected s with
        | blocks call => exact absurd houtcome (hblocks call)
        | returns error => exact truthful_returns _ _
  | send data flags =>
      rw [resumeCall] at hend ⊢
      split at hend
      case isTrue hready =>
        rw [if_pos hready]
        exact tcpSendLoop_truthful _ _ _ _ hend.toSendAccount
      case isFalse hready =>
        rw [if_neg hready]
        exact htimeout _
  | sendAck =>
      rw [resumeCall]
      simp only
      split
      case isTrue hacked => exact sendAcked_truthful h.toSendAccount hacked
      case isFalse => exact htimeout _
  | receive size received flags =>
      rw [resumeCall]
      split
      · exact tcpReceiveLoop_truthful _ _ _ _ _
      · exact htimeout _
  | flush how next =>
      rw [resumeCall]
      split
      · refine (flush_unfinished how fun hready hstate => hfin next ?_).truthful _
        simp only [sendsFin]
        rw [if_pos ⟨hready, hstate⟩]
        exact rfl
      · exact htimeout _
  | sendFin how next =>
      rw [resumeCall]
      split
      case isTrue hdone =>
        refine (sendFin_unfinished how (hfin next ?_)).truthful _
        simp only [sendsFin]
        rw [if_pos hdone]
        exact rfl
      case isFalse => exact htimeout _
  | finAcked how =>
      rw [resumeCall]
      simp only
      split
      case isTrue hdone => exact shutdownReceive_truthful h how hw hdone
      case isFalse => exact htimeout _
  | finReceived how =>
      rw [resumeCall]
      simp only
      split
      case isFalse => exact htimeout _
      case isTrue hdone =>
        cases how with
        | send | receive => exact truthful_returns _ _
        | both =>
            rintro - p ⟨⟩
            obtain ⟨hacked, hstate⟩ := hw
            refine ⟨(h.acked hacked).2, ?_⟩
            rcases hstate with hs | hs | ⟨-, hreceived⟩
            · simp [Socket.rxShutdown, hs] at hdone
            · exact h.received (by rw [hs]; rfl)
            · exact hreceived

/-- **How the section of a call ends** on a connection that is kept. -/
theorem callSection_truthful {slot : Slot} {event : Event} {socket : Socket} {outcome : Outcome}
    (hsection : callSection slot event = some (socket, outcome)) (h : DeliveryInv slot.socket)
    (hend : DeliveryInv socket) (hw : ∀ call ∈ slot.calls, call.Waits slot.socket)
    (hfin : FinInState slot event) : Truthful socket (promise slot event) outcome := by
  cases event with
  | connect remoteIpAddr remotePort env =>
      rw [callSection] at hsection
      split at hsection
      case isFalse => exact absurd hsection (by simp)
      case isTrue =>
        have houtcome : outcome = (tcpConnect slot.socket remoteIpAddr remotePort env).2 :=
          (congrArg Prod.snd (Option.some.inj hsection)).symm
        rw [houtcome, tcpConnect]
        have hawait : ∀ s : Socket, Truthful socket none (awaitConnected s) := by
          intro s
          rw [awaitConnected]
          split_ifs
          · exact truthful_returns _ _
          · exact truthful_returns _ _
          · trivial
        split
        · simp only
          split
          · exact truthful_returns _ _
          · exact hawait _
        · exact hawait _
  | send data flags =>
      rw [callSection] at hsection
      split at hsection
      case isFalse => exact absurd hsection (by simp)
      case isTrue =>
        obtain ⟨rfl, rfl⟩ := Prod.mk.inj (Option.some.inj hsection)
        exact tcpSend_truthful _ _ _ hend.toSendAccount
  | receive size flags =>
      rw [callSection] at hsection
      split at hsection
      case isFalse => exact absurd hsection (by simp)
      case isTrue =>
        obtain ⟨rfl, rfl⟩ := Prod.mk.inj (Option.some.inj hsection)
        exact tcpReceive_truthful _ _ _
  | shutdown how =>
      rw [callSection] at hsection
      split at hsection
      case isFalse => exact absurd hsection (by simp)
      case isTrue =>
        have hshutdown := tcpShutdown_truthful how h
        rw [Option.some.inj hsection] at hshutdown
        exact hshutdown
  | resume i missed =>
      cases missed with
      | true => exact absurd hsection (by simp [callSection])
      | false =>
          rw [callSection] at hsection
          cases hcall : slot.calls[i]? with
          | none =>
              rw [hcall] at hsection
              exact absurd hsection (by simp)
          | some call =>
              rw [hcall, Option.map_some] at hsection
              obtain ⟨rfl, rfl⟩ := Prod.mk.inj (Option.some.inj hsection)
              have hpromise : promise slot (.resume i false) = call.promise := by
                rw [promise, hcall]
                rfl
              rw [hpromise]
              refine resumeCall_truthful h hend (hw call (List.mem_of_getElem? hcall)) ?_
              intro next hnext
              refine hfin next ?_
              rw [hcall]
              exact hnext
  | _ => exact absurd hsection (by simp [callSection])

/-! ## Closed connections -/

/-- A call that waits on a connection that is lost fails, unless it trusts the event. -/
theorem resumeCall_closed {s : Socket} {call : Call} (hstate : s.state = .closed)
    (hpromise : call.promise ≠ none) (hfin : ∀ next ∈ sendsFin s call, FinAllowed s.state next)
    (hdone : (resumeCall s call).2.2 = .returns .noError) : call.TrustsEvent := by
  have hclosed : closedError s ≠ .noError := by
    rw [closedError]
    split_ifs <;> simp
  have hloop : ∀ (flags : SocketFlags) (n : ℕ) (data : List UInt8),
      tcpSendLoop flags (n + 1) s data = (s, [], .returns (closedError s)) := by
    intro flags n data
    rw [tcpSendLoop, if_neg (by simp [Socket.txReady, hstate]), hstate]
  cases call with
  | connect | receive => exact absurd rfl hpromise
  | send data flags =>
      rw [resumeCall, if_pos (by simp [Socket.txReady, hstate]), hloop] at hdone
      simp only [Outcome.returns.injEq] at hdone
      exact absurd hdone hclosed
  | sendAck =>
      simp [resumeCall, Socket.txAcked, sendAcked, hstate] at hdone
  | flush how next =>
      rw [resumeCall, if_pos (by simp [Socket.txReady, hstate]), flush, hloop] at hdone
      rw [closedError] at hdone
      split_ifs at hdone <;> simp at hdone
  | sendFin how next =>
      have hallowed : FinAllowed s.state next := by
        refine hfin next ?_
        simp only [sendsFin]
        rw [if_pos (by simp [Socket.txDone, hstate])]
        exact rfl
      rcases hallowed with ⟨-, hs | hs⟩ | ⟨-, hs⟩ <;> simp [hstate] at hs
  | finAcked how =>
      cases how with
      | send => exact .inl rfl
      | receive | both =>
          simp [resumeCall, Socket.txShutdown, shutdownReceive, hstate] at hdone
  | finReceived how =>
      cases how with
      | send | receive => exact absurd rfl hpromise
      | both => exact .inr rfl

/-- While no other connection is begun, acknowledgments are not forgotten; where the connection is not
lost in LAST-ACK, it counts as closed only with an acknowledgment of the FIN. -/
theorem Act.finAcked_mono {s s' : Socket} (h : DeliveryInv s)
    (hR : ∀ acked, R .lastAck acked → acked = true) (hact : Act R K False s s') :
    s'.history.connections = s.history.connections ∧
      (s.history.finAcked = true → s'.history.finAcked = true) ∧
      (s'.closedFlag = true → s.closedFlag = true ∨ s'.history.finAcked = true) := by
  have hchange : ∀ (t : Socket) (next : TcpState), next ≠ .closed →
      (tcpChangeState t next).closedFlag = t.closedFlag := by
    intro t next hnext
    rw [tcpChangeState, if_neg hnext]
  have hclose : (s.state = .lastAck ∨ s.state = .timeWait → s.history.finAcked = true) →
      (tcpChangeState s .closed).closedFlag = true →
        s.closedFlag = true ∨ (tcpChangeState s .closed).history.finAcked = true := by
    intro hacked hflag
    rw [tcpChangeState_history]
    rw [tcpChangeState, if_pos rfl] at hflag
    split at hflag
    case isTrue hstate => exact .inr (hacked hstate)
    case isFalse => exact .inl hflag
  cases hact with
  | keep hk => exact ⟨by rw [hk.same.history], by rw [hk.same.history]; exact id,
      fun hflag => .inl (by rwa [hk.same.closedFlag] at hflag)⟩
  | ack | disown | addFin | addSyn | read | data | dispose | resize => exact ⟨rfl, id, .inl⟩
  | sendData item sent => cases sent <;> exact ⟨rfl, id, .inl⟩
  | write data n hstate hpos =>
      have hflag : (copyUserData s data n).closedFlag = s.closedFlag := by
        rw [copyUserData, if_pos hpos]
      obtain ⟨-, -, -, hhistory⟩ := copyUserData_of_pos s data hpos
      rw [hhistory, hflag]
      exact ⟨rfl, id, .inl⟩
  | fin segment next hfin hnext =>
      have hne : next ≠ .closed := by rcases hnext with ⟨-, rfl⟩ | ⟨-, rfl⟩ | ⟨-, rfl⟩ <;> simp
      rw [passFin_history]
      refine ⟨rfl, id, fun hflag => .inl ?_⟩
      rw [Socket.passFin] at hflag
      split at hflag
      · rwa [hchange _ _ (by simp)] at hflag
      · rwa [hchange _ _ hne] at hflag
  | finAcked => exact ⟨rfl, fun _ => rfl, .inl⟩
  | finWait2 | established =>
      rw [tcpChangeState_history, hchange _ _ (by simp)]
      exact ⟨rfl, id, .inl⟩
  | timeWait =>
      rw [tcpChangeState_history, hchange _ _ (by simp)]
      exact ⟨rfl, id, .inl⟩
  | synSent segment next hstate hack hnext =>
      have hne : next ≠ .closed := by rcases hnext with ⟨rfl, -⟩ | ⟨rfl, -⟩ <;> simp
      rw [Socket.passSyn, tcpChangeState_history, hchange _ _ hne]
      exact ⟨rfl, id, .inl⟩
  | leave next hallowed =>
      have hne : next ≠ .closed := by rcases hallowed with ⟨rfl, -⟩ | ⟨rfl, -⟩ <;> simp
      rw [tcpChangeState_history, hchange _ _ hne]
      exact ⟨rfl, id, .inl⟩
  | finish hs =>
      refine ⟨by simp, by simp, hclose ?_⟩
      rintro (hlast | htime)
      · exact (hs.resolve_right (by simp [hlast])).2
      · exact h.closing (.inr htime)
  | reset hs =>
      refine ⟨by simp, by simp, hclose ?_⟩
      rintro (hlast | htime)
      · rw [hlast] at hs
        exact hR _ hs
      · exact h.closing (.inr htime)
  | opened hopens | configure _ hopens | connect hopens | accept hopens | listen hopens =>
      exact hopens.elim

theorem Acts.closedFlag {s s' : Socket} (h : DeliveryInv s) (hdata : K.data = true)
    (hR : ∀ acked, R .lastAck acked → acked = true) (hacts : Acts R K False s s')
    (hflag : s.closedFlag = false) (hflag' : s'.closedFlag = true) :
    s'.history.finAcked = true := by
  have hall : DeliveryInv s' ∧ (s'.closedFlag = true → s'.history.finAcked = true) := by
    refine hacts.preserve
      (I := fun t => DeliveryInv t ∧ (t.closedFlag = true → t.history.finAcked = true)) ?_
      ⟨h, fun hs => absurd hs (by simp [hflag])⟩
    rintro t t' ⟨hinv, hacked⟩ hact
    obtain ⟨-, hmono, hclosed⟩ := hact.finAcked_mono hinv hR
    exact ⟨hinv.act hdata hact, fun hs => (hclosed hs).elim (fun ht => hmono (hacked ht)) id⟩
  exact hall.2 hflag'

theorem Acts.connections {s s' : Socket} (h : DeliveryInv s) (hdata : K.data = true)
    (hR : ∀ acked, R .lastAck acked → acked = true) (hacts : Acts R K False s s') :
    s'.history.connections = s.history.connections := by
  have hall : DeliveryInv s' ∧ s'.history.connections = s.history.connections := by
    refine hacts.preserve
      (I := fun t => DeliveryInv t ∧ t.history.connections = s.history.connections) ?_ ⟨h, rfl⟩
    rintro t t' ⟨hinv, heq⟩ hact
    refine ⟨hinv.act hdata hact, (Eq.trans ?_ heq)⟩
    exact (hact.finAcked_mono hinv hR).1
  exact hall.2

/-- Sending a SYN does not close anything. -/
theorem tcpSendSegment_closedFlag (s : Socket) (flags : TcpFlags) (seqNum ackNum : UInt32)
    (hfin : flags.fin = false) :
    (tcpSendSegment s flags seqNum ackNum 0 true).2.state = s.state ∧
      (tcpSendSegment s flags seqNum ackNum 0 true).2.closedFlag = s.closedFlag := by
  rcases tcpSendSegment_queued_quiet s flags seqNum ackNum 0 hfin with h | ⟨-, h⟩
  · exact ⟨h.same.state, h.same.closedFlag⟩
  · exact ⟨h.same.state, h.same.closedFlag⟩

theorem tcpAbort_closedFlag {s : Socket} (hstate : s.state = .closed) :
    (tcpAbort s).2.closedFlag = s.closedFlag := by
  rw [tcpAbort, hstate]
  simp [disposeSocket, tcpDeleteControlBlock, tcpChangeState, hstate]

theorem openConnection_closedFlag (s : Socket) (remoteIpAddr : IpAddr) (remotePort : UInt16)
    (env : ConnectEnv) :
    (openConnection s remoteIpAddr remotePort env).2.closedFlag = s.closedFlag := by
  rw [openConnection]
  split
  · rfl
  · simp only
    split
    · rfl
    · split
      · rfl
      · rw [sendSyn]
        simp only
        split
        · exact (tcpSendSegment_closedFlag _ _ _ _ rfl).2
        · rw [tcpChangeState, if_neg (by simp)]
          exact (tcpSendSegment_closedFlag _ _ _ _ rfl).2

theorem acceptConnection_closedFlag (listener : Socket) {s : Socket} (hstate : s.state = .closed)
    (queueItem : TcpSynQueueItem) (memory : Bool) (iss : UInt32) :
    (acceptConnection listener s queueItem memory iss).2.closedFlag = s.closedFlag := by
  rw [acceptConnection]
  split
  · exact tcpAbort_closedFlag (s := inheritSettings listener s) hstate
  · have hsent := tcpSendSegment_closedFlag
      (passiveBlock listener (inheritSettings listener s) queueItem iss)
      { syn := true, ack := true } iss (queueItem.isn + 1) rfl
    rw [sendSynAck]
    simp only
    split
    · exact (tcpAbort_closedFlag (hsent.1.trans hstate)).trans hsent.2
    · rw [tcpChangeState, if_neg (by simp)]
      exact hsent.2

/-- A socket that is taken into use has not been closed yet. -/
theorem step_begins_closedFlag {slot : Slot} {event : Event} (hbegins : event.Begins slot.socket)
    (hflag : slot.socket.closedFlag = false) : (step slot event).socket.closedFlag = false := by
  cases event with
  | «open» type port =>
      have hunused : slot.socket.type = .unused := hbegins
      rw [step, if_pos hunused]
      rfl
  | accept listener sized port queueItem memory iss =>
      have hunused : slot.socket.type = .unused := hbegins
      rw [step, if_pos hunused]
      exact acceptConnection_closedFlag listener rfl queueItem memory iss
  | connect remoteIpAddr remotePort env =>
      have hstate : slot.socket.state = .closed := hbegins
      have hopen := openConnection_closedFlag slot.socket remoteIpAddr remotePort env
      rw [step]
      split
      case isFalse => exact hflag
      case isTrue =>
        rw [endSection_socket, tcpConnect, if_pos hstate]
        simp only
        split <;> exact hopen.trans hflag
  | listen backlog =>
      have hstate : slot.socket.state = .closed := hbegins
      rw [step]
      split
      case isFalse => exact hflag
      case isTrue =>
        rw [tcpListen, if_neg (by simpa using hstate)]
        simpa [tcpChangeState] using hflag
  | _ => exact hbegins.elim

/-! ## Runs -/

/-- How the section of a call that a step runs ends. -/
def result (slot : Slot) (event : Event) : Option Outcome := (callSection slot event).map Prod.snd

/-- The connection is lost in LAST-ACK only after the FIN has been acknowledged, and between the FIN
and TIME-WAIT only while no call trusts its event; while calls wait for an acknowledgment, the
socket is not taken into use for another connection. -/
def ConnectionKept (slot : Slot) (event : Event) : Prop :=
  (LosesConnection slot.socket event →
    (slot.socket.state = .lastAck → slot.socket.history.finAcked = true) ∧
      ∀ call ∈ slot.calls, call.TrustsEvent → slot.socket.state.finSent = true →
        slot.socket.state = .timeWait) ∧
    (event.Begins slot.socket → ∀ call ∈ slot.calls, call.promise = none)

/-- The condition on the steps under which success can be trusted. -/
def TrustedStep (slot : Slot) (event : Event) : Prop :=
  FinInState slot event ∧ UnusedSocket { data := true } slot event ∧ ConnectionKept slot event

/-- What NO_ERROR, closedFlag and the end of a connection mean in a step. -/
structure SuccessMeansDelivered (slot : Slot) (event : Event) : Prop where
  /-- A call that returns NO_ERROR has kept its promise. -/
  kept : result slot event = some (.returns .noError) →
    ∀ p ∈ promise slot event, p.Kept (step slot event).socket
  /-- The connection counts as closed only with an acknowledgment of the FIN. -/
  closedFlag : slot.socket.closedFlag = false → (step slot event).socket.closedFlag = true →
    (step slot event).socket.history.finAcked = true
  /-- The calls that wait do so on the connection they were made on. -/
  connection : ∀ call ∈ slot.calls, call.promise ≠ none →
    (step slot event).socket.history.connections = slot.socket.history.connections
  /-- On a connection that has been lost, they fail. -/
  lost : ∀ i call, event = .resume i false → slot.calls[i]? = some call → call.promise ≠ none →
    slot.socket.state = .closed → result slot event = some (.returns .noError) →
      slot.socket.history.finAcked = true

/-- What the steps preserve: the calls that trust their event are in sight of it. -/
structure WaitInv (slot : Slot) : Prop where
  delivery : DeliveryInv slot.socket
  waits : ∀ call ∈ slot.calls, call.Waits slot.socket

theorem Call.TrustsEvent.promise_ne {call : Call} (h : call.TrustsEvent) : call.promise ≠ none := by
  rcases h with rfl | rfl <;> simp [Call.promise]

theorem beforeFin_of_kept {slot : Slot} {event : Event} (h : ConnectionKept slot event)
    {call : Call} (hcall : call ∈ slot.calls) (htrusts : call.TrustsEvent)
    (hloss : LosesConnection slot.socket event) (acked : Bool) :
    BeforeFin slot.socket.state acked := (h.1 hloss).2 call hcall htrusts

theorem lossy_beforeFin : Lossy BeforeFin :=
  ⟨fun _ => by simp [BeforeFin, TcpState.finSent], fun _ => by simp [BeforeFin, TcpState.finSent]⟩

/-- While a call trusts its event, a step keeps the connection. -/
theorem TrustedStep.acts {slot : Slot} {event : Event} (h : TrustedStep slot event) {call : Call}
    (hcall : call ∈ slot.calls) (htrusts : call.TrustsEvent) :
    Acts BeforeFin { data := true } False slot.socket (step slot event).socket :=
  step_acts slot event h.1 h.2.1 lossy_beforeFin
    (fun hloss => ⟨beforeFin_of_kept h.2.2 hcall htrusts hloss _,
      beforeFin_of_kept h.2.2 hcall htrusts hloss _⟩)
    fun hbegins => Call.TrustsEvent.promise_ne htrusts (h.2.2.2 hbegins call hcall)

theorem TrustedStep.delivery {slot : Slot} {event : Event} (h : TrustedStep slot event)
    (hinv : DeliveryInv slot.socket) : DeliveryInv (step slot event).socket := by
  have hacts : Acts (fun _ _ => True) { data := true } True slot.socket (step slot event).socket :=
    step_acts slot event h.1 h.2.1 ⟨fun _ => trivial, fun _ => trivial⟩
      (fun _ => ⟨trivial, trivial⟩) fun _ => trivial
  exact hacts.preserve (fun h hact => h.act rfl hact) hinv

theorem WaitInv.step {slot : Slot} {event : Event} (h : WaitInv slot)
    (hevent : TrustedStep slot event) : WaitInv (step slot event) := by
  have hdelivery := hevent.delivery h.delivery
  refine ⟨hdelivery, fun call hcall => ?_⟩
  rcases step_calls slot event hcall with hold | hnew
  · by_cases htrusts : call.TrustsEvent
    · exact (hevent.acts hold htrusts).waits rfl h.delivery htrusts (h.waits call hold)
    · exact waits_of_not_trusts htrusts
  · exact callSection_truthful hnew h.delivery hdelivery h.waits hevent.1

/-- A step that begins no other connection. -/
theorem TrustedStep.acts_of_open {slot : Slot} {event : Event} (h : TrustedStep slot event)
    (hopen : ¬ event.Begins slot.socket) :
    Acts (fun state acked => state = .lastAck → acked = true) { data := true } False slot.socket
      (Tcp.step slot event).socket :=
  step_acts slot event h.1 h.2.1 ⟨fun _ => by simp, fun _ => by simp⟩
    (fun hloss => ⟨(h.2.2.1 hloss).1, fun _ => rfl⟩) hopen

theorem WaitInv.successMeansDelivered {slot : Slot} {event : Event} (h : WaitInv slot)
    (hevent : TrustedStep slot event) : SuccessMeansDelivered slot event where
  kept hdone := by
    rw [result] at hdone
    cases hsection : callSection slot event with
    | none => simp [hsection] at hdone
    | some r =>
        obtain ⟨socket, outcome⟩ := r
        rw [hsection] at hdone
        have houtcome : outcome = .returns .noError := by simpa using hdone
        subst houtcome
        have hsocket := callSection_socket hsection
        rw [hsocket]
        exact callSection_truthful hsection h.delivery (hsocket ▸ hevent.delivery h.delivery)
          h.waits hevent.1 rfl
  closedFlag hflag hflag' := by
    by_cases hbegins : event.Begins slot.socket
    · have hstill := step_begins_closedFlag hbegins hflag
      exact absurd hflag' (by simp [hstill])
    · exact (hevent.acts_of_open hbegins).closedFlag h.delivery rfl (fun _ hacked => hacked rfl)
        hflag hflag'
  connection call hcall hpromise := by
    have hopen : ¬ event.Begins slot.socket := fun hbegins =>
      hpromise (hevent.2.2.2 hbegins call hcall)
    exact (hevent.acts_of_open hopen).connections h.delivery rfl (fun _ hacked => hacked rfl)
  lost i call hi hcall hpromise hstate hdone := by
    subst hi
    rw [result, callSection, hcall] at hdone
    have htrusts : call.TrustsEvent := by
      refine resumeCall_closed hstate hpromise (fun next hnext => hevent.1 next ?_) (by simpa using hdone)
      rw [hcall]
      exact hnext
    have hw := h.waits call (List.mem_of_getElem? hcall)
    rcases htrusts with rfl | rfl
    · rcases hw with hfin | ⟨-, hacked⟩
      · simp [hstate, TcpState.finSent] at hfin
      · exact hacked
    · exact hw.1

/-- **A successful call means delivered** in every step that follows a run, as long as the connection is
kept while calls trust the events of the connection. -/
theorem successMeansDelivered_of_trusted (outcomes : ℕ → SendOutcome) (events : List Event)
    (h : Along TrustedStep step (Slot.init outcomes) events) (event : Event)
    (hevent : TrustedStep (run step (Slot.init outcomes) events) event) :
    SuccessMeansDelivered (run step (Slot.init outcomes) events) event := by
  have hinit : WaitInv (Slot.init outcomes) := by
    refine ⟨⟨sendAccount_init outcomes, ?_, ?_, ?_⟩, ?_⟩
    · exact fun hacked => absurd hacked (by simp [Slot.init, Socket.cleared])
    · exact fun hstate => absurd hstate (by simp [Slot.init, Socket.cleared])
    · exact fun hstate => absurd hstate (by simp [Slot.init, Socket.cleared, TcpState.finReceived])
    · exact fun call hcall => absurd hcall (by simp [Slot.init])
  exact (run_invariant (fun _ _ hinv hstep => hinv.step hstep) hinit h).successMeansDelivered hevent

/-- A connection is opened, and a byte is sent. -/
def sendByte : List Event :=
  .open .stream 49152 :: handshake 100 500 1000 ++ [.resume 0 false, .send [7] {}]

/-- The byte is acknowledged, the connection is shut down, and the peer acknowledges the FIN and sends
its own. -/
def gracefulShutdown : List Event :=
  sendByte ++ [.segment (.ofData { ack := true } 501 102 1000 [] noData_lt) true,
    .shutdown .both, .segment (.ofData { ack := true } 501 103 1000 [] noData_lt) true,
    .resume 0 false,
    .segment (.ofData { fin := true, ack := true } 501 103 1000 [] noData_lt) true]

/-- The call returns NO_ERROR, and rightly so. -/
theorem successMeansDelivered_gracefulShutdown :
    let slot := run step (Slot.init fun _ => {}) gracefulShutdown
    result slot (.resume 0 false) = some (.returns .noError) ∧
      SuccessMeansDelivered slot (.resume 0 false) := by
  have hcall : ∀ (slot : Slot) (event : Event), FinInState slot event →
      UnusedSocket { data := true } slot event → ¬ LosesConnection slot.socket event →
      ¬ event.Begins slot.socket → TrustedStep slot event :=
    fun _ _ hfin hunused hloss hbegins =>
      ⟨hfin, hunused, fun h => absurd h hloss, fun h => absurd h hbegins⟩
  have hopen : ∀ (slot : Slot) (event : Event), FinInState slot event →
      UnusedSocket { data := true } slot event → ¬ LosesConnection slot.socket event →
      slot.calls = [] → TrustedStep slot event :=
    fun _ _ hfin hunused hloss hcalls =>
      ⟨hfin, hunused, fun h => absurd h hloss, fun _ => by simp [hcalls]⟩
  have hsegment : ∀ (slot : Slot) (segment : Segment), segment.flags.rst = false →
      TrustedStep slot (.segment segment true) := fun slot segment hrst =>
    hcall slot _ trivial trivial (fun h => by simp [h.1] at hrst) id
  have hresume : ∀ slot : Slot, slot.calls[0]?.bind (sendsFin slot.socket) = none →
      TrustedStep slot (.resume 0 false) := by
    intro slot hnone
    refine hcall slot _ (fun next hnext => ?_) trivial id id
    rw [hnone] at hnext
    exact absurd hnext (by simp)
  refine ⟨by decide, successMeansDelivered_of_trusted _ _ ?_ _ (hresume _ (by decide))⟩
  exact ⟨hopen _ _ trivial trivial id rfl, hopen _ _ trivial (fun _ => by decide) id rfl,
    hsegment _ _ rfl, hresume _ (by decide), hcall _ _ trivial trivial id id,
    hsegment _ _ rfl, hcall _ _ trivial trivial id id, hsegment _ _ rfl,
    hresume _ (by decide), hsegment _ _ rfl, trivial⟩

/-- The connection is reset while `tcpShutdown` waits for the FIN to be acknowledged. -/
def shutdownReset : List Event :=
  sendByte ++ [.shutdown .send, .segment (.ofData { rst := true } 501 0 0 [] noData_lt) true]

/-- Neither the byte nor the FIN has been acknowledged, and the call returns NO_ERROR. -/
theorem shutdownReset_not_delivered :
    let slot := run step (Slot.init fun _ => {}) shutdownReset
    result slot (.resume 0 false) = some (.returns .noError) ∧
      promise slot (.resume 0 false) = some .fin ∧
      ¬ Promise.fin.Kept (step slot (.resume 0 false)).socket ∧
      ¬ SuccessMeansDelivered slot (.resume 0 false) := by
  refine ⟨by decide, by decide, fun h => absurd h.finAcked (by decide), fun h => ?_⟩
  exact absurd (h.kept (by decide) .fin (by decide)).finAcked (by decide)

end Tcp
