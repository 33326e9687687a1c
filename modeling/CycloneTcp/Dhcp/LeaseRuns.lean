import CycloneTcp.Dhcp.LeaseTicks

/-! # Lease safety

What the other events do to the invariant, and the run theorem: as long as every DHCPACK message
leaves the client the time to reach REBINDING, no lease is overrun. A server that sends an infinite
T1 with a finite lease time makes the client keep the address after the lease has ended. -/

set_option autoImplicit false

namespace Dhcp

/-! ## Messages and link changes -/

/-- An accepted DHCPACK message carries a lease time. -/
theorem acceptsAck_leaseTime {c : DhcpClientContext} {message : DhcpMessage}
    (h : acceptsAck c message = true) :
    dhcpGetOption32 message DHCP_OPT_IP_ADDRESS_LEASE_TIME = some (ackLeaseTime message) := by
  unfold acceptsAck at h
  cases hid : serverIdOption message with
  | none => simp [hid] at h
  | some serverId =>
      simp only [hid, Bool.and_eq_true] at h
      obtain ⟨lease, hlease⟩ := Option.isSome_iff_exists.1 h.2.2
      rw [ackLeaseTime, hlease]
      rfl

/-- The times that an accepted DHCPACK message sets. -/
theorem parseTimers_eq {c : DhcpClientContext} {message : DhcpMessage}
    (h : acceptsAck c message = true) :
    (parseTimers c message).leaseTime = ackLeaseTime message ∧
      (ackLeaseTime message ≠ DHCP_INFINITE_TIME →
        (parseTimers c message).t1 = ackT1 message ∧
          (parseTimers c message).t2 = ackT2 message) := by
  have hlease := acceptsAck_leaseTime h
  refine ⟨by rw [parseTimers, hlease]; rfl, fun hfin => ?_⟩
  simp only [parseTimers, hlease, Option.getD_some, if_pos hfin, ackT1, ackT2]
  constructor
  · cases dhcpGetOption32 message DHCP_OPT_RENEWAL_TIME_VALUE <;> rfl
  · cases dhcpGetOption32 message DHCP_OPT_REBINDING_TIME_VALUE <;> rfl

/-- An accepted DHCPACK message starts a lease: in two states the address is probed first. -/
structure Accepted (c c' : DhcpClientContext) (time : UInt32) (message : DhcpMessage) : Prop where
  running : c'.running = c.running
  leaseTime : c'.leaseTime = ackLeaseTime message
  t1 : ackLeaseTime message ≠ DHCP_INFINITE_TIME → c'.t1 = ackT1 message
  t2 : ackLeaseTime message ≠ DHCP_INFINITE_TIME → c'.t2 = ackT2 message
  leaseStartTime : c'.leaseStartTime = time
  timestamp : c'.timestamp = time
  timeout : c'.timeout = 0
  retransmitCount : c'.retransmitCount = 0
  assigned : (c.state.boundBy = probeBy ∧ c'.state = .probing ∧
      c'.interface.addrState = .tentative) ∨
    (c.state.boundBy = 0 ∧ c'.state = .bound ∧ c'.interface.addrState = .valid)

theorem dhcpClientParseAck_accepted {c : DhcpClientContext} {message : DhcpMessage} (time : UInt32)
    (h : acceptsAck c message = true) :
    Accepted c (dhcpClientParseAck c time message) time message := by
  obtain ⟨hlease, htimers⟩ := parseTimers_eq h
  rw [dhcpClientParseAck, if_pos h]
  dsimp only [assignAddress]
  split
  case isTrue hprobe =>
    refine ⟨rfl, hlease, fun hfin => (htimers hfin).1, fun hfin => (htimers hfin).2, rfl, rfl, rfl,
      rfl, Or.inl ⟨?_, rfl, rfl⟩⟩
    rcases hprobe with hs | hs <;> exact congrArg DhcpState.boundBy hs
  case isFalse hprobe =>
    refine ⟨rfl, hlease, fun hfin => (htimers hfin).1, fun hfin => (htimers hfin).2, rfl, rfl, rfl,
      rfl, Or.inr ⟨?_, rfl, rfl⟩⟩
    rw [not_or] at hprobe
    cases hs : c.state with
    | requesting => exact absurd hs hprobe.1
    | rebooting => exact absurd hs hprobe.2
    | init | selecting | initReboot | probing | bound | renewing | rebinding => rfl

/-- A message starts a lease, or is discarded, or is an offer, or makes the client start again. -/
theorem dhcpClientProcessMessage_cases (c : DhcpClientContext) (time : UInt32)
    (message : DhcpMessage) :
    let c' := dhcpClientProcessMessage c time message
    (acceptsLease c message = true ∧ Accepted c c' time message) ∨
    (acceptsLease c message = false ∧ (c' = c ∨
      (c'.running = c.running ∧ c.state = .selecting ∧ c'.state = .requesting ∧
        c'.interface = c.interface) ∨
      (c'.running = c.running ∧ c'.state = .init ∧ c'.interface.addrState = .invalid))) := by
  unfold dhcpClientProcessMessage acceptsLease
  cases htype : messageType message with
  | none => exact Or.inr ⟨rfl, Or.inl rfl⟩
  | some type =>
      dsimp only
      by_cases hack : type = DHCP_MESSAGE_TYPE_ACK
      case pos =>
        subst hack
        rw [if_neg (by decide), if_pos rfl]
        cases haccept : acceptsAck c message with
        | true => exact Or.inl ⟨rfl, dhcpClientParseAck_accepted time haccept⟩
        | false =>
            refine Or.inr ⟨rfl, Or.inl ?_⟩
            rw [dhcpClientParseAck, haccept]
            rfl
      case neg =>
        right
        have hne : (some type = some DHCP_MESSAGE_TYPE_ACK) = False := by
          rw [Option.some.injEq]
          exact eq_false hack
        refine ⟨by simp only [hne, decide_false, Bool.false_and], ?_⟩
        rw [if_neg hack]
        split
        case isTrue =>
          unfold dhcpClientParseOffer
          split
          case isTrue hoffer =>
            split
            · exact Or.inl rfl
            · exact Or.inr (Or.inl ⟨rfl, hoffer.2.2.2, rfl, rfl⟩)
          case isFalse => exact Or.inl rfl
        case isFalse =>
          split
          case isTrue =>
            unfold dhcpClientParseNak
            split
            case isTrue =>
              split
              · exact Or.inl rfl
              · split
                · exact Or.inr (Or.inr ⟨rfl, rfl, rfl⟩)
                · exact Or.inl rfl
            case isFalse => exact Or.inl rfl
          case isFalse => exact Or.inl rfl

section Steps

variable {clock : UInt32} {s : System}

/-- A DHCPACK message with timers that are in time starts a lease that is. -/
theorem Inv.accepted (h : Inv clock s) {message : DhcpMessage} {c' : DhcpClientContext}
    (hc : Accepted s.context c' (Serial.seq clock s.now) message)
    (hin : ackLeaseTime message ≠ DHCP_INFINITE_TIME →
      InTime s.context.state.boundBy (ackT1 message) (ackT2 message) (ackLeaseTime message)) :
    Inv clock { s with context := c', leaseStart := s.now } := by
  have hlease : c'.leaseTime ≠ DHCP_INFINITE_TIME → s.context.state.boundBy ≤ probeBy →
      Lease clock { s with context := c', leaseStart := s.now } s.context.state.boundBy := by
    intro hfin hearly
    rw [hc.leaseTime] at hfin
    refine ⟨hc.leaseStartTime, Nat.le_refl _, hearly, ?_⟩
    show InTime _ c'.t1 c'.t2 c'.leaseTime
    rw [hc.leaseTime, hc.t1 hfin, hc.t2 hfin]
    exact hin hfin
  refine ⟨hc.running.trans h.running, h.ticked, h.due, ?_⟩
  rcases hc.assigned with ⟨hby, hstate, haddr⟩ | ⟨hby, hstate, haddr⟩
  · rw [hby] at hlease
    refine Phase.of_state hstate ⟨?_, Nat.le_refl _, Or.inl ?_, fun hfin => ?_⟩
    · show c'.interface.addrState ≠ .valid
      rw [haddr]
      decide
    · exact ⟨hc.retransmitCount, hc.timeout, hc.timestamp, h.ticked⟩
    · exact hlease hfin (Nat.le_refl _)
  · rw [hby] at hlease
    refine Phase.of_state hstate ⟨haddr, fun hfin => ⟨0, hlease hfin (Nat.zero_le _), ?_⟩⟩
    show s.lastTick + DHCP_CLIENT_TICK_INTERVAL ≤ s.now + renewBy 0 c'.t1
    have := h.ticked
    unfold renewBy
    omega

theorem Inv.message (h : Inv clock s) (message : DhcpMessage)
    (hin : AcksInTime s (.message message)) : Inv clock (step clock s (.message message)) := by
  dsimp only [step]
  rcases dhcpClientProcessMessage_cases s.context (Serial.seq clock s.now) message with
    ⟨hacc, hc⟩ | ⟨hacc, hsame | ⟨hrun, hsel, hreq, hi⟩ | ⟨hrun, hinit, hi⟩⟩
  · rw [if_pos hacc]
    exact h.accepted hc (hin hacc)
  · rw [hsame, if_neg (by rw [hacc]; decide)]
    exact h
  · rw [if_neg (by rw [hacc]; decide)]
    have hidle : s.context.state.idle = true := congrArg DhcpState.idle hsel
    refine ⟨hrun.trans h.running, h.ticked, h.due, Phase.of_state hreq ?_⟩
    show (dhcpClientProcessMessage s.context _ message).interface.addrState ≠ .valid
    rw [hi]
    exact (phase_idle hidle).1 h.phase
  · rw [if_neg (by rw [hacc]; decide)]
    refine ⟨hrun.trans h.running, h.ticked, h.due, Phase.of_state hinit ?_⟩
    show (dhcpClientProcessMessage s.context _ message).interface.addrState ≠ .valid
    rw [hi]
    decide

theorem Inv.linkChange (h : Inv clock s) (linkState : Bool) :
    Inv clock (step clock s (.linkChange linkState)) := by
  dsimp only [step, dhcpClientLinkChangeEvent]
  rw [if_pos h.running]
  have hinvalid : Ipv4AddrState.invalid ≠ Ipv4AddrState.valid := by decide
  split
  · exact ⟨h.running, h.ticked, h.due, Phase.of_state rfl hinvalid⟩
  · exact ⟨h.running, h.ticked, h.due, Phase.of_state rfl hinvalid⟩

/-- Every event keeps the invariant. -/
theorem Inv.step (h : Inv clock s) (e : Event) (hin : AcksInTime s e) :
    Inv clock (step clock s e) := by
  cases e with
  | wait delay =>
      dsimp only [Dhcp.step]
      split
      case isTrue hdue =>
        have hlater : s.now ≤ s.now + delay := Nat.le_add_right _ _
        exact ⟨h.running, Nat.le_trans h.ticked hlater, hdue, PhaseOf.later h.phase hlater rfl⟩
      case isFalse => exact h
  | tick rand => exact h.tick rand
  | message message => exact h.message message hin
  | linkChange linkState => exact h.linkChange linkState
  | conflict => exact ⟨h.running, h.ticked, h.due, PhaseOf.later h.phase (Nat.le_refl _) rfl⟩

theorem inv_started (clock : UInt32) (context : DhcpClientContext) :
    Inv clock (started context) := by
  refine ⟨rfl, Nat.le_refl _, Nat.zero_le _, Phase.of_state rfl ?_⟩
  show Ipv4AddrState.invalid ≠ Ipv4AddrState.valid
  decide

/-- In the first two states with a lease, the end of the lease is at least one tick away. -/
theorem Inv.before_end (h : Inv clock s)
    (hstate : s.context.state = .bound ∨ s.context.state = .renewing)
    (hfin : s.context.leaseTime ≠ DHCP_INFINITE_TIME) : s.now < s.leaseEnd := by
  have hdue := h.due
  unfold System.leaseEnd
  rcases hstate with hs | hs
  · obtain ⟨_, htimers⟩ : PhaseOf clock s .bound := hs ▸ h.phase
    obtain ⟨b, hb, hlast⟩ := htimers hfin
    have hrebinds := hb.timers.rebinds
    unfold rebindBy at hrebinds
    omega
  · obtain ⟨_, htimers⟩ : PhaseOf clock s .renewing := hs ▸ h.phase
    obtain ⟨b, hb, hlast, _⟩ := htimers hfin
    have hrebinds := hb.timers.rebinds
    omega

/-- What the invariant says of the address. -/
theorem Inv.safe (h : Inv clock s) : LeaseSafe clock s := by
  have hphase := h.phase
  refine ⟨fun hvalid => ?_, fun hlease hfin => ?_, fun hlease hfin hend rand => ?_⟩
  case refine_1 =>
    unfold Phase at hphase
    cases hs : s.context.state with
    | bound | renewing | rebinding => rfl
    | probing =>
        rw [hs] at hphase
        exact absurd hvalid hphase.1
    | init | selecting | requesting | initReboot | rebooting =>
        rw [hs] at hphase
        exact absurd hvalid hphase
  case refine_2 =>
    cases hs : s.context.state with
    | bound => exact Nat.lt_add_right _ (h.before_end (Or.inl hs) hfin)
    | renewing => exact Nat.lt_add_right _ (h.before_end (Or.inr hs) hfin)
    | rebinding =>
        obtain ⟨_, htimers⟩ : PhaseOf clock s .rebinding := hs ▸ hphase
        obtain ⟨b, hb, hlast, _⟩ := htimers hfin
        have hrebinds := hb.timers.rebinds
        have hexpires := hb.timers.expires
        have hdue := h.due
        unfold System.leaseEnd
        omega
    | init | selecting | requesting | initReboot | rebooting | probing =>
        rw [hs] at hlease
        cases hlease
  case refine_3 =>
    cases hs : s.context.state with
    | bound => exact absurd (h.before_end (Or.inl hs) hfin) (Nat.not_lt_of_le hend)
    | renewing => exact absurd (h.before_end (Or.inr hs) hfin) (Nat.not_lt_of_le hend)
    | rebinding =>
        obtain ⟨_, htimers⟩ : PhaseOf clock s .rebinding := hs ▸ hphase
        obtain ⟨b, hb, _⟩ := htimers hfin
        have hexpires := hb.timers.expires
        intro context
        have hcontext : context = dhcpClientStateRebinding s.context (Serial.seq clock s.now) rand := by
          show dhcpClientTick s.context _ rand = _
          rw [dhcpClientTick, hs]
        unfold System.leaseEnd at hend
        rcases rebinding_cases h hs hfin rand with ⟨hlt, _⟩ | ⟨_, hexp⟩
        · omega
        · rw [hcontext, hexp]
          exact ⟨rfl, rfl, rfl⟩
    | init | selecting | requesting | initReboot | rebooting | probing =>
        rw [hs] at hlease
        cases hlease

end Steps

/-! ## Lease safety -/

/-- **Lease safety.** In every run of the client in which the DHCPACK messages accepted leave it the
time to reach REBINDING, every state reached is safe: no lease is overrun by more than one tick. -/
theorem lease_safety (clock : UInt32) (context : DhcpClientContext) {es : List Event}
    (hin : Along AcksInTime (step clock) (started context) es) :
    LeaseSafe clock (run (step clock) (started context) es) :=
  (run_invariant (fun _ e h hin => h.step e hin) (inv_started clock context) hin).safe

/-! ## Two leases of two seconds -/

/-- A client that has not been started, on an interface that is up. -/
def stoppedClient : DhcpClientContext where
  settings := ⟨false, false, 0, false⟩
  interface := ⟨true, 0x020000000001, 1500, 0, .invalid, false, 0, 0, fun _ => 0, 1500⟩
  running := false
  state := .init
  timeoutEventDone := false
  timestamp := 0
  timeout := 0
  retransmitTimeout := 0
  retransmitCount := 0
  serverIpAddr := 0
  requestedIpAddr := 0
  transactionId := 0
  configStartTime := 0
  leaseStartTime := 0
  leaseTime := 0
  t1 := 0
  t2 := 0

/-- A message of the server to that client, in the transaction with identifier 7. -/
def reply (options : List UInt8) : DhcpMessage :=
  ⟨DHCP_OPCODE_BOOTREPLY, DHCP_HARDWARE_TYPE_ETH, 6, 7, 0x0A000002, 0x020000000001,
    DHCP_MAGIC_COOKIE, options⟩

/-- An exchange that ends with a DHCPACK message with these options, and `n` ticks. -/
def exchange (ack : List UInt8) (n : ℕ) : List Event :=
  let rand : Random := ⟨7, 0, 0⟩
  [.tick rand, .tick rand, .message (reply [53, 1, 2, 54, 4, 10, 0, 0, 1, 255]), .tick rand,
    .message (reply ack), .tick rand] ++ (List.replicate n [Event.wait 200, .tick rand]).flatten

/-- A lease of two seconds with the default timers, on a clock that wraps: after 1800 ms the client
is in REBINDING. -/
theorem lease_safety_default :
    LeaseSafe 0xFFFFFE00 (run (step 0xFFFFFE00) (started stoppedClient)
      (exchange [53, 1, 5, 54, 4, 10, 0, 0, 1, 51, 4, 0, 0, 0, 2, 255] 9)) ∧
    (run (step 0xFFFFFE00) (started stoppedClient)
      (exchange [53, 1, 5, 54, 4, 10, 0, 0, 1, 51, 4, 0, 0, 0, 2, 255] 9)).context.state
        = .rebinding :=
  ⟨lease_safety _ _ (by decide), by decide⟩

/-- With an infinite T1 the client is still in BOUND 2200 ms later. -/
theorem lease_overrun : ¬ ∀ (clock : UInt32) (context : DhcpClientContext) (es : List Event),
    LeaseSafe clock (run (step clock) (started context) es) := by
  intro h
  have hsafe := h 0 stoppedClient (exchange [53, 1, 5, 54, 4, 10, 0, 0, 1, 51, 4, 0, 0, 0, 2,
    58, 4, 255, 255, 255, 255, 255] 11)
  exact absurd (hsafe.inTime (by decide) (by decide)) (by decide)

end Dhcp
