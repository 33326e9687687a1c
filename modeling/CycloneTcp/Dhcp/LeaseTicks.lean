import CycloneTcp.Dhcp.Lease

/-! # The timer handler and the lease

The invariant of a client with a lease, and what a tick does to it. In every state with a lease the
last tick came before the tick at which the state is left at the latest; these deadlines are the ones
that the condition on the timers puts before the end of the lease. -/

set_option autoImplicit false

namespace Dhcp

/-! ## The invariant -/

/-- The lease of a client that is bound by `b`, with timers that are in time. -/
structure Lease (clock : UInt32) (s : System) (b : ℕ) : Prop where
  start : s.context.leaseStartTime = Serial.seq clock s.leaseStart
  obtained : s.leaseStart ≤ s.now
  early : b ≤ probeBy
  timers : InTime b s.context.t1 s.context.t2 s.context.leaseTime

/-- The client waits before it does something again: the timer was set when something was sent, and
it does not run longer than until `limit`. -/
def Waits (clock : UInt32) (s : System) (limit : ℕ) : Prop :=
  ∃ sent, s.context.timestamp = Serial.seq clock sent ∧ sent ≤ s.lastTick ∧
    s.lastTick ≤ sent + s.context.timeout.toNat ∧
    (s.context.timeout = 0 ∨ sent + s.context.timeout.toNat ≤ limit)

/-- The client probes the address: the probe has not been sent, or it has been, and the delay has
not passed. -/
def Probes (clock : UInt32) (s : System) : Prop :=
  (s.context.retransmitCount = 0 ∧ s.context.timeout = 0 ∧
    s.context.timestamp = Serial.seq clock s.leaseStart ∧ s.lastTick ≤ s.leaseStart) ∨
  (s.context.retransmitCount = 1 ∧ s.context.timeout = DHCP_CLIENT_PROBE_DELAY ∧
    ∃ sent, s.context.timestamp = Serial.seq clock sent ∧ sent ≤ s.lastTick ∧
      s.lastTick < sent + DHCP_CLIENT_PROBE_DELAY.toNat ∧
      sent ≤ s.leaseStart + DHCP_CLIENT_TICK_INTERVAL)

/-- What holds of the address and of the timers in each state. In the three states with a lease, the
last tick came before the tick at which the state is left at the latest. -/
def PhaseOf (clock : UInt32) (s : System) : DhcpState → Prop
  | .probing =>
      s.context.interface.addrState ≠ .valid ∧ s.leaseStart ≤ s.now ∧ Probes clock s ∧
        (s.context.leaseTime ≠ DHCP_INFINITE_TIME → Lease clock s probeBy)
  | .bound =>
      s.context.interface.addrState = .valid ∧ (s.context.leaseTime ≠ DHCP_INFINITE_TIME →
        ∃ b, Lease clock s b ∧
          s.lastTick + DHCP_CLIENT_TICK_INTERVAL ≤ s.leaseStart + renewBy b s.context.t1)
  | .renewing =>
      s.context.interface.addrState = .valid ∧ (s.context.leaseTime ≠ DHCP_INFINITE_TIME →
        ∃ b, Lease clock s b ∧
          s.lastTick + DHCP_CLIENT_TICK_INTERVAL
            ≤ s.leaseStart + rebindBy b s.context.t1 s.context.t2 ∧
          Waits clock s (s.leaseStart + (toMilliseconds s.context.t2).toNat))
  | .rebinding =>
      s.context.interface.addrState = .valid ∧ (s.context.leaseTime ≠ DHCP_INFINITE_TIME →
        ∃ b, Lease clock s b ∧
          s.lastTick ≤ s.leaseStart + max (rebindBy b s.context.t1 s.context.t2)
            ((toMilliseconds s.context.leaseTime).toNat - 1) ∧
          Waits clock s (s.leaseStart + (toMilliseconds s.context.leaseTime).toNat))
  | _ => s.context.interface.addrState ≠ .valid

/-- The phase of the client's own state. -/
def Phase (clock : UInt32) (s : System) : Prop := PhaseOf clock s s.context.state

/-- What holds after every event. -/
structure Inv (clock : UInt32) (s : System) : Prop where
  running : s.context.running = true
  ticked : s.lastTick ≤ s.now
  due : s.now ≤ s.lastTick + DHCP_CLIENT_TICK_INTERVAL
  phase : Phase clock s

/-! ## Waiting -/

/-- The two contexts differ in what the retransmission of requests changes. -/
structure SameLease (c c' : DhcpClientContext) : Prop where
  interface : c'.interface = c.interface
  running : c'.running = c.running
  state : c'.state = c.state
  leaseStartTime : c'.leaseStartTime = c.leaseStartTime
  leaseTime : c'.leaseTime = c.leaseTime
  t1 : c'.t1 = c.t1
  t2 : c'.t2 = c.t2

theorem SameLease.refl (c : DhcpClientContext) : SameLease c c :=
  ⟨rfl, rfl, rfl, rfl, rfl, rfl, rfl⟩

/-- The timer set after a request does not run longer than the interval that is left. -/
theorem remaining_le (remaining : UInt32) :
    (if remaining > 2 * DHCP_CLIENT_REQUEST_MIN_DELAY then remaining / 2 else remaining).toNat
      ≤ remaining.toNat := by
  split
  · rw [UInt32.toNat_div]
    exact Nat.div_le_self _ _
  · exact Nat.le_refl _

/-- Has the timer of a waiting client elapsed? -/
theorem Waits.elapsed {clock : UInt32} {s : System} {limit sent : ℕ}
    (hstamp : s.context.timestamp = Serial.seq clock sent) (hsent : sent ≤ s.lastTick)
    (hlast : s.lastTick ≤ sent + s.context.timeout.toNat)
    (hto : s.context.timeout = 0 ∨ sent + s.context.timeout.toNat ≤ limit)
    (hlimit : limit < s.now + 2 ^ 31) (hticked : s.lastTick ≤ s.now)
    (hdue : s.now ≤ s.lastTick + DHCP_CLIENT_TICK_INTERVAL) :
    timeCompare (Serial.seq clock s.now) (s.context.timestamp + s.context.timeout) ≥ 0 ↔
      sent + s.context.timeout.toNat ≤ s.now := by
  have hI : DHCP_CLIENT_TICK_INTERVAL < 2 ^ 31 := by decide
  rw [hstamp]
  refine timeCompare_seq clock s.context.timeout (by omega) ?_
  rcases hto with hzero | hle
  · rw [hzero]
    show sent + 0 < s.now + 2 ^ 31
    omega
  · omega

/-- Up to its limit a client that extends its lease goes on waiting; the first tick after the limit
is the end of it. -/
theorem extendLease_cases {clock : UInt32} {s : System} {limit : UInt32} (rand : Random)
    (expired : DhcpClientContext)
    (hstart : s.context.leaseStartTime = Serial.seq clock s.leaseStart)
    (hobtained : s.leaseStart ≤ s.now) (hticked : s.lastTick ≤ s.now)
    (hdue : s.now ≤ s.lastTick + DHCP_CLIENT_TICK_INTERVAL)
    (hwaits : Waits clock s (s.leaseStart + limit.toNat)) (hlimit : limit.toNat < 2 ^ 31)
    (hturn : s.now < s.leaseStart + limit.toNat + 2 ^ 31) :
    let c' := extendLease s.context (Serial.seq clock s.now) limit rand expired
    (s.now < s.leaseStart + limit.toNat ∧ SameLease s.context c' ∧
      Waits clock { s with context := c', lastTick := s.now } (s.leaseStart + limit.toNat)) ∨
    (s.leaseStart + limit.toNat ≤ s.now ∧ c' = expired) := by
  intro c'
  obtain ⟨sent, hstamp, hsent, hlast, hto⟩ := hwaits
  have helapsed := Waits.elapsed hstamp hsent hlast hto (by omega) hticked hdue
  have hover : timeCompare (Serial.seq clock s.now) (s.context.leaseStartTime + limit) ≥ 0 ↔
      s.leaseStart + limit.toNat ≤ s.now := by
    rw [hstart]
    exact timeCompare_seq clock limit hturn (by omega)
  by_cases hpassed : sent + s.context.timeout.toNat ≤ s.now
  case neg =>
    -- nothing is sent, and a timer that is running ends by the limit
    have hsame : c' = s.context := if_neg fun h => hpassed (helapsed.1 h)
    left
    rw [hsame]
    have hrunning : sent + s.context.timeout.toNat ≤ s.leaseStart + limit.toNat := by
      refine hto.resolve_left fun hzero => ?_
      rw [hzero] at hpassed
      exact hpassed (Nat.le_trans hsent hticked)
    exact ⟨by omega, SameLease.refl _, sent, hstamp, Nat.le_trans hsent hticked,
      Nat.le_of_lt (Nat.lt_of_not_le hpassed), hto⟩
  case pos =>
    have hgo : c' = if timeCompare (Serial.seq clock s.now) (s.context.leaseStartTime + limit) < 0
        then _ else expired := if_pos (helapsed.2 hpassed)
    by_cases hexp : s.leaseStart + limit.toNat ≤ s.now
    · right
      refine ⟨hexp, hgo.trans (if_neg ?_)⟩
      exact not_lt.2 (hover.2 hexp)
    · left
      rw [if_pos (not_le.1 fun h => hexp (hover.1 h))] at hgo
      have hrem : (s.context.leaseStartTime + limit - Serial.seq clock s.now).toNat
          = s.leaseStart + limit.toNat - s.now := by
        have hadd : s.context.leaseStartTime + limit
            = Serial.seq clock (s.leaseStart + limit.toNat) := by
          rw [hstart, ← Serial.seq_add, UInt32.ofNat_toNat]
        rw [hadd]
        exact Serial.sub_toNat clock (by omega) (by omega)
      rw [hgo]
      refine ⟨by omega, ⟨rfl, rfl, rfl, rfl, rfl, rfl, rfl⟩, s.now, rfl, Nat.le_refl _,
        Nat.le_add_right _ _, Or.inr ?_⟩
      have hle := remaining_le (s.context.leaseStartTime + limit - Serial.seq clock s.now)
      rw [hrem] at hle
      exact Nat.add_le_of_le_sub' (by omega) hle

/-! ## States without a lease -/

/-- The states in which the client has no address. -/
def DhcpState.idle : DhcpState → Bool
  | init | selecting | requesting | initReboot | rebooting => true
  | _ => false

/-- Without a lease, all that is asked is that no address is valid. -/
theorem phase_idle {clock : UInt32} {s : System} (hidle : s.context.state.idle = true) :
    Phase clock s ↔ s.context.interface.addrState ≠ .valid := by
  unfold Phase
  cases hstate : s.context.state with
  | probing | bound | renewing | rebinding =>
      rw [hstate] at hidle
      cases hidle
  | init | selecting | requesting | initReboot | rebooting => exact Iff.rfl

theorem startConfig_interface (context : DhcpClientContext) (time : UInt32) (newState : DhcpState)
    (rand : Random) :
    (startConfig context time newState rand).interface = context.interface ∧
      (startConfig context time newState rand).running = context.running ∧
      ((startConfig context time newState rand).state = context.state ∨
        (startConfig context time newState rand).state = newState) := by
  unfold startConfig
  split
  · split
    · exact ⟨rfl, rfl, Or.inr rfl⟩
    · exact ⟨rfl, rfl, Or.inl rfl⟩
  · exact ⟨rfl, rfl, Or.inl rfl⟩

theorem dhcpClientCheckTimeout_same (context : DhcpClientContext) (time : UInt32) :
    (dhcpClientCheckTimeout context time).interface = context.interface ∧
      (dhcpClientCheckTimeout context time).running = context.running ∧
      (dhcpClientCheckTimeout context time).state = context.state := by
  unfold dhcpClientCheckTimeout
  split
  · exact ⟨rfl, rfl, rfl⟩
  · exact ⟨rfl, rfl, rfl⟩

theorem sendRequests_interface (context : DhcpClientContext) (time : UInt32) (rand : Random) :
    (sendRequests context time rand).interface = context.interface ∧
      (sendRequests context time rand).running = context.running ∧
      ((sendRequests context time rand).state = context.state ∨
        (sendRequests context time rand).state = .init) := by
  unfold sendRequests
  obtain ⟨hi, hr, hs⟩ := dhcpClientCheckTimeout_same _ time
  rw [hi, hr, hs]
  split
  · split
    · exact ⟨rfl, rfl, Or.inl rfl⟩
    · split
      · exact ⟨rfl, rfl, Or.inl rfl⟩
      · exact ⟨rfl, rfl, Or.inr rfl⟩
  · exact ⟨rfl, rfl, Or.inl rfl⟩

theorem dhcpClientStateSelecting_interface (context : DhcpClientContext) (time : UInt32)
    (rand : Random) :
    (dhcpClientStateSelecting context time rand).interface = context.interface ∧
      (dhcpClientStateSelecting context time rand).running = context.running ∧
      (dhcpClientStateSelecting context time rand).state = context.state := by
  unfold dhcpClientStateSelecting
  obtain ⟨hi, hr, hs⟩ := dhcpClientCheckTimeout_same _ time
  rw [hi, hr, hs]
  split
  · exact ⟨rfl, rfl, rfl⟩
  · exact ⟨rfl, rfl, rfl⟩

/-- The timer handler does not touch the interface of a client without an address, and takes it to
such a state. -/
theorem dhcpClientTick_idle {context : DhcpClientContext} (hidle : context.state.idle = true)
    (time : UInt32) (rand : Random) :
    (dhcpClientTick context time rand).interface = context.interface ∧
      (dhcpClientTick context time rand).running = context.running ∧
      (dhcpClientTick context time rand).state.idle = true := by
  unfold dhcpClientTick
  cases hstate : context.state with
  | probing | bound | renewing | rebinding =>
      rw [hstate] at hidle
      cases hidle
  | init =>
      obtain ⟨hi, hr, hs⟩ := startConfig_interface context time .selecting rand
      refine ⟨hi, hr, ?_⟩
      rcases hs with hs | hs
      · exact (congrArg DhcpState.idle hs).trans hidle
      · exact congrArg DhcpState.idle hs
  | initReboot =>
      obtain ⟨hi, hr, hs⟩ := startConfig_interface context time .rebooting rand
      refine ⟨hi, hr, ?_⟩
      rcases hs with hs | hs
      · exact (congrArg DhcpState.idle hs).trans hidle
      · exact congrArg DhcpState.idle hs
  | selecting =>
      obtain ⟨hi, hr, hs⟩ := dhcpClientStateSelecting_interface context time rand
      exact ⟨hi, hr, (congrArg DhcpState.idle hs).trans hidle⟩
  | requesting | rebooting =>
      obtain ⟨hi, hr, hs⟩ := sendRequests_interface context time rand
      refine ⟨hi, hr, ?_⟩
      rcases hs with hs | hs
      · exact (congrArg DhcpState.idle hs).trans hidle
      · exact congrArg DhcpState.idle hs

/-! ## The timer handler -/

section Tick

variable {clock : UInt32} {s : System}

/-- Time that passes, and a conflict that is reported, change nothing else. -/
theorem PhaseOf.later {state : DhcpState} (h : PhaseOf clock s state) {now : ℕ}
    (hnow : s.now ≤ now) {interface : NetInterface}
    (haddr : interface.addrState = s.context.interface.addrState) :
    PhaseOf clock { s with context := { s.context with interface := interface }, now := now }
      state := by
  have hlease : ∀ b, Lease clock s b →
      Lease clock { s with context := { s.context with interface := interface }, now := now } b :=
    fun b hb => ⟨hb.start, Nat.le_trans hb.obtained hnow, hb.early, hb.timers⟩
  cases state with
  | probing =>
      obtain ⟨hvalid, hle, hprobes, htimers⟩ := h
      exact ⟨haddr ▸ hvalid, Nat.le_trans hle hnow, hprobes, fun hfin => hlease _ (htimers hfin)⟩
  | bound | renewing | rebinding =>
      refine ⟨haddr.trans h.1, fun hfin => ?_⟩
      obtain ⟨b, hb, hrest⟩ := h.2 hfin
      exact ⟨b, hlease b hb, hrest⟩
  | init | selecting | requesting | initReboot | rebooting =>
      show interface.addrState ≠ .valid
      rw [haddr]
      exact h

theorem Phase.of_state {state : DhcpState} (hstate : s.context.state = state)
    (h : PhaseOf clock s state) : Phase clock s := by
  rw [Phase, hstate]
  exact h

/-- The system after the timer handler has left the context `c'`. -/
def System.afterTick (s : System) (c' : DhcpClientContext) : System :=
  { s with context := c', lastTick := s.now }

/-- A tick that leaves the times alone keeps the lease. -/
theorem Lease.afterTick {b : ℕ} (h : Lease clock s b) {c' : DhcpClientContext}
    (hstart : c'.leaseStartTime = s.context.leaseStartTime)
    (hlease : c'.leaseTime = s.context.leaseTime) (ht1 : c'.t1 = s.context.t1)
    (ht2 : c'.t2 = s.context.t2) : Lease clock (s.afterTick c') b := by
  refine ⟨hstart.trans h.start, h.obtained, h.early, ?_⟩
  show InTime b c'.t1 c'.t2 c'.leaseTime
  rw [hlease, ht1, ht2]
  exact h.timers

/-- What the PROBING state does: nothing, give up, send a probe, or use the address. -/
theorem dhcpClientStateProbing_cases (c : DhcpClientContext) (time : UInt32) :
    (¬ timeCompare time (c.timestamp + c.timeout) ≥ 0 ∧ dhcpClientStateProbing c time = c) ∨
    (timeCompare time (c.timestamp + c.timeout) ≥ 0 ∧
      ((c.interface.addrConflict = true ∧
          dhcpClientStateProbing c time = dhcpClientChangeState c time .init 0) ∨
        (c.retransmitCount < DHCP_CLIENT_PROBE_NUM ∧ dhcpClientStateProbing c time =
          { c with
            timestamp := time
            timeout := DHCP_CLIENT_PROBE_DELAY
            retransmitCount := c.retransmitCount + 1 }) ∨
        (¬ c.retransmitCount < DHCP_CLIENT_PROBE_NUM ∧ dhcpClientStateProbing c time =
          dhcpClientChangeState { c with interface := { c.interface with addrState := .valid } }
            time .bound 0))) := by
  unfold dhcpClientStateProbing
  split
  case isFalse helapsed => exact Or.inl ⟨helapsed, rfl⟩
  case isTrue helapsed =>
    refine Or.inr ⟨helapsed, ?_⟩
    split
    case isTrue hconflict => exact Or.inl ⟨hconflict, rfl⟩
    case isFalse =>
      split
      case isTrue hcount => exact Or.inr (Or.inl ⟨hcount, rfl⟩)
      case isFalse hcount => exact Or.inr (Or.inr ⟨hcount, rfl⟩)

/-- The probe is sent at the first tick, and the client is bound at the first tick after the
delay, unless a conflict has been found. -/
theorem Probes.tick (hprobes : Probes clock s) (hobtained : s.leaseStart ≤ s.now)
    (hticked : s.lastTick ≤ s.now) (hdue : s.now ≤ s.lastTick + DHCP_CLIENT_TICK_INTERVAL) :
    let c' := dhcpClientStateProbing s.context (Serial.seq clock s.now)
    (s.context.interface.addrConflict = true ∧
      c' = dhcpClientChangeState s.context (Serial.seq clock s.now) .init 0) ∨
    (SameLease s.context c' ∧ Probes clock (s.afterTick c')) ∨
    (s.now ≤ s.leaseStart + probeBy ∧ c' = dhcpClientChangeState
      { s.context with interface := { s.context.interface with addrState := .valid } }
      (Serial.seq clock s.now) .bound 0) := by
  intro c'
  have hI : DHCP_CLIENT_TICK_INTERVAL = 200 := rfl
  have hdelay : DHCP_CLIENT_PROBE_DELAY.toNat = 1000 := rfl
  -- before the probe the timer has elapsed, after it when the delay has passed
  have hprobes' : (s.context.retransmitCount = 0 ∧ s.lastTick ≤ s.leaseStart ∧
        timeCompare (Serial.seq clock s.now) (s.context.timestamp + s.context.timeout) ≥ 0) ∨
      (s.context.retransmitCount = 1 ∧ ∃ sent, s.context.timestamp = Serial.seq clock sent ∧
        s.context.timeout = DHCP_CLIENT_PROBE_DELAY ∧ sent ≤ s.lastTick ∧
        s.lastTick < sent + 1000 ∧ sent ≤ s.leaseStart + DHCP_CLIENT_TICK_INTERVAL ∧
        (timeCompare (Serial.seq clock s.now) (s.context.timestamp + s.context.timeout) ≥ 0 ↔
          sent + 1000 ≤ s.now)) := by
    rcases hprobes with ⟨hcount, hzero, hstamp, hlast⟩ | ⟨hcount, hto, sent, hstamp, hsent, hlast, hby⟩
    · refine Or.inl ⟨hcount, hlast, ?_⟩
      rw [hstamp, hzero]
      exact (timeCompare_seq clock 0 (by show s.now < s.leaseStart + 0 + _; omega)
        (by show s.leaseStart + 0 < _; omega)).2 hobtained
    · refine Or.inr ⟨hcount, sent, hstamp, hto, hsent, by omega, hby, ?_⟩
      rw [hstamp, hto]
      exact timeCompare_seq clock DHCP_CLIENT_PROBE_DELAY (by omega) (by omega)
  rcases dhcpClientStateProbing_cases s.context (Serial.seq clock s.now) with
    ⟨helapsed, hc⟩ | ⟨helapsed, ⟨hconflict, hc⟩ | ⟨hcount, hc⟩ | ⟨hcount, hc⟩⟩
  case inl =>
    right; left
    rw [show c' = _ from hc]
    refine ⟨SameLease.refl _, Or.inr ?_⟩
    rcases hprobes' with ⟨_, _, hgo⟩ | ⟨hone, sent, hstamp, hto, hsent, hlast, hby, hiff⟩
    · exact absurd hgo helapsed
    · have hlt : ¬ sent + 1000 ≤ s.now := fun hge => helapsed (hiff.2 hge)
      exact ⟨hone, hto, sent, hstamp, Nat.le_trans hsent hticked, Nat.lt_of_not_le hlt, hby⟩
  case inr.inl => exact Or.inl ⟨hconflict, hc⟩
  case inr.inr.inl =>
    right; left
    rw [show c' = _ from hc]
    refine ⟨⟨rfl, rfl, rfl, rfl, rfl, rfl, rfl⟩, Or.inr ?_⟩
    rcases hprobes' with ⟨hzero, hlast, _⟩ | ⟨hone, _⟩
    · refine ⟨?_, rfl, s.now, rfl, Nat.le_refl _, Nat.lt_add_of_pos_right (by decide), ?_⟩
      · show s.context.retransmitCount + 1 = 1
        rw [hzero]
        rfl
      · exact Nat.le_trans hdue (Nat.add_le_add_right hlast _)
    · rw [hone] at hcount
      exact absurd hcount (by decide)
  case inr.inr.inr =>
    right; right
    refine ⟨?_, hc⟩
    have hpr : probeBy = 1399 := rfl
    rcases hprobes' with ⟨hzero, _⟩ | ⟨_, sent, _, _, _, hlast, hby, _⟩
    · rw [hzero] at hcount
      exact absurd (by decide) hcount
    · omega

theorem tick_probing (h : Inv clock s) (hstate : s.context.state = .probing) :
    let c' := dhcpClientStateProbing s.context (Serial.seq clock s.now)
    c'.running = true ∧ Phase clock (s.afterTick c') := by
  intro c'
  obtain ⟨hvalid, hle, hprobes, htimers⟩ : PhaseOf clock s .probing := hstate ▸ h.phase
  rcases hprobes.tick hle h.ticked h.due with ⟨_, hc⟩ | ⟨hsame, hprobes'⟩ | ⟨hby, hc⟩
  · rw [show c' = _ from hc]
    exact ⟨h.running, Phase.of_state rfl hvalid⟩
  · refine ⟨hsame.running.trans h.running, Phase.of_state (hsame.state.trans hstate)
      ⟨?_, hle, hprobes', fun hfin => ?_⟩⟩
    · exact fun hval => hvalid ((congrArg NetInterface.addrState hsame.interface).symm.trans hval)
    · exact (htimers (fun hinf => hfin (hsame.leaseTime.trans hinf))).afterTick
        hsame.leaseStartTime hsame.leaseTime hsame.t1 hsame.t2
  · rw [show c' = _ from hc]
    refine ⟨h.running, Phase.of_state rfl ⟨rfl, fun hfin => ⟨probeBy, ?_, ?_⟩⟩⟩
    · exact (htimers hfin).afterTick rfl rfl rfl rfl
    · show s.now + DHCP_CLIENT_TICK_INTERVAL ≤ s.leaseStart + renewBy probeBy s.context.t1
      unfold renewBy
      omega

/-- BOUND is left at the first tick at which T1 has passed. -/
theorem tick_bound (h : Inv clock s) (hstate : s.context.state = .bound) :
    let c' := dhcpClientStateBound s.context (Serial.seq clock s.now)
    c'.running = true ∧ Phase clock (s.afterTick c') := by
  intro c'
  obtain ⟨hvalid, htimers⟩ : PhaseOf clock s .bound := hstate ▸ h.phase
  have hdue := h.due
  have hI : DHCP_CLIENT_TICK_INTERVAL = 200 := rfl
  have hpr : probeBy = 1399 := rfl
  have hover : ∀ b, Lease clock s b →
      s.lastTick + DHCP_CLIENT_TICK_INTERVAL ≤ s.leaseStart + renewBy b s.context.t1 →
      (timeCompare (Serial.seq clock s.now)
          (s.context.leaseStartTime + toMilliseconds s.context.t1) ≥ 0 ↔
        s.leaseStart + (toMilliseconds s.context.t1).toNat ≤ s.now) := by
    intro b hb hlast
    have hlt := toMilliseconds_lt s.context.t1
    have hob := hb.obtained
    have hearly := hb.early
    rw [hb.start]
    refine timeCompare_seq clock (toMilliseconds s.context.t1) ?_ (by omega)
    unfold renewBy at hlast
    omega
  unfold c' dhcpClientStateBound
  split
  case isFalse hinf =>
    refine ⟨h.running, Phase.of_state hstate ⟨hvalid, fun hfin => ?_⟩⟩
    obtain ⟨b, hb, _⟩ := htimers hfin
    exact absurd hb.timers.renews hinf
  case isTrue =>
    split
    case isTrue hgo =>
      refine ⟨h.running, Phase.of_state rfl ⟨hvalid, fun hfin => ?_⟩⟩
      obtain ⟨b, hb, hlast⟩ := htimers hfin
      refine ⟨b, hb.afterTick rfl rfl rfl rfl, ?_, s.now, rfl, Nat.le_refl _, Nat.le_refl _,
        Or.inl rfl⟩
      show s.now + DHCP_CLIENT_TICK_INTERVAL ≤ s.leaseStart + rebindBy b s.context.t1 s.context.t2
      unfold rebindBy
      omega
    case isFalse hstay =>
      refine ⟨h.running, Phase.of_state hstate ⟨hvalid, fun hfin => ?_⟩⟩
      obtain ⟨b, hb, hlast⟩ := htimers hfin
      have hlt : ¬ s.leaseStart + (toMilliseconds s.context.t1).toNat ≤ s.now :=
        fun hge => hstay ((hover b hb hlast).2 hge)
      refine ⟨b, hb.afterTick rfl rfl rfl rfl, ?_⟩
      show s.now + DHCP_CLIENT_TICK_INTERVAL ≤ s.leaseStart + renewBy b s.context.t1
      unfold renewBy
      omega

/-- With an infinite lease nothing is known of the timers. -/
theorem extendLease_same (c : DhcpClientContext) (time limit : UInt32) (rand : Random)
    (expired : DhcpClientContext) :
    SameLease c (extendLease c time limit rand expired) ∨
      extendLease c time limit rand expired = expired := by
  unfold extendLease
  split
  · split
    · exact Or.inl ⟨rfl, rfl, rfl, rfl, rfl, rfl, rfl⟩
    · exact Or.inr rfl
  · exact Or.inl (SameLease.refl c)

theorem SameLease.lease {c' : DhcpClientContext} (hsame : SameLease s.context c') {b : ℕ}
    (h : Lease clock s b) : Lease clock (s.afterTick c') b :=
  h.afterTick hsame.leaseStartTime hsame.leaseTime hsame.t1 hsame.t2

/-- RENEWING is left at the first tick at which T2 has passed. -/
theorem tick_renewing (h : Inv clock s) (hstate : s.context.state = .renewing) (rand : Random) :
    let c' := dhcpClientStateRenewing s.context (Serial.seq clock s.now) rand
    c'.running = true ∧ Phase clock (s.afterTick c') := by
  intro c'
  obtain ⟨hvalid, htimers⟩ : PhaseOf clock s .renewing := hstate ▸ h.phase
  have hdue := h.due
  have hI : DHCP_CLIENT_TICK_INTERVAL = 200 := rfl
  have hmax := toMilliseconds_lt s.context.t2
  by_cases hinf : s.context.leaseTime = DHCP_INFINITE_TIME
  case pos =>
    rcases extendLease_same s.context (Serial.seq clock s.now) (toMilliseconds s.context.t2) rand
      (dhcpClientChangeState s.context (Serial.seq clock s.now) .rebinding 0) with hsame | hexp
    · refine ⟨hsame.running.trans h.running, Phase.of_state (hsame.state.trans hstate) ⟨?_, ?_⟩⟩
      · exact (congrArg NetInterface.addrState hsame.interface).trans hvalid
      · exact fun hfin => absurd (hsame.leaseTime.trans hinf) hfin
    · rw [show c' = _ from hexp]
      exact ⟨h.running, Phase.of_state rfl ⟨hvalid, fun hfin => absurd hinf hfin⟩⟩
  case neg =>
    obtain ⟨b, hb, hlast, hwaits⟩ := htimers hinf
    have hturn := hb.timers.turns
    unfold rebindBy at hlast
    rcases extendLease_cases rand
      (dhcpClientChangeState s.context (Serial.seq clock s.now) .rebinding 0) hb.start hb.obtained
      h.ticked hdue hwaits hmax (by omega) with ⟨hlt, hsame, hwaits'⟩ | ⟨hge, hexp⟩
    · replace hsame : SameLease s.context c' := hsame
      refine ⟨hsame.running.trans h.running, Phase.of_state (hsame.state.trans hstate) ⟨?_, ?_⟩⟩
      · exact (congrArg NetInterface.addrState hsame.interface).trans hvalid
      · refine fun _ => ⟨b, hsame.lease hb, ?_, ?_⟩
        · show s.now + DHCP_CLIENT_TICK_INTERVAL ≤ s.leaseStart + rebindBy b c'.t1 c'.t2
          rw [hsame.t1, hsame.t2]
          unfold rebindBy
          omega
        · show Waits clock (s.afterTick c') (s.leaseStart + (toMilliseconds c'.t2).toNat)
          rw [hsame.t2]
          exact hwaits'
    · rw [show c' = _ from hexp]
      refine ⟨h.running, Phase.of_state rfl ⟨hvalid, fun _ => ⟨b, hb.afterTick rfl rfl rfl rfl, ?_,
        s.now, rfl, Nat.le_refl _, Nat.le_refl _, Or.inl rfl⟩⟩⟩
      show s.now ≤ s.leaseStart + max (rebindBy b s.context.t1 s.context.t2) _
      unfold rebindBy
      omega

/-- What a tick in REBINDING does with a finite lease: it goes on waiting, or the lease has ended. -/
theorem rebinding_cases (h : Inv clock s) (hstate : s.context.state = .rebinding)
    (hfin : s.context.leaseTime ≠ DHCP_INFINITE_TIME) (rand : Random) :
    let c' := dhcpClientStateRebinding s.context (Serial.seq clock s.now) rand
    let limit := s.leaseStart + (toMilliseconds s.context.leaseTime).toNat
    (s.now < limit ∧ SameLease s.context c' ∧ Waits clock (s.afterTick c') limit) ∨
    (limit ≤ s.now ∧ c' = dhcpClientChangeState
      { s.context with interface := s.context.interface.withdraw } (Serial.seq clock s.now)
      .init 0) := by
  obtain ⟨_, htimers⟩ : PhaseOf clock s .rebinding := hstate ▸ h.phase
  obtain ⟨b, hb, hlast, hwaits⟩ := htimers hfin
  have hdue := h.due
  have hI : DHCP_CLIENT_TICK_INTERVAL = 200 := rfl
  have hpr : probeBy = 1399 := rfl
  have hearly := hb.early
  have hrebinds := hb.timers.rebinds
  have h1 := toMilliseconds_lt s.context.t1
  have h2 := toMilliseconds_lt s.context.t2
  refine extendLease_cases rand _ hb.start hb.obtained h.ticked hdue hwaits
    (toMilliseconds_lt _) ?_
  -- a lease that is not counted in full is as long as the clock can tell
  rcases toMilliseconds_cases s.context.leaseTime with hl | hl
  · rw [hl] at hlast ⊢
    omega
  · rw [hl] at hlast ⊢
    unfold rebindBy renewBy at hlast
    omega

/-- REBINDING is left at the first tick at which the lease has ended. -/
theorem tick_rebinding (h : Inv clock s) (hstate : s.context.state = .rebinding) (rand : Random) :
    let c' := dhcpClientStateRebinding s.context (Serial.seq clock s.now) rand
    c'.running = true ∧ Phase clock (s.afterTick c') := by
  intro c'
  obtain ⟨hvalid, htimers⟩ : PhaseOf clock s .rebinding := hstate ▸ h.phase
  have hwithdrawn : c' = dhcpClientChangeState
      { s.context with interface := s.context.interface.withdraw } (Serial.seq clock s.now) .init 0 →
      c'.running = true ∧ Phase clock (s.afterTick c') := by
    intro hexp
    rw [hexp]
    refine ⟨h.running, Phase.of_state rfl ?_⟩
    show Ipv4AddrState.invalid ≠ Ipv4AddrState.valid
    decide
  by_cases hinf : s.context.leaseTime = DHCP_INFINITE_TIME
  case pos =>
    rcases extendLease_same s.context (Serial.seq clock s.now)
      (toMilliseconds s.context.leaseTime) rand _ with hsame | hexp
    · refine ⟨hsame.running.trans h.running, Phase.of_state (hsame.state.trans hstate) ⟨?_, ?_⟩⟩
      · exact (congrArg NetInterface.addrState hsame.interface).trans hvalid
      · exact fun hfin => absurd (hsame.leaseTime.trans hinf) hfin
    · exact hwithdrawn hexp
  case neg =>
    obtain ⟨b, hb, hlast, _⟩ := htimers hinf
    rcases rebinding_cases h hstate hinf rand with ⟨hlt, hsame, hwaits'⟩ | ⟨hge, hexp⟩
    · replace hsame : SameLease s.context c' := hsame
      refine ⟨hsame.running.trans h.running, Phase.of_state (hsame.state.trans hstate) ⟨?_, ?_⟩⟩
      · exact (congrArg NetInterface.addrState hsame.interface).trans hvalid
      · refine fun _ => ⟨b, hsame.lease hb, ?_, ?_⟩
        · show s.now ≤ s.leaseStart + max (rebindBy b c'.t1 c'.t2)
            ((toMilliseconds c'.leaseTime).toNat - 1)
          rw [hsame.leaseTime]
          omega
        · show Waits clock (s.afterTick c') (s.leaseStart + (toMilliseconds c'.leaseTime).toNat)
          rw [hsame.leaseTime]
          exact hwaits'
    · exact hwithdrawn hexp

/-- Every tick keeps the invariant. -/
theorem Inv.tick (h : Inv clock s) (rand : Random) : Inv clock (step clock s (.tick rand)) := by
  have hstep : step clock s (.tick rand)
      = s.afterTick (dhcpClientTick s.context (Serial.seq clock s.now) rand) := rfl
  suffices hphase : (dhcpClientTick s.context (Serial.seq clock s.now) rand).running = true ∧
      Phase clock (step clock s (.tick rand)) from
    ⟨hphase.1, Nat.le_refl _, Nat.le_add_right _ _, hphase.2⟩
  rw [hstep]
  cases hstate : s.context.state with
  | probing =>
      rw [dhcpClientTick, hstate]
      exact tick_probing h hstate
  | bound =>
      rw [dhcpClientTick, hstate]
      exact tick_bound h hstate
  | renewing =>
      rw [dhcpClientTick, hstate]
      exact tick_renewing h hstate rand
  | rebinding =>
      rw [dhcpClientTick, hstate]
      exact tick_rebinding h hstate rand
  | init | selecting | requesting | initReboot | rebooting =>
      have hidle : s.context.state.idle = true := by rw [hstate]; rfl
      obtain ⟨hi, hr, hidle'⟩ := dhcpClientTick_idle hidle (Serial.seq clock s.now) rand
      refine ⟨hr.trans h.running, (phase_idle hidle').2 ?_⟩
      show (dhcpClientTick s.context (Serial.seq clock s.now) rand).interface.addrState ≠ .valid
      rw [hi]
      exact (phase_idle hidle).1 h.phase

end Tick

end Dhcp
