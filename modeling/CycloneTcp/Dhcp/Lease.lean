import CycloneTcp.Dhcp.Client
import CycloneTcp.Lib.Runs

/-! # How long a lease is used

The client runs on a clock: time passes, the timer handler is called at least once in every
`DHCP_CLIENT_TICK_INTERVAL`, messages with any contents arrive, the link changes, and the ARP module
reports conflicts. Expiry of the lease is tested in one state only, which the client reaches when
first T1 and then T2 has passed. Both come from the server. The run theorem says that the lease is
never overrun as long as every DHCPACK message leaves the client the time to get there. -/

set_option autoImplicit false

namespace Dhcp

/-! ## Runs -/

/-- The client, the time in milliseconds since it was started, when the timer handler was called
last, and when a DHCPACK message was accepted last. -/
structure System where
  context : DhcpClientContext
  now : ℕ
  lastTick : ℕ
  leaseStart : ℕ

/-- What can happen. -/
inductive Event where
  | wait (delay : ℕ)
  | tick (rand : Random)
  | message (message : DhcpMessage)
  | linkChange (linkState : Bool)
  | conflict

/-- Is the message a DHCPACK message that the client accepts? -/
def acceptsLease (context : DhcpClientContext) (message : DhcpMessage) : Bool :=
  messageType message = some DHCP_MESSAGE_TYPE_ACK && acceptsAck context message

/-- One event. `clock` is the system time at the start; time does not pass the moment at which the
timer handler is due. -/
def step (clock : UInt32) (s : System) : Event → System
  | .wait delay =>
      if s.now + delay ≤ s.lastTick + DHCP_CLIENT_TICK_INTERVAL then
        { s with now := s.now + delay }
      else s
  | .tick rand =>
      { s with context := dhcpClientTick s.context (Serial.seq clock s.now) rand, lastTick := s.now }
  | .message message =>
      { s with
        context := dhcpClientProcessMessage s.context (Serial.seq clock s.now) message
        leaseStart := if acceptsLease s.context message = true then s.now else s.leaseStart }
  | .linkChange linkState =>
      let interface := { s.context.interface with linkState := linkState }
      { s with context := dhcpClientLinkChangeEvent { s.context with interface := interface } }
  | .conflict =>
      { s with context := { s.context with
        interface := { s.context.interface with addrConflict := true } } }

/-- `dhcpClientStart` has been called at time 0. -/
def started (context : DhcpClientContext) : System := ⟨dhcpClientStart context, 0, 0, 0⟩

/-! ## Lease safety -/

/-- BOUND, RENEWING or REBINDING. -/
def DhcpState.hasLease : DhcpState → Bool
  | bound | renewing | rebinding => true
  | _ => false

/-- The end of the lease, in milliseconds. -/
def System.leaseEnd (s : System) : ℕ := s.leaseStart + 1000 * s.context.leaseTime.toNat

/-- The address is valid in the three states with a lease only, there no longer than the lease and
one tick, and the first tick after the end of the lease withdraws it and returns to INIT. -/
structure LeaseSafe (clock : UInt32) (s : System) : Prop where
  held : s.context.interface.addrState = .valid → s.context.state.hasLease = true
  inTime : s.context.state.hasLease = true → s.context.leaseTime ≠ DHCP_INFINITE_TIME →
    s.now < s.leaseEnd + DHCP_CLIENT_TICK_INTERVAL
  ends : s.context.state.hasLease = true → s.context.leaseTime ≠ DHCP_INFINITE_TIME →
    s.leaseEnd ≤ s.now → ∀ rand,
      let context := dhcpClientTick s.context (Serial.seq clock s.now) rand
      context.state = .init ∧ context.interface.addr = IPV4_UNSPECIFIED_ADDR ∧
        context.interface.addrState = .invalid

/-! ## The condition on the timers -/

/-- A client that probes the address is bound this many milliseconds after the DHCPACK message at
the latest: one tick until the probe is sent, and one after the delay. -/
def probeBy : ℕ := DHCP_CLIENT_PROBE_DELAY.toNat - 1 + 2 * DHCP_CLIENT_TICK_INTERVAL

/-- When a client that is bound by `b` has left BOUND: at the first tick at which T1 has passed. -/
def renewBy (b : ℕ) (t1 : UInt32) : ℕ :=
  max b ((toMilliseconds t1).toNat - 1) + DHCP_CLIENT_TICK_INTERVAL

/-- When it has left RENEWING: at the first tick at which T2 has passed. -/
def rebindBy (b : ℕ) (t1 t2 : UInt32) : ℕ :=
  max (renewBy b t1) ((toMilliseconds t2).toNat - 1) + DHCP_CLIENT_TICK_INTERVAL

/-- The timers take a client that is bound by `b` to REBINDING before the lease ends: T1 is not
infinite, the lease is not rounded up, the last tick in RENEWING comes before the end of the lease,
and when T2 is first looked at, it is not half a turn of the clock in the past. -/
structure InTime (b : ℕ) (t1 t2 leaseTime : UInt32) : Prop where
  renews : t1 ≠ DHCP_INFINITE_TIME
  expires : (toMilliseconds leaseTime).toNat ≤ 1000 * leaseTime.toNat
  rebinds : rebindBy b t1 t2 < 1000 * leaseTime.toNat
  turns : renewBy b t1 + DHCP_CLIENT_TICK_INTERVAL < (toMilliseconds t2).toNat + 2 ^ 31

theorem inTime_iff {b : ℕ} {t1 t2 leaseTime : UInt32} : InTime b t1 t2 leaseTime ↔
    t1 ≠ DHCP_INFINITE_TIME ∧ (toMilliseconds leaseTime).toNat ≤ 1000 * leaseTime.toNat ∧
      rebindBy b t1 t2 < 1000 * leaseTime.toNat ∧
      renewBy b t1 + DHCP_CLIENT_TICK_INTERVAL < (toMilliseconds t2).toNat + 2 ^ 31 :=
  ⟨fun h => ⟨h.renews, h.expires, h.rebinds, h.turns⟩, fun h => ⟨h.1, h.2.1, h.2.2.1, h.2.2.2⟩⟩

instance (b : ℕ) (t1 t2 leaseTime : UInt32) : Decidable (InTime b t1 t2 leaseTime) :=
  decidable_of_iff _ inTime_iff.symm

/-- The lease time of a DHCPACK message. -/
def ackLeaseTime (message : DhcpMessage) : UInt32 :=
  (dhcpGetOption32 message DHCP_OPT_IP_ADDRESS_LEASE_TIME).getD 0

/-- T1 of a DHCPACK message with a finite lease time. -/
def ackT1 (message : DhcpMessage) : UInt32 :=
  (dhcpGetOption32 message DHCP_OPT_RENEWAL_TIME_VALUE).getD (ackLeaseTime message / 2)

/-- T2 of a DHCPACK message with a finite lease time. -/
def ackT2 (message : DhcpMessage) : UInt32 :=
  (dhcpGetOption32 message DHCP_OPT_REBINDING_TIME_VALUE).getD (ackLeaseTime message * 7 / 8)

/-- By when a DHCPACK message that is accepted in this state makes the client bound. -/
def DhcpState.boundBy : DhcpState → ℕ
  | requesting | rebooting => probeBy
  | _ => 0

/-- Every DHCPACK message accepted with a finite lease time leaves the client the time to get to
REBINDING. -/
def AcksInTime (s : System) : Event → Prop
  | .message message =>
      acceptsLease s.context message = true → ackLeaseTime message ≠ DHCP_INFINITE_TIME →
        InTime s.context.state.boundBy (ackT1 message) (ackT2 message) (ackLeaseTime message)
  | _ => True

instance (s : System) : (e : Event) → Decidable (AcksInTime s e)
  | .message message =>
      inferInstanceAs (Decidable (acceptsLease s.context message = true →
        ackLeaseTime message ≠ DHCP_INFINITE_TIME →
          InTime s.context.state.boundBy (ackT1 message) (ackT2 message) (ackLeaseTime message)))
  | .wait _ | .tick _ | .linkChange _ | .conflict => isTrue trivial

/-! ## The clock -/

theorem toMilliseconds_short {t : UInt32} (h : t.toNat < 2147483) :
    (toMilliseconds t).toNat = 1000 * t.toNat := by
  have hlt : t < MAX_DELAY / 1000 := UInt32.lt_iff_toNat_lt.2 h
  rw [toMilliseconds, if_pos hlt, UInt32.toNat_mul, show (1000 : UInt32).toNat = 1000 from rfl]
  omega

theorem toMilliseconds_long {t : UInt32} (h : 2147483 ≤ t.toNat) :
    (toMilliseconds t).toNat = 2 ^ 31 - 1 := by
  have hge : ¬ t < MAX_DELAY / 1000 := fun hlt => Nat.not_lt_of_le h (UInt32.lt_iff_toNat_lt.1 hlt)
  rw [toMilliseconds, if_neg hge]
  rfl

/-- A time that is not counted in full is counted up to `MAX_DELAY`. -/
theorem toMilliseconds_cases (t : UInt32) :
    (toMilliseconds t).toNat = 1000 * t.toNat ∨ (toMilliseconds t).toNat = 2 ^ 31 - 1 := by
  by_cases h : t.toNat < 2147483
  · exact Or.inl (toMilliseconds_short h)
  · exact Or.inr (toMilliseconds_long (Nat.le_of_not_lt h))

theorem toMilliseconds_lt (t : UInt32) : (toMilliseconds t).toNat < 2 ^ 31 := by
  by_cases h : t.toNat < 2147483
  · rw [toMilliseconds_short h]
    omega
  · rw [toMilliseconds_long (Nat.le_of_not_lt h)]
    decide

/-- A reading of the clock is compared with the end of an interval as the times are. -/
theorem timeCompare_seq (clock d : UInt32) {x y : ℕ} (hxy : x < y + d.toNat + 2 ^ 31)
    (hyx : y + d.toNat < x + 2 ^ 31) :
    0 ≤ timeCompare (Serial.seq clock x) (Serial.seq clock y + d) ↔ y + d.toNat ≤ x := by
  have hadd : Serial.seq clock y + d = Serial.seq clock (y + d.toNat) := by
    rw [← Serial.seq_add, UInt32.ofNat_toNat]
  rw [timeCompare, hadd, Serial.cmp_seq clock hxy hyx]
  omega

/-! ## The default timers -/

/-- A server that leaves T1 and T2 to the client gives it the time, if the lease is at least two
seconds, and short enough to be counted in full. -/
theorem inTime_default {b : ℕ} {leaseTime : UInt32} (hb : b ≤ probeBy) (hlo : 2 ≤ leaseTime.toNat)
    (hhi : leaseTime.toNat < 2147483) :
    InTime b (leaseTime / 2) (leaseTime * 7 / 8) leaseTime := by
  have hI : DHCP_CLIENT_TICK_INTERVAL = 200 := rfl
  have hpr : probeBy = 1399 := rfl
  have ht1 : (leaseTime / 2).toNat = leaseTime.toNat / 2 := UInt32.toNat_div _ _
  have ht2 : (leaseTime * 7 / 8).toNat = leaseTime.toNat * 7 / 8 := by
    rw [UInt32.toNat_div, UInt32.toNat_mul, show (7 : UInt32).toNat = 7 from rfl,
      show (8 : UInt32).toNat = 8 from rfl, Nat.mod_eq_of_lt (by omega)]
  have hms1 := toMilliseconds_short (t := leaseTime / 2) (by omega)
  have hms2 := toMilliseconds_short (t := leaseTime * 7 / 8) (by omega)
  have hms := toMilliseconds_short hhi
  refine ⟨fun hinf => ?_, hms.le, ?_, ?_⟩
  · rw [hinf] at ht1
    have : DHCP_INFINITE_TIME.toNat = 4294967295 := rfl
    omega
  · unfold rebindBy renewBy
    omega
  · unfold renewBy
    omega

end Dhcp
