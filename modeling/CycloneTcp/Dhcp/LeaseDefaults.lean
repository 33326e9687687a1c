import CycloneTcp.Dhcp.LeaseRuns

/-! # The default timers

A server that sends no T1 and T2 leaves them to the client, which takes one half and seven eighths of
the lease time. From there on, if nothing else is heard, the state of the client is a matter of
time: `Grant.next` is the schedule, and the client keeps to it. The product with 7 is computed in 32
bits, and this is the one thing that can go wrong. -/

set_option autoImplicit false

namespace Dhcp

/-! ## The schedule -/

/-- What a DHCPACK message has granted: when the client got it, by when it is bound, counted from
there, and the three times. -/
structure Grant where
  start : ℕ
  boundBy : ℕ
  t1 : UInt32
  t2 : UInt32
  leaseTime : UInt32

/-- The state after a tick, `elapsed` milliseconds after the lease was obtained. -/
def Grant.next (g : Grant) (elapsed : ℕ) : DhcpState → DhcpState
  | .bound => if (toMilliseconds g.t1).toNat ≤ elapsed then .renewing else .bound
  | .renewing => if (toMilliseconds g.t2).toNat ≤ elapsed then .rebinding else .renewing
  | .rebinding => if (toMilliseconds g.leaseTime).toNat ≤ elapsed then .init else .rebinding
  | state => state

/-- When a client that keeps to the schedule has reached INIT: at the first tick at which the lease
has ended. -/
def Grant.initBy (g : Grant) : ℕ :=
  g.start + max (rebindBy g.boundBy g.t1 g.t2) ((toMilliseconds g.leaseTime).toNat - 1) +
    DHCP_CLIENT_TICK_INTERVAL

/-- The states from here to INIT. -/
def DhcpState.stages : DhcpState → List DhcpState
  | probing => [probing, bound, renewing, rebinding, init]
  | bound => [bound, renewing, rebinding, init]
  | renewing => [renewing, rebinding, init]
  | rebinding => [rebinding, init]
  | state => [state]

/-- The states that a run goes through, each stay listed once. -/
def visited (clock : UInt32) : System → List Event → List DhcpState
  | s, [] => [s.context.state]
  | s, e :: es =>
      let rest := visited clock (step clock s e) es
      if (step clock s e).context.state = s.context.state then rest else s.context.state :: rest

/-- The client hears nothing more: time passes, the timer handler is called, and messages that are
not for it are discarded. The link stays as it is, and nobody objects to the address while it is
probed. -/
def Unanswered (s : System) : Event → Prop
  | .wait _ | .tick _ => True
  | .message message => ∀ time, dhcpClientProcessMessage s.context time message = s.context
  | .linkChange _ => False
  | .conflict => s.context.state ≠ .probing

/-- An event does to the state what the schedule says. The schedule does not say at which tick the
probing is over, nor what follows after INIT. -/
def OnSchedule (clock : UInt32) (g : Grant) (s : System) (e : Event) : Prop :=
  let state' := (step clock s e).context.state
  match s.context.state, e with
  | .init, _ | .selecting, _ | .requesting, _ | .initReboot, _ | .rebooting, _ => True
  | .probing, .tick _ => state' = .probing ∨ state' = .bound
  | state, .tick _ => state' = g.next (s.now - g.start) state
  | state, _ => state' = state

/-- The run passes the states from here to INIT in order, changes from one to the next at the ticks
that the schedule says, and has reached INIT when the lease has ended. -/
structure Passes (clock : UInt32) (g : Grant) (s : System) (es : List Event) : Prop where
  order : visited clock s es <+: s.context.state.stages ∨
    s.context.state.stages <+: visited clock s es
  onSchedule : Along (OnSchedule clock g) (step clock) s es
  ends : g.initBy < (run (step clock) s es).now → s.context.state.stages <+: visited clock s es

/-- The lease of a client that has just accepted a DHCPACK message. -/
def System.grant (s : System) : Grant where
  start := s.leaseStart
  boundBy := if s.context.state = .probing then probeBy else 0
  t1 := s.context.t1
  t2 := s.context.t2
  leaseTime := s.context.leaseTime

/-- The timers recorded are the default ones for a lease of `leaseTime` seconds, they are in order,
and without an answer the client passes from BOUND to INIT by them. -/
structure DefaultTimers (clock : UInt32) (s : System) (leaseTime : ℕ) : Prop where
  t1_eq : s.context.t1.toNat = leaseTime / 2
  t2_eq : s.context.t2.toNat = 7 * leaseTime / 8
  t1_le : s.context.t1.toNat ≤ s.context.t2.toNat
  t2_le : s.context.t2.toNat ≤ leaseTime
  passes : ∀ es, Along Unanswered (step clock) s es → Passes clock s.grant s es

/-! ## Keeping to the schedule -/

theorem toMilliseconds_mono {t t' : UInt32} (h : t.toNat ≤ t'.toNat) :
    (toMilliseconds t).toNat ≤ (toMilliseconds t').toNat := by
  by_cases ht' : t'.toNat < 2147483
  · rw [toMilliseconds_short ht', toMilliseconds_short (Nat.lt_of_le_of_lt h ht')]
    exact Nat.mul_le_mul_left _ h
  · rw [toMilliseconds_long (Nat.le_of_not_lt ht')]
    exact Nat.le_pred_of_lt (toMilliseconds_lt t)

/-- Timers in the order of the states they belong to. -/
structure Grant.Ordered (g : Grant) : Prop where
  early : g.boundBy ≤ probeBy
  renews : g.t1 ≠ DHCP_INFINITE_TIME
  t1_le : g.t1.toNat ≤ g.t2.toNat
  t2_le : g.t2.toNat ≤ g.leaseTime.toNat

/-- The lease is the one that was granted. -/
structure Holds (clock : UInt32) (g : Grant) (s : System) : Prop where
  leaseStart : s.leaseStart = g.start
  start : s.context.leaseStartTime = Serial.seq clock g.start
  obtained : g.start ≤ s.now
  t1 : s.context.t1 = g.t1
  t2 : s.context.t2 = g.t2
  leaseTime : s.context.leaseTime = g.leaseTime

/-- In every state, how late the last tick can have been, and what the client waits for. -/
def StageOf (clock : UInt32) (g : Grant) (s : System) : DhcpState → Prop
  | .probing => Holds clock g s ∧ g.boundBy = probeBy ∧ Probes clock s ∧
      s.context.interface.addrConflict = false
  | .bound => Holds clock g s ∧
      s.lastTick + DHCP_CLIENT_TICK_INTERVAL ≤ g.start + renewBy g.boundBy g.t1
  | .renewing => Holds clock g s ∧
      s.lastTick + DHCP_CLIENT_TICK_INTERVAL ≤ g.start + rebindBy g.boundBy g.t1 g.t2 ∧
      Waits clock s (g.start + (toMilliseconds g.t2).toNat)
  | .rebinding => Holds clock g s ∧
      s.lastTick ≤ g.start + max (rebindBy g.boundBy g.t1 g.t2)
        ((toMilliseconds g.leaseTime).toNat - 1) ∧
      Waits clock s (g.start + (toMilliseconds g.leaseTime).toNat)
  | _ => True

/-- What holds after every event. -/
structure Staged (clock : UInt32) (g : Grant) (s : System) : Prop where
  ticked : s.lastTick ≤ s.now
  due : s.now ≤ s.lastTick + DHCP_CLIENT_TICK_INTERVAL
  stage : StageOf clock g s s.context.state

section Tick

variable {clock : UInt32} {g : Grant} {s : System}

/-- A tick that leaves the times alone keeps the lease. -/
theorem Holds.afterTick (h : Holds clock g s) {c' : DhcpClientContext}
    (hstart : c'.leaseStartTime = s.context.leaseStartTime)
    (hlease : c'.leaseTime = s.context.leaseTime) (ht1 : c'.t1 = s.context.t1)
    (ht2 : c'.t2 = s.context.t2) : Holds clock g (s.afterTick c') :=
  ⟨h.leaseStart, hstart.trans h.start, h.obtained, ht1.trans h.t1, ht2.trans h.t2,
    hlease.trans h.leaseTime⟩

theorem SameLease.holds {c' : DhcpClientContext} (hsame : SameLease s.context c')
    (h : Holds clock g s) : Holds clock g (s.afterTick c') :=
  h.afterTick hsame.leaseStartTime hsame.leaseTime hsame.t1 hsame.t2

theorem Staged.probing (h : Staged clock g s) (hstate : s.context.state = .probing) :
    let c' := dhcpClientStateProbing s.context (Serial.seq clock s.now)
    StageOf clock g (s.afterTick c') c'.state ∧ (c'.state = .probing ∨ c'.state = .bound) := by
  intro c'
  obtain ⟨hholds, hby, hprobes, hconflict⟩ : StageOf clock g s .probing := hstate ▸ h.stage
  have hobtained : s.leaseStart ≤ s.now := hholds.leaseStart ▸ hholds.obtained
  rcases hprobes.tick hobtained h.ticked h.due with ⟨hc, _⟩ | ⟨hsame, hprobes'⟩ | ⟨hle, hc⟩
  · rw [hconflict] at hc
    cases hc
  · have hstate' : c'.state = .probing := hsame.state.trans hstate
    rw [hstate']
    refine ⟨⟨hsame.holds hholds, hby, hprobes', ?_⟩, Or.inl rfl⟩
    exact (congrArg NetInterface.addrConflict hsame.interface).trans hconflict
  · rw [show c' = _ from hc]
    refine ⟨⟨hholds.afterTick rfl rfl rfl rfl, ?_⟩, Or.inr rfl⟩
    show s.now + DHCP_CLIENT_TICK_INTERVAL ≤ g.start + renewBy g.boundBy g.t1
    rw [hholds.leaseStart] at hle
    rw [hby]
    unfold renewBy
    omega

theorem Staged.bound (h : Staged clock g s) (hg : g.Ordered) (hstate : s.context.state = .bound) :
    let c' := dhcpClientStateBound s.context (Serial.seq clock s.now)
    StageOf clock g (s.afterTick c') c'.state ∧ c'.state = g.next (s.now - g.start) .bound := by
  intro c'
  obtain ⟨hholds, hlast⟩ : StageOf clock g s .bound := hstate ▸ h.stage
  have hdue := h.due
  have hob := hholds.obtained
  have hI : DHCP_CLIENT_TICK_INTERVAL = 200 := rfl
  have hpr : probeBy = 1399 := rfl
  have hearly := hg.early
  have hover : timeCompare (Serial.seq clock s.now)
        (s.context.leaseStartTime + toMilliseconds s.context.t1) ≥ 0 ↔
      (toMilliseconds g.t1).toNat ≤ s.now - g.start := by
    have hlt := toMilliseconds_lt g.t1
    rw [hholds.start, hholds.t1]
    refine (timeCompare_seq clock (toMilliseconds g.t1) ?_ (by omega)).trans (by omega)
    unfold renewBy at hlast
    omega
  have hc : c' = if timeCompare (Serial.seq clock s.now)
        (s.context.leaseStartTime + toMilliseconds s.context.t1) ≥ 0 then
      dhcpClientChangeState { s.context with configStartTime := Serial.seq clock s.now }
        (Serial.seq clock s.now) .renewing 0 else s.context :=
    if_pos (hholds.t1 ▸ hg.renews)
  by_cases hpassed : (toMilliseconds g.t1).toNat ≤ s.now - g.start
  · rw [hc, if_pos (hover.2 hpassed), Grant.next, if_pos hpassed]
    refine ⟨⟨hholds.afterTick rfl rfl rfl rfl, ?_, s.now, rfl, Nat.le_refl _, Nat.le_refl _,
      Or.inl rfl⟩, rfl⟩
    show s.now + DHCP_CLIENT_TICK_INTERVAL ≤ g.start + rebindBy g.boundBy g.t1 g.t2
    unfold rebindBy
    omega
  · rw [hc, if_neg fun hgo => hpassed (hover.1 hgo), Grant.next, if_neg hpassed, hstate]
    refine ⟨⟨hholds.afterTick rfl rfl rfl rfl, ?_⟩, rfl⟩
    show s.now + DHCP_CLIENT_TICK_INTERVAL ≤ g.start + renewBy g.boundBy g.t1
    unfold renewBy
    omega

theorem Staged.renewing (h : Staged clock g s) (hg : g.Ordered)
    (hstate : s.context.state = .renewing) (rand : Random) :
    let c' := dhcpClientStateRenewing s.context (Serial.seq clock s.now) rand
    StageOf clock g (s.afterTick c') c'.state ∧ c'.state = g.next (s.now - g.start) .renewing := by
  intro c'
  obtain ⟨hholds, hlast, hwaits⟩ : StageOf clock g s .renewing := hstate ▸ h.stage
  have hdue := h.due
  have hob := hholds.obtained
  have hI : DHCP_CLIENT_TICK_INTERVAL = 200 := rfl
  have hpr : probeBy = 1399 := rfl
  have hearly := hg.early
  have hmono := toMilliseconds_mono hg.t1_le
  have hlast' := hlast
  unfold rebindBy renewBy at hlast'
  rw [← hholds.leaseStart, ← hholds.t2] at hwaits
  have hc := extendLease_cases rand
    (dhcpClientChangeState s.context (Serial.seq clock s.now) .rebinding 0)
    (hholds.start.trans (by rw [hholds.leaseStart])) (by rw [hholds.leaseStart]; exact hob) h.ticked
    hdue hwaits (toMilliseconds_lt _) (by rw [hholds.leaseStart, hholds.t2]; omega)
  rw [hholds.leaseStart, hholds.t2] at hc
  rcases hc with ⟨hlt, hsame, hwaits'⟩ | ⟨hge, hexp⟩
  · rw [← hholds.t2] at hsame hwaits'
    replace hsame : SameLease s.context c' := hsame
    rw [hsame.state, hstate, Grant.next, if_neg (by omega)]
    refine ⟨⟨hsame.holds hholds, ?_, ?_⟩, rfl⟩
    · show s.now + DHCP_CLIENT_TICK_INTERVAL ≤ g.start + rebindBy g.boundBy g.t1 g.t2
      unfold rebindBy
      omega
    · rw [← hholds.t2]
      exact hwaits'
  · rw [← hholds.t2] at hexp
    rw [show c' = _ from hexp, Grant.next, if_pos (by omega)]
    refine ⟨⟨hholds.afterTick rfl rfl rfl rfl, ?_, s.now, rfl, Nat.le_refl _, Nat.le_refl _,
      Or.inl rfl⟩, rfl⟩
    show s.now ≤ g.start + max (rebindBy g.boundBy g.t1 g.t2) _
    omega

theorem Staged.rebinding (h : Staged clock g s) (hg : g.Ordered)
    (hstate : s.context.state = .rebinding) (rand : Random) :
    let c' := dhcpClientStateRebinding s.context (Serial.seq clock s.now) rand
    StageOf clock g (s.afterTick c') c'.state ∧ c'.state = g.next (s.now - g.start) .rebinding := by
  intro c'
  obtain ⟨hholds, hlast, hwaits⟩ : StageOf clock g s .rebinding := hstate ▸ h.stage
  have hdue := h.due
  have hob := hholds.obtained
  have hI : DHCP_CLIENT_TICK_INTERVAL = 200 := rfl
  have hpr : probeBy = 1399 := rfl
  have hearly := hg.early
  have hmono := toMilliseconds_mono hg.t1_le
  have hmono' := toMilliseconds_mono hg.t2_le
  have hlast' := hlast
  unfold rebindBy renewBy at hlast'
  rw [← hholds.leaseStart, ← hholds.leaseTime] at hwaits
  have hc := extendLease_cases rand
    (dhcpClientChangeState { s.context with interface := s.context.interface.withdraw }
      (Serial.seq clock s.now) .init 0)
    (hholds.start.trans (by rw [hholds.leaseStart])) (by rw [hholds.leaseStart]; exact hob) h.ticked
    hdue hwaits (toMilliseconds_lt _) (by rw [hholds.leaseStart, hholds.leaseTime]; omega)
  rw [hholds.leaseStart, hholds.leaseTime] at hc
  rcases hc with ⟨hlt, hsame, hwaits'⟩ | ⟨hge, hexp⟩
  · rw [← hholds.leaseTime] at hsame hwaits'
    replace hsame : SameLease s.context c' := hsame
    rw [hsame.state, hstate, Grant.next, if_neg (by omega)]
    refine ⟨⟨hsame.holds hholds, ?_, ?_⟩, rfl⟩
    · show s.now ≤ g.start + max (rebindBy g.boundBy g.t1 g.t2) _
      omega
    · rw [← hholds.leaseTime]
      exact hwaits'
  · rw [← hholds.leaseTime] at hexp
    rw [show c' = _ from hexp, Grant.next, if_pos (by omega)]
    exact ⟨trivial, rfl⟩

/-- A tick keeps to the schedule. -/
theorem Staged.tick (h : Staged clock g s) (hg : g.Ordered) (rand : Random) :
    Staged clock g (step clock s (.tick rand)) ∧ OnSchedule clock g s (.tick rand) := by
  have hstep : step clock s (.tick rand)
      = s.afterTick (dhcpClientTick s.context (Serial.seq clock s.now) rand) := rfl
  have hticked : ∀ c', (s.afterTick c').lastTick ≤ (s.afterTick c').now := fun _ => Nat.le_refl _
  have hdue : ∀ c', (s.afterTick c').now ≤ (s.afterTick c').lastTick + DHCP_CLIENT_TICK_INTERVAL :=
    fun _ => Nat.le_add_right _ _
  unfold OnSchedule
  cases hstate : s.context.state with
  | probing =>
      rw [hstep, dhcpClientTick, hstate]
      have hp := h.probing hstate
      exact ⟨⟨hticked _, hdue _, hp.1⟩, hp.2⟩
  | bound =>
      rw [hstep, dhcpClientTick, hstate]
      have hb := h.bound hg hstate
      exact ⟨⟨hticked _, hdue _, hb.1⟩, hb.2⟩
  | renewing =>
      rw [hstep, dhcpClientTick, hstate]
      have hr := h.renewing hg hstate rand
      exact ⟨⟨hticked _, hdue _, hr.1⟩, hr.2⟩
  | rebinding =>
      rw [hstep, dhcpClientTick, hstate]
      have hr := h.rebinding hg hstate rand
      exact ⟨⟨hticked _, hdue _, hr.1⟩, hr.2⟩
  | init | selecting | requesting | initReboot | rebooting =>
      have hidle : s.context.state.idle = true := by rw [hstate]; rfl
      obtain ⟨-, -, hidle'⟩ := dhcpClientTick_idle hidle (Serial.seq clock s.now) rand
      refine ⟨⟨hticked _, hdue _, ?_⟩, trivial⟩
      show StageOf clock g _ (dhcpClientTick s.context (Serial.seq clock s.now) rand).state
      generalize (dhcpClientTick s.context (Serial.seq clock s.now) rand).state = state at hidle'
      cases state with
      | probing | bound | renewing | rebinding => cases hidle'
      | _ => exact trivial

/-- Time that passes, and a conflict that comes too late, leave the stage alone. -/
theorem StageOf.later {state : DhcpState} (h : StageOf clock g s state) {now : ℕ}
    (hnow : s.now ≤ now) {interface : NetInterface}
    (hconflict : state = .probing →
      interface.addrConflict = s.context.interface.addrConflict) :
    StageOf clock g { s with context := { s.context with interface := interface }, now := now }
      state := by
  have hholds : Holds clock g s →
      Holds clock g { s with context := { s.context with interface := interface }, now := now } :=
    fun h => ⟨h.leaseStart, h.start, Nat.le_trans h.obtained hnow, h.t1, h.t2, h.leaseTime⟩
  cases state with
  | probing => exact ⟨hholds h.1, h.2.1, h.2.2.1, (hconflict rfl).trans h.2.2.2⟩
  | bound | renewing | rebinding => exact ⟨hholds h.1, h.2⟩
  | init | selecting | requesting | initReboot | rebooting => trivial

/-- A message that always leaves the context alone is no DHCPACK message for this client. -/
theorem acceptsLease_of_discarded {c : DhcpClientContext} {message : DhcpMessage}
    (h : ∀ time, dhcpClientProcessMessage c time message = c) : acceptsLease c message = false := by
  rcases dhcpClientProcessMessage_cases c (c.timestamp + 1) message with ⟨_, hacc⟩ | ⟨hacc, _⟩
  · have hstamp := hacc.timestamp
    rw [h (c.timestamp + 1)] at hstamp
    have hone : c.timestamp + 0 = c.timestamp + 1 := (UInt32.add_zero _).trans hstamp
    exact absurd ((UInt32.add_right_inj _).1 hone) (by decide)
  · exact hacc

/-- Every event of a run without an answer keeps to the schedule. -/
theorem Staged.step (h : Staged clock g s) (hg : g.Ordered) (e : Event) (he : Unanswered s e) :
    Staged clock g (step clock s e) ∧ OnSchedule clock g s e := by
  cases e with
  | tick rand => exact h.tick hg rand
  | linkChange linkState => exact absurd he id
  | wait delay =>
      have hsame : (Dhcp.step clock s (.wait delay)).context = s.context := by
        dsimp only [Dhcp.step]
        split <;> rfl
      refine ⟨?_, ?_⟩
      · dsimp only [Dhcp.step]
        split
        case isTrue hdue =>
          have hlater : s.now ≤ s.now + delay := Nat.le_add_right _ _
          exact ⟨Nat.le_trans h.ticked hlater, hdue, h.stage.later hlater fun _ => rfl⟩
        case isFalse => exact h
      · unfold OnSchedule
        rw [hsame]
        cases s.context.state <;> trivial
  | message message =>
      have hsame : Dhcp.step clock s (.message message) = s := by
        dsimp only [Dhcp.step]
        rw [acceptsLease_of_discarded he, if_neg (by decide), he]
      refine ⟨by rw [hsame]; exact h, ?_⟩
      unfold OnSchedule
      rw [hsame]
      cases s.context.state <;> trivial
  | conflict =>
      refine ⟨⟨h.ticked, h.due, h.stage.later (Nat.le_refl _) fun hp => absurd hp he⟩, ?_⟩
      show OnSchedule clock g s .conflict
      unfold OnSchedule
      have hsame : (Dhcp.step clock s .conflict).context.state = s.context.state := rfl
      rw [hsame]
      cases s.context.state <;> trivial

/-! ## The states visited -/

theorem stages_head (state : DhcpState) : ∃ rest, state.stages = state :: rest := by
  cases state <;> exact ⟨_, rfl⟩

theorem visited_head (clock : UInt32) (s : System) (es : List Event) :
    ∃ rest, visited clock s es = s.context.state :: rest := by
  induction es generalizing s with
  | nil => exact ⟨[], rfl⟩
  | cons e es ih =>
      rw [visited]
      split
      case isTrue hsame =>
        obtain ⟨rest, hrest⟩ := ih (Dhcp.step clock s e)
        exact ⟨rest, hsame ▸ hrest⟩
      case isFalse => exact ⟨_, rfl⟩

/-- What is on schedule stays in its state, or goes on to the next one on the way to INIT. -/
theorem OnSchedule.stages {e : Event} (h : OnSchedule clock g s e) :
    s.context.state.idle = true ∨ (Dhcp.step clock s e).context.state = s.context.state ∨
      s.context.state.stages = s.context.state :: (Dhcp.step clock s e).context.state.stages := by
  have hnext : ∀ elapsed state, g.next elapsed state = state ∨
      state.stages = state :: (g.next elapsed state).stages := by
    intro elapsed state
    cases state with
    | bound | renewing | rebinding =>
        dsimp only [Grant.next]
        split
        · exact Or.inr rfl
        · exact Or.inl rfl
    | probing | init | selecting | requesting | initReboot | rebooting => exact Or.inl rfl
  unfold OnSchedule at h
  cases hs : s.context.state with
  | init | selecting | requesting | initReboot | rebooting => exact Or.inl rfl
  | probing =>
      rw [hs] at h
      cases e with
      | tick rand =>
          rcases h with h | h
          · exact Or.inr (Or.inl h)
          · exact Or.inr (Or.inr (by rw [h]; rfl))
      | wait | message | linkChange | conflict => exact Or.inr (Or.inl h)
  | bound | renewing | rebinding =>
      rw [hs] at h
      cases e with
      | tick rand =>
          replace h : (Dhcp.step clock s (.tick rand)).context.state = _ := h
          rw [h]
          exact Or.inr (hnext _ _)
      | wait | message | linkChange | conflict => exact Or.inr (Or.inl h)

/-- A run on schedule goes through the states in order; one that ends without a lease has gone
through all of them. -/
theorem visited_stages {es : List Event} (h : Along (OnSchedule clock g) (Dhcp.step clock) s es) :
    (visited clock s es <+: s.context.state.stages ∨
      s.context.state.stages <+: visited clock s es) ∧
    ((run (Dhcp.step clock) s es).context.state.idle = true →
      s.context.state.stages <+: visited clock s es) := by
  have hidle : ∀ (s : System) es, s.context.state.idle = true →
      s.context.state.stages <+: visited clock s es := by
    intro s es hs
    obtain ⟨rest, hrest⟩ := visited_head clock s es
    have hone : s.context.state.stages = [s.context.state] := by
      generalize s.context.state = state at hs
      cases state with
      | probing | bound | renewing | rebinding => cases hs
      | _ => rfl
    rw [hone, hrest]
    exact ⟨rest, rfl⟩
  induction es generalizing s with
  | nil =>
      refine ⟨Or.inl ?_, hidle s []⟩
      obtain ⟨rest, hrest⟩ := stages_head s.context.state
      exact ⟨rest, by rw [hrest]; rfl⟩
  | cons e es ih =>
      obtain ⟨horder, hend⟩ := ih h.2
      rcases h.1.stages with hs | hsame | hnext
      · exact ⟨Or.inr (hidle s _ hs), fun _ => hidle s _ hs⟩
      · rw [visited, if_pos hsame, ← hsame]
        exact ⟨horder, hend⟩
      · have hne : (Dhcp.step clock s e).context.state ≠ s.context.state := by
          intro heq
          rw [heq] at hnext
          exact absurd (congrArg List.length hnext) (Nat.ne_of_lt (Nat.lt_succ_self _))
        rw [visited, if_neg hne, hnext]
        refine ⟨horder.imp ?_ ?_, fun hrun => ?_⟩
        · exact List.cons_prefix_cons.2 ∘ And.intro rfl
        · exact List.cons_prefix_cons.2 ∘ And.intro rfl
        · exact List.cons_prefix_cons.2 ⟨rfl, hend hrun⟩

/-- After the last tick of the schedule the client is through. -/
theorem Staged.idle_of_initBy (h : Staged clock g s) (hlate : g.initBy < s.now) :
    s.context.state.idle = true := by
  have hdue := h.due
  have hI : DHCP_CLIENT_TICK_INTERVAL = 200 := rfl
  have hpr : probeBy = 1399 := rfl
  unfold Grant.initBy rebindBy renewBy at hlate
  cases hs : s.context.state with
  | init | selecting | requesting | initReboot | rebooting => rfl
  | probing =>
      obtain ⟨hholds, hby, hprobes, -⟩ : StageOf clock g s .probing := hs ▸ h.stage
      have hstart := hholds.leaseStart
      have hdelay : DHCP_CLIENT_PROBE_DELAY.toNat = 1000 := rfl
      rcases hprobes with ⟨_, _, _, hlast⟩ | ⟨_, _, sent, _, _, hlast, hsent⟩ <;> omega
  | bound =>
      obtain ⟨-, hlast⟩ : StageOf clock g s .bound := hs ▸ h.stage
      unfold renewBy at hlast
      omega
  | renewing =>
      obtain ⟨-, hlast, -⟩ : StageOf clock g s .renewing := hs ▸ h.stage
      unfold rebindBy renewBy at hlast
      omega
  | rebinding =>
      obtain ⟨-, hlast, -⟩ : StageOf clock g s .rebinding := hs ▸ h.stage
      unfold rebindBy renewBy at hlast
      omega

/-- A client that is on schedule passes all states as long as it hears nothing. -/
theorem Staged.passes (h : Staged clock g s) (hg : g.Ordered) {es : List Event}
    (hes : Along Unanswered (Dhcp.step clock) s es) : Passes clock g s es := by
  have hsched : Along (OnSchedule clock g) (Dhcp.step clock) s es :=
    Along.of_invariant (I := Staged clock g) (fun s e h he => (h.step hg e he).1)
      (fun s e h he => (h.step hg e he).2) h hes
  have hend : Staged clock g (run (Dhcp.step clock) s es) :=
    run_invariant (fun s e h he => (h.step hg e he).1) h hes
  obtain ⟨horder, hidle⟩ := visited_stages hsched
  exact ⟨horder, hsched, fun hlate => hidle (hend.idle_of_initBy hlate)⟩

end Tick

/-! ## A DHCPACK message without timers -/

/-- The timer handler is never late, whatever happens. -/
theorem run_due (clock : UInt32) (context : DhcpClientContext) (es : List Event) :
    let s := run (step clock) (started context) es
    s.lastTick ≤ s.now ∧ s.now ≤ s.lastTick + DHCP_CLIENT_TICK_INTERVAL := by
  refine run_invariant (P := fun _ _ => True)
    (I := fun s : System => s.lastTick ≤ s.now ∧ s.now ≤ s.lastTick + DHCP_CLIENT_TICK_INTERVAL) ?_
    ⟨Nat.le_refl _, Nat.zero_le _⟩ (Along.of_forall (fun _ _ => trivial) _ es)
  intro (s : System) e h _
  cases e with
  | wait delay =>
      dsimp only [step]
      split
      case isTrue hdue => exact ⟨Nat.le_trans h.1 (Nat.le_add_right _ _), hdue⟩
      case isFalse => exact h
  | tick rand => exact ⟨Nat.le_refl _, Nat.le_add_right _ _⟩
  | message message => exact h
  | linkChange linkState => exact h
  | conflict => exact h

/-- Before an address is probed, an earlier conflict is forgotten. -/
theorem dhcpClientProcessMessage_conflict {c : DhcpClientContext} {message : DhcpMessage}
    (time : UInt32) (hacc : acceptsLease c message = true)
    (hprobing : (dhcpClientProcessMessage c time message).state = .probing) :
    (dhcpClientProcessMessage c time message).interface.addrConflict = false := by
  unfold acceptsLease at hacc
  simp only [Bool.and_eq_true, decide_eq_true_eq] at hacc
  have hparse : dhcpClientProcessMessage c time message = dhcpClientParseAck c time message := by
    rw [dhcpClientProcessMessage, hacc.1]
    rfl
  rw [hparse] at hprobing ⊢
  rw [dhcpClientParseAck, if_pos hacc.2] at hprobing ⊢
  dsimp only [assignAddress] at hprobing ⊢
  split
  case isTrue => rfl
  case isFalse h =>
    rw [if_neg h] at hprobing
    cases hprobing

section Ack

variable {clock : UInt32} {s : System} {message : DhcpMessage}

/-- The timers that the client computes by itself. -/
theorem ack_default (h1 : dhcpGetOption message DHCP_OPT_RENEWAL_TIME_VALUE = none)
    (h2 : dhcpGetOption message DHCP_OPT_REBINDING_TIME_VALUE = none) :
    ackT1 message = ackLeaseTime message / 2 ∧ ackT2 message = ackLeaseTime message * 7 / 8 := by
  unfold ackT1 ackT2 dhcpGetOption32
  rw [h1, h2]
  exact ⟨rfl, rfl⟩

/-- With timers in order, a client that has just accepted a DHCPACK message is on schedule. -/
theorem staged_accepted (hticked : s.lastTick ≤ s.now)
    (hdue : s.now ≤ s.lastTick + DHCP_CLIENT_TICK_INTERVAL)
    (hacc : acceptsLease s.context message = true) :
    Staged clock (step clock s (.message message)).grant (step clock s (.message message)) := by
  rcases dhcpClientProcessMessage_cases s.context (Serial.seq clock s.now) message with
    ⟨_, hc⟩ | ⟨hno, _⟩
  case inr =>
    rw [hacc] at hno
    cases hno
  have hnow : (step clock s (.message message)).leaseStart = s.now := if_pos hacc
  refine ⟨hticked, hdue, ?_⟩
  have hholds : Holds clock (step clock s (.message message)).grant
      (step clock s (.message message)) :=
    ⟨rfl, hc.leaseStartTime.trans (congrArg (Serial.seq clock) hnow.symm), hnow.le, rfl, rfl, rfl⟩
  rcases hc.assigned with ⟨_, hstate, _⟩ | ⟨_, hstate, _⟩
  · replace hstate : (step clock s (.message message)).context.state = .probing := hstate
    rw [hstate]
    refine ⟨hholds, if_pos hstate, Or.inl ⟨hc.retransmitCount, hc.timeout, ?_, ?_⟩, ?_⟩
    · exact hc.timestamp.trans (congrArg (Serial.seq clock) hnow.symm)
    · exact hticked.trans hnow.ge
    · exact dhcpClientProcessMessage_conflict _ hacc hstate
  · replace hstate : (step clock s (.message message)).context.state = .bound := hstate
    rw [hstate]
    refine ⟨hholds, ?_⟩
    show s.lastTick + DHCP_CLIENT_TICK_INTERVAL ≤ (step clock s (.message message)).leaseStart + _
    rw [hnow]
    unfold renewBy
    omega

end Ack

/-- **Default timers.** A DHCPACK message that is accepted in any state reached, with a finite lease
time and without T1 and T2, makes a client that records one half and seven eighths of it and passes
from BOUND to INIT by these times, if and only if the lease time times 7 fits in 32 bits. -/
theorem defaultTimers_iff (clock : UInt32) (context : DhcpClientContext) (es : List Event)
    (message : DhcpMessage)
    (hacc : acceptsLease (run (step clock) (started context) es).context message = true)
    (hfin : ackLeaseTime message ≠ DHCP_INFINITE_TIME)
    (h1 : dhcpGetOption message DHCP_OPT_RENEWAL_TIME_VALUE = none)
    (h2 : dhcpGetOption message DHCP_OPT_REBINDING_TIME_VALUE = none) :
    DefaultTimers clock (step clock (run (step clock) (started context) es) (.message message))
      (ackLeaseTime message).toNat ↔ 7 * (ackLeaseTime message).toNat < 2 ^ 32 := by
  obtain ⟨hticked, hdue⟩ := run_due clock context es
  generalize run (step clock) (started context) es = s at *
  rcases dhcpClientProcessMessage_cases s.context (Serial.seq clock s.now) message with
    ⟨_, hc⟩ | ⟨hno, _⟩
  case inr =>
    rw [hacc] at hno
    cases hno
  obtain ⟨hdef1, hdef2⟩ := ack_default h1 h2
  have ht1 : (step clock s (.message message)).context.t1 = ackLeaseTime message / 2 :=
    (hc.t1 hfin).trans hdef1
  have ht2 : (step clock s (.message message)).context.t2 = ackLeaseTime message * 7 / 8 :=
    (hc.t2 hfin).trans hdef2
  have hlease : (step clock s (.message message)).context.leaseTime = ackLeaseTime message :=
    hc.leaseTime
  have ht1' : (ackLeaseTime message / 2).toNat = (ackLeaseTime message).toNat / 2 :=
    UInt32.toNat_div _ _
  have ht2' : (ackLeaseTime message * 7 / 8).toNat
      = (ackLeaseTime message).toNat * 7 % 2 ^ 32 / 8 := by
    rw [UInt32.toNat_div, UInt32.toNat_mul]
    rfl
  have hlt := (ackLeaseTime message).toNat_lt
  constructor
  · intro h
    have heq := h.t2_eq
    rw [ht2, ht2'] at heq
    omega
  · intro hfits
    rw [Nat.mod_eq_of_lt (by omega)] at ht2'
    have horder : (ackLeaseTime message / 2).toNat ≤ (ackLeaseTime message * 7 / 8).toNat ∧
        (ackLeaseTime message * 7 / 8).toNat ≤ (ackLeaseTime message).toNat := by omega
    refine ⟨by rw [ht1, ht1'], by rw [ht2, ht2']; omega, by rw [ht1, ht2]; exact horder.1,
      by rw [ht2]; exact horder.2, fun es hes => ?_⟩
    refine (staged_accepted hticked hdue hacc).passes ⟨?_, ?_, ?_, ?_⟩ hes
    · show (if _ then probeBy else 0) ≤ probeBy
      split
      · exact Nat.le_refl _
      · exact Nat.zero_le _
    · show (step clock s (.message message)).context.t1 ≠ DHCP_INFINITE_TIME
      rw [ht1]
      intro hinf
      rw [hinf] at ht1'
      have : DHCP_INFINITE_TIME.toNat = 4294967295 := rfl
      omega
    · show (step clock s (.message message)).context.t1.toNat
        ≤ (step clock s (.message message)).context.t2.toNat
      rw [ht1, ht2]
      exact horder.1
    · show (step clock s (.message message)).context.t2.toNat
        ≤ (step clock s (.message message)).context.leaseTime.toNat
      rw [ht2, hlease]
      exact horder.2

/-- The exchange of two messages up to the one that ends it. -/
def request : List Event :=
  let rand : Random := ⟨7, 0, 0⟩
  [.tick rand, .tick rand, .message (reply [53, 1, 2, 54, 4, 10, 0, 0, 1, 255]), .tick rand]

/-- The longest lease that has the right timers, 613566756 seconds. -/
theorem defaultTimers_longest :
    DefaultTimers 5 (step 5 (run (step 5) (started stoppedClient) request) (.message
      (reply [53, 1, 5, 54, 4, 10, 0, 0, 1, 51, 4, 0x24, 0x92, 0x49, 0x24, 255]))) 613566756 ↔
    7 * 613566756 < 2 ^ 32 :=
  defaultTimers_iff 5 stoppedClient request
    (reply [53, 1, 5, 54, 4, 10, 0, 0, 1, 51, 4, 0x24, 0x92, 0x49, 0x24, 255])
    (by decide) (by decide) (by decide) (by decide)

/-- With one second more T2 is 0. -/
theorem defaultTimers_wrapped : ¬ ∀ (clock : UInt32) (context : DhcpClientContext) (es : List Event)
    (message : DhcpMessage),
    acceptsLease (run (step clock) (started context) es).context message = true →
    ackLeaseTime message ≠ DHCP_INFINITE_TIME →
    dhcpGetOption message DHCP_OPT_RENEWAL_TIME_VALUE = none →
    dhcpGetOption message DHCP_OPT_REBINDING_TIME_VALUE = none →
    DefaultTimers clock (step clock (run (step clock) (started context) es) (.message message))
      (ackLeaseTime message).toNat := by
  intro h
  have ht := h 5 stoppedClient request
    (reply [53, 1, 5, 54, 4, 10, 0, 0, 1, 51, 4, 0x24, 0x92, 0x49, 0x25, 255])
    (by decide) (by decide) (by decide) (by decide)
  exact absurd ht.t2_eq (by decide)

end Dhcp
