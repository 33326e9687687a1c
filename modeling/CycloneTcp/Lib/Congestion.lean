import Mathlib.Tactic

set_option autoImplicit false

/-! # The congestion window of a sender

Slow start and congestion avoidance, fast retransmit with fast recovery, and the recovery from a
timeout, over natural numbers. A sender learns of losses by acknowledgments and by its timer
(`Event`), and `Sender.step` is what it does with its window then. The window is inflated and
deflated in three phases; whatever the sender learns, it stays between one byte and the size of the
send buffer, and outside fast recovery it does not fall below one segment (`Sender.Bounded.step`).
-/

namespace Congestion

/-- What the sender recovers from. -/
inductive Phase where
  | idle
  | recovery
  | lossRecovery
  deriving DecidableEq, Repr

/-- A sender: the size of its segments and of its buffer, and its window. -/
structure Sender where
  mss : ℕ
  size : ℕ
  cwnd : ℕ
  ssthresh : ℕ
  phase : Phase
  deriving DecidableEq, Repr

/-- The duplicate acknowledgments that tell a loss, and the window after a timeout, in segments. -/
structure Config where
  threshold : ℕ
  lossWindow : ℕ
  lossWindow_pos : 0 < lossWindow

/-- What the sender learns. -/
inductive Event where
  /-- `n` bytes are acknowledged: all that was sent before the loss if `full` holds. `roundTrip` is
  the number of bytes acknowledged over a round trip that is complete. -/
  | newAck (n : ℕ) (full : Bool) (roundTrip : Option ℕ)
  /-- Nothing new is acknowledged, with `flight` bytes in flight; a segment is taken to be lost if
  `lost` holds. -/
  | oldAck (duplicate lost : Bool) (flight : ℕ)
  /-- The timer has elapsed, for the first time if `first` holds. -/
  | timeout (first : Bool) (flight : ℕ)
  deriving DecidableEq, Repr

namespace Sender

/-! ## What a sender does -/

/-- The window does not exceed the buffer. -/
def limit (s : Sender) : Sender := { s with cwnd := min s.cwnd s.size }

/-- Half of what is in flight, and at least two segments. -/
def halved (s : Sender) (flight : ℕ) : ℕ := max (flight / 2) (2 * s.mss)

/-- Fast retransmit. -/
def enterRecovery (config : Config) (flight : ℕ) (s : Sender) : Sender :=
  { s with
    cwnd := s.halved flight + config.threshold * s.mss
    ssthresh := s.halved flight
    phase := .recovery }

/-- The end of fast recovery. -/
def leaveRecovery (s : Sender) : Sender := { s with cwnd := s.ssthresh, phase := .idle }

/-- A part of what was in flight is acknowledged. -/
def deflate (n : ℕ) (s : Sender) : Sender :=
  { s with cwnd :=
      (if n < s.cwnd then s.cwnd - n else s.cwnd) + if s.mss ≤ n then s.mss else 0 }

/-- A segment has left the network. -/
def inflate (s : Sender) : Sender := { s with cwnd := s.cwnd + s.mss }

/-- Slow start below `ssthresh`, congestion avoidance above. -/
def grow (n : ℕ) (roundTrip : Option ℕ) (s : Sender) : Sender :=
  { s with cwnd := s.cwnd +
      if s.cwnd < s.ssthresh then min n s.mss else min (roundTrip.getD 0) s.mss }

def onNewAck (n : ℕ) (full : Bool) (roundTrip : Option ℕ) (s : Sender) : Sender :=
  match s.phase with
  | .idle => s.grow n roundTrip
  | .recovery => if full then s.leaveRecovery else s.deflate n
  | .lossRecovery => { s with phase := if full then .idle else .lossRecovery }.grow n roundTrip

def onOldAck (config : Config) (duplicate lost : Bool) (flight : ℕ) (s : Sender) : Sender :=
  match s.phase with
  | .idle => if lost then s.enterRecovery config flight else s
  | .recovery => if duplicate then s.inflate else s
  | .lossRecovery => s

def onTimeout (config : Config) (first : Bool) (flight : ℕ) (s : Sender) : Sender :=
  { s with
    cwnd := min (config.lossWindow * s.mss) s.size
    ssthresh := if first then s.halved flight else s.ssthresh
    phase := .lossRecovery }

def step (config : Config) (s : Sender) : Event → Sender
  | .newAck n full roundTrip => (s.onNewAck n full roundTrip).limit
  | .oldAck duplicate lost flight => (s.onOldAck config duplicate lost flight).limit
  | .timeout first flight => s.onTimeout config first flight

/-- The window of a connection whose segments hold `mss` bytes, as it starts with `segments` of
them. -/
def restart (mss segments : ℕ) (s : Sender) : Sender :=
  { s with mss := mss, cwnd := min (segments * mss) s.size }

/-! ## The bounds -/

/-- The window is not empty, outside fast recovery it holds a segment, and so does what it is
deflated to. -/
structure Sound (s : Sender) : Prop where
  mss_pos : 0 < s.mss
  size_pos : 0 < s.size
  cwnd_pos : 0 < s.cwnd
  le_cwnd : s.phase ≠ .recovery → min s.mss s.size ≤ s.cwnd
  le_ssthresh : s.phase = .recovery → 2 * s.mss ≤ s.ssthresh

/-- The window does not exceed the buffer either. -/
structure Bounded (s : Sender) : Prop extends Sound s where
  cwnd_le : s.cwnd ≤ s.size

variable {s : Sender} {config : Config}

theorem le_halved (s : Sender) (flight : ℕ) : 2 * s.mss ≤ s.halved flight := le_max_right _ _

theorem Sound.limit (h : s.Sound) : s.limit.Bounded where
  mss_pos := h.mss_pos
  size_pos := h.size_pos
  cwnd_pos := lt_min h.cwnd_pos h.size_pos
  le_cwnd hphase := le_min (h.le_cwnd hphase) (min_le_right _ _)
  le_ssthresh := h.le_ssthresh
  cwnd_le := min_le_right _ _

/-- A larger window in the same phase. -/
theorem Sound.mono (h : s.Sound) {cwnd : ℕ} (hle : s.cwnd ≤ cwnd) :
    { s with cwnd := cwnd }.Sound where
  mss_pos := h.mss_pos
  size_pos := h.size_pos
  cwnd_pos := lt_of_lt_of_le h.cwnd_pos hle
  le_cwnd hphase := (h.le_cwnd hphase).trans hle
  le_ssthresh := h.le_ssthresh

theorem Sound.grow (h : s.Sound) (n : ℕ) (roundTrip : Option ℕ) : (s.grow n roundTrip).Sound :=
  h.mono (Nat.le_add_right _ _)

theorem Sound.leaveRecovery (h : s.Sound) (hphase : s.phase = .recovery) :
    s.leaveRecovery.Sound := by
  have hmss := h.mss_pos
  have hle := h.le_ssthresh hphase
  refine ⟨hmss, h.size_pos, ?_, fun _ => ?_, fun hrecovery => ?_⟩
  · change 0 < s.ssthresh
    omega
  · change min s.mss s.size ≤ s.ssthresh
    exact (min_le_left _ _).trans (by omega)
  · cases hrecovery

theorem Sound.deflate (h : s.Sound) (hphase : s.phase = .recovery) (n : ℕ) :
    (s.deflate n).Sound := by
  refine ⟨h.mss_pos, h.size_pos, ?_, fun hne => absurd hphase hne, h.le_ssthresh⟩
  have hcwnd := h.cwnd_pos
  simp only [Sender.deflate]
  split_ifs <;> omega

theorem Sound.enterRecovery (h : s.Sound) (flight : ℕ) : (s.enterRecovery config flight).Sound := by
  have hmss := h.mss_pos
  have hle := s.le_halved flight
  refine ⟨hmss, h.size_pos, ?_, fun hne => absurd rfl hne, fun _ => hle⟩
  change 0 < s.halved flight + config.threshold * s.mss
  omega

theorem Sound.onNewAck (h : s.Sound) (n : ℕ) (full : Bool) (roundTrip : Option ℕ) :
    (s.onNewAck n full roundTrip).Sound := by
  rw [Sender.onNewAck]
  cases hphase : s.phase with
  | idle => exact h.grow n roundTrip
  | recovery =>
      cases full with
      | true => exact h.leaveRecovery hphase
      | false => exact h.deflate hphase n
  | lossRecovery =>
      have hloss : { s with phase := if full then .idle else .lossRecovery }.Sound := by
        refine ⟨h.mss_pos, h.size_pos, h.cwnd_pos, fun _ => ?_, fun hrecovery => ?_⟩
        · exact h.le_cwnd (by rw [hphase]; simp)
        · cases full <;> cases hrecovery
      exact hloss.grow n roundTrip

theorem Sound.onOldAck (h : s.Sound) (duplicate lost : Bool) (flight : ℕ) :
    (s.onOldAck config duplicate lost flight).Sound := by
  rw [Sender.onOldAck]
  cases s.phase with
  | idle =>
      cases lost with
      | true => exact h.enterRecovery flight
      | false => exact h
  | recovery =>
      cases duplicate with
      | true => exact h.mono (Nat.le_add_right _ _)
      | false => exact h
  | lossRecovery => exact h

theorem Sound.onTimeout (h : s.Sound) (first : Bool) (flight : ℕ) :
    (s.onTimeout config first flight).Bounded := by
  have hsegment : s.mss ≤ config.lossWindow * s.mss :=
    Nat.le_mul_of_pos_left _ config.lossWindow_pos
  refine ⟨⟨h.mss_pos, h.size_pos, ?_, fun _ => ?_, fun hrecovery => ?_⟩, min_le_right _ _⟩
  · exact lt_min (lt_of_lt_of_le h.mss_pos hsegment) h.size_pos
  · exact min_le_min_right _ hsegment
  · cases hrecovery

/-- **The window stays within its bounds**, whatever the sender learns. -/
theorem Bounded.step (h : s.Bounded) (event : Event) : (s.step config event).Bounded := by
  cases event with
  | newAck n full roundTrip => exact (h.onNewAck n full roundTrip).limit
  | oldAck duplicate lost flight => exact (h.onOldAck duplicate lost flight).limit
  | timeout first flight => exact h.onTimeout first flight

/-- A step leaves the sizes alone. -/
theorem step_sizes (s : Sender) (event : Event) :
    (s.step config event).mss = s.mss ∧ (s.step config event).size = s.size := by
  cases event with
  | newAck n full roundTrip =>
      simp only [step, limit, Sender.onNewAck]
      split
      · exact ⟨rfl, rfl⟩
      · split <;> exact ⟨rfl, rfl⟩
      · exact ⟨rfl, rfl⟩
  | oldAck duplicate lost flight =>
      simp only [step, limit, Sender.onOldAck]
      split
      · split <;> exact ⟨rfl, rfl⟩
      · split <;> exact ⟨rfl, rfl⟩
      · exact ⟨rfl, rfl⟩
  | timeout first flight => exact ⟨rfl, rfl⟩

/-- Outside fast recovery a window can start again with segments of another size. -/
theorem restart_bounded {mss segments : ℕ} (hmss : 0 < mss) (hsegments : 0 < segments)
    (hsize : 0 < s.size) (hphase : s.phase ≠ .recovery) : (s.restart mss segments).Bounded := by
  have hsegment : mss ≤ segments * mss := Nat.le_mul_of_pos_left _ hsegments
  refine ⟨⟨hmss, hsize, ?_, fun _ => ?_, fun hrecovery => ?_⟩, min_le_right _ _⟩
  · exact lt_min (lt_of_lt_of_le hmss hsegment) hsize
  · exact min_le_min_right _ hsegment
  · exact absurd hrecovery hphase

end Sender

end Congestion
