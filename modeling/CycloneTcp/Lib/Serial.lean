import Mathlib.Tactic

set_option autoImplicit false

/-! # Serial numbers

A 32-bit sequence number names a position of an unbounded stream up to multiples of `2 ^ 32`.
`Serial.seq base p` is the number of position `p` of the stream that starts at `base`; the rules
below compute with positions where a program computes with numbers, as long as the positions
compared are less than half a turn apart. -/

namespace Serial

/-- The sequence number of position `p`, when `base` is the number of position 0. -/
def seq (base : UInt32) (p : ℕ) : UInt32 := base + UInt32.ofNat p

/-- The difference of two sequence numbers as a signed 32-bit number. -/
def cmp (a b : UInt32) : ℤ := (a - b).toBitVec.toInt

@[simp] theorem seq_zero (base : UInt32) : seq base 0 = base := by
  simp [seq]

theorem seq_add (base : UInt32) (p k : ℕ) : seq base p + UInt32.ofNat k = seq base (p + k) := by
  rw [seq, seq, UInt32.ofNat_add, UInt32.add_assoc]

theorem seq_add_one (base : UInt32) (p : ℕ) : seq base p + 1 = seq base (p + 1) :=
  seq_add base p 1

theorem seq_add_word (base : UInt32) (p : ℕ) (w : UInt16) :
    seq base p + w.toUInt32 = seq base (p + w.toNat) := by
  rw [← seq_add]
  congr 1
  apply UInt32.toNat_inj.1
  have := w.toNat_lt
  rw [UInt16.toNat_toUInt32, UInt32.toNat_ofNat']
  omega

theorem seq_toNat (base : UInt32) (p : ℕ) :
    (seq base p).toNat = (base.toNat + p) % 2 ^ 32 := by
  rw [seq, UInt32.toNat_add, UInt32.toNat_ofNat', Nat.add_mod_mod]

/-- The position of a number is its distance from the base. -/
theorem seq_sub_base (base : UInt32) (p : ℕ) : (seq base p - base).toNat = p % 2 ^ 32 := by
  have := base.toNat_lt
  rw [UInt32.toNat_sub, seq_toNat]
  omega

/-- Every number names the position at its distance from the base. -/
theorem seq_dist (base q : UInt32) : seq base (q - base).toNat = q := by
  rw [seq, UInt32.ofNat_toNat, UInt32.add_comm, UInt32.sub_add_cancel]

theorem sub_toNat (base : UInt32) {x y : ℕ} (hxy : y ≤ x) (hlt : x < y + 2 ^ 32) :
    (seq base x - seq base y).toNat = x - y := by
  have := base.toNat_lt
  rw [UInt32.toNat_sub, seq_toNat, seq_toNat]
  omega

theorem seq_sub (base : UInt32) {x k : ℕ} (h : k ≤ x) :
    seq base x - UInt32.ofNat k = seq base (x - k) := by
  obtain ⟨d, rfl⟩ := Nat.exists_eq_add_of_le h
  rw [Nat.add_sub_cancel_left, Nat.add_comm, ← seq_add, UInt32.add_sub_cancel]

/-- Within half a turn the signed difference of the numbers is that of the positions. -/
theorem cmp_seq (base : UInt32) {x y : ℕ} (hxy : x < y + 2 ^ 31) (hyx : y < x + 2 ^ 31) :
    cmp (seq base x) (seq base y) = (x : ℤ) - y := by
  have := base.toNat_lt
  rw [cmp, BitVec.toInt_eq_toNat_cond, UInt32.toNat_toBitVec, UInt32.toNat_sub, seq_toNat,
    seq_toNat]
  split <;> omega

/-- The sign of the difference, for numbers whose positions are not known. -/
theorem cmp_nonneg (a b : UInt32) : 0 ≤ cmp a b ↔ (a - b).toNat < 2 ^ 31 := by
  have := (a - b).toNat_lt
  rw [cmp, BitVec.toInt_eq_toNat_cond, UInt32.toNat_toBitVec]
  split <;> omega

theorem cmp_pos (a b : UInt32) : 0 < cmp a b ↔ 0 < (a - b).toNat ∧ (a - b).toNat < 2 ^ 31 := by
  have := (a - b).toNat_lt
  rw [cmp, BitVec.toInt_eq_toNat_cond, UInt32.toNat_toBitVec]
  split <;> omega

end Serial
