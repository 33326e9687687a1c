import Mathlib.Tactic

set_option autoImplicit false

/-! # One's-complement sums

The 16-bit one's-complement sum of words adds the carry out of the top back in at the bottom, so it
is a sum modulo `2 ^ 16 - 1` in which 0 stands for an empty sum only: a sum of words that are not
all 0 is never 0 but may be `2 ^ 16 - 1`. `OnesEq v s` says that `v`, whatever its width, is such
a representation of `s`; folding, adding with end-around carry and swapping bytes respect it, and
within 16 bits the representation is unique.

The sum of a byte string is taken over its `laneSum`: every byte weighted by its place in its word. -/

/-- `v` represents `s`. -/
def OnesEq (v s : ℕ) : Prop := v % 65535 = s % 65535 ∧ (v = 0 ↔ s = 0)

namespace OnesEq

variable {v w s t : ℕ}

theorem refl (v : ℕ) : OnesEq v v := ⟨rfl, Iff.rfl⟩

theorem symm (h : OnesEq v s) : OnesEq s v := ⟨h.1.symm, h.2.symm⟩

theorem trans (h : OnesEq v s) (h' : OnesEq s t) : OnesEq v t := ⟨h.1.trans h'.1, h.2.trans h'.2⟩

theorem add (h : OnesEq v s) (h' : OnesEq w t) : OnesEq (v + w) (s + t) := by
  obtain ⟨hmod, hzero⟩ := h
  obtain ⟨hmod', hzero'⟩ := h'
  constructor <;> omega

theorem mul_left (k : ℕ) (h : OnesEq v s) : OnesEq (k * v) (k * s) := by
  refine ⟨Nat.ModEq.mul_left k h.1, ?_⟩
  rw [Nat.mul_eq_zero, Nat.mul_eq_zero, h.2]

/-- The 16-bit representation is unique. -/
theorem unique (hv : v < 65536) (hw : w < 65536) (h : OnesEq v s) (h' : OnesEq w s) : v = w := by
  obtain ⟨hmod, hzero⟩ := h.trans h'.symm
  omega

/-- Adding the high half to the low one. -/
theorem fold (v : ℕ) : OnesEq (v % 65536 + v / 65536) v := by
  constructor <;> omega

/-- A 32-bit sum with the carry added back in. -/
theorem carry {a b : ℕ} (ha : a < 4294967296) (hb : b < 4294967296) :
    OnesEq (if (a + b) % 4294967296 < a then (a + b) % 4294967296 + 1 else (a + b) % 4294967296)
      (a + b) := by
  split <;> constructor <;> omega

/-- Swapping the two bytes of a word multiplies by 256. -/
theorem swap (hv : v < 65536) : OnesEq (v / 256 + v % 256 * 256) (256 * v) := by
  constructor <;> omega

theorem mul_mul (v : ℕ) : OnesEq (256 * (256 * v)) v := by
  constructor <;> omega

end OnesEq

/-- Which byte of a word in memory is the most significant one. -/
inductive ByteOrder where
  | little
  | big
  deriving DecidableEq, Repr

/-- The weight of a byte in its word. -/
def lane : ByteOrder → Bool → ℕ
  | .little, false => 1
  | .little, true => 256
  | .big, false => 256
  | .big, true => 1

/-- The word with the bytes `b`, `c` in memory. -/
def wordOf (order : ByteOrder) (b c : UInt8) : ℕ :=
  lane order false * b.toNat + lane order true * c.toNat

/-- The sum of bytes weighted by their place; `odd` says that the first one is the second byte of
its word. -/
def laneSum (order : ByteOrder) : Bool → List UInt8 → ℕ
  | _, [] => 0
  | odd, b :: bs => lane order odd * b.toNat + laneSum order (!odd) bs

/-- Addition of 16-bit words with end-around carry. -/
def onesAdd (a b : ℕ) : ℕ := if a + b < 65536 then a + b else a + b - 65535

/-- The 16-bit one's-complement sum of the words of a byte string, an odd last byte padded with
zero. -/
def onesSum (order : ByteOrder) : List UInt8 → ℕ
  | [] => 0
  | [b] => wordOf order b 0
  | b :: c :: bs => onesAdd (wordOf order b c) (onesSum order bs)

variable (order : ByteOrder)

theorem wordOf_lt (b c : UInt8) : wordOf order b c < 65536 := by
  have hb := b.toNat_lt
  have hc := c.toNat_lt
  cases order <;> simp only [wordOf, lane] <;> omega

theorem onesAdd_lt {a b : ℕ} (ha : a < 65536) (hb : b < 65536) : onesAdd a b < 65536 := by
  rw [onesAdd]
  split <;> omega

theorem onesAdd_onesEq (a b : ℕ) : OnesEq (onesAdd a b) (a + b) := by
  rw [onesAdd]
  split <;> constructor <;> omega

theorem onesSum_lt (bs : List UInt8) : onesSum order bs < 65536 := by
  induction bs using onesSum.induct with
  | case1 => exact Nat.zero_lt_succ _
  | case2 b => exact wordOf_lt order b 0
  | case3 b c bs ih => exact onesAdd_lt (wordOf_lt order b c) ih

/-- The one's-complement sum represents the weighted sum. -/
theorem onesSum_onesEq (bs : List UInt8) : OnesEq (onesSum order bs) (laneSum order false bs) := by
  induction bs using onesSum.induct with
  | case1 => exact OnesEq.refl 0
  | case2 b => simpa [onesSum, laneSum, wordOf] using OnesEq.refl _
  | case3 b c bs ih =>
      refine (onesAdd_onesEq _ _).trans ?_
      have hword : laneSum order false (b :: c :: bs)
          = wordOf order b c + laneSum order false bs := by
        simp only [laneSum, wordOf, Bool.not_false, Bool.not_true, Nat.add_assoc]
      rw [hword]
      exact (OnesEq.refl _).add ih

theorem laneSum_append (odd : Bool) (bs cs : List UInt8) :
    laneSum order odd (bs ++ cs)
      = laneSum order odd bs + laneSum order (odd ^^ bs.length % 2 == 1) cs := by
  induction bs generalizing odd with
  | nil => simp [laneSum]
  | cons b bs ih =>
      rw [List.cons_append, laneSum, laneSum, ih, Nat.add_assoc, List.length_cons]
      congr 3
      rcases Nat.mod_two_eq_zero_or_one bs.length with h | h
      · rw [show (bs.length + 1) % 2 = 1 by omega, h]
        cases odd <;> rfl
      · rw [show (bs.length + 1) % 2 = 0 by omega, h]
        cases odd <;> rfl

/-- Shifting every byte to the other place multiplies by 256. -/
theorem laneSum_not (odd : Bool) (bs : List UInt8) :
    OnesEq (256 * laneSum order odd bs) (laneSum order (!odd) bs) := by
  induction bs generalizing odd with
  | nil => exact OnesEq.refl 0
  | cons b bs ih =>
      rw [laneSum, laneSum, Nat.mul_add]
      refine OnesEq.add ?_ (ih (!odd))
      rw [← Nat.mul_assoc]
      have hb := b.toNat_lt
      cases order <;> cases odd <;> simp only [lane, Bool.not_false, Bool.not_true] <;>
        constructor <;> omega
