import Mathlib.Tactic

set_option autoImplicit false

/-! # Cyclic redundancy checks

The register of a reflected CRC is shifted to the right, one step a bit, and the polynomial is added
where a 1 drops out. All operations are linear in exclusive or, so a byte can be looked up in a table
of its own eight steps, and since the polynomial has its top bit set, no two states of the register
are ever merged: what a trailer does to the register determines the trailer. -/

namespace Crc

variable {w : ℕ} (poly : BitVec w)

/-- One step of the register. -/
def shift (x : BitVec w) : BitVec w := if x.getLsbD 0 = true then (x >>> 1) ^^^ poly else x >>> 1

/-- `n` steps. -/
def shifts : ℕ → BitVec w → BitVec w
  | 0, x => x
  | n + 1, x => shifts n (shift poly x)

/-- The register after a byte. -/
def update (x : BitVec w) (b : BitVec 8) : BitVec w := shifts poly 8 (x ^^^ b.setWidth w)

/-- The register after a list of bytes. -/
def register (x : BitVec w) (bs : List (BitVec 8)) : BitVec w := bs.foldl (update poly) x

/-- The number whose bytes these are, the lowest first. -/
def littleEndian : List (BitVec 8) → BitVec w
  | [] => 0#w
  | b :: bs => b.setWidth w ^^^ (littleEndian bs <<< 8)

/-! ## Linearity -/

theorem shift_xor (x y : BitVec w) : shift poly (x ^^^ y) = shift poly x ^^^ shift poly y := by
  unfold shift
  rw [BitVec.getLsbD_xor, BitVec.ushiftRight_xor_distrib]
  have hcancel : ∀ a b : BitVec w, a ^^^ b = (a ^^^ poly) ^^^ (b ^^^ poly) := by
    intro a b
    rw [BitVec.xor_comm b poly, BitVec.xor_assoc, ← BitVec.xor_assoc poly, BitVec.xor_self,
      BitVec.zero_xor]
  cases x.getLsbD 0 <;> cases y.getLsbD 0
  · rfl
  · exact BitVec.xor_assoc _ _ _
  · show (x >>> 1) ^^^ (y >>> 1) ^^^ poly = (x >>> 1) ^^^ poly ^^^ (y >>> 1)
    rw [BitVec.xor_assoc, BitVec.xor_assoc, BitVec.xor_comm poly]
  · exact hcancel _ _

theorem shifts_xor (n : ℕ) (x y : BitVec w) :
    shifts poly n (x ^^^ y) = shifts poly n x ^^^ shifts poly n y := by
  induction n generalizing x y with
  | zero => rfl
  | succ n ih => rw [shifts, shift_xor, ih, shifts, shifts]

theorem shifts_add (m n : ℕ) (x : BitVec w) :
    shifts poly (m + n) x = shifts poly n (shifts poly m x) := by
  induction m generalizing x with
  | zero => rw [Nat.zero_add, shifts]
  | succ m ih => rw [Nat.succ_add, shifts, ih, shifts]

/-- As long as zeros drop out, the register is only shifted. -/
theorem shifts_of_zeros {n : ℕ} {x : BitVec w} (hx : ∀ i < n, x.getLsbD i = false) :
    shifts poly n x = x >>> n := by
  induction n generalizing x with
  | zero => rw [shifts, BitVec.ushiftRight_zero]
  | succ n ih =>
      have hshift : shift poly x = x >>> 1 := by
        rw [shift, hx 0 (Nat.succ_pos n)]
        rfl
      rw [shifts, hshift, ih, ← BitVec.shiftRight_add, Nat.add_comm]
      intro i hi
      rw [BitVec.getLsbD_ushiftRight]
      exact hx _ (by omega)

/-! ## Tables -/

/-- The steps of the low bits, and the rest moved down: the low bits can be looked up. -/
theorem shifts_split (n : ℕ) (x mask : BitVec w) (hmask : ∀ i < w, mask.getLsbD i = decide (i < n)) :
    shifts poly n x = (x >>> n) ^^^ shifts poly n (x &&& mask) := by
  have hhigh : ∀ i < n, (x &&& ~~~mask).getLsbD i = false := by
    intro i hi
    by_cases hw : i < w
    · simp [hmask i hw, hi]
    · exact BitVec.getLsbD_of_ge _ _ (Nat.le_of_not_lt hw)
  have hsplit : x = (x &&& ~~~mask) ^^^ (x &&& mask) := by
    ext i hi
    simp only [BitVec.getElem_xor, BitVec.getElem_and, BitVec.getElem_not]
    cases x[i] <;> cases mask[i] <;> rfl
  have hshift : (x &&& ~~~mask) >>> n = x >>> n := by
    ext i hi
    simp only [BitVec.getElem_ushiftRight, BitVec.getLsbD_and, BitVec.getLsbD_not]
    by_cases hw : n + i < w
    · have hclear : mask[n + i] = false := by
        rw [← BitVec.getLsbD_eq_getElem, hmask _ hw]
        simp
      simp [hw, hclear]
    · simp [BitVec.getLsbD_of_ge x _ (Nat.le_of_not_lt hw)]
  conv => lhs; rw [hsplit]
  rw [shifts_xor, shifts_of_zeros poly hhigh, hshift]

/-! ## Trailers -/

theorem shift_eq_zero (hpoly : poly.getLsbD (w - 1) = true) {x : BitVec w}
    (h : shift poly x = 0#w) : x = 0#w := by
  unfold shift at h
  have hw : 0 < w := by
    rcases Nat.eq_zero_or_pos w with rfl | hw
    · rw [BitVec.of_length_zero (x := poly)] at hpoly
      exact absurd hpoly (by simp)
    · exact hw
  split at h
  case isTrue =>
    -- nothing takes away the top bit that the polynomial brings in
    have htop : ((x >>> 1) ^^^ poly).getLsbD (w - 1) = true := by
      rw [BitVec.getLsbD_xor, BitVec.getLsbD_ushiftRight, hpoly,
        BitVec.getLsbD_of_ge x _ (by omega)]
      rfl
    rw [h] at htop
    exact absurd htop (by simp)
  case isFalse hlow =>
    refine BitVec.eq_of_getLsbD_eq fun i hi => ?_
    rw [BitVec.getLsbD_zero]
    cases i with
    | zero => simpa using hlow
    | succ i =>
        have hbit : (x >>> 1).getLsbD i = false := by
          rw [h]
          exact BitVec.getLsbD_zero
        rwa [BitVec.getLsbD_ushiftRight, Nat.add_comm] at hbit

theorem shifts_inj (hpoly : poly.getLsbD (w - 1) = true) (n : ℕ) {x y : BitVec w} :
    shifts poly n x = shifts poly n y ↔ x = y := by
  refine ⟨fun h => ?_, fun h => by rw [h]⟩
  have hzero : ∀ (n : ℕ) {z : BitVec w}, shifts poly n z = 0#w → z = 0#w := by
    intro n
    induction n with
    | zero => exact id
    | succ n ih => exact fun h => shift_eq_zero poly hpoly (ih h)
  exact BitVec.xor_eq_zero_iff.1 (hzero n (by rw [shifts_xor, h, BitVec.xor_self]))

/-- The bytes of a number that fit in the register act on it as one number. -/
theorem register_littleEndian (x : BitVec w) (bs : List (BitVec 8)) (h : 8 * bs.length ≤ w) :
    register poly x bs = shifts poly (8 * bs.length) (x ^^^ littleEndian bs) := by
  have hhigh : ∀ (bs : List (BitVec 8)) (i : ℕ), 8 * bs.length ≤ i →
      (littleEndian bs : BitVec w).getLsbD i = false := by
    intro bs
    induction bs with
    | nil => exact fun i _ => BitVec.getLsbD_zero
    | cons b bs ih =>
        intro i hi
        rw [List.length_cons] at hi
        rw [littleEndian, BitVec.getLsbD_xor, BitVec.getLsbD_setWidth, BitVec.getLsbD_shiftLeft,
          ih (i - 8) (by omega), BitVec.getLsbD_of_ge b i (by omega)]
        simp
  induction bs generalizing x with
  | nil =>
      show x = x ^^^ 0#w
      rw [BitVec.xor_zero]
  | cons b bs ih =>
      rw [List.length_cons] at h
      have hshift : shifts poly 8 (littleEndian bs <<< 8) = littleEndian bs := by
        rw [shifts_of_zeros poly (fun i hi => by rw [BitVec.getLsbD_shiftLeft]; simp [hi])]
        refine BitVec.eq_of_getLsbD_eq fun i hi => ?_
        rw [BitVec.getLsbD_ushiftRight, BitVec.getLsbD_shiftLeft]
        by_cases hw : 8 + i < w
        · simp [hw]
        · rw [hhigh bs i (by omega)]
          simp [hw]
      have hlen : 8 * (b :: bs).length = 8 + 8 * bs.length := by rw [List.length_cons]; omega
      show register poly (update poly x b) bs = _
      rw [ih _ (by omega), hlen, shifts_add, littleEndian, ← BitVec.xor_assoc, shifts_xor poly 8,
        hshift, update]

/-- **Residue.** The register has the value that a register of `z` has after the trailer's bits, if
and only if the trailer completes the register to `z`. -/
theorem register_eq_iff (hpoly : poly.getLsbD (w - 1) = true) (x z : BitVec w)
    (bs : List (BitVec 8)) (h : 8 * bs.length ≤ w) :
    register poly x bs = shifts poly (8 * bs.length) z ↔ x ^^^ littleEndian bs = z := by
  rw [register_littleEndian poly x bs h, shifts_inj poly hpoly]

end Crc
