import CycloneTcp.Core.NetMem
import CycloneTcp.Lib.OnesComplement

set_option autoImplicit false

/-! # The Internet checksum

`ipCalcChecksum` sums 32-bit words where it can: it first consumes a byte and a 16-bit word to reach
an aligned address, and at an odd address every byte counts in the other place of its word until the
final swap. `ipCalcChecksumEx` adds up the sums of the chunks of a buffer, swapping around those
that start at an odd position. All sums are 32-bit, so a carry that got lost would show. -/

namespace Ip

variable (order : ByteOrder)

/-! ## The functions -/

/-- The 16-bit word in memory at `p`. -/
def load16 (mem : Memory UInt8) (p : ℕ) : UInt32 :=
  UInt32.ofNat (wordOf order (mem p) (mem (p + 1)))

/-- The 32-bit word in memory at `p`. -/
def load32 (mem : Memory UInt8) (p : ℕ) : UInt32 :=
  match order with
  | .little =>
      UInt32.ofNat (wordOf order (mem p) (mem (p + 1))
        + wordOf order (mem (p + 2)) (mem (p + 3)) * 65536)
  | .big =>
      UInt32.ofNat (wordOf order (mem p) (mem (p + 1)) * 65536
        + wordOf order (mem (p + 2)) (mem (p + 3)))

/-- A single byte, as the first or the second one of its word. -/
def loadByte (odd : Bool) (mem : Memory UInt8) (p : ℕ) : UInt32 :=
  UInt32.ofNat (lane order odd * (mem p).toNat)

/-- Fold a 32-bit sum to 16 bits. -/
def fold32 (checksum : UInt32) : UInt32 := (checksum &&& (0xFFFF : UInt32)) + (checksum >>> 16)

/-- Swap the bytes of a 16-bit sum. -/
def swap16 (checksum : UInt32) : UInt32 := ((checksum >>> 8) ||| (checksum <<< 8)) &&& 0xFFFF

/-- Process the data 4 bytes at a time: the sum, the pointer and the number of bytes left. -/
def sumWords (mem : Memory UInt8) (checksum : UInt32) (p : ℕ) : ℕ → UInt32 × ℕ × ℕ
  | length + 4 =>
      let temp := checksum + load32 order mem p
      sumWords mem (if temp < checksum then temp + 1 else temp) (p + 4) length
  | length => (checksum, p, length)

/-- Add the 16-bit word and the byte that 32-bit words leave over. -/
def addLeftover (mem : Memory UInt8) (checksum : UInt32) (p length : ℕ) : UInt32 :=
  let (checksum, p, length) :=
    if 2 ≤ length then (checksum + load16 order mem p, p + 2, length - 2)
    else (checksum, p, length)
  if 1 ≤ length then checksum + loadByte order false mem p else checksum

/-- The part of `ipCalcChecksum` behind the first byte of an odd address: the 16-bit sum. -/
def sumFrom (mem : Memory UInt8) (checksum : UInt32) (p length : ℕ) : UInt32 :=
  -- reach a 32-bit boundary
  let (checksum, p, length) :=
    if p &&& 2 ≠ 0 ∧ 2 ≤ length then (checksum + load16 order mem p, p + 2, length - 2)
    else (checksum, p, length)
  let (checksum, p, length) := sumWords order mem checksum p length
  let checksum := addLeftover order mem (fold32 checksum) p length
  fold32 (fold32 checksum)

/-- IP checksum calculation. -/
def ipCalcChecksum (mem : Memory UInt8) (data length : ℕ) : UInt16 :=
  -- reach a 16-bit boundary
  let (checksum, p, length) :=
    if data &&& 1 ≠ 0 ∧ 1 ≤ length then (0 + loadByte order true mem data, data + 1, length - 1)
    else (0, data, length)
  let checksum := sumFrom order mem checksum p length
  let checksum := if data &&& 1 ≠ 0 then swap16 checksum else checksum
  (checksum ^^^ 0xFFFF).toUInt16

/-- The loop of `ipCalcChecksumEx`. -/
def checksumChunks (mem : Memory UInt8) (length : ℕ) : List ChunkDesc → ℕ → ℕ → UInt32 → UInt32
  | [], _, _, checksum => checksum
  | c :: cs, offset, pos, checksum =>
      if pos < length then
        if offset < c.length.toNat then
          let data := c.address + offset
          let n := min (c.length.toNat - offset) (length - pos)
          let checksum := if pos &&& 1 ≠ 0 then swap16 checksum else checksum
          let checksum := checksum + ((ipCalcChecksum order mem data n).toUInt32 ^^^ 0xFFFF)
          let checksum := fold32 checksum
          let checksum := if pos &&& 1 ≠ 0 then swap16 checksum else checksum
          checksumChunks mem length cs 0 (pos + n) checksum
        else checksumChunks mem length cs (offset - c.length.toNat) pos checksum
      else checksum

/-- Calculate IP checksum over a multi-part buffer. -/
def ipCalcChecksumEx (mem : Memory UInt8) (buffer : NetBuffer) (offset length : ℕ) : UInt16 :=
  (checksumChunks order mem length buffer.chunk offset 0 0 ^^^ 0xFFFF).toUInt16

/-- Calculate IP upper-layer checksum. -/
def ipCalcUpperLayerChecksum (mem : Memory UInt8) (pseudoHeader pseudoHeaderLen data dataLen : ℕ) :
    UInt16 :=
  let checksum := (ipCalcChecksum order mem pseudoHeader pseudoHeaderLen).toUInt32 ^^^ 0xFFFF
  let checksum := checksum + ((ipCalcChecksum order mem data dataLen).toUInt32 ^^^ 0xFFFF)
  (fold32 checksum ^^^ 0xFFFF).toUInt16

/-- Calculate IP upper-layer checksum over a multi-part buffer. -/
def ipCalcUpperLayerChecksumEx (mem : Memory UInt8) (pseudoHeader pseudoHeaderLen : ℕ)
    (buffer : NetBuffer) (offset length : ℕ) : UInt16 :=
  let checksum := (ipCalcChecksum order mem pseudoHeader pseudoHeaderLen).toUInt32 ^^^ 0xFFFF
  let checksum := checksum + ((ipCalcChecksumEx order mem buffer offset length).toUInt32 ^^^ 0xFFFF)
  (fold32 checksum ^^^ 0xFFFF).toUInt16

/-! ## 32-bit steps -/

theorem fold32_toNat (x : UInt32) : (fold32 x).toNat = x.toNat % 65536 + x.toNat / 65536 := by
  have hx := x.toNat_lt
  have hand : (x &&& 0xFFFF).toNat = x.toNat % 65536 := by
    rw [UInt32.toNat_and]
    exact Nat.and_two_pow_sub_one_eq_mod x.toNat 16
  have hshift : (x >>> 16).toNat = x.toNat / 65536 := by
    rw [UInt32.toNat_shiftRight]
    exact Nat.shiftRight_eq_div_pow x.toNat 16
  rw [fold32, UInt32.toNat_add, hand, hshift]
  omega

theorem swap16_toNat {x : UInt32} (h : x.toNat < 65536) :
    (swap16 x).toNat = x.toNat / 256 + x.toNat % 256 * 256 := by
  have hr : (x >>> 8).toNat = x.toNat / 256 := by
    rw [UInt32.toNat_shiftRight]
    exact Nat.shiftRight_eq_div_pow x.toNat 8
  have hl : (x <<< 8).toNat = x.toNat * 256 := by
    rw [UInt32.toNat_shiftLeft]
    show x.toNat <<< 8 % 2 ^ 32 = _
    rw [Nat.shiftLeft_eq, Nat.mod_eq_of_lt (by omega)]
  have hor : (x.toNat / 256) ||| (x.toNat * 256) = x.toNat / 256 + x.toNat * 256 := by
    have hlow : x.toNat / 256 < 2 ^ 8 := by omega
    rw [Nat.or_comm, Nat.add_comm, show x.toNat * 256 = x.toNat <<< 8 from
      (Nat.shiftLeft_eq x.toNat 8).symm, ← Nat.shiftLeft_add_eq_or_of_lt hlow]
  have hand : (((x >>> 8) ||| (x <<< 8)) &&& 0xFFFF).toNat
      = ((x >>> 8) ||| (x <<< 8)).toNat % 65536 := by
    rw [UInt32.toNat_and]
    exact Nat.and_two_pow_sub_one_eq_mod _ 16
  rw [swap16, hand, UInt32.toNat_or, hr, hl, hor]
  omega

/-- The complement of a 16-bit sum, and back. -/
theorem complement_complement {x : UInt32} (h : x.toNat < 65536) :
    ((x ^^^ 0xFFFF).toUInt16.toUInt32 ^^^ 0xFFFF) = x := by
  apply UInt32.toNat_inj.1
  have hxor : (x ^^^ 0xFFFF).toNat = x.toNat ^^^ 65535 := UInt32.toNat_xor ..
  have hlt : x.toNat ^^^ 65535 < 65536 := Nat.xor_lt_two_pow (n := 16) h (by decide)
  rw [UInt32.toNat_xor, UInt16.toNat_toUInt32, UInt32.toNat_toUInt16, hxor,
    Nat.mod_eq_of_lt hlt]
  show x.toNat ^^^ 65535 ^^^ 65535 = x.toNat
  rw [Nat.xor_assoc, Nat.xor_self, Nat.xor_zero]

/-- RFC 1071: the complement of the one's-complement sum, as a word in memory order. -/
def internetChecksum (bytes : List UInt8) : UInt16 := ~~~ UInt16.ofNat (onesSum order bytes)

/-- A 16-bit sum that represents the sum of the bytes gives their checksum. -/
theorem complement_eq {x : UInt32} {bytes : List UInt8} (h : x.toNat < 65536)
    (hx : OnesEq x.toNat (laneSum order false bytes)) :
    (x ^^^ 0xFFFF).toUInt16 = internetChecksum order bytes := by
  have hsum := OnesEq.unique h (onesSum_lt order bytes) hx (onesSum_onesEq order bytes)
  rw [internetChecksum, ← hsum, UInt32.toUInt16_xor]
  exact UInt16.xor_neg_one

/-! ## Sums of bytes -/

variable (mem : Memory UInt8)

theorem load16_onesEq (p : ℕ) :
    OnesEq (load16 order mem p).toNat (laneSum order false (mem.read p 2)) := by
  have hlt := wordOf_lt order (mem p) (mem (p + 1))
  have hread : mem.read p 2 = [mem p, mem (p + 1)] := rfl
  rw [load16, UInt32.toNat_ofNat', Nat.mod_eq_of_lt (by omega), hread]
  exact OnesEq.refl _

theorem load16_lt (p : ℕ) : (load16 order mem p).toNat < 65536 := by
  have hlt := wordOf_lt order (mem p) (mem (p + 1))
  rw [load16, UInt32.toNat_ofNat', Nat.mod_eq_of_lt (by omega)]
  exact hlt

theorem load32_onesEq (p : ℕ) :
    OnesEq (load32 order mem p).toNat (laneSum order false (mem.read p 4)) := by
  have h1 := wordOf_lt order (mem p) (mem (p + 1))
  have h2 := wordOf_lt order (mem (p + 2)) (mem (p + 3))
  have hread : mem.read p 4 = [mem p, mem (p + 1), mem (p + 2), mem (p + 3)] := rfl
  have hsum : laneSum order false (mem.read p 4)
      = wordOf order (mem p) (mem (p + 1)) + wordOf order (mem (p + 2)) (mem (p + 3)) := by
    simp only [hread, laneSum, wordOf, Bool.not_false, Bool.not_true]
    omega
  rw [hsum]
  cases order with
  | little =>
      simp only [load32]
      rw [UInt32.toNat_ofNat', Nat.mod_eq_of_lt (by omega)]
      constructor <;> omega
  | big =>
      simp only [load32]
      rw [UInt32.toNat_ofNat', Nat.mod_eq_of_lt (by omega)]
      constructor <;> omega

theorem loadByte_toNat (odd : Bool) (p : ℕ) :
    (loadByte order odd mem p).toNat = laneSum order odd (mem.read p 1) ∧
      (loadByte order odd mem p).toNat < 65536 := by
  have hb := (mem p).toNat_lt
  have hread : mem.read p 1 = [mem p] := rfl
  have hlt : lane order odd * (mem p).toNat < 65536 := by
    cases order <;> cases odd <;> simp only [lane] <;> omega
  rw [loadByte, UInt32.toNat_ofNat', Nat.mod_eq_of_lt (by omega), hread]
  exact ⟨rfl, hlt⟩

/-- The sum so far represents that of the bytes consumed, and the bytes left are those behind it. -/
theorem sumWords_spec (checksum : UInt32) (p length : ℕ) :
    let result := sumWords order mem checksum p length
    ∃ k, k % 4 = 0 ∧ length = k + result.2.2 ∧ result.2.2 < 4 ∧ result.2.1 = p + k ∧
      OnesEq result.1.toNat (checksum.toNat + laneSum order false (mem.read p k)) := by
  induction length using Nat.strong_induction_on generalizing checksum p with
  | h length ih =>
      by_cases hlen : length < 4
      · have hend : sumWords order mem checksum p length = (checksum, p, length) := by
          interval_cases length <;> rfl
        simp only [hend]
        exact ⟨0, rfl, by omega, hlen, rfl, OnesEq.refl _⟩
      · obtain ⟨rest, rfl⟩ := Nat.exists_eq_add_of_le' (not_lt.1 hlen)
        simp only [sumWords]
        set temp := checksum + load32 order mem p with htemp
        obtain ⟨k, hk4, hk, hlt, hp, hsum⟩ :=
          ih rest (by omega) (if temp < checksum then temp + 1 else temp) (p + 4)
        refine ⟨4 + k, by omega, by omega, hlt, by omega, ?_⟩
        have hcarry := OnesEq.carry checksum.toNat_lt (load32 order mem p).toNat_lt
        have hstep : (if temp < checksum then temp + 1 else temp).toNat
            = if (checksum.toNat + (load32 order mem p).toNat) % 4294967296 < checksum.toNat then
                (checksum.toNat + (load32 order mem p).toNat) % 4294967296 + 1
              else (checksum.toNat + (load32 order mem p).toNat) % 4294967296 := by
          have h1 := checksum.toNat_lt
          have h2 := (load32 order mem p).toNat_lt
          have hadd : temp.toNat
              = (checksum.toNat + (load32 order mem p).toNat) % 4294967296 := by
            rw [htemp, UInt32.toNat_add]
          by_cases hover : temp < checksum
          · have hover' := UInt32.lt_iff_toNat_lt.1 hover
            rw [if_pos hover, UInt32.toNat_add, UInt32.toNat_one, hadd]
            rw [hadd] at hover'
            rw [if_pos hover']
            omega
          · have hover' := fun h => hover (UInt32.lt_iff_toNat_lt.2 h)
            rw [hadd] at hover'
            rw [if_neg hover, if_neg hover', hadd]
        rw [hstep] at hsum
        have hsplit : laneSum order false (mem.read p (4 + k))
            = laneSum order false (mem.read p 4) + laneSum order false (mem.read (p + 4) k) := by
          rw [Memory.read_add, laneSum_append, Memory.length_read]
          rfl
        rw [hsplit, ← Nat.add_assoc]
        exact hsum.trans ((hcarry.trans ((OnesEq.refl _).add (load32_onesEq order mem p))).add
          (OnesEq.refl _))

/-- Adding one part of the bytes to a sum that cannot overflow. -/
theorem add_toNat_of_lt {x y : UInt32} (h : x.toNat + y.toNat < 4294967296) :
    (x + y).toNat = x.toNat + y.toNat := by
  rw [UInt32.toNat_add, Nat.mod_eq_of_lt h]

theorem laneSum_read_add (p a b : ℕ) (h : a % 2 = 0) :
    laneSum order false (mem.read p (a + b))
      = laneSum order false (mem.read p a) + laneSum order false (mem.read (p + a) b) := by
  rw [Memory.read_add, laneSum_append, Memory.length_read, h]
  rfl

/-- Adding a 16-bit word that represents the next bytes. -/
theorem add_word {x y : UInt32} {s t : ℕ} (hx : x.toNat < 4294901760) (hy : y.toNat < 65536)
    (hs : OnesEq x.toNat s) (ht : OnesEq y.toNat t) :
    (x + y).toNat < x.toNat + 65536 ∧ OnesEq (x + y).toNat (s + t) := by
  rw [add_toNat_of_lt (by omega)]
  exact ⟨by omega, hs.add ht⟩

theorem addLeftover_spec {checksum : UInt32} (p : ℕ) {length : ℕ} (hc : checksum.toNat < 131072)
    (hlen : length < 4) :
    (addLeftover order mem checksum p length).toNat < 262144 ∧
      OnesEq (addLeftover order mem checksum p length).toNat
        (checksum.toNat + laneSum order false (mem.read p length)) := by
  have hself := OnesEq.refl checksum.toNat
  have hbyte : ∀ p, OnesEq (loadByte order false mem p).toNat
      (laneSum order false (mem.read p 1)) := by
    intro p
    rw [(loadByte_toNat order mem false p).1]
    exact OnesEq.refl _
  obtain ⟨hw, hword⟩ := add_word (by omega) (load16_lt order mem p) hself
    (load16_onesEq order mem p)
  interval_cases length
  · exact ⟨show checksum.toNat < _ by omega, hself⟩
  · obtain ⟨hb, hsum⟩ := add_word (by omega) (loadByte_toNat order mem false p).2
      hself (hbyte p)
    exact ⟨show (checksum + loadByte order false mem p).toNat < _ by omega, hsum⟩
  · exact ⟨show (checksum + load16 order mem p).toNat < _ by omega, hword⟩
  · obtain ⟨hb, hsum⟩ := add_word (by omega)
      (loadByte_toNat order mem false (p + 2)).2 hword (hbyte (p + 2))
    rw [Nat.add_assoc, ← laneSum_read_add order mem p 2 1 rfl] at hsum
    refine ⟨?_, hsum⟩
    show (checksum + load16 order mem p + loadByte order false mem (p + 2)).toNat < _
    omega

theorem fold_fold_lt {x : UInt32} (h : x.toNat < 262144) : (fold32 (fold32 x)).toNat < 65536 := by
  rw [fold32_toNat, fold32_toNat]
  omega

theorem fold_onesEq {x : UInt32} {s : ℕ} (h : OnesEq x.toNat s) : OnesEq (fold32 x).toNat s := by
  rw [fold32_toNat]
  exact (OnesEq.fold x.toNat).trans h

theorem sumFrom_spec {checksum : UInt32} (p length : ℕ) (hc : checksum.toNat < 65536) :
    (sumFrom order mem checksum p length).toNat < 65536 ∧
      OnesEq (sumFrom order mem checksum p length).toNat
        (checksum.toNat + laneSum order false (mem.read p length)) := by
  -- the sum after the 32-bit boundary
  obtain ⟨c, q, l, j, hstage, hj, hl, hq, hsum⟩ :
      ∃ (c : UInt32) (q l j : ℕ),
        (if p &&& 2 ≠ 0 ∧ 2 ≤ length then (checksum + load16 order mem p, p + 2, length - 2)
          else (checksum, p, length)) = (c, q, l) ∧
        j % 2 = 0 ∧ length = j + l ∧ q = p + j ∧
        OnesEq c.toNat (checksum.toNat + laneSum order false (mem.read p j)) := by
    split
    case isTrue h =>
      exact ⟨_, _, _, 2, rfl, rfl, by omega, rfl,
        (add_word (by omega) (load16_lt order mem p) (OnesEq.refl _) (load16_onesEq order mem p)).2⟩
    case isFalse h => exact ⟨_, _, _, 0, rfl, rfl, by omega, rfl, OnesEq.refl _⟩
  obtain ⟨k, hk, hlen, hlt, hp, hwords⟩ := sumWords_spec order mem c q l
  simp only [sumFrom, hstage]
  set result := sumWords order mem c q l with hresult
  obtain ⟨c', q', l'⟩ := result
  simp only at hlen hlt hp hwords ⊢
  have hfold : (fold32 c').toNat < 131072 := by
    have hc' := c'.toNat_lt
    rw [fold32_toNat]
    omega
  obtain ⟨hsmall, hleft⟩ := addLeftover_spec order mem q' hfold hlt
  have hall : OnesEq ((fold32 c').toNat + laneSum order false (mem.read q' l'))
      (checksum.toNat + laneSum order false (mem.read p length)) := by
    rw [hl, laneSum_read_add order mem p j l hj, ← Nat.add_assoc, ← hq, hlen, laneSum_read_add order mem q k l' (by omega),
      ← Nat.add_assoc, ← hp]
    exact (fold_onesEq (hwords.trans (hsum.add (OnesEq.refl _)))).add (OnesEq.refl _)
  exact ⟨fold_fold_lt hsmall, fold_onesEq (fold_onesEq (hleft.trans hall))⟩

theorem swap_onesEq {x : UInt32} {s : ℕ} (hx : x.toNat < 65536) (h : OnesEq x.toNat s) :
    (swap16 x).toNat < 65536 ∧ OnesEq (swap16 x).toNat (256 * s) := by
  rw [swap16_toNat hx]
  exact ⟨by omega, (OnesEq.swap hx).trans (h.mul_left 256)⟩

/-- Bit 0 of an address or a position. -/
theorem and_one_ne_zero (n : ℕ) : n &&& 1 ≠ 0 ↔ n % 2 = 1 := by
  rw [Nat.and_one_is_mod]
  omega

/-- The 16-bit sum `ipCalcChecksum` complements. -/
theorem ipCalcChecksum_sum (data length : ℕ) :
    ∃ x : UInt32, x.toNat < 65536 ∧ OnesEq x.toNat (laneSum order false (mem.read data length)) ∧
      ipCalcChecksum order mem data length = (x ^^^ 0xFFFF).toUInt16 := by
  by_cases hodd : data &&& 1 ≠ 0
  · by_cases hlen : 1 ≤ length
    · -- the first byte is summed as a second one, and so are all the others shifted
      obtain ⟨hbyte, hlt⟩ := loadByte_toNat order mem true data
      have hzero : 0 + loadByte order true mem data = loadByte order true mem data :=
        UInt32.zero_add _
      obtain ⟨hx, hsum⟩ := sumFrom_spec order mem (data + 1) (length - 1) hlt
      have htrue : OnesEq (sumFrom order mem (loadByte order true mem data) (data + 1)
          (length - 1)).toNat (laneSum order true (mem.read data length)) := by
        obtain ⟨rest, rfl⟩ := Nat.exists_eq_add_of_le hlen
        rw [Nat.add_sub_cancel_left] at hsum ⊢
        rw [Memory.read_add, laneSum_append, Memory.length_read, ← hbyte]
        exact hsum
      obtain ⟨hswap, hval⟩ := swap_onesEq hx htrue
      refine ⟨_, hswap, hval.trans (laneSum_not order true _), ?_⟩
      simp only [ipCalcChecksum, if_pos (And.intro hodd hlen), if_pos hodd, hzero]
    · obtain rfl : length = 0 := by omega
      obtain ⟨hx, hsum⟩ := sumFrom_spec order mem data 0
        (show (0 : UInt32).toNat < 65536 by decide)
      obtain ⟨hswap, hval⟩ := swap_onesEq hx hsum
      refine ⟨_, hswap, hval, ?_⟩
      simp only [ipCalcChecksum, if_neg (fun h : data &&& 1 ≠ 0 ∧ 1 ≤ 0 => hlen h.2), if_pos hodd]
  · obtain ⟨hx, hsum⟩ := sumFrom_spec order mem data length
      (show (0 : UInt32).toNat < 65536 by decide)
    have hzero : (0 : UInt32).toNat = 0 := rfl
    rw [hzero, Nat.zero_add] at hsum
    refine ⟨_, hx, hsum, ?_⟩
    simp only [ipCalcChecksum, if_neg (fun h : data &&& 1 ≠ 0 ∧ 1 ≤ length => hodd h.1),
      if_neg hodd]

/-- The value other sums are made of. -/
theorem ipCalcChecksum_xor (data length : ℕ) :
    ((ipCalcChecksum order mem data length).toUInt32 ^^^ 0xFFFF).toNat < 65536 ∧
      OnesEq ((ipCalcChecksum order mem data length).toUInt32 ^^^ 0xFFFF).toNat
        (laneSum order false (mem.read data length)) := by
  obtain ⟨x, hx, hsum, hret⟩ := ipCalcChecksum_sum order mem data length
  rw [hret, complement_complement hx]
  exact ⟨hx, hsum⟩

/-- Folding the sum of two 16-bit sums. -/
theorem fold_add {x y : UInt32} {s t : ℕ} (hx : x.toNat < 65536) (hy : y.toNat < 65536)
    (hs : OnesEq x.toNat s) (ht : OnesEq y.toNat t) :
    (fold32 (x + y)).toNat < 65536 ∧ OnesEq (fold32 (x + y)).toNat (s + t) := by
  have hadd := add_toNat_of_lt (show x.toNat + y.toNat < 4294967296 by omega)
  refine ⟨?_, fold_onesEq (add_word (by omega) hy hs ht).2⟩
  rw [fold32_toNat, hadd]
  omega

/-! ## Multi-part buffers -/

theorem checksumChunks_spec (length : ℕ) (cs : List ChunkDesc) (offset pos : ℕ) {checksum : UInt32}
    (done : List UInt8) (hc : checksum.toNat < 65536)
    (hsum : OnesEq checksum.toNat (laneSum order false done)) (hpos : done.length = pos) :
    (checksumChunks order mem length cs offset pos checksum).toNat < 65536 ∧
      OnesEq (checksumChunks order mem length cs offset pos checksum).toNat
        (laneSum order false
          (done ++ ((chunkData mem cs).drop offset).take (length - pos))) := by
  induction cs generalizing offset pos checksum done with
  | nil => simpa [checksumChunks] using And.intro hc hsum
  | cons c cs ih =>
      rw [checksumChunks]
      by_cases hlt : pos < length
      · rw [if_pos hlt]
        by_cases hoff : offset < c.length.toNat
        · rw [if_pos hoff]
          simp only
          set n := min (c.length.toNat - offset) (length - pos) with hn
          obtain ⟨hd, hdata⟩ := ipCalcChecksum_xor order mem (c.address + offset) n
          set chunk := (ipCalcChecksum order mem (c.address + offset) n).toUInt32 ^^^ 0xFFFF
          have hrest : ((chunkData mem (c :: cs)).drop offset).take (length - pos)
              = mem.read (c.address + offset) n ++ (chunkData mem cs).take (length - (pos + n)) := by
            rw [take_drop_chunkData mem c cs _ hoff.le, Nat.min_comm, ← hn, Nat.sub_add_eq]
          have hlen : (done ++ mem.read (c.address + offset) n).length = pos + n := by
            rw [List.length_append, Memory.length_read, hpos]
          rw [hrest, ← List.append_assoc, ← List.drop_zero (l := chunkData mem cs)]
          by_cases hodd : pos &&& 1 ≠ 0
          · rw [if_pos hodd, if_pos hodd]
            obtain ⟨h1, s1⟩ := swap_onesEq hc hsum
            obtain ⟨h2, s2⟩ := fold_add h1 hd s1 hdata
            obtain ⟨h3, s3⟩ := swap_onesEq h2 s2
            refine ih 0 (pos + n) _ h3 (s3.trans ?_) hlen
            rw [and_one_ne_zero] at hodd
            rw [Nat.mul_add, laneSum_append, hpos, hodd]
            exact (OnesEq.mul_mul _).add (laneSum_not order false _)
          · rw [if_neg hodd, if_neg hodd]
            obtain ⟨h2, s2⟩ := fold_add hc hd hsum hdata
            refine ih 0 (pos + n) _ h2 (s2.trans ?_) hlen
            have heven : pos % 2 = 0 := by
              rw [and_one_ne_zero] at hodd
              omega
            rw [laneSum_append, hpos, heven]
            exact OnesEq.refl _
        · rw [if_neg hoff, drop_chunkData_cons mem cs (not_lt.1 hoff)]
          exact ih (offset - c.length.toNat) pos done hc hsum hpos
      · rw [if_neg hlt, show length - pos = 0 by omega, List.take_zero, List.append_nil]
        exact ⟨hc, hsum⟩

theorem ipCalcChecksumEx_sum (buffer : NetBuffer) (offset length : ℕ) :
    ∃ x : UInt32, x.toNat < 65536 ∧
      OnesEq x.toNat (laneSum order false (((flat mem buffer).drop offset).take length)) ∧
      ipCalcChecksumEx order mem buffer offset length = (x ^^^ 0xFFFF).toUInt16 := by
  obtain ⟨hx, hsum⟩ := checksumChunks_spec order mem length buffer.chunk offset 0 []
    (show (0 : UInt32).toNat < 65536 by decide) (OnesEq.refl 0) rfl
  exact ⟨_, hx, hsum, rfl⟩

theorem ipCalcChecksumEx_xor (buffer : NetBuffer) (offset length : ℕ) :
    ((ipCalcChecksumEx order mem buffer offset length).toUInt32 ^^^ 0xFFFF).toNat < 65536 ∧
      OnesEq ((ipCalcChecksumEx order mem buffer offset length).toUInt32 ^^^ 0xFFFF).toNat
        (laneSum order false (((flat mem buffer).drop offset).take length)) := by
  obtain ⟨x, hx, hsum, hret⟩ := ipCalcChecksumEx_sum order mem buffer offset length
  rw [hret, complement_complement hx]
  exact ⟨hx, hsum⟩

/-- **The optimised checksum is that of RFC 1071**, for every alignment and length of the data, for
every chunking of a buffer, and with a pseudo header of even length in front of the data. -/
theorem checksum_eq_internetChecksum (order : ByteOrder) (mem : Memory UInt8)
    (data length : ℕ) (buffer : NetBuffer) (offset pseudoHeader k : ℕ) :
    ipCalcChecksum order mem data length = internetChecksum order (mem.read data length) ∧
      ipCalcChecksumEx order mem buffer offset length
        = internetChecksum order (((flat mem buffer).drop offset).take length) ∧
      ipCalcUpperLayerChecksum order mem pseudoHeader (2 * k) data length
        = internetChecksum order (mem.read pseudoHeader (2 * k) ++ mem.read data length) ∧
      ipCalcUpperLayerChecksumEx order mem pseudoHeader (2 * k) buffer offset length
        = internetChecksum order
            (mem.read pseudoHeader (2 * k) ++ ((flat mem buffer).drop offset).take length) := by
  have happend : ∀ bytes : List UInt8,
      laneSum order false (mem.read pseudoHeader (2 * k) ++ bytes)
        = laneSum order false (mem.read pseudoHeader (2 * k)) + laneSum order false bytes := by
    intro bytes
    rw [laneSum_append, Memory.length_read, Nat.mul_mod_right]
    rfl
  obtain ⟨hp, hpseudo⟩ := ipCalcChecksum_xor order mem pseudoHeader (2 * k)
  refine ⟨?_, ?_, ?_, ?_⟩
  · obtain ⟨x, hx, hsum, hret⟩ := ipCalcChecksum_sum order mem data length
    rw [hret, complement_eq order hx hsum]
  · obtain ⟨x, hx, hsum, hret⟩ := ipCalcChecksumEx_sum order mem buffer offset length
    rw [hret, complement_eq order hx hsum]
  · obtain ⟨hd, hdata⟩ := ipCalcChecksum_xor order mem data length
    obtain ⟨hx, hsum⟩ := fold_add hp hd hpseudo hdata
    rw [← happend] at hsum
    exact complement_eq order hx hsum
  · obtain ⟨hd, hdata⟩ := ipCalcChecksumEx_xor order mem buffer offset length
    obtain ⟨hx, hsum⟩ := fold_add hp hd hpseudo hdata
    rw [← happend] at hsum
    exact complement_eq order hx hsum

end Ip
