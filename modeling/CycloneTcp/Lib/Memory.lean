import Mathlib.Data.List.Basic
import Mathlib.Logic.Function.Basic
import Mathlib.Tactic

set_option autoImplicit false

/-! # Byte memory seen through a base pointer

A memory area is a total function from offsets to cells; programs read and write *slices* of it.
`Memory.write` stores a list at an offset, `Memory.read` loads one back. The bounds of the area are
not part of the model: a program that stays inside its array is one whose slices stay below the
array's length, which is a property to prove about that program.

The second half fixes the two encodings network code stores in such memory: big-endian 16-bit words
and bits packed least significant first. -/

/-- The cells reachable from a base pointer. -/
abbrev Memory (α : Type*) := ℕ → α

namespace Memory

variable {α : Type*}

/-- Store `xs` at `pos`, `pos + 1`, … -/
def write (m : Memory α) (pos : ℕ) (xs : List α) : Memory α :=
  fun i => if h : pos ≤ i ∧ i < pos + xs.length then xs[i - pos] else m i

/-- Load the `n` cells at `pos`, `pos + 1`, … -/
def read (m : Memory α) (pos n : ℕ) : List α :=
  (List.range n).map (fun i => m (pos + i))

@[simp] theorem length_read (m : Memory α) (pos n : ℕ) : (m.read pos n).length = n := by
  simp [read]

@[simp] theorem getElem_read (m : Memory α) (pos n i : ℕ) (h : i < (m.read pos n).length) :
    (m.read pos n)[i] = m (pos + i) := by
  simp [read]

@[simp] theorem read_zero (m : Memory α) (pos : ℕ) : m.read pos 0 = [] := rfl

@[simp] theorem write_nil (m : Memory α) (pos : ℕ) : m.write pos [] = m := by
  funext i
  simp only [write, List.length_nil, Nat.add_zero]
  rw [dif_neg (by omega)]

theorem write_of_lt (m : Memory α) {pos i : ℕ} (xs : List α) (h : i < pos) :
    m.write pos xs i = m i := by
  rw [write, dif_neg (by omega)]

theorem write_of_ge (m : Memory α) {pos i : ℕ} (xs : List α) (h : pos + xs.length ≤ i) :
    m.write pos xs i = m i := by
  rw [write, dif_neg (by omega)]

theorem write_add (m : Memory α) (pos : ℕ) (xs : List α) {k : ℕ} (h : k < xs.length) :
    m.write pos xs (pos + k) = xs[k] := by
  rw [write, dif_pos (by omega)]
  simp

/-- Two reads agree when the memories agree on the slice. -/
theorem read_congr {m m' : Memory α} {pos n : ℕ} (h : ∀ i, i < n → m (pos + i) = m' (pos + i)) :
    m.read pos n = m'.read pos n := by
  apply List.map_congr_left
  intro i hi
  exact h i (List.mem_range.1 hi)

theorem read_eq_iff {m : Memory α} {pos : ℕ} {xs : List α} :
    m.read pos xs.length = xs ↔ ∀ (k : ℕ) (h : k < xs.length), m (pos + k) = xs[k] := by
  constructor
  · intro h k hk
    have hget := getElem_read m pos xs.length k (by simpa using hk)
    rw [← hget]
    simp [h]
  · intro h
    apply List.ext_getElem
    · simp
    · intro k hk _
      rw [getElem_read]
      exact h k (by simpa using hk)

@[simp] theorem read_write_self (m : Memory α) (pos : ℕ) (xs : List α) :
    (m.write pos xs).read pos xs.length = xs := by
  rw [read_eq_iff]
  intro k hk
  exact write_add m pos xs hk

theorem read_write_of_length (m : Memory α) (pos : ℕ) {xs : List α} {n : ℕ} (h : xs.length = n) :
    (m.write pos xs).read pos n = xs := by
  rw [← h, read_write_self]

/-- A slice splits at any point. -/
theorem read_add (m : Memory α) (pos a b : ℕ) :
    m.read pos (a + b) = m.read pos a ++ m.read (pos + a) b := by
  simp only [read, List.range_add, List.map_append, List.map_map]
  congr 1
  apply List.map_congr_left
  intro i _
  simp [Nat.add_assoc]

theorem take_read (m : Memory α) (pos : ℕ) {k n : ℕ} (h : k ≤ n) :
    (m.read pos n).take k = m.read pos k := by
  obtain ⟨d, rfl⟩ : ∃ d, n = k + d := ⟨n - k, by omega⟩
  rw [read_add, List.take_left' (length_read m pos k)]

theorem take_read_min (m : Memory α) (pos k n : ℕ) :
    (m.read pos n).take k = m.read pos (min k n) := by
  rcases Nat.le_total k n with h | h
  · rw [take_read m pos h, Nat.min_eq_left h]
  · rw [List.take_of_length_le (by simpa using h), Nat.min_eq_right h]

theorem drop_read (m : Memory α) (pos : ℕ) {k n : ℕ} (h : k ≤ n) :
    (m.read pos n).drop k = m.read (pos + k) (n - k) := by
  obtain ⟨d, rfl⟩ : ∃ d, n = k + d := ⟨n - k, by omega⟩
  rw [read_add, List.drop_left' (length_read m pos k), Nat.add_sub_cancel_left]

/-- Adjacent stores make one store. -/
theorem write_write_append (m : Memory α) (pos : ℕ) (xs ys : List α) :
    (m.write pos xs).write (pos + xs.length) ys = m.write pos (xs ++ ys) := by
  funext i
  by_cases hlo : i < pos
  · rw [write_of_lt _ _ (by omega), write_of_lt _ _ hlo, write_of_lt _ _ hlo]
  · obtain ⟨k, rfl⟩ : ∃ k, i = pos + k := ⟨i - pos, by omega⟩
    by_cases hx : k < xs.length
    · rw [write_of_lt _ _ (by omega), write_add _ _ _ hx,
        write_add _ _ _ (by rw [List.length_append]; omega), List.getElem_append_left hx]
    · by_cases hy : k - xs.length < ys.length
      · obtain ⟨j, rfl⟩ : ∃ j, k = xs.length + j := ⟨k - xs.length, by omega⟩
        rw [← Nat.add_assoc, write_add _ _ _ (by omega), Nat.add_assoc,
          write_add _ _ _ (by rw [List.length_append]; omega)]
        simp
      · rw [write_of_ge _ _ (by omega), write_of_ge _ _ (by omega),
          write_of_ge _ _ (by rw [List.length_append]; omega)]

theorem write_cons (m : Memory α) (pos : ℕ) (x : α) (xs : List α) :
    m.write pos (x :: xs) = Memory.write (Function.update m pos x) (pos + 1) xs := by
  have hone : m.write pos [x] = Function.update m pos x := by
    funext i
    by_cases hi : i = pos
    · subst hi
      simpa using write_add m i [x] (k := 0) (by simp)
    · rw [Function.update_of_ne hi]
      rcases Nat.lt_or_gt_of_ne hi with hlt | hgt
      · exact write_of_lt m [x] hlt
      · exact write_of_ge m [x] (by simpa using hgt)
  rw [← hone]
  exact (write_write_append m pos [x] xs).symm

/-- A slice that ends before the store is not affected by it. -/
theorem read_write_of_le (m : Memory α) {pos n p : ℕ} (xs : List α) (h : pos + n ≤ p) :
    (m.write p xs).read pos n = m.read pos n :=
  read_congr fun i hi => write_of_lt m xs (by omega)

/-- A slice that starts after the store is not affected by it. -/
theorem read_write_of_ge (m : Memory α) {pos n p : ℕ} (xs : List α) (h : p + xs.length ≤ pos) :
    (m.write p xs).read pos n = m.read pos n :=
  read_congr fun i _ => write_of_ge m xs (by omega)

/-! ## Big-endian 16-bit words -/

/-- The word whose most significant byte is `hi`. -/
def be16 (hi lo : UInt8) : UInt16 := UInt16.ofNat (hi.toNat * 256 + lo.toNat)

/-- The most significant byte of a word. -/
def hi8 (v : UInt16) : UInt8 := UInt8.ofNat (v.toNat / 256)

/-- The least significant byte of a word. -/
def lo8 (v : UInt16) : UInt8 := UInt8.ofNat (v.toNat % 256)

@[simp] theorem be16_hi8_lo8 (v : UInt16) : be16 (hi8 v) (lo8 v) = v := by
  apply UInt16.toNat_inj.1
  have hv := v.toNat_lt
  simp only [be16, hi8, lo8, UInt16.toNat_ofNat', UInt8.toNat_ofNat']
  omega

theorem be16_toNat (hi lo : UInt8) : (be16 hi lo).toNat = hi.toNat * 256 + lo.toNat := by
  have := hi.toNat_lt
  have := lo.toNat_lt
  simp only [be16, UInt16.toNat_ofNat']
  omega

@[simp] theorem hi8_be16 (hi lo : UInt8) : hi8 (be16 hi lo) = hi := by
  apply UInt8.toNat_inj.1
  have := hi.toNat_lt
  have := lo.toNat_lt
  simp only [hi8, be16_toNat, UInt8.toNat_ofNat']
  omega

@[simp] theorem lo8_be16 (hi lo : UInt8) : lo8 (be16 hi lo) = lo := by
  apply UInt8.toNat_inj.1
  have := hi.toNat_lt
  have := lo.toNat_lt
  simp only [lo8, be16_toNat, UInt8.toNat_ofNat']
  omega

/-- Load a big-endian word. -/
def getU16 (m : Memory UInt8) (pos : ℕ) : UInt16 := be16 (m pos) (m (pos + 1))

/-- Store a big-endian word. -/
def setU16 (m : Memory UInt8) (pos : ℕ) (v : UInt16) : Memory UInt8 :=
  Function.update (Function.update m pos (hi8 v)) (pos + 1) (lo8 v)

theorem setU16_apply (m : Memory UInt8) (pos : ℕ) (v : UInt16) (i : ℕ) :
    m.setU16 pos v i = if i = pos + 1 then lo8 v else if i = pos then hi8 v else m i := by
  simp [setU16, Function.update_apply]

theorem getU16_congr {m m' : Memory UInt8} {pos : ℕ} (h0 : m pos = m' pos)
    (h1 : m (pos + 1) = m' (pos + 1)) : m.getU16 pos = m'.getU16 pos := by
  rw [getU16, getU16, h0, h1]

@[simp] theorem getU16_setU16_self (m : Memory UInt8) (pos : ℕ) (v : UInt16) :
    (m.setU16 pos v).getU16 pos = v := by
  simp [getU16, setU16_apply]

theorem getU16_setU16_of_ne (m : Memory UInt8) {pos p : ℕ} (v : UInt16)
    (h : p + 2 ≤ pos ∨ pos + 2 ≤ p) : (m.setU16 p v).getU16 pos = m.getU16 pos := by
  apply getU16_congr <;> rw [setU16_apply, if_neg (by omega), if_neg (by omega)]

/-! ## Memories that agree on a prefix -/

/-- The first `n` cells are the same. -/
def Agree {α : Type*} (n : ℕ) (m m' : Memory α) : Prop := ∀ i, i < n → m i = m' i

namespace Agree

theorem symm {n : ℕ} {m m' : Memory α} (h : Agree n m m') : Agree n m' m :=
  fun i hi => (h i hi).symm

theorem mono {k n : ℕ} {m m' : Memory α} (h : Agree n m m') (hk : k ≤ n) : Agree k m m' :=
  fun i hi => h i (by omega)

/-- Copying the next cells over extends the prefix. -/
theorem write {n k : ℕ} {m m' : Memory α} (h : Agree n m m') :
    Agree (n + k) (m.write n (m'.read n k)) m' := by
  intro i hi
  by_cases hin : i < n
  · rw [write_of_lt _ _ hin, h i hin]
  · obtain ⟨j, rfl⟩ : ∃ j, i = n + j := ⟨i - n, by omega⟩
    rw [write_add _ _ _ (by rw [length_read]; omega), getElem_read]

theorem read {n p k : ℕ} {m m' : Memory α} (h : Agree n m m') (hk : p + k ≤ n) :
    m.read p k = m'.read p k :=
  read_congr fun i hi => h (p + i) (by omega)

theorem getU16 {n p : ℕ} {m m' : Memory UInt8} (h : Agree n m m') (hp : p + 2 ≤ n) :
    m.getU16 p = m'.getU16 p :=
  getU16_congr (h p (by omega)) (h (p + 1) (by omega))

end Agree

/-! ## Bits packed least significant first -/

/-- Bit `j` of a byte. -/
def bit (x : UInt8) (j : ℕ) : Bool := x.toNat.testBit j

@[simp] theorem bit_zero (j : ℕ) : bit 0 j = false := by simp [bit]

/-- `a[n / 8] >> (n % 8) & 1` with `a` at offset `base`. -/
def testBit (m : Memory UInt8) (base n : ℕ) : Bool := bit (m (base + n / 8)) (n % 8)

/-- `a[n / 8] |= 1 << (n % 8)` with `a` at offset `base`. -/
def setBit (m : Memory UInt8) (base n : ℕ) : Memory UInt8 :=
  Function.update m (base + n / 8) (m (base + n / 8) ||| 1 <<< UInt8.ofNat (n % 8))

/-- `a[n / 8] &= ~(1 << (n % 8))` with `a` at offset `base`. -/
def resetBit (m : Memory UInt8) (base n : ℕ) : Memory UInt8 :=
  Function.update m (base + n / 8) (m (base + n / 8) &&& ~~~(1 <<< UInt8.ofNat (n % 8)))

theorem bit_shift_one {k j : ℕ} (hk : k < 8) (hj : j < 8) :
    bit (1 <<< UInt8.ofNat k) j = decide (j = k) := by
  interval_cases k <;> interval_cases j <;> decide

theorem bit_or (x y : UInt8) (j : ℕ) : bit (x ||| y) j = (bit x j || bit y j) := by
  simp [bit, Nat.testBit_or]

theorem bit_and_not (x y : UInt8) {j : ℕ} (hj : j < 8) :
    bit (x &&& ~~~y) j = (bit x j && !bit y j) := by
  have hnot : bit (~~~y) j = !bit y j := by
    simp only [bit, UInt8.toNat_not]
    have h := y.toNat_lt
    have : UInt8.size - 1 - y.toNat = 2 ^ 8 - (y.toNat + 1) := by simp [UInt8.size]
    rw [this, Nat.testBit_two_pow_sub_succ h]
    simp [hj]
  rw [← hnot]
  simp [bit, Nat.testBit_and]

/-- Set or clear bit `n` of the array at `base`. -/
def putBit (m : Memory UInt8) (base n : ℕ) (b : Bool) : Memory UInt8 :=
  if b then m.setBit base n else m.resetBit base n

/-- `putBit` changes exactly one bit. -/
theorem bit_putBit (m : Memory UInt8) (base n : ℕ) (b : Bool) (i : ℕ) {j : ℕ} (hj : j < 8) :
    bit (m.putBit base n b i) j
      = if i = base + n / 8 ∧ j = n % 8 then b else bit (m i) j := by
  have hk : n % 8 < 8 := Nat.mod_lt _ (by omega)
  cases b with
  | true =>
      simp only [putBit, if_true, setBit, Function.update_apply]
      by_cases hi : i = base + n / 8
      · subst hi
        rw [if_pos rfl, bit_or, bit_shift_one hk hj]
        by_cases hjn : j = n % 8 <;> simp [hjn]
      · simp [hi]
  | false =>
      simp only [putBit, Bool.false_eq_true, if_false, resetBit, Function.update_apply]
      by_cases hi : i = base + n / 8
      · subst hi
        rw [if_pos rfl, bit_and_not _ _ hj, bit_shift_one hk hj]
        by_cases hjn : j = n % 8 <;> simp [hjn]
      · simp [hi]

theorem putBit_of_ne (m : Memory UInt8) {base n i : ℕ} (b : Bool) (h : i ≠ base + n / 8) :
    m.putBit base n b i = m i := by
  cases b <;> simp [putBit, setBit, resetBit, h]

/-- The byte with the given bits. -/
def byteOfBits (f : ℕ → Bool) : UInt8 :=
  (List.range 8).foldl (fun acc j => acc ||| if f j then 1 <<< UInt8.ofNat j else 0) 0

theorem bit_foldl_or (f : ℕ → Bool) {j : ℕ} (hj : j < 8) (ks : List ℕ) (hks : ∀ k ∈ ks, k < 8)
    (acc : UInt8) :
    bit (ks.foldl (fun acc j => acc ||| if f j then 1 <<< UInt8.ofNat j else 0) acc) j
      = (bit acc j || (decide (j ∈ ks) && f j)) := by
  induction ks generalizing acc with
  | nil => simp
  | cons k ks ih =>
      have hk : k < 8 := hks k (List.mem_cons_self ..)
      rw [List.foldl_cons, ih (fun k' h => hks k' (List.mem_cons_of_mem _ h)), bit_or]
      have hbit : bit (if f k then 1 <<< UInt8.ofNat k else 0) j = (decide (j = k) && f k) := by
        cases hf : f k with
        | true => simpa using bit_shift_one hk hj
        | false => simp
      rw [hbit]
      by_cases hjk : j = k
      · subst hjk; cases hfj : f j <;> simp
      · simp [hjk]

@[simp] theorem bit_byteOfBits (f : ℕ → Bool) {j : ℕ} (hj : j < 8) :
    bit (byteOfBits f) j = f j := by
  rw [byteOfBits, bit_foldl_or f hj _ (fun k hk => List.mem_range.1 hk)]
  simp [hj]

end Memory
