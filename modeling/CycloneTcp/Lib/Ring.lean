import CycloneTcp.Lib.Memory

set_option autoImplicit false

/-! # Circular buffers

A stream is stored in a memory of `size` cells by sending position `p` to cell `p % size`.
`Ring.put` stores a run of consecutive positions and `Ring.get` loads one. As long as the positions
stored at one time span at most `size`, no two of them share a cell; `Ring.Holds` says that a span
of positions is stored and gives the rules for storing next to it. -/

namespace Ring

variable {α : Type*}

/-- Positions less than `size` apart have different cells. -/
theorem eq_of_mod_eq {size a b : ℕ} (h : a % size = b % size) (hab : a ≤ b) (hb : b < a + size) :
    a = b := by
  have hd : (b - a) % size = 0 := by
    obtain ⟨d, rfl⟩ := Nat.exists_eq_add_of_le hab
    rw [Nat.add_sub_cancel_left]
    have hmod : a + d ≡ a + 0 [MOD size] := h.symm
    exact Nat.ModEq.add_left_cancel' a hmod
  have hlt : b - a < size := by omega
  rw [Nat.mod_eq_of_lt hlt] at hd
  omega

theorem mod_ne {size a b : ℕ} (hne : a ≠ b) (hab : a < b + size) (hba : b < a + size) :
    a % size ≠ b % size := by
  intro h
  rcases Nat.le_total a b with hle | hle
  · exact hne (eq_of_mod_eq h hle hba)
  · exact hne (eq_of_mod_eq h.symm hle hab).symm

/-- The cell after a cell that is not the last one. -/
theorem mod_succ {size pos : ℕ} (h : pos % size + 1 < size) :
    (pos + 1) % size = pos % size + 1 := by
  rw [Nat.add_mod, Nat.mod_eq_of_lt (show 1 < size by omega), Nat.mod_eq_of_lt h]

/-! ## Storing and loading runs -/

/-- Store `xs` at positions `pos`, `pos + 1`, … -/
def put (size pos : ℕ) (m : Memory α) : List α → Memory α
  | [] => m
  | x :: xs => put size (pos + 1) (Function.update m (pos % size) x) xs

/-- Load the `n` positions `pos`, `pos + 1`, … -/
def get (size pos n : ℕ) (m : Memory α) : List α :=
  (List.range n).map (fun i => m ((pos + i) % size))

@[simp] theorem length_get (size pos n : ℕ) (m : Memory α) : (get size pos n m).length = n := by
  simp [get]

@[simp] theorem getElem_get (size pos n i : ℕ) (m : Memory α) (h : i < (get size pos n m).length) :
    (get size pos n m)[i] = m ((pos + i) % size) := by
  simp [get]

theorem put_append (size : ℕ) (xs ys : List α) (pos : ℕ) (m : Memory α) :
    put size pos m (xs ++ ys) = put size (pos + xs.length) (put size pos m xs) ys := by
  induction xs generalizing pos m with
  | nil => rfl
  | cons x xs ih =>
      simp only [List.cons_append, put, List.length_cons]
      rw [ih, show pos + 1 + xs.length = pos + (xs.length + 1) by omega]

theorem get_add (size pos a b : ℕ) (m : Memory α) :
    get size pos (a + b) m = get size pos a m ++ get size (pos + a) b m := by
  simp only [get, List.range_add, List.map_append, List.map_map]
  congr 1
  apply List.map_congr_left
  intro i _
  simp [Nat.add_assoc]

/-- Only the cell of the first position matters. -/
theorem put_congr {size p q : ℕ} (h : p % size = q % size) (m : Memory α) (xs : List α) :
    put size p m xs = put size q m xs := by
  induction xs generalizing p q m with
  | nil => rfl
  | cons x xs ih =>
      simp only [put, h]
      exact ih (Nat.ModEq.add_right 1 h) _

theorem get_congr {size p q : ℕ} (h : p % size = q % size) (n : ℕ) (m : Memory α) :
    get size p n m = get size q n m := by
  apply List.map_congr_left
  intro i _
  have hi : (p + i) % size = (q + i) % size := Nat.ModEq.add_right i h
  simp only [hi]

/-- A cell that none of the positions has keeps its value. -/
theorem put_of_ne {size : ℕ} (xs : List α) (pos : ℕ) (m : Memory α) {c : ℕ}
    (h : ∀ i, i < xs.length → (pos + i) % size ≠ c) : put size pos m xs c = m c := by
  induction xs generalizing pos m with
  | nil => rfl
  | cons x xs ih =>
      have h0 : pos % size ≠ c := h 0 (by simp)
      rw [put, ih]
      · exact Function.update_of_ne (Ne.symm h0) _ _
      · intro i hi
        have := h (i + 1) (by simpa using hi)
        rwa [show pos + 1 + i = pos + (i + 1) by omega]

/-- The run of at most `size` positions is stored. -/
theorem put_apply {size : ℕ} (xs : List α) (pos : ℕ) (m : Memory α) (hlen : xs.length ≤ size)
    {i : ℕ} (hi : i < xs.length) : put size pos m xs ((pos + i) % size) = xs[i] := by
  induction xs generalizing pos m i with
  | nil => simp at hi
  | cons x xs ih =>
      rw [List.length_cons] at hlen hi
      cases i with
      | zero =>
          rw [put, put_of_ne]
          · simp
          · intro j hj
            exact mod_ne (by omega) (by omega) (by omega)
      | succ i =>
          rw [put, show pos + (i + 1) = pos + 1 + i by omega, ih _ _ (by omega) (by omega)]
          simp

/-- What was stored is loaded. -/
theorem get_put {size : ℕ} (xs : List α) (pos : ℕ) (m : Memory α) (hlen : xs.length ≤ size) :
    get size pos xs.length (put size pos m xs) = xs := by
  apply List.ext_getElem
  · simp
  · intro i _ hi
    rw [getElem_get, put_apply xs pos m hlen hi]

/-! ## Runs in terms of linear stores

A run that does not pass the last cell is one linear store; one that does is two. -/

theorem write_eq_put {size : ℕ} (xs : List α) (pos : ℕ) (m : Memory α)
    (h : pos % size + xs.length ≤ size) : m.write (pos % size) xs = put size pos m xs := by
  induction xs generalizing pos m with
  | nil => simp [put]
  | cons x xs ih =>
      rw [Memory.write_cons, put]
      cases xs with
      | nil => simp [put]
      | cons y ys =>
          simp only [List.length_cons] at h
          have hsucc : (pos + 1) % size = pos % size + 1 := mod_succ (by omega)
          rw [← hsucc]
          exact ih (pos + 1) _ (by rw [hsucc, List.length_cons]; omega)

theorem read_eq_get {size n : ℕ} (pos : ℕ) (m : Memory α) (h : pos % size + n ≤ size) :
    m.read (pos % size) n = get size pos n m := by
  apply List.map_congr_left
  intro i hi
  rw [List.mem_range] at hi
  have hmod : (pos + i) % size = pos % size + i := by
    rw [Nat.add_mod, Nat.mod_eq_of_lt (show i < size by omega), Nat.mod_eq_of_lt (by omega)]
  rw [hmod]

/-- The position after the last cell is at cell 0. -/
theorem mod_boundary {size : ℕ} (pos : ℕ) (hsize : 0 < size) :
    (pos + (size - pos % size)) % size = 0 := by
  have hlt := Nat.mod_lt pos hsize
  have hdiv := Nat.mod_add_div pos size
  have heq : pos + (size - pos % size) = size * (pos / size + 1) := by
    rw [Nat.mul_add, Nat.mul_one]
    omega
  rw [heq, Nat.mul_mod_right]

/-- A run stored in two linear parts, the second one at cell 0. -/
theorem write_write_eq_put {size : ℕ} (xs ys : List α) (pos : ℕ) (m : Memory α) (hsize : 0 < size)
    (hx : xs.length = size - pos % size) (hy : ys.length ≤ size) :
    (m.write (pos % size) xs).write 0 ys = put size pos m (xs ++ ys) := by
  have hlt := Nat.mod_lt pos hsize
  have hzero : (pos + xs.length) % size = 0 := by rw [hx, mod_boundary pos hsize]
  rw [put_append, write_eq_put xs pos m (by omega), ← write_eq_put ys _ _ (by omega), hzero]

theorem read_read_eq_get {size pos n : ℕ} (m : Memory α) (hsize : 0 < size)
    (hn : n ≤ size) :
    m.read (pos % size) (size - pos % size) ++ m.read 0 n
      = get size pos (size - pos % size + n) m := by
  have hlt := Nat.mod_lt pos hsize
  have hzero := mod_boundary pos hsize
  have hread : m.read 0 n = get size (pos + (size - pos % size)) n m := by
    have hlin := read_eq_get (pos + (size - pos % size)) m
      (show (pos + (size - pos % size)) % size + n ≤ size by omega)
    rwa [hzero] at hlin
  rw [get_add, hread, read_eq_get pos m (by omega)]

/-! ## Spans of a stream -/

/-- The positions `a`, …, `b - 1` of the stream `S` are stored. -/
def Holds (size : ℕ) (m : Memory α) (S : ℕ → α) (a b : ℕ) : Prop :=
  ∀ p, a ≤ p → p < b → m (p % size) = S p

namespace Holds

variable {size : ℕ} {m : Memory α} {S : ℕ → α} {a b c d : ℕ}

theorem nil (h : b ≤ a) : Holds size m S a b := fun p hp hp' => absurd hp' (by omega)

theorem mono (h : Holds size m S a b) (ha : a ≤ c) (hb : d ≤ b) : Holds size m S c d :=
  fun p hp hp' => h p (by omega) (by omega)

theorem append (h : Holds size m S a b) (h' : Holds size m S c d) (hc : c ≤ b) :
    Holds size m S a d := by
  intro p hp hp'
  by_cases hpb : p < b
  · exact h p hp hpb
  · exact h' p (by omega) hp'

/-- A stored run of the stream is held. -/
theorem put_self (xs : List α) (hlen : xs.length ≤ size)
    (hxs : ∀ (i : ℕ) (hi : i < xs.length), xs[i] = S (a + i)) :
    Holds size (put size a m xs) S a (a + xs.length) := by
  intro p hp hp'
  obtain ⟨i, rfl⟩ := Nat.exists_eq_add_of_le hp
  have hi : i < xs.length := by omega
  rw [put_apply xs a m hlen hi, hxs i hi]

/-- A run stored within one turn of a held span, with the stream's values where they overlap,
leaves the span held. -/
theorem put (h : Holds size m S a b) (xs : List α) {lo : ℕ} (hlo : lo ≤ a) (hlo' : lo ≤ c)
    (hb : b ≤ lo + size) (hend : c + xs.length ≤ lo + size)
    (hxs : ∀ (i : ℕ) (hi : i < xs.length), xs[i] = S (c + i)) :
    Holds size (put size c m xs) S a b := by
  intro p hp hp'
  by_cases hin : c ≤ p ∧ p < c + xs.length
  · exact put_self xs (by omega) hxs p hin.1 hin.2
  · rw [put_of_ne xs c m, h p hp hp']
    intro i hi
    exact mod_ne (by omega) (by omega) (by omega)

end Holds

end Ring
