import CycloneTcp.Lib.Memory

set_option autoImplicit false

/-! # Reading a message in memory

A program that parses a message of `n` bytes gets a pointer to its first byte, and the memory goes
on behind the last one. `Reads` are programs that read this memory byte by byte, and that fail at a
byte that cannot be seen; a loop fails when its fuel runs out. `Inside` says that a program reads no
byte but those of the message: whatever else can be seen, and whatever it is, the program returns
the same value. The rules are those of a program logic, one for each way to build a program. -/

/-- The bytes that can be seen. -/
abbrev View := ℕ → Option UInt8

/-- A program that reads bytes. -/
abbrev Reads (A : Type) := ReaderT View Option A

namespace Reads

variable {A B : Type}

/-! ## Programs -/

/-- Read a byte. -/
def byte (i : ℕ) : Reads UInt8 := fun view => view i

/-- There is no fuel left. -/
def stuck : Reads A := fun _ => none

/-- Read the number of `k` bytes at `i`, most significant byte first. -/
def number (i : ℕ) : ℕ → Reads ℕ
  | 0 => pure 0
  | k + 1 => do
      let high ← number i k
      let low ← byte (i + k)
      pure (high * 256 + low.toNat)

/-- The value of such a number. -/
def numberAt (m : Memory UInt8) (i : ℕ) : ℕ → ℕ
  | 0 => 0
  | k + 1 => numberAt m i k * 256 + (m (i + k)).toNat

/-- All bytes of a memory can be seen. -/
def wholly (m : Memory UInt8) : View := fun i => some (m i)

/-- The first `n` bytes of a memory can be seen. -/
def message (m : Memory UInt8) (n : ℕ) : View := fun i => if i < n then some (m i) else none

/-! ## The logic -/

/-- The first `n` bytes that are seen are those of `m`. -/
def Sees (m : Memory UInt8) (n : ℕ) (view : View) : Prop := ∀ i < n, view i = some (m i)

/-- The program reads the first `n` bytes of `m` only, and returns a value with the property `Q`. -/
def Inside (m : Memory UInt8) (n : ℕ) (f : Reads A) (Q : A → Prop) : Prop :=
  ∃ a, (∀ view, Sees m n view → f view = some a) ∧ Q a

variable {m : Memory UInt8} {n : ℕ} {f : Reads A} {g : A → Reads B} {Q R : A → Prop} {S : B → Prop}

theorem sees_message (m : Memory UInt8) (n : ℕ) : Sees m n (message m n) := fun _ hi => if_pos hi

theorem sees_wholly {mem : Memory UInt8} (h : ∀ i < n, mem i = m i) : Sees m n (wholly mem) :=
  fun i hi => congrArg some (h i hi)

theorem bind_apply (f : Reads A) (g : A → Reads B) (view : View) :
    (f >>= g) view = (f view).bind fun a => g a view := rfl

theorem inside_pure {a : A} (h : Q a) : Inside m n (pure a) Q := ⟨a, fun _ _ => rfl, h⟩

theorem inside_byte {i : ℕ} (h : i < n) : Inside m n (byte i) (· = m i) :=
  ⟨m i, fun _ hview => hview i h, rfl⟩

theorem Inside.bind (h : Inside m n f R) (hg : ∀ a, R a → Inside m n (g a) S) :
    Inside m n (f >>= g) S := by
  obtain ⟨a, hf, ha⟩ := h
  obtain ⟨c, hc, hS⟩ := hg a ha
  refine ⟨c, fun view hview => ?_, hS⟩
  rw [bind_apply, hf view hview]
  exact hc view hview

theorem inside_number {i k : ℕ} (h : i + k ≤ n) : Inside m n (number i k) (· = numberAt m i k) := by
  induction k with
  | zero => exact inside_pure rfl
  | succ k ih =>
      refine (ih (by omega)).bind fun high hhigh => ?_
      refine (inside_byte (by omega)).bind fun low hlow => ?_
      rw [hhigh, hlow]
      exact inside_pure rfl

/-- A program goes on with the value that has been read. -/
theorem Inside.bind_apply {a : A} (h : Inside m n f (· = a)) (g : A → Reads B) {view : View}
    (hview : Sees m n view) : (f >>= g) view = g a view := by
  obtain ⟨a', hf, rfl⟩ := h
  rw [Reads.bind_apply, hf view hview]
  rfl

end Reads
