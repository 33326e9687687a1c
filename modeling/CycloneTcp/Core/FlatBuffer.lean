import CycloneTcp.Common.Error
import CycloneTcp.Lib.Memory

set_option autoImplicit false

/-! # Flat buffers

A multi-part buffer is read and written as one area. Code that only uses the buffer functions can be
modelled over that area: `FlatBuffer` is the area and its length, and the functions here are what
those of the same names do to it (`Core/NetMemArea`). A buffer whose chunks were released has length
0: reads from it and writes to it move nothing. -/

/-- The contents of a multi-part buffer. -/
structure FlatBuffer where
  cells : Memory UInt8
  length : ℕ

namespace FlatBuffer

/-- The buffer without chunks. -/
def empty : FlatBuffer := { cells := fun _ => 0, length := 0 }

/-- The data of a buffer. -/
def data (buffer : FlatBuffer) : List UInt8 := buffer.cells.read 0 buffer.length

/-- Release the chunks: `netBufferSetLength(buffer, 0)`. -/
def netBufferRelease (buffer : FlatBuffer) : FlatBuffer := { buffer with length := 0 }

/-- Append `length` bytes of `src` to `dest`. A read offset outside `src` is an error, and so is a
source that ends too early; the bytes it has are appended nevertheless. An area has no descriptors
that could run out. -/
def netBufferConcat (dest src : FlatBuffer) (srcOffset length : ℕ) : ErrorCode × FlatBuffer :=
  if src.length ≤ srcOffset then (.invalidParameter, dest)
  else
    let n := min length (src.length - srcOffset)
    let dest := { cells := dest.cells.write dest.length (src.cells.read srcOffset n),
                  length := dest.length + n : FlatBuffer }
    (if n < length then .failure else .noError, dest)

/-- Copy `length` bytes of `src` over those of `dest`. An offset outside its buffer is an error and
nothing is copied; the copy ends with the shorter of the two buffers. -/
def netBufferCopy (dest : FlatBuffer) (destOffset : ℕ) (src : FlatBuffer) (srcOffset length : ℕ) :
    ErrorCode × FlatBuffer :=
  if dest.length ≤ destOffset then (.invalidParameter, dest)
  else if src.length ≤ srcOffset then (.invalidParameter, dest)
  else
    let n := min length (min (dest.length - destOffset) (src.length - srcOffset))
    let dest := { dest with cells := dest.cells.write destOffset (src.cells.read srcOffset n) }
    (if n < length then .failure else .noError, dest)

/-- Write the first `length` bytes at `src` into `dest`, as far as it reaches; returns the number
of bytes written. -/
def netBufferWrite (dest : FlatBuffer) (destOffset : ℕ) (src : List UInt8) (length : ℕ) :
    ℕ × FlatBuffer :=
  let n := min length (dest.length - destOffset)
  (n, { dest with cells := dest.cells.write destOffset (src.take n) })

/-- Read `length` bytes of `src`, as far as it reaches, into the array at `dest + destOffset`;
returns the number of bytes read. -/
def netBufferRead (dest : Memory UInt8) (destOffset : ℕ) (src : FlatBuffer) (srcOffset length : ℕ) :
    ℕ × Memory UInt8 :=
  let n := min length (src.length - srcOffset)
  (n, dest.write destOffset (src.cells.read srcOffset n))

/-! ## Accesses inside the buffers -/

theorem netBufferConcat_of_le {dest src : FlatBuffer} {srcOffset length : ℕ}
    (hoff : srcOffset < src.length) (h : srcOffset + length ≤ src.length) :
    netBufferConcat dest src srcOffset length
      = (.noError, { cells := dest.cells.write dest.length (src.cells.read srcOffset length),
                     length := dest.length + length }) := by
  have hn : min length (src.length - srcOffset) = length := Nat.min_eq_left (by omega)
  rw [netBufferConcat, if_neg (by omega)]
  simp only [hn, lt_irrefl, if_false]

theorem netBufferCopy_of_le (dest : FlatBuffer) {src : FlatBuffer} {destOffset srcOffset length : ℕ}
    (hdest : destOffset + length ≤ dest.length) (hsrc : srcOffset + length ≤ src.length) :
    (netBufferCopy dest destOffset src srcOffset length).2
      = { dest with cells := dest.cells.write destOffset (src.cells.read srcOffset length) } := by
  rcases Nat.eq_zero_or_pos length with rfl | hpos
  · have hread : src.cells.read srcOffset 0 = [] := rfl
    rw [netBufferCopy, hread, Memory.write_nil]
    split
    · rfl
    · split
      · rfl
      · simp [Memory.write_nil]
  · have hn : min length (min (dest.length - destOffset) (src.length - srcOffset)) = length :=
      Nat.min_eq_left (Nat.le_min.2 ⟨by omega, by omega⟩)
    rw [netBufferCopy, if_neg (by omega), if_neg (by omega)]
    simp only [hn]

theorem netBufferWrite_of_le (dest : FlatBuffer) {destOffset length : ℕ} (src : List UInt8)
    (h : destOffset + length ≤ dest.length) :
    (netBufferWrite dest destOffset src length).2
      = { dest with cells := dest.cells.write destOffset (src.take length) } := by
  have hn : min length (dest.length - destOffset) = length := Nat.min_eq_left (by omega)
  simp only [netBufferWrite, hn]

theorem netBufferRead_of_le {src : FlatBuffer} {srcOffset length : ℕ} (dest : Memory UInt8)
    (destOffset : ℕ) (h : srcOffset + length ≤ src.length) :
    (netBufferRead dest destOffset src srcOffset length).2
      = dest.write destOffset (src.cells.read srcOffset length) := by
  have hn : min length (src.length - srcOffset) = length := Nat.min_eq_left (by omega)
  simp only [netBufferRead, hn]

end FlatBuffer
