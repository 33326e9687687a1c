import CycloneTcp.Core.Socket
import CycloneTcp.Lib.Ring

set_option autoImplicit false

/-! # The circular buffers of a connection

The byte with sequence number `q` goes to slot `(q - irs - 1) % rxBufferSize` of the receive buffer,
and likewise with `iss` in the transmit buffer. The distance is computed in 32 bits *before* it is
reduced, so the slots of a stream are those of a ring (`Lib/Ring`) up to the position where the
distance wraps; they stay so beyond it exactly when the buffer size divides `2 ^ 32`. The buffers are
one area here; `Core/TcpCircular` connects this to their chunks. -/

namespace Tcp

open FlatBuffer

/-! ## Reading and writing -/

/-- Copy incoming data to the receive buffer. -/
def tcpWriteRxBuffer (socket : ReceiveSide) (seqNum : UInt32) (data : FlatBuffer)
    (dataOffset length : ℕ) : ReceiveSide :=
  let offset := (seqNum - socket.irs - 1).toNat % socket.rxBufferSize
  if offset + length ≤ socket.rxBufferSize then
    { socket with rxBuffer := (netBufferCopy socket.rxBuffer offset data dataOffset length).2 }
  else
    let part := socket.rxBufferSize - offset
    let rxBuffer := (netBufferCopy socket.rxBuffer offset data dataOffset part).2
    { socket with
      rxBuffer := (netBufferCopy rxBuffer 0 data (dataOffset + part) (length - part)).2 }

/-- Copy data from the receive buffer to the array at `data + pos`. -/
def tcpReadRxBuffer (socket : ReceiveSide) (seqNum : UInt32) (data : Memory UInt8)
    (pos length : ℕ) : Memory UInt8 :=
  let offset := (seqNum - socket.irs - 1).toNat % socket.rxBufferSize
  if offset + length ≤ socket.rxBufferSize then
    (netBufferRead data pos socket.rxBuffer offset length).2
  else
    let part := socket.rxBufferSize - offset
    let data := (netBufferRead data pos socket.rxBuffer offset part).2
    (netBufferRead data (pos + part) socket.rxBuffer 0 (length - part)).2

/-- Copy the first `length` bytes at `data` to the send buffer. -/
def tcpWriteTxBuffer (socket : SendSide) (seqNum : UInt32) (data : List UInt8) (length : ℕ) :
    SendSide :=
  let offset := (seqNum - socket.iss - 1).toNat % socket.txBufferSize
  if offset + length ≤ socket.txBufferSize then
    { socket with txBuffer := (netBufferWrite socket.txBuffer offset data length).2 }
  else
    let part := socket.txBufferSize - offset
    let txBuffer := (netBufferWrite socket.txBuffer offset data part).2
    { socket with txBuffer := (netBufferWrite txBuffer 0 (data.drop part) (length - part)).2 }

/-- Append data from the send buffer to `buffer`. -/
def tcpReadTxBuffer (socket : SendSide) (seqNum : UInt32) (buffer : FlatBuffer) (length : ℕ) :
    ErrorCode × FlatBuffer :=
  let offset := (seqNum - socket.iss - 1).toNat % socket.txBufferSize
  if offset + length ≤ socket.txBufferSize then
    netBufferConcat buffer socket.txBuffer offset length
  else
    let part := socket.txBufferSize - offset
    let (error, buffer) := netBufferConcat buffer socket.txBuffer offset part
    if error = .noError then netBufferConcat buffer socket.txBuffer 0 (length - part)
    else (error, buffer)

/-! ## The four functions as ring accesses -/

variable {q : UInt32} {length : ℕ}

theorem tcpWriteRxBuffer_eq {socket : ReceiveSide} {data : FlatBuffer} {dataOffset : ℕ}
    (hsize : 0 < socket.rxBufferSize) (hbuf : socket.rxBuffer.length = socket.rxBufferSize)
    (hlen : length ≤ socket.rxBufferSize) (hdata : dataOffset + length ≤ data.length) :
    tcpWriteRxBuffer socket q data dataOffset length
      = socket.setCells (Ring.put socket.rxBufferSize (q - socket.irs - 1).toNat
          socket.rxBuffer.cells (data.cells.read dataOffset length)) := by
  have hmod := Nat.mod_lt (q - socket.irs - 1).toNat hsize
  simp only [tcpWriteRxBuffer]
  split
  case isTrue h =>
    rw [netBufferCopy_of_le _ (by omega) hdata, Ring.write_eq_put _ _ _ (by simpa using h)]
    rfl
  case isFalse h =>
    obtain ⟨rest, hrest⟩ := Nat.exists_eq_add_of_le
      (show socket.rxBufferSize - (q - socket.irs - 1).toNat % socket.rxBufferSize ≤ length by omega)
    rw [netBufferCopy_of_le socket.rxBuffer (by omega) (by omega)]
    rw [netBufferCopy_of_le _ (by simp only [hbuf]; omega) (by omega),
      Ring.write_write_eq_put _ _ _ _ hsize (by simp) (by simp; omega), ← Memory.read_add]
    rw [hrest, Nat.add_sub_cancel_left]
    rfl

theorem tcpReadRxBuffer_eq {socket : ReceiveSide} (data : Memory UInt8) (pos : ℕ)
    (hsize : 0 < socket.rxBufferSize) (hbuf : socket.rxBuffer.length = socket.rxBufferSize)
    (hlen : length ≤ socket.rxBufferSize) :
    tcpReadRxBuffer socket q data pos length
      = data.write pos (Ring.get socket.rxBufferSize (q - socket.irs - 1).toNat length
          socket.rxBuffer.cells) := by
  have hmod := Nat.mod_lt (q - socket.irs - 1).toNat hsize
  simp only [tcpReadRxBuffer]
  split
  case isTrue h =>
    rw [netBufferRead_of_le _ _ (by omega), Ring.read_eq_get _ _ h]
  case isFalse h =>
    obtain ⟨rest, hrest⟩ := Nat.exists_eq_add_of_le
      (show socket.rxBufferSize - (q - socket.irs - 1).toNat % socket.rxBufferSize ≤ length by omega)
    rw [netBufferRead_of_le _ _ (by omega), netBufferRead_of_le _ _ (by omega)]
    conv_lhs => rw [hrest, Nat.add_sub_cancel_left]
    conv_rhs => rw [hrest, ← Ring.read_read_eq_get _ hsize (by omega), ← Memory.write_write_append,
      Memory.length_read]

theorem tcpWriteTxBuffer_eq {socket : SendSide} {data : List UInt8}
    (hsize : 0 < socket.txBufferSize) (hbuf : socket.txBuffer.length = socket.txBufferSize)
    (hlen : length ≤ socket.txBufferSize) (hdata : length ≤ data.length) :
    tcpWriteTxBuffer socket q data length
      = socket.setCells (Ring.put socket.txBufferSize (q - socket.iss - 1).toNat
          socket.txBuffer.cells (data.take length)) := by
  have hmod := Nat.mod_lt (q - socket.iss - 1).toNat hsize
  simp only [tcpWriteTxBuffer]
  split
  case isTrue h =>
    rw [netBufferWrite_of_le _ _ (by omega), Ring.write_eq_put _ _ _ (by simp; omega)]
    rfl
  case isFalse h =>
    obtain ⟨rest, hrest⟩ := Nat.exists_eq_add_of_le
      (show socket.txBufferSize - (q - socket.iss - 1).toNat % socket.txBufferSize ≤ length by omega)
    rw [netBufferWrite_of_le socket.txBuffer _ (by omega)]
    rw [netBufferWrite_of_le _ _ (by simp only [hbuf]; omega),
      Ring.write_write_eq_put _ _ _ _ hsize (by simp; omega) (by simp; omega), hrest,
      Nat.add_sub_cancel_left, List.take_add]
    rfl

theorem tcpReadTxBuffer_eq {socket : SendSide} (buffer : FlatBuffer)
    (hsize : 0 < socket.txBufferSize) (hbuf : socket.txBuffer.length = socket.txBufferSize)
    (hlen : length ≤ socket.txBufferSize) :
    tcpReadTxBuffer socket q buffer length
      = (.noError, { cells := buffer.cells.write buffer.length
                       (Ring.get socket.txBufferSize (q - socket.iss - 1).toNat length
                         socket.txBuffer.cells),
                     length := buffer.length + length }) := by
  have hmod := Nat.mod_lt (q - socket.iss - 1).toNat hsize
  simp only [tcpReadTxBuffer]
  split
  case isTrue h =>
    rw [netBufferConcat_of_le (by omega) (by omega), Ring.read_eq_get _ _ h]
  case isFalse h =>
    obtain ⟨rest, hrest⟩ := Nat.exists_eq_add_of_le
      (show socket.txBufferSize - (q - socket.iss - 1).toNat % socket.txBufferSize ≤ length by omega)
    rw [netBufferConcat_of_le (by omega) (by omega)]
    simp only [if_true]
    rw [netBufferConcat_of_le (by omega) (by omega)]
    simp only [hrest, Nat.add_sub_cancel_left, Prod.mk.injEq, true_and]
    rw [← Ring.read_read_eq_get _ hsize (by omega), ← Memory.write_write_append,
      Memory.length_read, Nat.add_assoc]

/-! ## Positions of the stream -/

/-- The 32-bit distances from position `o` on reach the slots of the ring. -/
def Aligned (size o len : ℕ) : Prop := ∀ j, j < len → (o + j) % 2 ^ 32 % size = (o + j) % size

theorem Aligned.drop {size o len k : ℕ} (h : Aligned size o (k + len)) :
    Aligned size (o + k) len := by
  intro j hj
  have := h (k + j) (by omega)
  rwa [← Nat.add_assoc] at this

theorem Aligned.mono {size o k len : ℕ} (h : Aligned size o len) (hk : k ≤ len) :
    Aligned size o k := fun j hj => h j (by omega)

theorem aligned_iff {size o len : ℕ} (ho : o < 2 ^ 32) :
    Aligned size o len ↔ size ∣ 2 ^ 32 ∨ o + len ≤ 2 ^ 32 := by
  constructor
  · intro h
    by_contra hcon
    rw [not_or, not_le] at hcon
    obtain ⟨hdvd, hlt⟩ := hcon
    have hwrap := h (2 ^ 32 - o) (by omega)
    rw [Nat.add_sub_of_le ho.le, Nat.mod_self, Nat.zero_mod] at hwrap
    exact hdvd (Nat.dvd_of_mod_eq_zero hwrap.symm)
  · rintro (hdvd | hle) j hj
    · exact Nat.mod_mod_of_dvd _ hdvd
    · rw [Nat.mod_eq_of_lt (show o + j < 2 ^ 32 by omega)]

/-! `Serial.seq (irs + 1) o` is the sequence number of the byte at position `o`. -/

theorem dist_seq (base : UInt32) (o : ℕ) :
    (Serial.seq (base + 1) o - base - 1).toNat = o % 2 ^ 32 := by
  have h1 := base.toNat_lt
  rw [UInt32.toNat_sub, UInt32.toNat_sub, Serial.seq_toNat, UInt32.toNat_add, UInt32.toNat_one]
  omega

theorem seq_dist (base q : UInt32) : Serial.seq (base + 1) (q - base - 1).toNat = q := by
  apply UInt32.toNat_inj.1
  have h1 := base.toNat_lt
  have h2 := q.toNat_lt
  rw [Serial.seq_toNat, UInt32.toNat_add, UInt32.toNat_sub, UInt32.toNat_sub, UInt32.toNat_one]
  omega

theorem Aligned.put {size o : ℕ} (xs : List UInt8) (h : Aligned size o xs.length)
    (m : Memory UInt8) : Ring.put size (o % 2 ^ 32) m xs = Ring.put size o m xs := by
  cases xs with
  | nil => rfl
  | cons x xs => exact Ring.put_congr (h 0 (by simp)) m _

theorem Aligned.get {size o len : ℕ} (h : Aligned size o len) (m : Memory UInt8) :
    Ring.get size (o % 2 ^ 32) len m = Ring.get size o len m := by
  cases len with
  | zero => rfl
  | succ len => exact Ring.get_congr (h 0 (by omega)) _ m

end Tcp
