import CycloneTcp.Common.Error
import CycloneTcp.Lib.Memory

/-! # Definitions common to the Modbus/TCP client and server

Both sides keep one ADU buffer per direction, a `Memory UInt8` whose first seven cells are the MBAP
header. A PDU is addressed relative to the header's end, so the field offsets below are those of the
packed structures in the PDU. -/

set_option autoImplicit false

namespace Modbus

/-- The Modbus protocol identifier of the MBAP header. -/
abbrev protocolId : UInt16 := 0

/-- Maximum size of a Modbus PDU. -/
abbrev maxPduSize : ℕ := 253

/-- Maximum size of a Modbus/TCP ADU. -/
abbrev maxAduSize : ℕ := 260

/-- `sizeof(ModbusHeader)`: transaction id (0-1), protocol id (2-3), length (4-5), unit id (6). -/
abbrev headerSize : ℕ := 7

/-- Function code mask. -/
abbrev functionCodeMask : UInt8 := 0x7F

/-- Exception response mask. -/
abbrev exceptionMask : UInt8 := 0x80

/-! ## Function codes -/

abbrev functionReadCoils : UInt8 := 1
abbrev functionReadDiscreteInputs : UInt8 := 2
abbrev functionReadHoldingRegs : UInt8 := 3
abbrev functionReadInputRegs : UInt8 := 4
abbrev functionWriteSingleCoil : UInt8 := 5
abbrev functionWriteSingleReg : UInt8 := 6
abbrev functionWriteMultipleCoils : UInt8 := 15
abbrev functionWriteMultipleRegs : UInt8 := 16
abbrev functionMaskWriteReg : UInt8 := 22
abbrev functionReadWriteMultipleRegs : UInt8 := 23

/-! ## Exception codes -/

abbrev exceptionIllegalFunction : UInt8 := 1
abbrev exceptionIllegalDataAddress : UInt8 := 2
abbrev exceptionIllegalDataValue : UInt8 := 3
abbrev exceptionSlaveDeviceFailure : UInt8 := 4
abbrev exceptionSlaveDeviceBusy : UInt8 := 6

/-! ## Coil states -/

abbrev coilStateOff : UInt16 := 0x0000
abbrev coilStateOn : UInt16 := 0xFF00

/-- Number of bytes that hold `quantity` packed coils. -/
abbrev coilBytes (quantity : ℕ) : ℕ := (quantity + 7) / 8

/-- The PDU of an ADU buffer. -/
def pdu (adu : Memory UInt8) : Memory UInt8 := fun i => adu (headerSize + i)

@[simp] theorem pdu_apply (adu : Memory UInt8) (i : ℕ) : pdu adu i = adu (headerSize + i) := rfl

theorem pdu_getU16 (adu : Memory UInt8) (i : ℕ) :
    (pdu adu).getU16 i = adu.getU16 (headerSize + i) := rfl

theorem pdu_testBit (adu : Memory UInt8) (base n : ℕ) :
    (pdu adu).testBit base n = adu.testBit (headerSize + base) n := by
  rw [Memory.testBit, Memory.testBit, pdu_apply, Nat.add_assoc]

theorem pdu_read (adu : Memory UInt8) (pos n : ℕ) :
    (pdu adu).read pos n = adu.read (headerSize + pos) n := by
  simp [Memory.read, Nat.add_assoc]

/-- What stands in a buffer once the four fields of the MBAP header are stored in it. -/
theorem header_fields {m adu : Memory UInt8} {transactionId protocol length : UInt16}
    {unitId : UInt8}
    (h : adu = Function.update
      (((m.setU16 0 transactionId).setU16 2 protocol).setU16 4 length) 6 unitId) :
    adu.getU16 0 = transactionId ∧ adu.getU16 2 = protocol ∧ adu.getU16 4 = length ∧
      adu 6 = unitId ∧ pdu adu = pdu m := by
  subst h
  refine ⟨?_, ?_, ?_, Function.update_self .., ?_⟩
  · simp [Memory.getU16, Memory.setU16_apply]
  · simp [Memory.getU16, Memory.setU16_apply]
  · simp [Memory.getU16, Memory.setU16_apply]
  · funext i
    have hi : 6 < headerSize + i := Nat.lt_of_lt_of_le (by decide) (Nat.le_add_right _ _)
    simp only [pdu_apply]
    generalize headerSize + i = j at hi ⊢
    rw [Function.update_of_ne (by omega)]
    simp only [Memory.setU16_apply]
    rw [if_neg (by omega), if_neg (by omega), if_neg (by omega), if_neg (by omega),
      if_neg (by omega), if_neg (by omega)]

/-! ## The socket interface

Client and server use a connected socket through four operations. `ν` is whatever lies behind the
socket; the operations act on the one socket of the connection, so its handle is not passed. -/

/-- A connected stream socket and the system clock. -/
structure SocketApi (ν : Type*) where
  /-- `socketReceive(socket, buffer, size, &n, 0)`: the bytes stored in `buffer`. -/
  socketReceive : ℕ → ν → ErrorCode × List UInt8 × ν
  /-- `socketSend(socket, data, length, &n, SOCKET_FLAG_NO_DELAY)`: the value of `n`. -/
  socketSend : List UInt8 → ν → ErrorCode × ℕ × ν
  /-- `socketSetTimeout(socket, timeout)`. -/
  socketSetTimeout : UInt32 → ν → ν
  /-- `socketClose(socket)`. -/
  socketClose : ν → ν
  /-- `osGetSystemTime()`. -/
  osGetSystemTime : ν → UInt32

/-- What every caller relies on: a call transfers at most the number of bytes it was asked for. -/
structure SocketApi.Bounded {ν : Type*} (api : SocketApi ν) : Prop where
  receive_le : ∀ size v, (api.socketReceive size v).2.1.length ≤ size
  send_le : ∀ data v, (api.socketSend data v).2.1 ≤ data.length

/-- `timeCompare(t1, t2)`: the sign of the difference of two clock readings. -/
def timeCompare (t1 t2 : UInt32) : ℤ := (t1 - t2).toBitVec.toInt

end Modbus
