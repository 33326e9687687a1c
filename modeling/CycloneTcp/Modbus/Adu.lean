import CycloneTcp.Modbus.Common

/-! # Application data units

An ADU as a value: the two fields of the MBAP header that vary, and the PDU. `Adu.bytes` is its
encoding on the wire, and the lemmas below read the header fields back from a buffer that holds at
least the header. -/

set_option autoImplicit false

namespace Modbus

/-- A Modbus/TCP ADU with protocol identifier 0. -/
structure Adu where
  transactionId : UInt16
  unitId : UInt8
  pdu : List UInt8
  deriving DecidableEq

namespace Adu

/-- The length field: the unit identifier and the PDU. -/
def lengthField (a : Adu) : UInt16 := UInt16.ofNat (a.pdu.length + 1)

/-- The MBAP header. -/
def header (a : Adu) : List UInt8 :=
  [Memory.hi8 a.transactionId, Memory.lo8 a.transactionId, Memory.hi8 protocolId,
    Memory.lo8 protocolId, Memory.hi8 a.lengthField, Memory.lo8 a.lengthField, a.unitId]

/-- The ADU on the wire. -/
def bytes (a : Adu) : List UInt8 := a.header ++ a.pdu

/-- The PDU has between 1 and 253 bytes. -/
structure WellFormed (a : Adu) : Prop where
  nonempty : 1 ≤ a.pdu.length
  le_max : a.pdu.length ≤ maxPduSize

@[simp] theorem length_header (a : Adu) : a.header.length = headerSize := rfl

@[simp] theorem length_bytes (a : Adu) : a.bytes.length = headerSize + a.pdu.length := by
  simp [bytes]

theorem take_header (a : Adu) : a.bytes.take headerSize = a.header :=
  List.take_left' a.length_header

theorem lengthField_toNat {a : Adu} (h : a.WellFormed) :
    a.lengthField.toNat = a.pdu.length + 1 := by
  have hmax := h.le_max
  simp only [maxPduSize] at hmax
  simp only [lengthField, UInt16.toNat_ofNat']
  omega

/-- The first header byte and its neighbours, from any buffer that starts with the header. -/
theorem header_apply (a : Adu) {m : Memory UInt8} {bytes : List UInt8}
    (h : a.header <+: bytes) (i : ℕ) (hi : i < headerSize) :
    m.write 0 bytes i = a.header.get ⟨i, hi⟩ := by
  have hlen : headerSize ≤ bytes.length := h.length_le
  have hget := Memory.write_add m 0 bytes (show i < bytes.length by omega)
  rw [Nat.zero_add] at hget
  rw [hget]
  exact (List.IsPrefix.getElem h hi).symm

section Fields

variable (a : Adu) {m : Memory UInt8} {bytes : List UInt8} (h : a.header <+: bytes)
include h

theorem header_transactionId : (m.write 0 bytes).getU16 0 = a.transactionId := by
  rw [Memory.getU16, a.header_apply h 0 (by decide), a.header_apply h 1 (by decide)]
  exact Memory.be16_hi8_lo8 _

theorem header_protocolId : (m.write 0 bytes).getU16 2 = protocolId := by
  rw [Memory.getU16, a.header_apply h 2 (by decide), a.header_apply h 3 (by decide)]
  exact Memory.be16_hi8_lo8 _

theorem header_length : (m.write 0 bytes).getU16 4 = a.lengthField := by
  rw [Memory.getU16, a.header_apply h 4 (by decide), a.header_apply h 5 (by decide)]
  exact Memory.be16_hi8_lo8 _

theorem header_unitId : m.write 0 bytes 6 = a.unitId :=
  a.header_apply h 6 (by decide)

end Fields

end Adu

/-- A byte stream made of ADUs. -/
def stream (adus : List Adu) : List UInt8 := (adus.map Adu.bytes).flatten

@[simp] theorem stream_nil : stream [] = [] := rfl

@[simp] theorem stream_cons (a : Adu) (adus : List Adu) :
    stream (a :: adus) = a.bytes ++ stream adus := rfl

theorem stream_append (adus adus' : List Adu) :
    stream (adus ++ adus') = stream adus ++ stream adus' := by
  simp [stream]

end Modbus
