import CycloneTcp.Lib.Loops
import CycloneTcp.Modbus.ServerRequest

/-! # The loops of the request handlers

The handlers run over the table in four loops, two that read and two that write, all of which stop at
the first callback that reports an error. Each is an instance of `Loops.loop`, and what holds for any
callback is stated here: which addresses a loop touches, and which cells of the response it fills. -/

set_option autoImplicit false

namespace Modbus

open Loops

variable {σ : Type*} (settings : ModbusServerSettings σ)

/-! ## The bodies -/

/-- The body of the loop over coils to be read: the bit is stored if the callback succeeds. -/
def readCoilBody (address : UInt16) (base i : ℕ) (s : Memory UInt8 × ServerWorld σ) :
    ErrorCode × Memory UInt8 × ServerWorld σ :=
  let r := modbusServerReadCoil settings (address + UInt16.ofNat i) s.2
  (r.1, if r.1 = .noError then s.1.putBit base i r.2.1 else s.1, r.2.2)

/-- The body of the loop over registers to be read: the value is stored in any case. -/
def readRegBody (address : UInt16) (base i : ℕ) (s : Memory UInt8 × ServerWorld σ) :
    ErrorCode × Memory UInt8 × ServerWorld σ :=
  let r := modbusServerReadReg settings (address + UInt16.ofNat i) s.2
  (r.1, s.1.setU16 (base + 2 * i) r.2.1, r.2.2)

/-- The body of a loop over coils to be written. -/
def writeCoilBody (address : UInt16) (states : ℕ → Bool) (commit : Bool) (i : ℕ)
    (w : ServerWorld σ) : ErrorCode × ServerWorld σ :=
  modbusServerWriteCoil settings (address + UInt16.ofNat i) (states i) commit w

/-- The body of a loop over registers to be written. -/
def writeRegBody (address : UInt16) (values : ℕ → UInt16) (commit : Bool) (i : ℕ)
    (w : ServerWorld σ) : ErrorCode × ServerWorld σ :=
  modbusServerWriteReg settings (address + UInt16.ofNat i) (values i) commit w

theorem readCoils_eq_loop (address : UInt16) (base k i : ℕ) (response : Memory UInt8)
    (w : ServerWorld σ) :
    readCoils settings address base k i response w
      = loop .noError (readCoilBody settings address base) k i (response, w) := by
  induction k generalizing i response w with
  | zero => rfl
  | succ k ih =>
      by_cases hok : (modbusServerReadCoil settings (address + UInt16.ofNat i) w).1 = .noError
      · rw [loop_succ_of_ok hok, readCoilBody, ← ih]
        simp only [readCoils, hok, if_true]
      · rw [loop_succ_of_ne hok, readCoilBody]
        simp only [readCoils, hok, if_false]

theorem readRegs_eq_loop (address : UInt16) (base k i : ℕ) (response : Memory UInt8)
    (w : ServerWorld σ) :
    readRegs settings address base k i response w
      = loop .noError (readRegBody settings address base) k i (response, w) := by
  induction k generalizing i response w with
  | zero => rfl
  | succ k ih =>
      by_cases hok : (modbusServerReadReg settings (address + UInt16.ofNat i) w).1 = .noError
      · rw [loop_succ_of_ok hok, readRegBody, ← ih]
        simp only [readRegs, hok, if_true]
      · rw [loop_succ_of_ne hok, readRegBody]
        simp only [readRegs, hok, if_false]

theorem writeCoils_eq_loop (address : UInt16) (request : Memory UInt8) (base : ℕ) (commit : Bool)
    (k i : ℕ) (w : ServerWorld σ) :
    writeCoils settings address request base commit k i w
      = loop .noError (writeCoilBody settings address (request.testBit base) commit) k i w := by
  induction k generalizing i w with
  | zero => rfl
  | succ k ih =>
      rw [writeCoils, loop, ih]
      rfl

theorem writeRegs_eq_loop (address : UInt16) (request : Memory UInt8) (base : ℕ) (commit : Bool)
    (k i : ℕ) (w : ServerWorld σ) :
    writeRegs settings address request base commit k i w
      = loop .noError
        (writeRegBody settings address (fun n => request.getU16 (base + 2 * n)) commit) k i w := by
  induction k generalizing i w with
  | zero => rfl
  | succ k ih =>
      rw [writeRegs, loop, ih]
      rfl

/-! ## The cells of the response -/

/-- A loop over coils fills the bytes of its bit array only. -/
theorem readCoils_outside (address : UInt16) {base k p : ℕ} (hp : p < base ∨ base + coilBytes k ≤ p)
    (response : Memory UInt8) (w : ServerWorld σ) :
    (readCoils settings address base k 0 response w).2.1 p = response p := by
  rw [readCoils_eq_loop]
  refine loop_invariant (I := fun s : Memory UInt8 × ServerWorld σ => s.1 p = response p)
    (fun j s _ hj hs => ?_) rfl
  have hne : p ≠ base + j / 8 := by
    simp only [coilBytes] at hp
    omega
  simp only [readCoilBody]
  split
  · rw [Memory.putBit_of_ne _ _ hne]
    exact hs
  · exact hs

/-- A loop over registers fills the bytes of its word array only. -/
theorem readRegs_outside (address : UInt16) {base k p : ℕ} (hp : p < base ∨ base + 2 * k ≤ p)
    (response : Memory UInt8) (w : ServerWorld σ) :
    (readRegs settings address base k 0 response w).2.1 p = response p := by
  rw [readRegs_eq_loop]
  refine loop_invariant (I := fun s : Memory UInt8 × ServerWorld σ => s.1 p = response p)
    (fun j s _ hj hs => ?_) rfl
  simp only [readRegBody]
  rw [Memory.setU16_apply, if_neg (by omega), if_neg (by omega)]
  exact hs

/-! ## Dispatch -/

section Dispatch

variable {connection : ModbusClientConnection} {request : Memory UInt8} {length : ℕ}
  {w : ServerWorld σ}

theorem dispatch_readBits
    (h : request 0 = functionReadCoils ∨ request 0 = functionReadDiscreteInputs) :
    dispatch settings connection request length w
      = processReadBitsReq settings connection request length w := by
  rcases h with h | h
  · rw [dispatch, h]
    rfl
  · rw [dispatch, h]
    rfl

theorem dispatch_readRegs
    (h : request 0 = functionReadHoldingRegs ∨ request 0 = functionReadInputRegs) :
    dispatch settings connection request length w
      = processReadRegsReq settings connection request length w := by
  rcases h with h | h
  · rw [dispatch, h]
    rfl
  · rw [dispatch, h]
    rfl

theorem dispatch_writeMultipleCoils (h : request 0 = functionWriteMultipleCoils) :
    dispatch settings connection request length w
      = modbusServerProcessWriteMultipleCoilsReq settings connection request length w := by
  rw [dispatch, h]
  rfl

theorem dispatch_writeMultipleRegs (h : request 0 = functionWriteMultipleRegs) :
    dispatch settings connection request length w
      = modbusServerProcessWriteMultipleRegsReq settings connection request length w := by
  rw [dispatch, h]
  rfl

theorem dispatch_maskWriteReg (h : request 0 = functionMaskWriteReg) :
    dispatch settings connection request length w
      = modbusServerProcessMaskWriteRegReq settings connection request length w := by
  rw [dispatch, h]
  rfl

theorem dispatch_readWriteMultipleRegs (h : request 0 = functionReadWriteMultipleRegs) :
    dispatch settings connection request length w
      = modbusServerProcessReadWriteMultipleRegsReq settings connection request length w := by
  rw [dispatch, h]
  rfl

end Dispatch

end Modbus
