import CycloneTcp.Modbus.ServerPdu

/-! # What a request handler can do to a connection

`Handled connection error connection'` lists the two ways a handler ends: it succeeds, and then a
response of at most 252 PDU bytes stands in the response buffer behind a fresh MBAP header and the
connection starts sending; or it reports an error, and then only bytes of the response buffer may
have changed. `modbusServerProcessRequest_handled` is that fact for whole requests, and
`modbusServerProcessRequest_error` bounds the errors by those of the callbacks. Everything the later
modules need to know about the ten handlers follows from these. -/

set_option autoImplicit false

namespace Modbus

variable {σ : Type*} (settings : ModbusServerSettings σ)

/-- The request PDUs that have been handed to `modbusServerProcessRequest` when a handler ends. -/
def Outcome.pdus (o : Outcome σ) : List (List UInt8) := o.2.2.pdus

/-- The connection after a successful `modbusServerFormatMbapHeader`. -/
def ModbusClientConnection.answering (connection : ModbusClientConnection)
    (responseAdu : Memory UInt8) (length : ℕ) : ModbusClientConnection :=
  { connection with
    responseAdu := responseHeader connection.requestAdu length responseAdu
    responseAduLen := headerSize + length
    responseAduPos := 0
    state := .sending }

/-- The two ways a handler ends. -/
inductive Handled (connection : ModbusClientConnection) :
    ErrorCode → ModbusClientConnection → Prop where
  | answered (responseAdu : Memory UInt8) (length : ℕ) (hlo : 2 ≤ length) (hhi : length ≤ 252)
      (hpos : headerSize ≤ connection.requestAduPos) :
      Handled connection .noError (connection.answering responseAdu length)
  | failed (error : ErrorCode) (responseAdu : Memory UInt8) (herror : error ≠ .noError) :
      Handled connection error (connection.withResponse responseAdu)

namespace Handled

variable {connection connection' : ModbusClientConnection} {error : ErrorCode}

/-- The request is not touched. -/
theorem requestAdu (h : Handled connection error connection') :
    connection'.requestAdu = connection.requestAdu := by
  cases h <;> rfl

theorem requestAduPos (h : Handled connection error connection') :
    connection'.requestAduPos = connection.requestAduPos := by
  cases h <;> rfl

theorem unchanged (connection : ModbusClientConnection) (herror : error ≠ .noError) :
    Handled connection error connection :=
  .failed error connection.responseAdu herror

/-- A handler may go on from a connection on which only the response buffer was filled. -/
theorem of_withResponse {responseAdu : Memory UInt8}
    (h : Handled (connection.withResponse responseAdu) error connection') :
    Handled connection error connection' := by
  cases h with
  | answered responseAdu' length hlo hhi hpos => exact .answered responseAdu' length hlo hhi hpos
  | failed error responseAdu' herror => exact .failed error responseAdu' herror

end Handled

theorem modbusServerFormatMbapHeader_handled (connection : ModbusClientConnection) {length : ℕ}
    (hlo : 2 ≤ length) (hhi : length ≤ 252) :
    Handled connection (modbusServerFormatMbapHeader connection length).1
      (modbusServerFormatMbapHeader connection length).2 := by
  simp only [modbusServerFormatMbapHeader]
  by_cases hpos : connection.requestAduPos < headerSize
  · simp only [if_pos hpos]
    exact .unchanged connection nofun
  · simp only [if_neg hpos]
    exact .answered connection.responseAdu length hlo hhi (by omega)

/-- Every handler ends like this: it reports a callback's error, or formats the header. -/
theorem report_handled (connection : ModbusClientConnection) (responseAdu responseAdu' : Memory UInt8)
    (error : ErrorCode) {length : ℕ} (hlo : 2 ≤ length) (hhi : length ≤ 252) (w : ServerWorld σ) :
    Handled connection
      (if error ≠ .noError then (error, connection.withResponse responseAdu, w)
        else finish (connection.withResponse responseAdu') length w).1
      (if error ≠ .noError then (error, connection.withResponse responseAdu, w)
        else finish (connection.withResponse responseAdu') length w).2.1 := by
  by_cases herror : error ≠ .noError
  · simp only [if_pos herror]
    exact .failed error responseAdu herror
  · simp only [if_neg herror]
    exact (modbusServerFormatMbapHeader_handled (connection.withResponse responseAdu') hlo
      hhi).of_withResponse

/-! ## Loops leave the cells in front of their array alone -/

theorem readCoils_below (address : UInt16) {base p : ℕ} (hp : p < base) (k i : ℕ)
    (response : Memory UInt8) (w : ServerWorld σ) :
    (readCoils settings address base k i response w).2.1 p = response p := by
  induction k generalizing i response w with
  | zero => rfl
  | succ k ih =>
      simp only [readCoils]
      split
      · rw [ih, Memory.putBit_of_ne _ _ (by omega)]
      · rfl

theorem readRegs_below (address : UInt16) {base p : ℕ} (hp : p < base) (k i : ℕ)
    (response : Memory UInt8) (w : ServerWorld σ) :
    (readRegs settings address base k i response w).2.1 p = response p := by
  have hset : ∀ (m : Memory UInt8) (j : ℕ) (v : UInt16), m.setU16 (base + 2 * j) v p = m p := by
    intro m j v
    rw [Memory.setU16_apply, if_neg (by omega), if_neg (by omega)]
  induction k generalizing i response w with
  | zero => rfl
  | succ k ih =>
      simp only [readRegs]
      split
      · rw [ih, hset]
      · exact hset _ _ _

/-! ## Handlers -/

section Handlers

variable (connection : ModbusClientConnection) (request : Memory UInt8) (length : ℕ)
  (w : ServerWorld σ)

/-- Split a handler at one of its checks. -/
theorem handled_ite {p : Prop} [Decidable p] {a b : Outcome σ}
    (ha : p → Handled connection a.1 a.2.1) (hb : ¬p → Handled connection b.1 b.2.1) :
    Handled connection (if p then a else b).1 (if p then a else b).2.1 := by
  by_cases h : p
  · rw [if_pos h]
    exact ha h
  · rw [if_neg h]
    exact hb h

theorem processReadBitsReq_handled :
    Handled connection (processReadBitsReq settings connection request length w).1
      (processReadBitsReq settings connection request length w).2.1 := by
  refine handled_ite connection (fun _ => .unchanged connection nofun) fun _ => ?_
  refine handled_ite connection (fun _ => .unchanged connection nofun) fun hq => ?_
  have hcount : ((if (request.getU16 3).toNat % 8 ≠ 0 then
        Function.update (Function.update (Function.update connection.responseAdu headerSize
          (request 0)) (headerSize + 1) (UInt8.ofNat (coilBytes (request.getU16 3).toNat)))
          (headerSize + 2 + (coilBytes (request.getU16 3).toNat - 1)) 0
      else Function.update (Function.update connection.responseAdu headerSize (request 0))
        (headerSize + 1) (UInt8.ofNat (coilBytes (request.getU16 3).toNat))) (headerSize + 1)).toNat
      = coilBytes (request.getU16 3).toNat := by
    have hlt : coilBytes (request.getU16 3).toNat < 256 := by
      simp only [coilBytes]
      omega
    split
    · rw [Function.update_of_ne (by omega), Function.update_self, UInt8.toNat_ofNat',
        Nat.mod_eq_of_lt hlt]
    · rw [Function.update_self, UInt8.toNat_ofNat', Nat.mod_eq_of_lt hlt]
  refine report_handled connection _ _ _ (by omega) ?_ _
  rw [readCoils_below settings _ (by omega), hcount]
  simp only [coilBytes]
  omega

theorem processReadRegsReq_handled :
    Handled connection (processReadRegsReq settings connection request length w).1
      (processReadRegsReq settings connection request length w).2.1 := by
  refine handled_ite connection (fun _ => .unchanged connection nofun) fun _ => ?_
  refine handled_ite connection (fun _ => .unchanged connection nofun) fun hq => ?_
  refine report_handled connection _ _ _ (by omega) ?_ _
  rw [readRegs_below settings _ (by omega), Function.update_self, UInt8.toNat_ofNat']
  omega

theorem modbusServerProcessWriteSingleCoilReq_handled :
    Handled connection
      (modbusServerProcessWriteSingleCoilReq settings connection request length w).1
      (modbusServerProcessWriteSingleCoilReq settings connection request length w).2.1 := by
  refine handled_ite connection (fun _ => .unchanged connection nofun) fun _ => ?_
  refine handled_ite connection (fun _ => .unchanged connection nofun) fun _ => ?_
  exact report_handled connection connection.responseAdu _ _ (by decide) (by decide) _

theorem modbusServerProcessWriteSingleRegReq_handled :
    Handled connection
      (modbusServerProcessWriteSingleRegReq settings connection request length w).1
      (modbusServerProcessWriteSingleRegReq settings connection request length w).2.1 := by
  refine handled_ite connection (fun _ => .unchanged connection nofun) fun _ => ?_
  exact report_handled connection connection.responseAdu _ _ (by decide) (by decide) _

theorem modbusServerProcessWriteMultipleCoilsReq_handled :
    Handled connection
      (modbusServerProcessWriteMultipleCoilsReq settings connection request length w).1
      (modbusServerProcessWriteMultipleCoilsReq settings connection request length w).2.1 := by
  refine handled_ite connection (fun _ => .unchanged connection nofun) fun _ => ?_
  refine handled_ite connection (fun _ => .unchanged connection nofun) fun _ => ?_
  refine handled_ite connection (fun _ => .unchanged connection nofun) fun _ => ?_
  refine handled_ite connection (fun _ => .unchanged connection nofun) fun _ => ?_
  exact report_handled connection connection.responseAdu _ _ (by decide) (by decide) _

theorem modbusServerProcessWriteMultipleRegsReq_handled :
    Handled connection
      (modbusServerProcessWriteMultipleRegsReq settings connection request length w).1
      (modbusServerProcessWriteMultipleRegsReq settings connection request length w).2.1 := by
  refine handled_ite connection (fun _ => .unchanged connection nofun) fun _ => ?_
  refine handled_ite connection (fun _ => .unchanged connection nofun) fun _ => ?_
  refine handled_ite connection (fun _ => .unchanged connection nofun) fun _ => ?_
  refine handled_ite connection (fun _ => .unchanged connection nofun) fun _ => ?_
  exact report_handled connection connection.responseAdu _ _ (by decide) (by decide) _

theorem modbusServerProcessMaskWriteRegReq_handled :
    Handled connection
      (modbusServerProcessMaskWriteRegReq settings connection request length w).1
      (modbusServerProcessMaskWriteRegReq settings connection request length w).2.1 := by
  refine handled_ite connection (fun _ => .unchanged connection nofun) fun _ => ?_
  exact report_handled connection connection.responseAdu _ _ (by decide) (by decide) _

theorem modbusServerProcessReadWriteMultipleRegsReq_handled :
    Handled connection
      (modbusServerProcessReadWriteMultipleRegsReq settings connection request length w).1
      (modbusServerProcessReadWriteMultipleRegsReq settings connection request length w).2.1 := by
  refine handled_ite connection (fun _ => .unchanged connection nofun) fun _ => ?_
  refine handled_ite connection (fun _ => .unchanged connection nofun) fun _ => ?_
  refine handled_ite connection (fun _ => .unchanged connection nofun) fun hq => ?_
  refine handled_ite connection (fun _ => .unchanged connection nofun) fun _ => ?_
  refine handled_ite connection (fun _ => .unchanged connection nofun) fun _ => ?_
  refine report_handled connection _ _ _ (by omega) ?_ _
  rw [readRegs_below settings _ (by omega), Function.update_self, UInt8.toNat_ofNat']
  omega

theorem dispatch_handled :
    Handled connection (dispatch settings connection request length w).1
      (dispatch settings connection request length w).2.1 := by
  refine handled_ite connection (fun _ => processReadBitsReq_handled ..) fun _ => ?_
  refine handled_ite connection (fun _ => processReadBitsReq_handled ..) fun _ => ?_
  refine handled_ite connection (fun _ => processReadRegsReq_handled ..) fun _ => ?_
  refine handled_ite connection (fun _ => processReadRegsReq_handled ..) fun _ => ?_
  refine handled_ite connection (fun _ => modbusServerProcessWriteSingleCoilReq_handled ..)
    fun _ => ?_
  refine handled_ite connection (fun _ => modbusServerProcessWriteSingleRegReq_handled ..)
    fun _ => ?_
  refine handled_ite connection (fun _ => modbusServerProcessWriteMultipleCoilsReq_handled ..)
    fun _ => ?_
  refine handled_ite connection (fun _ => modbusServerProcessWriteMultipleRegsReq_handled ..)
    fun _ => ?_
  refine handled_ite connection (fun _ => modbusServerProcessMaskWriteRegReq_handled ..)
    fun _ => ?_
  exact handled_ite connection (fun _ => modbusServerProcessReadWriteMultipleRegsReq_handled ..)
    fun _ => .unchanged connection nofun

end Handlers

/-- **A request is answered with a well-formed response or leaves the connection where it was.** -/
theorem modbusServerProcessRequest_handled (connection : ModbusClientConnection)
    (w : ServerWorld σ) :
    Handled connection (modbusServerProcessRequest settings connection w).1
      (modbusServerProcessRequest settings connection w).2.1 := by
  refine handled_ite connection (fun _ => .unchanged connection nofun) fun _ => ?_
  have hdispatch := dispatch_handled settings connection (modbusServerGetRequestPdu connection).1
    (modbusServerGetRequestPdu connection).2
    (w.dumpRequestPdu ((modbusServerGetRequestPdu connection).1.read 0
      (modbusServerGetRequestPdu connection).2))
  refine handled_ite connection (fun hexc => ?_) fun _ => hdispatch
  -- an exception is reported on a connection of which only the response buffer has changed
  generalize dispatch settings connection _ _ _ = r at hdispatch hexc
  obtain ⟨error, connection', w'⟩ := r
  cases hdispatch with
  | answered => simp [isException] at hexc
  | failed _ responseAdu herror =>
      have hformat : ∀ responseAdu', Handled (connection.withResponse responseAdu')
          (modbusServerFormatMbapHeader (connection.withResponse responseAdu') 2).1
          (modbusServerFormatMbapHeader (connection.withResponse responseAdu') 2).2 :=
        fun responseAdu' => modbusServerFormatMbapHeader_handled _ (by decide) (by decide)
      exact (hformat _).of_withResponse

/-! ## The record of request PDUs

The callbacks add to the record of invocations only. -/

section Record

theorem modbusServerLock_pdus (w : ServerWorld σ) : (modbusServerLock settings w).pdus = w.pdus := by
  unfold modbusServerLock
  split <;> rfl

theorem modbusServerUnlock_pdus (w : ServerWorld σ) :
    (modbusServerUnlock settings w).pdus = w.pdus := by
  unfold modbusServerUnlock
  split <;> rfl

theorem modbusServerReadCoil_pdus (address : UInt16) (w : ServerWorld σ) :
    (modbusServerReadCoil settings address w).2.2.pdus = w.pdus := by
  unfold modbusServerReadCoil
  split <;> rfl

theorem modbusServerWriteCoil_pdus (address : UInt16) (state commit : Bool) (w : ServerWorld σ) :
    (modbusServerWriteCoil settings address state commit w).2.pdus = w.pdus := by
  unfold modbusServerWriteCoil
  split <;> rfl

theorem modbusServerReadReg_pdus (address : UInt16) (w : ServerWorld σ) :
    (modbusServerReadReg settings address w).2.2.pdus = w.pdus := by
  unfold modbusServerReadReg
  split <;> rfl

theorem modbusServerWriteReg_pdus (address value : UInt16) (commit : Bool) (w : ServerWorld σ) :
    (modbusServerWriteReg settings address value commit w).2.pdus = w.pdus := by
  unfold modbusServerWriteReg
  split <;> rfl

theorem readCoils_pdus (address : UInt16) (base k i : ℕ) (response : Memory UInt8)
    (w : ServerWorld σ) :
    (readCoils settings address base k i response w).2.2.pdus = w.pdus := by
  induction k generalizing i response w with
  | zero => rfl
  | succ k ih =>
      simp only [readCoils]
      split
      · rw [ih, modbusServerReadCoil_pdus]
      · rw [modbusServerReadCoil_pdus]

theorem readRegs_pdus (address : UInt16) (base k i : ℕ) (response : Memory UInt8)
    (w : ServerWorld σ) :
    (readRegs settings address base k i response w).2.2.pdus = w.pdus := by
  induction k generalizing i response w with
  | zero => rfl
  | succ k ih =>
      simp only [readRegs]
      split
      · rw [ih, modbusServerReadReg_pdus]
      · rw [modbusServerReadReg_pdus]

theorem writeCoils_pdus (address : UInt16) (request : Memory UInt8) (base : ℕ) (commit : Bool)
    (k i : ℕ) (w : ServerWorld σ) :
    (writeCoils settings address request base commit k i w).2.pdus = w.pdus := by
  induction k generalizing i w with
  | zero => rfl
  | succ k ih =>
      simp only [writeCoils]
      split
      · rw [ih, modbusServerWriteCoil_pdus]
      · rw [modbusServerWriteCoil_pdus]

theorem writeRegs_pdus (address : UInt16) (request : Memory UInt8) (base : ℕ) (commit : Bool)
    (k i : ℕ) (w : ServerWorld σ) :
    (writeRegs settings address request base commit k i w).2.pdus = w.pdus := by
  induction k generalizing i w with
  | zero => rfl
  | succ k ih =>
      simp only [writeRegs]
      split
      · rw [ih, modbusServerWriteReg_pdus]
      · rw [modbusServerWriteReg_pdus]

theorem writeCoilsTwoPhase_pdus (address : UInt16) (request : Memory UInt8) (base quantity : ℕ)
    (w : ServerWorld σ) :
    (writeCoilsTwoPhase settings address request base quantity w).2.pdus = w.pdus := by
  simp only [writeCoilsTwoPhase]
  split
  · rw [writeCoils_pdus, writeCoils_pdus]
  · rw [writeCoils_pdus]

theorem writeRegsTwoPhase_pdus (address : UInt16) (request : Memory UInt8) (base quantity : ℕ)
    (w : ServerWorld σ) :
    (writeRegsTwoPhase settings address request base quantity w).2.pdus = w.pdus := by
  simp only [writeRegsTwoPhase]
  split
  · rw [writeRegs_pdus, writeRegs_pdus]
  · rw [writeRegs_pdus]

/-- A handler whose loops ran under the lock ends with the record it started with. -/
theorem report_pdus (connection connection' : ModbusClientConnection) (error : ErrorCode)
    (length : ℕ) {w w' : ServerWorld σ} (h : w'.pdus = (modbusServerLock settings w).pdus) :
    Outcome.pdus (if error ≠ .noError then
        (error, connection, modbusServerUnlock settings w')
      else finish connection' length (modbusServerUnlock settings w')) = w.pdus := by
  have hw : (modbusServerUnlock settings w').pdus = w.pdus := by
    rw [modbusServerUnlock_pdus, h, modbusServerLock_pdus]
  split <;> exact hw

/-- Split a handler at one of its checks. -/
theorem pdus_ite {p : Prop} [Decidable p] {a b : Outcome σ} {pdus : List (List UInt8)}
    (ha : a.pdus = pdus) (hb : b.pdus = pdus) : Outcome.pdus (if p then a else b) = pdus := by
  split <;> assumption

theorem dispatch_pdus (connection : ModbusClientConnection) (request : Memory UInt8)
    (length : ℕ) (w : ServerWorld σ) :
    Outcome.pdus (dispatch settings connection request length w) = w.pdus := by
  have hbits : Outcome.pdus (processReadBitsReq settings connection request length w) = w.pdus :=
    pdus_ite rfl (pdus_ite rfl (report_pdus settings _ _ _ _ (readCoils_pdus settings ..)))
  have hregs : Outcome.pdus (processReadRegsReq settings connection request length w) = w.pdus :=
    pdus_ite rfl (pdus_ite rfl (report_pdus settings _ _ _ _ (readRegs_pdus settings ..)))
  refine pdus_ite hbits (pdus_ite hbits (pdus_ite hregs (pdus_ite hregs ?_)))
  refine pdus_ite ?_ (pdus_ite ?_ (pdus_ite ?_ (pdus_ite ?_ (pdus_ite ?_ (pdus_ite ?_ rfl)))))
  · exact pdus_ite rfl (pdus_ite rfl
      (report_pdus settings _ _ _ _ (modbusServerWriteCoil_pdus settings ..)))
  · exact pdus_ite rfl (report_pdus settings _ _ _ _ (modbusServerWriteReg_pdus settings ..))
  · exact pdus_ite rfl (pdus_ite rfl (pdus_ite rfl (pdus_ite rfl
      (report_pdus settings _ _ _ _ (writeCoilsTwoPhase_pdus settings ..)))))
  · exact pdus_ite rfl (pdus_ite rfl (pdus_ite rfl (pdus_ite rfl
      (report_pdus settings _ _ _ _ (writeRegsTwoPhase_pdus settings ..)))))
  · refine pdus_ite rfl (report_pdus settings _ _ _ _ ?_)
    split
    · rw [modbusServerWriteReg_pdus, modbusServerReadReg_pdus]
    · exact modbusServerReadReg_pdus settings ..
  · refine pdus_ite rfl (pdus_ite rfl (pdus_ite rfl (pdus_ite rfl (pdus_ite rfl
      (report_pdus settings _ _ _ _ ?_)))))
    split
    · rw [writeRegsTwoPhase_pdus, readRegs_pdus]
    · exact readRegs_pdus settings ..

/-- A request that is not empty is handed over exactly once. -/
theorem modbusServerProcessRequest_pdus (connection : ModbusClientConnection) (w : ServerWorld σ)
    (h : (modbusServerGetRequestPdu connection).2 ≠ 0) :
    Outcome.pdus (modbusServerProcessRequest settings connection w)
      = w.pdus ++ [(pdu connection.requestAdu).read 0 (modbusServerGetRequestPdu connection).2] := by
  simp only [modbusServerProcessRequest]
  rw [if_neg h]
  exact pdus_ite (dispatch_pdus settings ..) (dispatch_pdus settings ..)

end Record

/-! ## Errors

A handler's errors are its own four and those of the callbacks. `P` is any set of status codes that
contains success and the handlers' own. -/

/-- The status codes the handlers report by themselves. -/
structure Own (P : ErrorCode → Prop) : Prop where
  noError : P .noError
  invalidLength : P .invalidLength
  invalidValue : P .invalidValue
  invalidAddress : P .invalidAddress
  invalidFunctionCode : P .invalidFunctionCode

/-- Every callback reports a status in `P`. -/
structure Reports (P : ErrorCode → Prop) : Prop where
  readCoil : ∀ f ∈ settings.readCoilCallback, ∀ a s, P (f a s).1
  writeCoil : ∀ f ∈ settings.writeCoilCallback, ∀ a b c s, P (f a b c s).1
  readReg : ∀ f ∈ settings.readRegCallback, ∀ a s, P (f a s).1
  writeReg : ∀ f ∈ settings.writeRegValueCallback, ∀ a v c s, P (f a v c s).1

/-- A server without callbacks: it refuses every access to the table. -/
def noCallbacks : ModbusServerSettings Unit where
  unitId := 255
  lockCallback := none
  unlockCallback := id
  readCoilCallback := none
  writeCoilCallback := none
  readRegCallback := none
  writeRegValueCallback := none

theorem noCallbacks_reports (P : ErrorCode → Prop) (unitId : UInt8) :
    Reports { noCallbacks with unitId := unitId } P where
  readCoil f hf := by cases hf
  writeCoil f hf := by cases hf
  readReg f hf := by cases hf
  writeReg f hf := by cases hf

section Errors

variable {settings} {P : ErrorCode → Prop} (own : Own P) (hcb : Reports settings P)
include own hcb

theorem modbusServerReadCoil_error (address : UInt16) (w : ServerWorld σ) :
    P (modbusServerReadCoil settings address w).1 := by
  unfold modbusServerReadCoil
  split
  · next f hf => exact hcb.readCoil f hf _ _
  · exact own.invalidAddress

theorem modbusServerWriteCoil_error (address : UInt16) (state commit : Bool) (w : ServerWorld σ) :
    P (modbusServerWriteCoil settings address state commit w).1 := by
  unfold modbusServerWriteCoil
  split
  · next f hf => exact hcb.writeCoil f hf _ _ _ _
  · exact own.invalidAddress

theorem modbusServerReadReg_error (address : UInt16) (w : ServerWorld σ) :
    P (modbusServerReadReg settings address w).1 := by
  unfold modbusServerReadReg
  split
  · next f hf => exact hcb.readReg f hf _ _
  · exact own.invalidAddress

theorem modbusServerWriteReg_error (address value : UInt16) (commit : Bool) (w : ServerWorld σ) :
    P (modbusServerWriteReg settings address value commit w).1 := by
  unfold modbusServerWriteReg
  split
  · next f hf => exact hcb.writeReg f hf _ _ _ _
  · exact own.invalidAddress

theorem readCoils_error (address : UInt16) (base k i : ℕ) (response : Memory UInt8)
    (w : ServerWorld σ) : P (readCoils settings address base k i response w).1 := by
  induction k generalizing i response w with
  | zero => exact own.noError
  | succ k ih =>
      simp only [readCoils]
      split
      · exact ih _ _ _
      · exact modbusServerReadCoil_error own hcb _ _

theorem readRegs_error (address : UInt16) (base k i : ℕ) (response : Memory UInt8)
    (w : ServerWorld σ) : P (readRegs settings address base k i response w).1 := by
  induction k generalizing i response w with
  | zero => exact own.noError
  | succ k ih =>
      simp only [readRegs]
      split
      · exact ih _ _ _
      · exact modbusServerReadReg_error own hcb _ _

theorem writeCoils_error (address : UInt16) (request : Memory UInt8) (base : ℕ) (commit : Bool)
    (k i : ℕ) (w : ServerWorld σ) :
    P (writeCoils settings address request base commit k i w).1 := by
  induction k generalizing i w with
  | zero => exact own.noError
  | succ k ih =>
      simp only [writeCoils]
      split
      · exact ih _ _
      · exact modbusServerWriteCoil_error own hcb _ _ _ _

theorem writeRegs_error (address : UInt16) (request : Memory UInt8) (base : ℕ) (commit : Bool)
    (k i : ℕ) (w : ServerWorld σ) :
    P (writeRegs settings address request base commit k i w).1 := by
  induction k generalizing i w with
  | zero => exact own.noError
  | succ k ih =>
      simp only [writeRegs]
      split
      · exact ih _ _
      · exact modbusServerWriteReg_error own hcb _ _ _ _

theorem writeCoilsTwoPhase_error (address : UInt16) (request : Memory UInt8) (base quantity : ℕ)
    (w : ServerWorld σ) : P (writeCoilsTwoPhase settings address request base quantity w).1 := by
  simp only [writeCoilsTwoPhase]
  split <;> exact writeCoils_error own hcb ..

theorem writeRegsTwoPhase_error (address : UInt16) (request : Memory UInt8) (base quantity : ℕ)
    (w : ServerWorld σ) : P (writeRegsTwoPhase settings address request base quantity w).1 := by
  simp only [writeRegsTwoPhase]
  split <;> exact writeRegs_error own hcb ..

omit hcb in
theorem modbusServerFormatMbapHeader_error (connection : ModbusClientConnection) (length : ℕ) :
    P (modbusServerFormatMbapHeader connection length).1 := by
  simp only [modbusServerFormatMbapHeader]
  split
  · exact own.invalidLength
  · exact own.noError

omit hcb in
theorem report_error (connection connection' : ModbusClientConnection) {error : ErrorCode}
    (length : ℕ) (w : ServerWorld σ) (herror : P error) :
    P (if error ≠ .noError then (error, connection, w) else finish connection' length w).1 := by
  split
  · exact herror
  · exact modbusServerFormatMbapHeader_error own _ _

omit own hcb in
/-- Split a handler at one of its checks. -/
theorem error_ite {p : Prop} [Decidable p] {a b : Outcome σ} (ha : P a.1) (hb : P b.1) :
    P (if p then a else b).1 := by
  split <;> assumption

theorem dispatch_error (connection : ModbusClientConnection) (request : Memory UInt8)
    (length : ℕ) (w : ServerWorld σ) : P (dispatch settings connection request length w).1 := by
  have hbits : P (processReadBitsReq settings connection request length w).1 :=
    error_ite own.invalidLength (error_ite own.invalidValue
      (report_error own _ _ _ _ (readCoils_error own hcb ..)))
  have hregs : P (processReadRegsReq settings connection request length w).1 :=
    error_ite own.invalidLength (error_ite own.invalidValue
      (report_error own _ _ _ _ (readRegs_error own hcb ..)))
  refine error_ite hbits (error_ite hbits (error_ite hregs (error_ite hregs ?_)))
  refine error_ite ?_ (error_ite ?_ (error_ite ?_ (error_ite ?_ (error_ite ?_ (error_ite ?_
    own.invalidFunctionCode)))))
  · exact error_ite own.invalidLength (error_ite own.invalidValue
      (report_error own _ _ _ _ (modbusServerWriteCoil_error own hcb ..)))
  · exact error_ite own.invalidLength
      (report_error own _ _ _ _ (modbusServerWriteReg_error own hcb ..))
  · exact error_ite own.invalidLength (error_ite own.invalidLength (error_ite own.invalidValue
      (error_ite own.invalidValue (report_error own _ _ _ _ (writeCoilsTwoPhase_error own hcb ..)))))
  · exact error_ite own.invalidLength (error_ite own.invalidLength (error_ite own.invalidValue
      (error_ite own.invalidValue (report_error own _ _ _ _ (writeRegsTwoPhase_error own hcb ..)))))
  · refine error_ite own.invalidLength (report_error own _ _ _ _ ?_)
    split
    · exact modbusServerWriteReg_error own hcb ..
    · exact modbusServerReadReg_error own hcb ..
  · refine error_ite own.invalidLength (error_ite own.invalidLength (error_ite own.invalidValue
      (error_ite own.invalidValue (error_ite own.invalidValue (report_error own _ _ _ _ ?_)))))
    split
    · exact writeRegsTwoPhase_error own hcb ..
    · exact readRegs_error own hcb ..

/-- **The status of a request is a status of the handlers or of the callbacks, and never one that
is answered by an exception response.** -/
theorem modbusServerProcessRequest_error (connection : ModbusClientConnection)
    (w : ServerWorld σ) :
    P (modbusServerProcessRequest settings connection w).1
      ∧ isException (modbusServerProcessRequest settings connection w).1 = false := by
  simp only [modbusServerProcessRequest]
  split
  · exact ⟨own.invalidLength, rfl⟩
  · split
    · -- the exception response itself is only refused for want of a request header
      simp only [modbusServerFormatExceptionResp, modbusServerFormatMbapHeader]
      split
      · exact ⟨own.invalidLength, rfl⟩
      · exact ⟨own.noError, rfl⟩
    · next hexc => exact ⟨dispatch_error own hcb .., by simpa using hexc⟩

end Errors

end Modbus
