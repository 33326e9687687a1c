import CycloneTcp.Modbus.Table

/-! # What the handlers do over a table

For each function code: a request that passes the checks of its handler is answered, the response
PDU is the one the Modbus specification asks for, and the table is read or changed in the requested
range only. The handlers are followed by `modbusServerProcessRequest`, which adds the dispatch. -/

set_option autoImplicit false

namespace Modbus

variable {σ : Type*}

/-- A handler has answered `connection` with a response PDU of `length` bytes that satisfies
`Response`, and leaves the table `table`. -/
structure Answered (view : σ → Table) (connection : ModbusClientConnection) (o : Outcome σ)
    (length : ℕ) (Response : Memory UInt8 → Prop) (table : Table) : Prop where
  noError : o.1 = .noError
  connection : ∃ responseAdu, o.2.1 = connection.answering responseAdu length ∧
    Response (pdu responseAdu)
  table : view o.2.2.user = table

theorem modbusServerFormatMbapHeader_answering (connection : ModbusClientConnection) (length : ℕ)
    (hpos : headerSize ≤ connection.requestAduPos) :
    modbusServerFormatMbapHeader connection length
      = (.noError, connection.answering connection.responseAdu length) := by
  rw [modbusServerFormatMbapHeader, if_neg (Nat.not_lt.2 hpos)]
  rfl

/-- The end of every handler, when its callbacks have succeeded. -/
theorem Answered.finish {view : σ → Table} {connection : ModbusClientConnection}
    (hpos : headerSize ≤ connection.requestAduPos) (failure : Outcome σ) {error : ErrorCode}
    (herror : error = .noError) (responseAdu : Memory UInt8) {n length : ℕ} (hn : n = length)
    (w : ServerWorld σ) {Response : Memory UInt8 → Prop} (hresponse : Response (pdu responseAdu))
    {table : Table} (htable : view w.user = table) :
    Answered view connection
      (if error ≠ .noError then failure
        else Modbus.finish (connection.withResponse responseAdu) n w)
      length Response table := by
  subst hn
  rw [if_neg (not_not_intro herror), Modbus.finish,
    modbusServerFormatMbapHeader_answering (connection.withResponse responseAdu) n hpos]
  exact ⟨rfl, ⟨responseAdu, rfl, hresponse⟩, htable⟩

/-! ## Response PDUs -/

/-- A response that carries the coils `coils 0`, …, `coils (quantity - 1)`. -/
structure CarriesCoils (functionCode : UInt8) (quantity : ℕ) (coils : ℕ → Bool)
    (response : Memory UInt8) : Prop where
  functionCode_eq : response 0 = functionCode
  byteCount : (response 1).toNat = coilBytes quantity
  bits : ∀ n, n < 8 * coilBytes quantity →
    response.testBit 2 n = if n < quantity then coils n else false

/-- A response that carries the registers `regs 0`, …, `regs (quantity - 1)`. -/
structure CarriesRegs (functionCode : UInt8) (quantity : ℕ) (regs : ℕ → UInt16)
    (response : Memory UInt8) : Prop where
  functionCode_eq : response 0 = functionCode
  byteCount : (response 1).toNat = quantity * 2
  words : ∀ n, n < quantity → response.getU16 (2 + 2 * n) = regs n

/-- A response that echoes the function code and the first `words` words of `request`. -/
structure Echoes (request : Memory UInt8) (words : ℕ) (response : Memory UInt8) : Prop where
  functionCode_eq : response 0 = request 0
  words_eq : ∀ j, j < words → response.getU16 (1 + 2 * j) = request.getU16 (1 + 2 * j)

theorem echoes_echoResponse (request : Memory UInt8) (words : ℕ) (responseAdu : Memory UInt8) :
    Echoes request words (pdu (echoResponse request words responseAdu)) := by
  induction words with
  | zero =>
      refine ⟨?_, fun j hj => absurd hj (Nat.not_lt_zero j)⟩
      simp [echoResponse]
  | succ words ih =>
      have hstep : echoResponse request (words + 1) responseAdu
          = (echoResponse request words responseAdu).setU16 (headerSize + 1 + 2 * words)
            (request.getU16 (1 + 2 * words)) := by
        simp [echoResponse, List.range_succ]
      obtain ⟨hcode, hwords⟩ := ih
      rw [hstep]
      refine ⟨?_, fun j hj => ?_⟩
      · rw [pdu_apply, Memory.setU16_apply, if_neg (by omega), if_neg (by omega)]
        exact hcode
      · rw [pdu_getU16]
        by_cases hjw : j = words
        · subst hjw
          rw [← Nat.add_assoc, Memory.getU16_setU16_self]
        · rw [Memory.getU16_setU16_of_ne _ _ (by omega), ← pdu_getU16]
          exact hwords j (by omega)

/-! ## Handlers -/

section Handlers

variable {settings : ModbusServerSettings σ} {view : σ → Table} (h : ServesTable settings view)
  {connection : ModbusClientConnection} (hpos : headerSize ≤ connection.requestAduPos)
  (request : Memory UInt8) (length : ℕ) (w : ServerWorld σ)
include h hpos

theorem processReadBitsReq_table {address : UInt16} {quantity : ℕ} (hlength : 5 ≤ length)
    (haddress : request.getU16 1 = address) (hquantity : (request.getU16 3).toNat = quantity)
    (hlo : 1 ≤ quantity) (hhi : quantity ≤ 2000) :
    Answered view connection (processReadBitsReq settings connection request length w)
      (2 + coilBytes quantity)
      (CarriesCoils (request 0) quantity fun n => (view w.user).coils (address + UInt16.ofNat n))
      (view w.user) := by
  subst haddress hquantity
  set quantity := (request.getU16 3).toNat
  have hbytes : 1 ≤ coilBytes quantity ∧ coilBytes quantity < 256 := by
    simp only [coilBytes]
    omega
  rw [processReadBitsReq, if_neg (by omega), if_neg (by omega)]
  set response : Memory UInt8 := if quantity % 8 ≠ 0 then
      Function.update (Function.update (Function.update connection.responseAdu headerSize
        (request 0)) (headerSize + 1) (UInt8.ofNat (coilBytes quantity)))
        (headerSize + 2 + (coilBytes quantity - 1)) 0
    else Function.update (Function.update connection.responseAdu headerSize (request 0))
      (headerSize + 1) (UInt8.ofNat (coilBytes quantity)) with hresponse
  have hcode : response headerSize = request 0 := by
    rw [hresponse]
    split
    · rw [Function.update_of_ne (by omega), Function.update_of_ne (by omega), Function.update_self]
    · rw [Function.update_of_ne (by omega), Function.update_self]
  have hcount : (response (headerSize + 1)).toNat = coilBytes quantity := by
    rw [hresponse]
    split
    · rw [Function.update_of_ne (by omega), Function.update_self, UInt8.toNat_ofNat',
        Nat.mod_eq_of_lt hbytes.2]
    · rw [Function.update_self, UInt8.toNat_ofNat', Nat.mod_eq_of_lt hbytes.2]
  -- the bits behind the last coil lie in the byte that was cleared
  have hpadding : ∀ n, quantity ≤ n → n < 8 * coilBytes quantity →
      Memory.testBit response (headerSize + 2) n = false := by
    intro n hn hlt
    simp only [coilBytes] at hlt
    have hlast : n / 8 = coilBytes quantity - 1 := by
      simp only [coilBytes]
      omega
    rw [hresponse, if_pos (by omega), Memory.testBit, hlast, Function.update_self]
    exact Memory.bit_zero _
  obtain ⟨hok, hview, hbits⟩ := readCoils_table h (request.getU16 1) (headerSize + 2) quantity 0
    response (modbusServerLock settings w)
  have hbelow := fun p (hp : p < headerSize + 2) => readCoils_below settings (request.getU16 1)
    hp quantity 0 response (modbusServerLock settings w)
  refine Answered.finish hpos _ hok _ ?_ _ ⟨?_, ?_, fun n hn => ?_⟩ ?_
  · rw [hbelow _ (by omega), hcount]
  · rw [h.unlock_view, hview, h.lock_view]
  · exact (hbelow headerSize (by omega)).trans hcode
  · exact (congrArg UInt8.toNat (hbelow (headerSize + 1) (by omega))).trans hcount
  · refine (pdu_testBit _ 2 n).trans ((hbits n).trans ?_)
    by_cases hin : n < quantity
    · rw [if_pos (by omega), if_pos hin, h.lock_view]
    · rw [if_neg (by omega), if_neg hin, hpadding n (by omega) hn]

theorem processReadRegsReq_table {address : UInt16} {quantity : ℕ} (hlength : 5 ≤ length)
    (haddress : request.getU16 1 = address) (hquantity : (request.getU16 3).toNat = quantity)
    (hlo : 1 ≤ quantity) (hhi : quantity ≤ 125) :
    Answered view connection (processReadRegsReq settings connection request length w)
      (2 + quantity * 2)
      (CarriesRegs (request 0) quantity fun n => (view w.user).regs (address + UInt16.ofNat n))
      (view w.user) := by
  subst haddress hquantity
  set quantity := (request.getU16 3).toNat
  rw [processReadRegsReq, if_neg (by omega), if_neg (by omega)]
  set response : Memory UInt8 := Function.update (Function.update connection.responseAdu headerSize (request 0))
    (headerSize + 1) (UInt8.ofNat (quantity * 2)) with hresponse
  have hcode : response headerSize = request 0 := by
    rw [hresponse, Function.update_of_ne (by omega), Function.update_self]
  have hcount : (response (headerSize + 1)).toNat = quantity * 2 := by
    rw [hresponse, Function.update_self, UInt8.toNat_ofNat', Nat.mod_eq_of_lt (by omega)]
  obtain ⟨hok, hview, hwords⟩ := readRegs_table h (request.getU16 1) (headerSize + 2) quantity 0
    response (modbusServerLock settings w)
  have hbelow := fun p (hp : p < headerSize + 2) => readRegs_below settings (request.getU16 1)
    hp quantity 0 response (modbusServerLock settings w)
  refine Answered.finish hpos _ hok _ ?_ _ ⟨?_, ?_, fun n hn => ?_⟩ ?_
  · rw [hbelow _ (by omega), hcount]
  · rw [h.unlock_view, hview, h.lock_view]
  · exact (hbelow headerSize (by omega)).trans hcode
  · exact (congrArg UInt8.toNat (hbelow (headerSize + 1) (by omega))).trans hcount
  · rw [pdu_getU16, ← Nat.add_assoc, hwords, if_pos (by omega), h.lock_view]

theorem modbusServerProcessWriteSingleCoilReq_table {address : UInt16} {state : Bool}
    (hlength : 5 ≤ length) (haddress : request.getU16 1 = address)
    (hstate : request.getU16 3 = if state then coilStateOn else coilStateOff) :
    Answered view connection
      (modbusServerProcessWriteSingleCoilReq settings connection request length w) 5
      (Echoes request 2) ((view w.user).setCoil address state) := by
  subst haddress
  have hvalid : ¬ (request.getU16 3 ≠ coilStateOn ∧ request.getU16 3 ≠ coilStateOff) := by
    rw [hstate]
    cases state <;> decide
  have hon : decide (request.getU16 3 = coilStateOn) = state := by
    rw [hstate]
    cases state <;> decide
  obtain ⟨hok, hview⟩ := h.writeCoil_eq (request.getU16 1) state true (modbusServerLock settings w)
  rw [modbusServerProcessWriteSingleCoilReq, if_neg (by omega), if_neg hvalid, hon]
  refine Answered.finish hpos _ hok _ rfl _ (echoes_echoResponse ..) ?_
  rw [h.unlock_view, hview, if_pos rfl, h.lock_view]

theorem modbusServerProcessWriteSingleRegReq_table {address value : UInt16} (hlength : 5 ≤ length)
    (haddress : request.getU16 1 = address) (hvalue : request.getU16 3 = value) :
    Answered view connection
      (modbusServerProcessWriteSingleRegReq settings connection request length w) 5
      (Echoes request 2) ((view w.user).setReg address value) := by
  subst haddress hvalue
  obtain ⟨hok, hview⟩ := h.writeReg_eq (request.getU16 1) (request.getU16 3) true
    (modbusServerLock settings w)
  rw [modbusServerProcessWriteSingleRegReq, if_neg (by omega)]
  refine Answered.finish hpos _ hok _ rfl _ (echoes_echoResponse ..) ?_
  rw [h.unlock_view, hview, if_pos rfl, h.lock_view]

theorem modbusServerProcessWriteMultipleCoilsReq_table {address : UInt16} {quantity : ℕ}
    (hlength : 6 + coilBytes quantity ≤ length) (haddress : request.getU16 1 = address)
    (hquantity : (request.getU16 3).toNat = quantity) (hlo : 1 ≤ quantity) (hhi : quantity ≤ 2000)
    (hcount : (request 5).toNat = coilBytes quantity)
    (hrange : address.toNat + quantity ≤ 65536) :
    Answered view connection
      (modbusServerProcessWriteMultipleCoilsReq settings connection request length w) 5
      (Echoes request 2) ((view w.user).setCoils address quantity (request.testBit 6)) := by
  subst haddress hquantity
  set quantity := (request.getU16 3).toNat
  obtain ⟨hok, hview⟩ := writeCoilsTwoPhase_table h (request.getU16 1) request 6 quantity
    (modbusServerLock settings w) hrange
  rw [modbusServerProcessWriteMultipleCoilsReq, if_neg (by omega), if_neg (by omega),
    if_neg (by omega), if_neg (not_not_intro hcount)]
  refine Answered.finish hpos _ hok _ rfl _ (echoes_echoResponse ..) ?_
  rw [h.unlock_view, hview, h.lock_view]

theorem modbusServerProcessWriteMultipleRegsReq_table {address : UInt16} {quantity : ℕ}
    (hlength : 6 + quantity * 2 ≤ length) (haddress : request.getU16 1 = address)
    (hquantity : (request.getU16 3).toNat = quantity) (hlo : 1 ≤ quantity) (hhi : quantity ≤ 123)
    (hcount : (request 5).toNat = quantity * 2) (hrange : address.toNat + quantity ≤ 65536) :
    Answered view connection
      (modbusServerProcessWriteMultipleRegsReq settings connection request length w) 5
      (Echoes request 2)
      ((view w.user).setRegs address quantity fun n => request.getU16 (6 + 2 * n)) := by
  subst haddress hquantity
  set quantity := (request.getU16 3).toNat
  obtain ⟨hok, hview⟩ := writeRegsTwoPhase_table h (request.getU16 1) request 6 quantity
    (modbusServerLock settings w) hrange
  rw [modbusServerProcessWriteMultipleRegsReq, if_neg (by omega), if_neg (by omega),
    if_neg (by omega), if_neg (not_not_intro hcount)]
  refine Answered.finish hpos _ hok _ rfl _ (echoes_echoResponse ..) ?_
  rw [h.unlock_view, hview, h.lock_view]

theorem modbusServerProcessMaskWriteRegReq_table {address andMask orMask : UInt16}
    (hlength : 7 ≤ length) (haddress : request.getU16 1 = address)
    (hand : request.getU16 3 = andMask) (hor : request.getU16 5 = orMask) :
    Answered view connection
      (modbusServerProcessMaskWriteRegReq settings connection request length w) 7
      (Echoes request 3) ((view w.user).setReg address
        (((view w.user).regs address &&& andMask) ||| (orMask &&& ~~~andMask))) := by
  subst haddress hand hor
  obtain ⟨hread, hvalue, hsame⟩ := h.readReg_eq (request.getU16 1) (modbusServerLock settings w)
  rw [h.lock_view] at hvalue hsame
  obtain ⟨hok, hview⟩ := h.writeReg_eq (request.getU16 1)
    (((view w.user).regs (request.getU16 1) &&& request.getU16 3) |||
      (request.getU16 5 &&& ~~~request.getU16 3)) true
    (modbusServerReadReg settings (request.getU16 1) (modbusServerLock settings w)).2.2
  rw [modbusServerProcessMaskWriteRegReq, if_neg (by omega)]
  simp only [hread, hvalue, if_true]
  refine Answered.finish hpos _ hok _ rfl _ (echoes_echoResponse ..) ?_
  rw [h.unlock_view, hview, if_pos rfl, hsame]

end Handlers

end Modbus
