import CycloneTcp.Modbus.ServerMisc

/-! # Modbus/TCP server: request processing

One handler per function code. A handler is given the request PDU (`request`, the memory behind the
MBAP header) and its length, and works on the connection and the application. The response PDU lies
in `responseAdu` behind the header, so its field `k` is stored at `headerSize + k`.

The handlers for coils and for discrete inputs are the same code under two names, and so are those
for holding and for input registers; each pair is one definition here. -/

set_option autoImplicit false

namespace Modbus

variable {σ : Type*} (settings : ModbusServerSettings σ)

/-! ## Loops over the table

`k` counts the iterations left and `i` is the loop variable. The loops stop at the first callback
that reports an error. -/

/-- Read `k` coils and pack them into the bit array at `base`. -/
def readCoils (address : UInt16) (base : ℕ) :
    ℕ → ℕ → Memory UInt8 → ServerWorld σ → ErrorCode × Memory UInt8 × ServerWorld σ
  | 0, _, response, w => (.noError, response, w)
  | k + 1, i, response, w =>
      let r := modbusServerReadCoil settings (address + UInt16.ofNat i) w
      if r.1 = .noError then
        readCoils address base k (i + 1) (response.putBit base i r.2.1) r.2.2
      else
        (r.1, response, r.2.2)

/-- Read `k` registers into the word array at `base`; the value is stored before the status is
looked at. -/
def readRegs (address : UInt16) (base : ℕ) :
    ℕ → ℕ → Memory UInt8 → ServerWorld σ → ErrorCode × Memory UInt8 × ServerWorld σ
  | 0, _, response, w => (.noError, response, w)
  | k + 1, i, response, w =>
      let r := modbusServerReadReg settings (address + UInt16.ofNat i) w
      let response := response.setU16 (base + 2 * i) r.2.1
      if r.1 = .noError then
        readRegs address base k (i + 1) response r.2.2
      else
        (r.1, response, r.2.2)

/-- One phase over `k` coils, taken from the bit array at `request + base`. -/
def writeCoils (address : UInt16) (request : Memory UInt8) (base : ℕ) (commit : Bool) :
    ℕ → ℕ → ServerWorld σ → ErrorCode × ServerWorld σ
  | 0, _, w => (.noError, w)
  | k + 1, i, w =>
      let r := modbusServerWriteCoil settings (address + UInt16.ofNat i)
        (request.testBit base i) commit w
      if r.1 = .noError then
        writeCoils address request base commit k (i + 1) r.2
      else
        r

/-- One phase over `k` registers, taken from the word array at `request + base`. -/
def writeRegs (address : UInt16) (request : Memory UInt8) (base : ℕ) (commit : Bool) :
    ℕ → ℕ → ServerWorld σ → ErrorCode × ServerWorld σ
  | 0, _, w => (.noError, w)
  | k + 1, i, w =>
      let r := modbusServerWriteReg settings (address + UInt16.ofNat i)
        (request.getU16 (base + 2 * i)) commit w
      if r.1 = .noError then
        writeRegs address request base commit k (i + 1) r.2
      else
        r

/-- The validation phase over all coils, then the commit phase. -/
def writeCoilsTwoPhase (address : UInt16) (request : Memory UInt8) (base quantity : ℕ)
    (w : ServerWorld σ) : ErrorCode × ServerWorld σ :=
  let r := writeCoils settings address request base false quantity 0 w
  if r.1 = .noError then writeCoils settings address request base true quantity 0 r.2 else r

/-- The validation phase over all registers, then the commit phase. -/
def writeRegsTwoPhase (address : UInt16) (request : Memory UInt8) (base quantity : ℕ)
    (w : ServerWorld σ) : ErrorCode × ServerWorld σ :=
  let r := writeRegs settings address request base false quantity 0 w
  if r.1 = .noError then writeRegs settings address request base true quantity 0 r.2 else r

/-! ## Handlers -/

/-- What a handler returns: its status, the connection and the application. -/
abbrev Outcome (σ : Type*) := ErrorCode × ModbusClientConnection × ServerWorld σ

/-- `return modbusServerFormatMbapHeader(connection, length)`. -/
def finish (connection : ModbusClientConnection) (length : ℕ) (w : ServerWorld σ) : Outcome σ :=
  let r := modbusServerFormatMbapHeader connection length
  (r.1, r.2, w)

/-- Store the response PDU, keeping the rest of the connection. -/
def ModbusClientConnection.withResponse (connection : ModbusClientConnection)
    (responseAdu : Memory UInt8) : ModbusClientConnection :=
  { connection with responseAdu := responseAdu }

/-- The body `modbusServerProcessReadCoilsReq` and `modbusServerProcessReadDiscreteInputsReq`
share. -/
def processReadBitsReq (connection : ModbusClientConnection) (request : Memory UInt8) (length : ℕ)
    (w : ServerWorld σ) : Outcome σ :=
  if length < 5 then
    (.invalidLength, connection, w)
  else
    let address := request.getU16 1
    let quantity := (request.getU16 3).toNat
    if quantity < 1 ∨ quantity > 2000 then
      (.invalidValue, connection, w)
    else
      let byteCount := coilBytes quantity
      let response := Function.update (Function.update connection.responseAdu headerSize (request 0))
        (headerSize + 1) (UInt8.ofNat byteCount)
      -- the unused bits of the last byte are cleared
      let response := if quantity % 8 ≠ 0 then
          Function.update response (headerSize + 2 + (byteCount - 1)) 0
        else response
      let r := readCoils settings address (headerSize + 2) quantity 0 response
        (modbusServerLock settings w)
      let w := modbusServerUnlock settings r.2.2
      if r.1 ≠ .noError then
        (r.1, connection.withResponse r.2.1, w)
      else
        finish (connection.withResponse r.2.1) (2 + (r.2.1 (headerSize + 1)).toNat) w

/-- `modbusServerProcessReadCoilsReq`. -/
def modbusServerProcessReadCoilsReq (connection : ModbusClientConnection) (request : Memory UInt8)
    (length : ℕ) (w : ServerWorld σ) : Outcome σ :=
  processReadBitsReq settings connection request length w

/-- `modbusServerProcessReadDiscreteInputsReq`. -/
def modbusServerProcessReadDiscreteInputsReq (connection : ModbusClientConnection)
    (request : Memory UInt8) (length : ℕ) (w : ServerWorld σ) : Outcome σ :=
  processReadBitsReq settings connection request length w

/-- The body `modbusServerProcessReadHoldingRegsReq` and `modbusServerProcessReadInputRegsReq`
share. -/
def processReadRegsReq (connection : ModbusClientConnection) (request : Memory UInt8) (length : ℕ)
    (w : ServerWorld σ) : Outcome σ :=
  if length < 5 then
    (.invalidLength, connection, w)
  else
    let address := request.getU16 1
    let quantity := (request.getU16 3).toNat
    if quantity < 1 ∨ quantity > 125 then
      (.invalidValue, connection, w)
    else
      let response := Function.update (Function.update connection.responseAdu headerSize (request 0))
        (headerSize + 1) (UInt8.ofNat (quantity * 2))
      let r := readRegs settings address (headerSize + 2) quantity 0 response
        (modbusServerLock settings w)
      let w := modbusServerUnlock settings r.2.2
      if r.1 ≠ .noError then
        (r.1, connection.withResponse r.2.1, w)
      else
        finish (connection.withResponse r.2.1) (2 + (r.2.1 (headerSize + 1)).toNat) w

/-- `modbusServerProcessReadHoldingRegsReq`. -/
def modbusServerProcessReadHoldingRegsReq (connection : ModbusClientConnection)
    (request : Memory UInt8) (length : ℕ) (w : ServerWorld σ) : Outcome σ :=
  processReadRegsReq settings connection request length w

/-- `modbusServerProcessReadInputRegsReq`. -/
def modbusServerProcessReadInputRegsReq (connection : ModbusClientConnection)
    (request : Memory UInt8) (length : ℕ) (w : ServerWorld σ) : Outcome σ :=
  processReadRegsReq settings connection request length w

/-- The response echoes the function code and the first `words` words of the request. -/
def echoResponse (request : Memory UInt8) (words : ℕ) (responseAdu : Memory UInt8) :
    Memory UInt8 :=
  (List.range words).foldl
    (fun m j => m.setU16 (headerSize + 1 + 2 * j) (request.getU16 (1 + 2 * j)))
    (Function.update responseAdu headerSize (request 0))

/-- `modbusServerProcessWriteSingleCoilReq`. -/
def modbusServerProcessWriteSingleCoilReq (connection : ModbusClientConnection)
    (request : Memory UInt8) (length : ℕ) (w : ServerWorld σ) : Outcome σ :=
  if length < 5 then
    (.invalidLength, connection, w)
  else
    let address := request.getU16 1
    let outputValue := request.getU16 3
    if outputValue ≠ coilStateOn ∧ outputValue ≠ coilStateOff then
      (.invalidValue, connection, w)
    else
      let state := decide (outputValue = coilStateOn)
      let r := modbusServerWriteCoil settings address state true (modbusServerLock settings w)
      let w := modbusServerUnlock settings r.2
      if r.1 ≠ .noError then
        (r.1, connection, w)
      else
        finish (connection.withResponse (echoResponse request 2 connection.responseAdu)) 5 w

/-- `modbusServerProcessWriteSingleRegReq`. -/
def modbusServerProcessWriteSingleRegReq (connection : ModbusClientConnection)
    (request : Memory UInt8) (length : ℕ) (w : ServerWorld σ) : Outcome σ :=
  if length < 5 then
    (.invalidLength, connection, w)
  else
    let address := request.getU16 1
    let value := request.getU16 3
    let r := modbusServerWriteReg settings address value true (modbusServerLock settings w)
    let w := modbusServerUnlock settings r.2
    if r.1 ≠ .noError then
      (r.1, connection, w)
    else
      finish (connection.withResponse (echoResponse request 2 connection.responseAdu)) 5 w

/-- `modbusServerProcessWriteMultipleCoilsReq`. -/
def modbusServerProcessWriteMultipleCoilsReq (connection : ModbusClientConnection)
    (request : Memory UInt8) (length : ℕ) (w : ServerWorld σ) : Outcome σ :=
  if length < 6 then
    (.invalidLength, connection, w)
  else if length - 6 < (request 5).toNat then
    (.invalidLength, connection, w)
  else
    let address := request.getU16 1
    let quantity := (request.getU16 3).toNat
    if quantity < 1 ∨ quantity > 2000 then
      (.invalidValue, connection, w)
    else if (request 5).toNat ≠ coilBytes quantity then
      (.invalidValue, connection, w)
    else
      let r := writeCoilsTwoPhase settings address request 6 quantity (modbusServerLock settings w)
      let w := modbusServerUnlock settings r.2
      if r.1 ≠ .noError then
        (r.1, connection, w)
      else
        finish (connection.withResponse (echoResponse request 2 connection.responseAdu)) 5 w

/-- `modbusServerProcessWriteMultipleRegsReq`. -/
def modbusServerProcessWriteMultipleRegsReq (connection : ModbusClientConnection)
    (request : Memory UInt8) (length : ℕ) (w : ServerWorld σ) : Outcome σ :=
  if length < 6 then
    (.invalidLength, connection, w)
  else if length - 6 < (request 5).toNat then
    (.invalidLength, connection, w)
  else
    let address := request.getU16 1
    let quantity := (request.getU16 3).toNat
    if quantity < 1 ∨ quantity > 123 then
      (.invalidValue, connection, w)
    else if (request 5).toNat ≠ quantity * 2 then
      (.invalidValue, connection, w)
    else
      let r := writeRegsTwoPhase settings address request 6 quantity (modbusServerLock settings w)
      let w := modbusServerUnlock settings r.2
      if r.1 ≠ .noError then
        (r.1, connection, w)
      else
        finish (connection.withResponse (echoResponse request 2 connection.responseAdu)) 5 w

/-- `modbusServerProcessMaskWriteRegReq`. -/
def modbusServerProcessMaskWriteRegReq (connection : ModbusClientConnection)
    (request : Memory UInt8) (length : ℕ) (w : ServerWorld σ) : Outcome σ :=
  if length < 7 then
    (.invalidLength, connection, w)
  else
    let address := request.getU16 1
    let andMask := request.getU16 3
    let orMask := request.getU16 5
    let r := modbusServerReadReg settings address (modbusServerLock settings w)
    let r := if r.1 = .noError then
        modbusServerWriteReg settings address ((r.2.1 &&& andMask) ||| (orMask &&& ~~~andMask)) true
          r.2.2
      else (r.1, r.2.2)
    let w := modbusServerUnlock settings r.2
    if r.1 ≠ .noError then
      (r.1, connection, w)
    else
      finish (connection.withResponse (echoResponse request 3 connection.responseAdu)) 7 w

/-- `modbusServerProcessReadWriteMultipleRegsReq`. The data length is computed with the size of the
Write Multiple Registers header, 6, although the header of this request has 10 bytes. -/
def modbusServerProcessReadWriteMultipleRegsReq (connection : ModbusClientConnection)
    (request : Memory UInt8) (length : ℕ) (w : ServerWorld σ) : Outcome σ :=
  if length < 10 then
    (.invalidLength, connection, w)
  else if length - 6 < (request 9).toNat then
    (.invalidLength, connection, w)
  else
    let readAddress := request.getU16 1
    let readQuantity := (request.getU16 3).toNat
    let writeAddress := request.getU16 5
    let writeQuantity := (request.getU16 7).toNat
    if readQuantity < 1 ∨ readQuantity > 125 then
      (.invalidValue, connection, w)
    else if writeQuantity < 1 ∨ writeQuantity > 121 then
      (.invalidValue, connection, w)
    else if (request 9).toNat ≠ writeQuantity * 2 then
      (.invalidValue, connection, w)
    else
      let response := Function.update (Function.update connection.responseAdu headerSize (request 0))
        (headerSize + 1) (UInt8.ofNat (readQuantity * 2))
      let r := readRegs settings readAddress (headerSize + 2) readQuantity 0 response
        (modbusServerLock settings w)
      let s := if r.1 = .noError then
          writeRegsTwoPhase settings writeAddress request 10 writeQuantity r.2.2
        else (r.1, r.2.2)
      let w := modbusServerUnlock settings s.2
      if s.1 ≠ .noError then
        (s.1, connection.withResponse r.2.1, w)
      else
        finish (connection.withResponse r.2.1) (2 + (r.2.1 (headerSize + 1)).toNat) w

/-- `modbusServerFormatExceptionResp`. -/
def modbusServerFormatExceptionResp (connection : ModbusClientConnection) (functionCode : UInt8)
    (exceptionCode : UInt8) : ErrorCode × ModbusClientConnection :=
  modbusServerFormatMbapHeader
    (connection.withResponse
      (Function.update
        (Function.update connection.responseAdu headerSize (exceptionMask ||| functionCode))
        (headerSize + 1) exceptionCode))
    2

/-- The handler the `switch` over the function code selects. -/
def dispatch (connection : ModbusClientConnection) (request : Memory UInt8) (length : ℕ)
    (w : ServerWorld σ) : Outcome σ :=
  if request 0 = functionReadCoils then
    modbusServerProcessReadCoilsReq settings connection request length w
  else if request 0 = functionReadDiscreteInputs then
    modbusServerProcessReadDiscreteInputsReq settings connection request length w
  else if request 0 = functionReadHoldingRegs then
    modbusServerProcessReadHoldingRegsReq settings connection request length w
  else if request 0 = functionReadInputRegs then
    modbusServerProcessReadInputRegsReq settings connection request length w
  else if request 0 = functionWriteSingleCoil then
    modbusServerProcessWriteSingleCoilReq settings connection request length w
  else if request 0 = functionWriteSingleReg then
    modbusServerProcessWriteSingleRegReq settings connection request length w
  else if request 0 = functionWriteMultipleCoils then
    modbusServerProcessWriteMultipleCoilsReq settings connection request length w
  else if request 0 = functionWriteMultipleRegs then
    modbusServerProcessWriteMultipleRegsReq settings connection request length w
  else if request 0 = functionMaskWriteReg then
    modbusServerProcessMaskWriteRegReq settings connection request length w
  else if request 0 = functionReadWriteMultipleRegs then
    modbusServerProcessReadWriteMultipleRegsReq settings connection request length w
  else
    (.invalidFunctionCode, connection, w)

/-- The errors that are answered by an exception response. -/
def isException (error : ErrorCode) : Bool :=
  error = .invalidFunctionCode || error = .invalidAddress || error = .invalidValue
    || error = .writeFailed || error = .readFailed || error = .deviceBusy

/-- `modbusServerProcessRequest`. -/
def modbusServerProcessRequest (connection : ModbusClientConnection) (w : ServerWorld σ) :
    Outcome σ :=
  let p := modbusServerGetRequestPdu connection
  if p.2 = 0 then
    (.invalidLength, connection, w)
  else
    let w := w.dumpRequestPdu (p.1.read 0 p.2)
    let r := dispatch settings connection p.1 p.2 w
    if isException r.1 then
      let s := modbusServerFormatExceptionResp r.2.1 (p.1 0)
        (modbusServerTranslateExceptionCode r.1)
      (s.1, s.2, r.2.2)
    else
      r

end Modbus
