import CycloneTcp.Modbus.Common

/-! # Modbus/TCP server: connections, headers and the application's table

The server's side of a connection (`ModbusClientConnection`), the handling of MBAP headers, and the
callbacks through which the server reaches the application's table of coils and registers. The
application is a state `σ` that the callbacks read and update; beside it the model records every
callback invocation with its arguments, and every PDU the request handler starts to process. -/

set_option autoImplicit false

namespace Modbus

/-- `ModbusConnectionState`. -/
inductive ModbusConnectionState where
  | closed
  | receiving
  | sending
  deriving DecidableEq, Repr

/-- `ModbusClientConnection`: one client as the server sees it. -/
structure ModbusClientConnection where
  state : ModbusConnectionState
  /-- Socket handle; `none` is `NULL`. -/
  socket : Option ℕ
  timestamp : UInt32
  requestAdu : Memory UInt8
  requestAduLen : ℕ
  requestAduPos : ℕ
  requestUnitId : UInt8
  responseAdu : Memory UInt8
  responseAduLen : ℕ
  responseAduPos : ℕ

/-- `ModbusServerSettings`, with the callbacks as functions on the application's state. A callback
that is `NULL` is `none`. What `*state` and `*value` hold after a failing read is part of the
callback's result. -/
structure ModbusServerSettings (σ : Type*) where
  unitId : UInt8
  lockCallback : Option (σ → σ)
  unlockCallback : σ → σ
  readCoilCallback : Option (UInt16 → σ → ErrorCode × Bool × σ)
  writeCoilCallback : Option (UInt16 → Bool → Bool → σ → ErrorCode × σ)
  readRegCallback : Option (UInt16 → σ → ErrorCode × UInt16 × σ)
  writeRegValueCallback : Option (UInt16 → UInt16 → Bool → σ → ErrorCode × σ)

/-- A call the server makes into the application. -/
inductive Invocation where
  | lock
  | unlock
  | readCoil (address : UInt16)
  | writeCoil (address : UInt16) (state commit : Bool)
  | readReg (address : UInt16)
  | writeReg (address value : UInt16) (commit : Bool)
  deriving DecidableEq, Repr

/-- The application with the record of what it was asked to do: the callback invocations, and the
request PDUs `modbusDumpRequestPdu` was shown, each in order. -/
structure ServerWorld (σ : Type*) where
  user : σ
  calls : List Invocation
  pdus : List (List UInt8)

namespace ServerWorld

variable {σ : Type*}

/-- Record a callback invocation and continue in the state the callback leaves. -/
def invoke (w : ServerWorld σ) (call : Invocation) (user : σ) : ServerWorld σ :=
  { w with user := user, calls := w.calls ++ [call] }

/-- `modbusDumpRequestPdu(pdu, n)`. -/
def dumpRequestPdu (w : ServerWorld σ) (bytes : List UInt8) : ServerWorld σ :=
  { w with pdus := w.pdus ++ [bytes] }

@[simp] theorem dumpRequestPdu_user (w : ServerWorld σ) (bytes : List UInt8) :
    (w.dumpRequestPdu bytes).user = w.user := rfl

end ServerWorld

/-! ## Headers -/

/-- `modbusServerParseMbapHeader`. -/
def modbusServerParseMbapHeader (connection : ModbusClientConnection) :
    ErrorCode × ModbusClientConnection :=
  if connection.requestAduPos < headerSize then
    (.invalidLength, connection)
  else
    -- the length field counts the unit identifier and the PDU
    let n := (connection.requestAdu.getU16 4).toNat
    if n < 1 then
      (.invalidLength, connection)
    else if connection.requestAdu.getU16 2 ≠ protocolId then
      (.wrongIdentifier, connection)
    else if n - 1 > maxPduSize then
      (.invalidLength, connection)
    else
      (.noError, { connection with
        requestUnitId := connection.requestAdu 6
        requestAduLen := headerSize + (n - 1) })

/-- The seven header bytes `modbusServerFormatMbapHeader` stores into the response ADU. -/
def responseHeader (requestAdu : Memory UInt8) (length : ℕ) (responseAdu : Memory UInt8) :
    Memory UInt8 :=
  Function.update
    (((responseAdu.setU16 0 (requestAdu.getU16 0)).setU16 2 (requestAdu.getU16 2)).setU16 4
      (UInt16.ofNat (length + 1)))
    6 (requestAdu 6)

/-- `modbusServerFormatMbapHeader`. -/
def modbusServerFormatMbapHeader (connection : ModbusClientConnection) (length : ℕ) :
    ErrorCode × ModbusClientConnection :=
  if connection.requestAduPos < headerSize then
    (.invalidLength, connection)
  else
    (.noError, { connection with
      responseAdu := responseHeader connection.requestAdu length connection.responseAdu
      responseAduLen := headerSize + length
      responseAduPos := 0
      state := .sending })

/-- `modbusServerGetRequestPdu`: the request PDU and its length. -/
def modbusServerGetRequestPdu (connection : ModbusClientConnection) : Memory UInt8 × ℕ :=
  (pdu connection.requestAdu,
    if connection.requestAduLen ≥ headerSize then connection.requestAduLen - headerSize else 0)

/-! ## The application's table -/

section Callbacks

variable {σ : Type*} (settings : ModbusServerSettings σ)

/-- `modbusServerLock`. -/
def modbusServerLock (w : ServerWorld σ) : ServerWorld σ :=
  match settings.lockCallback with
  | some callback => w.invoke .lock (callback w.user)
  | none => w

/-- `modbusServerUnlock`: the source tests `lockCallback` here too. -/
def modbusServerUnlock (w : ServerWorld σ) : ServerWorld σ :=
  match settings.lockCallback with
  | some _ => w.invoke .unlock (settings.unlockCallback w.user)
  | none => w

/-- `modbusServerReadCoil`. -/
def modbusServerReadCoil (address : UInt16) (w : ServerWorld σ) :
    ErrorCode × Bool × ServerWorld σ :=
  match settings.readCoilCallback with
  | some callback =>
      let r := callback address w.user
      (r.1, r.2.1, w.invoke (.readCoil address) r.2.2)
  | none => (.invalidAddress, false, w)

/-- `modbusServerWriteCoil`. -/
def modbusServerWriteCoil (address : UInt16) (state commit : Bool) (w : ServerWorld σ) :
    ErrorCode × ServerWorld σ :=
  match settings.writeCoilCallback with
  | some callback =>
      let r := callback address state commit w.user
      (r.1, w.invoke (.writeCoil address state commit) r.2)
  | none => (.invalidAddress, w)

/-- `modbusServerReadReg`. -/
def modbusServerReadReg (address : UInt16) (w : ServerWorld σ) :
    ErrorCode × UInt16 × ServerWorld σ :=
  match settings.readRegCallback with
  | some callback =>
      let r := callback address w.user
      (r.1, r.2.1, w.invoke (.readReg address) r.2.2)
  | none => (.invalidAddress, 0, w)

/-- `modbusServerWriteReg`. -/
def modbusServerWriteReg (address value : UInt16) (commit : Bool) (w : ServerWorld σ) :
    ErrorCode × ServerWorld σ :=
  match settings.writeRegValueCallback with
  | some callback =>
      let r := callback address value commit w.user
      (r.1, w.invoke (.writeReg address value commit) r.2)
  | none => (.invalidAddress, w)

end Callbacks

/-- `modbusServerTranslateExceptionCode`. -/
def modbusServerTranslateExceptionCode (status : ErrorCode) : UInt8 :=
  match status with
  | .invalidFunctionCode => exceptionIllegalFunction
  | .invalidAddress => exceptionIllegalDataAddress
  | .invalidValue => exceptionIllegalDataValue
  | .deviceBusy => exceptionSlaveDeviceBusy
  | _ => exceptionSlaveDeviceFailure

end Modbus
