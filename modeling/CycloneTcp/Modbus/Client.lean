import CycloneTcp.Modbus.ClientPdu

/-! # Modbus/TCP client: the calls

Each call checks its quantity and then runs the same loop: format the request, carry the transaction
through, parse the response. The loop ends when its body reports an error or the response has been
parsed; here it is given fuel, and `none` stands for a loop that has not ended yet. -/

set_option autoImplicit false

namespace Modbus

/-- What a client call fixes: how its request is formatted and its response parsed. `β` is the
caller's buffer for the values. -/
structure Call (β : Type*) where
  format : ModbusClientContext → UInt32 → ErrorCode × ModbusClientContext
  parse : ModbusClientContext → β → ErrorCode × β

/-- The client inside a call, with the caller's buffer. -/
structure Calling (ν β : Type*) extends Client ν where
  value : β

variable {ν β : Type*} (api : SocketApi ν)

/-- What one iteration of the loop ends with: the status, and whether the loop is left by `break`. -/
structure Iteration (ν β : Type*) where
  error : ErrorCode
  left : Bool
  calling : Calling ν β

/-- One iteration of the loop all calls share. -/
def Call.iterate (call : Call β) (s : Calling ν β) : Iteration ν β :=
  match s.context.state with
  | .connected =>
      let r := call.format s.context (api.osGetSystemTime s.net)
      ⟨r.1, false, { s with context := r.2 }⟩
  | .sending | .receiving =>
      let r := modbusClientTransaction api s.toClient
      ⟨r.1, false, { s with toClient := r.2 }⟩
  | .complete =>
      let r := call.parse s.context s.value
      ⟨r.1, true, { s with context := { s.context with state := .connected }, value := r.2 }⟩
  | _ => ⟨.notConnected, false, s⟩

/-- `while(!error)` around `Call.iterate`. -/
def Call.loop (call : Call β) : ℕ → Calling ν β → Option (ErrorCode × Calling ν β)
  | 0, _ => none
  | fuel + 1, s =>
      let r := call.iterate api s
      if r.error = .noError ∧ r.left = false then call.loop fuel r.calling
      else some (r.error, r.calling)

/-- A call with its check of the parameters. -/
def Call.run (call : Call β) (accepted : Prop) [Decidable accepted] (fuel : ℕ) (s : Calling ν β) :
    Option (ErrorCode × Calling ν β) :=
  if accepted then call.loop api fuel s else some (.invalidParameter, s)

/-! ## The calls of the source -/

def readCoilsCall (address : UInt16) (quantity : ℕ) : Call (Memory UInt8) where
  format := modbusClientFormatReadCoilsReq address quantity
  parse := modbusClientParseReadCoilsResp quantity

/-- `modbusClientReadCoils`. -/
def modbusClientReadCoils (address : UInt16) (quantity : ℕ) :
    ℕ → Calling ν (Memory UInt8) → Option (ErrorCode × Calling ν (Memory UInt8)) :=
  (readCoilsCall address quantity).run api (1 ≤ quantity ∧ quantity ≤ 2000)

def readDiscreteInputsCall (address : UInt8) (quantity : ℕ) : Call (Memory UInt8) where
  format := modbusClientFormatReadDiscreteInputsReq address.toUInt16 quantity
  parse := modbusClientParseReadDiscreteInputsResp quantity

/-- `modbusClientReadDiscreteInputs`: its address parameter is a byte. -/
def modbusClientReadDiscreteInputs (address : UInt8) (quantity : ℕ) :
    ℕ → Calling ν (Memory UInt8) → Option (ErrorCode × Calling ν (Memory UInt8)) :=
  (readDiscreteInputsCall address quantity).run api (1 ≤ quantity ∧ quantity ≤ 2000)

def readHoldingRegsCall (address : UInt16) (quantity : ℕ) : Call (Memory UInt16) where
  format := modbusClientFormatReadHoldingRegsReq address quantity
  parse := modbusClientParseReadHoldingRegsResp quantity

/-- `modbusClientReadHoldingRegs`. -/
def modbusClientReadHoldingRegs (address : UInt16) (quantity : ℕ) :
    ℕ → Calling ν (Memory UInt16) → Option (ErrorCode × Calling ν (Memory UInt16)) :=
  (readHoldingRegsCall address quantity).run api (1 ≤ quantity ∧ quantity ≤ 125)

def readInputRegsCall (address : UInt16) (quantity : ℕ) : Call (Memory UInt16) where
  format := modbusClientFormatReadInputRegsReq address quantity
  parse := modbusClientParseReadInputRegsResp quantity

/-- `modbusClientReadInputRegs`. -/
def modbusClientReadInputRegs (address : UInt16) (quantity : ℕ) :
    ℕ → Calling ν (Memory UInt16) → Option (ErrorCode × Calling ν (Memory UInt16)) :=
  (readInputRegsCall address quantity).run api (1 ≤ quantity ∧ quantity ≤ 125)

def writeSingleCoilCall (address : UInt16) (value : Bool) : Call Unit where
  format := modbusClientFormatWriteSingleCoilReq address value
  parse := modbusClientParseWriteSingleCoilResp address value

/-- `modbusClientWriteSingleCoil`. -/
def modbusClientWriteSingleCoil (address : UInt16) (value : Bool) :
    ℕ → Calling ν Unit → Option (ErrorCode × Calling ν Unit) :=
  (writeSingleCoilCall address value).run api True

def writeSingleRegCall (address value : UInt16) : Call Unit where
  format := modbusClientFormatWriteSingleRegReq address value
  parse := modbusClientParseWriteSingleRegResp address value

/-- `modbusClientWriteSingleReg`. -/
def modbusClientWriteSingleReg (address value : UInt16) :
    ℕ → Calling ν Unit → Option (ErrorCode × Calling ν Unit) :=
  (writeSingleRegCall address value).run api True

def writeMultipleCoilsCall (address : UInt16) (quantity : ℕ) (value : Memory UInt8) :
    Call Unit where
  format := modbusClientFormatWriteMultipleCoilsReq address quantity value
  parse := modbusClientParseWriteMultipleCoilsResp address quantity

/-- `modbusClientWriteMultipleCoils`. -/
def modbusClientWriteMultipleCoils (address : UInt16) (quantity : ℕ) (value : Memory UInt8) :
    ℕ → Calling ν Unit → Option (ErrorCode × Calling ν Unit) :=
  (writeMultipleCoilsCall address quantity value).run api (1 ≤ quantity ∧ quantity ≤ 1968)

def writeMultipleRegsCall (address : UInt16) (quantity : ℕ) (value : Memory UInt16) :
    Call Unit where
  format := modbusClientFormatWriteMultipleRegsReq address quantity value
  parse := modbusClientParseWriteMultipleRegsResp address quantity

/-- `modbusClientWriteMultipleRegs`. -/
def modbusClientWriteMultipleRegs (address : UInt16) (quantity : ℕ) (value : Memory UInt16) :
    ℕ → Calling ν Unit → Option (ErrorCode × Calling ν Unit) :=
  (writeMultipleRegsCall address quantity value).run api (1 ≤ quantity ∧ quantity ≤ 123)

def maskWriteRegCall (address andMask orMask : UInt16) : Call Unit where
  format := modbusClientFormatMaskWriteRegReq address andMask orMask
  parse := modbusClientParseMaskWriteRegResp address andMask orMask

/-- `modbusClientMaskWriteReg`. -/
def modbusClientMaskWriteReg (address andMask orMask : UInt16) :
    ℕ → Calling ν Unit → Option (ErrorCode × Calling ν Unit) :=
  (maskWriteRegCall address andMask orMask).run api True

def readWriteMultipleRegsCall (readAddress readQuantity writeAddress writeQuantity : UInt16)
    (writeValue : Memory UInt16) : Call (Memory UInt16) where
  format := modbusClientFormatReadWriteMultipleRegsReq readAddress readQuantity writeAddress
    writeQuantity writeValue
  parse := modbusClientParseReadWriteMultipleRegsResp readQuantity.toNat

/-- `modbusClientReadWriteMultipleRegs`. -/
def modbusClientReadWriteMultipleRegs (readAddress readQuantity writeAddress writeQuantity : UInt16)
    (writeValue : Memory UInt16) :
    ℕ → Calling ν (Memory UInt16) → Option (ErrorCode × Calling ν (Memory UInt16)) :=
  (readWriteMultipleRegsCall readAddress readQuantity writeAddress writeQuantity writeValue).run api
    ((1 ≤ readQuantity.toNat ∧ readQuantity.toNat ≤ 125) ∧
      (1 ≤ writeQuantity.toNat ∧ writeQuantity.toNat ≤ 121))

end Modbus
