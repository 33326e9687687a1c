import CycloneTcp.Modbus.ClientMisc

/-! # Modbus/TCP client: request formatting and response parsing

A formatter fills in the request PDU behind the header and then has the header formatted; a parser
checks the response PDU against the request and hands the values to the caller. The values of a read
go to the caller's buffer, which the parsers return. Requests of two words after the function code,
responses that echo the request, and responses that carry bits or registers are each one definition
here, under which the functions of the source are listed. -/

set_option autoImplicit false

namespace Modbus

/-! ## Formatting -/

/-- The context with another request buffer. -/
def ModbusClientContext.withRequest (context : ModbusClientContext) (requestAdu : Memory UInt8) :
    ModbusClientContext :=
  { context with requestAdu := requestAdu }

@[simp] theorem ModbusClientContext.withRequest_requestAdu (context : ModbusClientContext)
    (requestAdu : Memory UInt8) : (context.withRequest requestAdu).requestAdu = requestAdu := rfl

/-- A request PDU of a function code and two words. -/
def formatWordsReq (functionCode : UInt8) (word1 word2 : UInt16) (context : ModbusClientContext)
    (time : UInt32) : ErrorCode × ModbusClientContext :=
  let requestAdu : Memory UInt8 := Function.update context.requestAdu headerSize functionCode
  let requestAdu := (requestAdu.setU16 (headerSize + 1) word1).setU16 (headerSize + 3) word2
  modbusClientFormatMbapHeader (context.withRequest requestAdu) 5 time

/-- `modbusClientFormatReadCoilsReq`. -/
def modbusClientFormatReadCoilsReq (address : UInt16) (quantity : ℕ) :
    ModbusClientContext → UInt32 → ErrorCode × ModbusClientContext :=
  formatWordsReq functionReadCoils address (UInt16.ofNat quantity)

/-- `modbusClientFormatReadDiscreteInputsReq`. -/
def modbusClientFormatReadDiscreteInputsReq (address : UInt16) (quantity : ℕ) :
    ModbusClientContext → UInt32 → ErrorCode × ModbusClientContext :=
  formatWordsReq functionReadDiscreteInputs address (UInt16.ofNat quantity)

/-- `modbusClientFormatReadHoldingRegsReq`. -/
def modbusClientFormatReadHoldingRegsReq (address : UInt16) (quantity : ℕ) :
    ModbusClientContext → UInt32 → ErrorCode × ModbusClientContext :=
  formatWordsReq functionReadHoldingRegs address (UInt16.ofNat quantity)

/-- `modbusClientFormatReadInputRegsReq`. -/
def modbusClientFormatReadInputRegsReq (address : UInt16) (quantity : ℕ) :
    ModbusClientContext → UInt32 → ErrorCode × ModbusClientContext :=
  formatWordsReq functionReadInputRegs address (UInt16.ofNat quantity)

/-- The word that stands for a coil state. -/
def coilWord (value : Bool) : UInt16 := if value then coilStateOn else coilStateOff

/-- `modbusClientFormatWriteSingleCoilReq`. -/
def modbusClientFormatWriteSingleCoilReq (address : UInt16) (value : Bool) :
    ModbusClientContext → UInt32 → ErrorCode × ModbusClientContext :=
  formatWordsReq functionWriteSingleCoil address (coilWord value)

/-- `modbusClientFormatWriteSingleRegReq`. -/
def modbusClientFormatWriteSingleRegReq (address value : UInt16) :
    ModbusClientContext → UInt32 → ErrorCode × ModbusClientContext :=
  formatWordsReq functionWriteSingleReg address value

/-- `modbusClientFormatWriteMultipleCoilsReq`. -/
def modbusClientFormatWriteMultipleCoilsReq (address : UInt16) (quantity : ℕ) (value : Memory UInt8)
    (context : ModbusClientContext) (time : UInt32) : ErrorCode × ModbusClientContext :=
  let byteCount := UInt8.ofNat (coilBytes quantity)
  let requestAdu : Memory UInt8 :=
    Function.update context.requestAdu headerSize functionWriteMultipleCoils
  let requestAdu := (requestAdu.setU16 (headerSize + 1) address).setU16 (headerSize + 3)
    (UInt16.ofNat quantity)
  let requestAdu : Memory UInt8 := Function.update requestAdu (headerSize + 5) byteCount
  let requestAdu := requestAdu.write (headerSize + 6) (value.read 0 byteCount.toNat)
  modbusClientFormatMbapHeader (context.withRequest requestAdu) (6 + byteCount.toNat) time

/-- Copy `k` registers into the word array at `base`; `i` is the loop variable. -/
def copyRegs (value : Memory UInt16) (base : ℕ) : ℕ → ℕ → Memory UInt8 → Memory UInt8
  | 0, _, m => m
  | k + 1, i, m => copyRegs value base k (i + 1) (m.setU16 (base + 2 * i) (value i))

/-- `modbusClientFormatWriteMultipleRegsReq`. -/
def modbusClientFormatWriteMultipleRegsReq (address : UInt16) (quantity : ℕ) (value : Memory UInt16)
    (context : ModbusClientContext) (time : UInt32) : ErrorCode × ModbusClientContext :=
  let byteCount := UInt8.ofNat (quantity * 2)
  let requestAdu : Memory UInt8 :=
    Function.update context.requestAdu headerSize functionWriteMultipleRegs
  let requestAdu := (requestAdu.setU16 (headerSize + 1) address).setU16 (headerSize + 3)
    (UInt16.ofNat quantity)
  let requestAdu : Memory UInt8 := Function.update requestAdu (headerSize + 5) byteCount
  let requestAdu := copyRegs value (headerSize + 6) quantity 0 requestAdu
  modbusClientFormatMbapHeader (context.withRequest requestAdu) (6 + byteCount.toNat) time

/-- `modbusClientFormatMaskWriteRegReq`. -/
def modbusClientFormatMaskWriteRegReq (address andMask orMask : UInt16)
    (context : ModbusClientContext) (time : UInt32) : ErrorCode × ModbusClientContext :=
  let requestAdu : Memory UInt8 :=
    Function.update context.requestAdu headerSize functionMaskWriteReg
  let requestAdu := ((requestAdu.setU16 (headerSize + 1) address).setU16 (headerSize + 3)
    andMask).setU16 (headerSize + 5) orMask
  modbusClientFormatMbapHeader (context.withRequest requestAdu) 7 time

/-- `modbusClientFormatReadWriteMultipleRegsReq`. -/
def modbusClientFormatReadWriteMultipleRegsReq (readAddress readQuantity writeAddress : UInt16)
    (writeQuantity : UInt16) (writeValue : Memory UInt16) (context : ModbusClientContext)
    (time : UInt32) : ErrorCode × ModbusClientContext :=
  let byteCount := UInt8.ofNat (writeQuantity.toNat * 2)
  let requestAdu : Memory UInt8 :=
    Function.update context.requestAdu headerSize functionReadWriteMultipleRegs
  let requestAdu := ((requestAdu.setU16 (headerSize + 1) readAddress).setU16 (headerSize + 3)
    readQuantity).setU16 (headerSize + 5) writeAddress
  let requestAdu : Memory UInt8 := Function.update (requestAdu.setU16 (headerSize + 7)
    writeQuantity) (headerSize + 9) byteCount
  let requestAdu := copyRegs writeValue (headerSize + 10) writeQuantity.toNat 0 requestAdu
  modbusClientFormatMbapHeader (context.withRequest requestAdu) (10 + byteCount.toNat) time

/-! ## Parsing -/

/-- A response that carries packed bits. -/
def parseBitsResp (functionCode : UInt8) (quantity : ℕ) (context : ModbusClientContext)
    (value : Memory UInt8) : ErrorCode × Memory UInt8 :=
  let p := modbusClientGetResponsePdu context
  if p.2 < 2 then
    (.invalidLength, value)
  else if p.1 0 ≠ functionCode then
    (.invalidResponse, value)
  else if (p.1 1).toNat ≠ p.2 - 2 ∨ (p.1 1).toNat ≠ coilBytes quantity then
    (.invalidLength, value)
  else
    (.noError, value.write 0 (p.1.read 2 (p.1 1).toNat))

/-- `modbusClientParseReadCoilsResp`. -/
def modbusClientParseReadCoilsResp (quantity : ℕ) :
    ModbusClientContext → Memory UInt8 → ErrorCode × Memory UInt8 :=
  parseBitsResp functionReadCoils quantity

/-- `modbusClientParseReadDiscreteInputsResp`. -/
def modbusClientParseReadDiscreteInputsResp (quantity : ℕ) :
    ModbusClientContext → Memory UInt8 → ErrorCode × Memory UInt8 :=
  parseBitsResp functionReadDiscreteInputs quantity

/-- The values of `quantity` registers from the word array at `base`. -/
def regValues (m : Memory UInt8) (base quantity : ℕ) : List UInt16 :=
  (List.range quantity).map fun i => m.getU16 (base + 2 * i)

/-- A response that carries registers. -/
def parseRegsResp (functionCode : UInt8) (quantity : ℕ) (context : ModbusClientContext)
    (value : Memory UInt16) : ErrorCode × Memory UInt16 :=
  let p := modbusClientGetResponsePdu context
  if p.2 < 2 then
    (.invalidLength, value)
  else if p.1 0 ≠ functionCode then
    (.invalidResponse, value)
  else if (p.1 1).toNat ≠ p.2 - 2 ∨ (p.1 1).toNat ≠ quantity * 2 then
    (.invalidLength, value)
  else
    (.noError, value.write 0 (regValues p.1 2 quantity))

/-- `modbusClientParseReadHoldingRegsResp`. -/
def modbusClientParseReadHoldingRegsResp (quantity : ℕ) :
    ModbusClientContext → Memory UInt16 → ErrorCode × Memory UInt16 :=
  parseRegsResp functionReadHoldingRegs quantity

/-- `modbusClientParseReadInputRegsResp`. -/
def modbusClientParseReadInputRegsResp (quantity : ℕ) :
    ModbusClientContext → Memory UInt16 → ErrorCode × Memory UInt16 :=
  parseRegsResp functionReadInputRegs quantity

/-- `modbusClientParseReadWriteMultipleRegsResp`. -/
def modbusClientParseReadWriteMultipleRegsResp (readQuantity : ℕ) :
    ModbusClientContext → Memory UInt16 → ErrorCode × Memory UInt16 :=
  parseRegsResp functionReadWriteMultipleRegs readQuantity

/-- A response that echoes words of the request. -/
def parseEchoResp (functionCode : UInt8) (words : List UInt16) (context : ModbusClientContext)
    (value : Unit) : ErrorCode × Unit :=
  let p := modbusClientGetResponsePdu context
  if p.2 < 1 + 2 * words.length then
    (.invalidLength, value)
  else if p.1 0 ≠ functionCode then
    (.invalidResponse, value)
  else if regValues p.1 1 words.length ≠ words then
    (.invalidResponse, value)
  else
    (.noError, value)

/-- `modbusClientParseWriteSingleCoilResp`. -/
def modbusClientParseWriteSingleCoilResp (address : UInt16) (value : Bool) :
    ModbusClientContext → Unit → ErrorCode × Unit :=
  parseEchoResp functionWriteSingleCoil [address, coilWord value]

/-- `modbusClientParseWriteSingleRegResp`. -/
def modbusClientParseWriteSingleRegResp (address value : UInt16) :
    ModbusClientContext → Unit → ErrorCode × Unit :=
  parseEchoResp functionWriteSingleReg [address, value]

/-- `modbusClientParseWriteMultipleCoilsResp` and `modbusClientParseWriteMultipleRegsResp`: the
quantity is compared as a number, so it is not truncated to a word. -/
def parseQuantityResp (functionCode : UInt8) (address : UInt16) (quantity : ℕ)
    (context : ModbusClientContext) (value : Unit) : ErrorCode × Unit :=
  let p := modbusClientGetResponsePdu context
  if p.2 < 5 then
    (.invalidLength, value)
  else if p.1 0 ≠ functionCode then
    (.invalidResponse, value)
  else if p.1.getU16 1 ≠ address ∨ (p.1.getU16 3).toNat ≠ quantity then
    (.invalidResponse, value)
  else
    (.noError, value)

/-- `modbusClientParseWriteMultipleCoilsResp`. -/
def modbusClientParseWriteMultipleCoilsResp (address : UInt16) (quantity : ℕ) :
    ModbusClientContext → Unit → ErrorCode × Unit :=
  parseQuantityResp functionWriteMultipleCoils address quantity

/-- `modbusClientParseWriteMultipleRegsResp`. -/
def modbusClientParseWriteMultipleRegsResp (address : UInt16) (quantity : ℕ) :
    ModbusClientContext → Unit → ErrorCode × Unit :=
  parseQuantityResp functionWriteMultipleRegs address quantity

/-- `modbusClientParseMaskWriteRegResp`. -/
def modbusClientParseMaskWriteRegResp (address andMask orMask : UInt16) :
    ModbusClientContext → Unit → ErrorCode × Unit :=
  parseEchoResp functionMaskWriteReg [address, andMask, orMask]

end Modbus
