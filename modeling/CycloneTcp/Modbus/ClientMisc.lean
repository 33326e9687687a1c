import CycloneTcp.Modbus.Common

/-! # Modbus/TCP client: context, transactions and headers

A client call formats a request, and `modbusClientTransaction` then moves it through the socket in as
many calls as it takes: the rest of the request, seven header bytes, and the PDU the header
announces. A response with another transaction identifier is dropped and the next one awaited. -/

set_option autoImplicit false

namespace Modbus

/-- `ModbusClientState`. -/
inductive ModbusClientState where
  | disconnected
  | connecting
  | connected
  | sending
  | receiving
  | complete
  deriving DecidableEq, Repr

/-- `ModbusClientContext`; the socket and the interface are behind the socket interface. -/
structure ModbusClientContext where
  state : ModbusClientState
  unitId : UInt8
  transactionId : UInt16
  timestamp : UInt32
  timeout : UInt32
  requestAdu : Memory UInt8
  requestAduLen : ℕ
  requestAduPos : ℕ
  responseAdu : Memory UInt8
  responseAduLen : ℕ
  responseAduPos : ℕ
  exceptionCode : UInt8

/-! ## Headers -/

/-- `modbusClientFormatMbapHeader`, at the system time `time`. It cannot fail. -/
def modbusClientFormatMbapHeader (context : ModbusClientContext) (length : ℕ) (time : UInt32) :
    ErrorCode × ModbusClientContext :=
  let transactionId := context.transactionId + 1
  (.noError, { context with
    transactionId := transactionId
    requestAdu := Function.update
      (((context.requestAdu.setU16 0 transactionId).setU16 2 protocolId).setU16 4
        (UInt16.ofNat (length + 1)))
      6 context.unitId
    requestAduLen := length + headerSize
    requestAduPos := 0
    timestamp := time
    state := .sending })

/-- `modbusClientParseMbapHeader`. -/
def modbusClientParseMbapHeader (context : ModbusClientContext) :
    ErrorCode × ModbusClientContext :=
  if context.responseAduPos < headerSize then
    (.invalidLength, context)
  else
    -- the length field counts the unit identifier and the PDU
    let n := (context.responseAdu.getU16 4).toNat
    if n < 1 then
      (.invalidLength, context)
    else if context.responseAdu.getU16 2 ≠ protocolId then
      (.wrongIdentifier, context)
    else if n - 1 > maxPduSize then
      (.invalidLength, context)
    else
      (.noError, { context with responseAduLen := headerSize + (n - 1) })

/-- `modbusClientGetResponsePdu`: the response PDU and its length. -/
def modbusClientGetResponsePdu (context : ModbusClientContext) : Memory UInt8 × ℕ :=
  (pdu context.responseAdu,
    if context.responseAduLen ≥ headerSize then context.responseAduLen - headerSize else 0)

/-- `modbusClientParseExceptionResp`. -/
def modbusClientParseExceptionResp (context : ModbusClientContext) :
    ErrorCode × ModbusClientContext :=
  let p := modbusClientGetResponsePdu context
  if p.2 < 2 then
    (.invalidLength, context)
  else
    (.exceptionReceived, { context with exceptionCode := p.1 1 })

/-- `modbusClientCheckResp`. -/
def modbusClientCheckResp (context : ModbusClientContext) : ErrorCode × ModbusClientContext :=
  if context.requestAduLen < headerSize + 1 then
    (.invalidLength, context)
  else if context.responseAduLen < headerSize + 1 then
    (.invalidLength, context)
  else if context.responseAdu.getU16 0 ≠ context.requestAdu.getU16 0 then
    (.wrongIdentifier, context)
  else if context.responseAdu 6 ≠ context.requestAdu 6 then
    (.unexpectedResponse, context)
  else if (context.responseAdu headerSize &&& functionCodeMask) ≠
      (context.requestAdu headerSize &&& functionCodeMask) then
    (.unexpectedResponse, context)
  else if (context.responseAdu headerSize &&& exceptionMask) ≠ 0 then
    modbusClientParseExceptionResp context
  else
    (.noError, context)

/-- The context after a request of `n` PDU bytes has been formatted. -/
structure Formatted (context : ModbusClientContext) (n : ℕ) : Prop where
  state : context.state = .sending
  requestAduLen : context.requestAduLen = headerSize + n
  requestAduPos : context.requestAduPos = 0
  protocol : context.requestAdu.getU16 2 = protocolId
  length : (context.requestAdu.getU16 4).toNat = n + 1
  nonempty : 1 ≤ n
  le_max : n ≤ maxPduSize
  unitId : context.requestAdu 6 = context.unitId

/-- `modbusClientFormatMbapHeader` leaves a formatted request, and the PDU as it was. -/
theorem modbusClientFormatMbapHeader_formatted (context : ModbusClientContext) {n : ℕ}
    (hlo : 1 ≤ n) (hhi : n ≤ maxPduSize) (time : UInt32) :
    Formatted (modbusClientFormatMbapHeader context n time).2 n ∧
      pdu (modbusClientFormatMbapHeader context n time).2.requestAdu = pdu context.requestAdu := by
  obtain ⟨-, hprotocol, hlength, hunitId, hpdu⟩ := header_fields
    (rfl : (modbusClientFormatMbapHeader context n time).2.requestAdu = _)
  refine ⟨⟨rfl, Nat.add_comm _ _, rfl, hprotocol, ?_, hlo, hhi, hunitId⟩, hpdu⟩
  simp only [maxPduSize] at hhi
  rw [hlength, UInt16.toNat_ofNat']
  omega

/-! ## Transactions -/

/-- The client with what lies behind its socket. -/
structure Client (ν : Type*) where
  context : ModbusClientContext
  net : ν

variable {ν : Type*} (api : SocketApi ν)

/-- The transaction in state `SENDING`: send more of the request, or turn to the response. -/
def sendRequest (s : Client ν) : ErrorCode × Client ν :=
  let c := s.context
  if c.requestAduPos < c.requestAduLen then
    let r := api.socketSend
      (c.requestAdu.read c.requestAduPos (c.requestAduLen - c.requestAduPos)) s.net
    if r.1 = .noError then
      (.noError, ⟨{ c with requestAduPos := c.requestAduPos + r.2.1 }, r.2.2⟩)
    else
      (r.1, ⟨c, r.2.2⟩)
  else
    (.noError, ⟨{ c with responseAduLen := 0, responseAduPos := 0, state := .receiving }, s.net⟩)

/-- The context after `socketReceive` has stored `bytes` at the current position of the response
buffer. -/
def ModbusClientContext.store (context : ModbusClientContext) (bytes : List UInt8) :
    ModbusClientContext :=
  { context with responseAdu := context.responseAdu.write context.responseAduPos bytes }

/-- `context->responseAduPos += n`. -/
def ModbusClientContext.advance (context : ModbusClientContext) (n : ℕ) : ModbusClientContext :=
  { context with responseAduPos := context.responseAduPos + n }

/-- Receive more of the response header, and parse it when it is complete. -/
def receiveResponseHeader (s : Client ν) : ErrorCode × Client ν :=
  let r := api.socketReceive (headerSize - s.context.responseAduPos) s.net
  let context := s.context.store r.2.1
  if r.1 = .noError then
    let context := context.advance r.2.1.length
    if headerSize ≤ context.responseAduPos then
      let p := modbusClientParseMbapHeader context
      (p.1, ⟨p.2, r.2.2⟩)
    else
      (.noError, ⟨context, r.2.2⟩)
  else
    (r.1, ⟨context, r.2.2⟩)

/-- Receive more of the response PDU. -/
def receiveResponseBody (s : Client ν) : ErrorCode × Client ν :=
  let r := api.socketReceive (s.context.responseAduLen - s.context.responseAduPos) s.net
  let context := s.context.store r.2.1
  if r.1 = .noError then
    (.noError, ⟨context.advance r.2.1.length, r.2.2⟩)
  else
    (r.1, ⟨context, r.2.2⟩)

/-- The response is there: accept it, or drop it and await the next one. -/
def acceptResponse (s : Client ν) : ErrorCode × Client ν :=
  let p := modbusClientCheckResp s.context
  if p.1 = .noError then
    (.noError, { s with context := { p.2 with state := .complete } })
  else if p.1 = .wrongIdentifier then
    (.noError, { s with context := { p.2 with responseAduLen := 0, responseAduPos := 0 } })
  else
    (p.1, { s with context := p.2 })

/-- The transaction in state `RECEIVING`. -/
def receiveResponse (s : Client ν) : ErrorCode × Client ν :=
  if s.context.responseAduPos < headerSize then
    receiveResponseHeader api s
  else if s.context.responseAduPos < s.context.responseAduLen then
    receiveResponseBody api s
  else
    acceptResponse s

/-- Limit the socket to what is left of the time for the transaction. -/
def adjustTimeout (s : Client ν) : Client ν :=
  let time := api.osGetSystemTime s.net
  let deadline := s.context.timestamp + s.context.timeout
  let timeout := if timeCompare deadline time > 0 then deadline - time else 0
  { s with net := api.socketSetTimeout timeout s.net }

/-- The body of `modbusClientTransaction`, up to the treatment of the status. -/
def transact (s : Client ν) : ErrorCode × Client ν :=
  match s.context.state with
  | .sending => sendRequest api s
  | .receiving => receiveResponse api s
  | _ => (.wrongState, s)

/-- `modbusClientTransaction`, with an operating system behind it: both ways of not being ready in
time are reported as a timeout. -/
def modbusClientTransaction (s : Client ν) : ErrorCode × Client ν :=
  let r := transact api (adjustTimeout api s)
  let error := if r.1 = .wouldBlock ∨ r.1 = .timeout then .timeout else r.1
  if error ≠ .noError ∧ error ≠ .wouldBlock then
    (error, { r.2 with context := { r.2.context with state := .connected } })
  else
    (error, r.2)

end Modbus
