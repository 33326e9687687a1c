import CycloneTcp.Modbus.ClientFraming
import CycloneTcp.Modbus.ReadCalls
import CycloneTcp.Modbus.ServerFraming

/-! # Which response ends a client call

The server's stream is a sequence of ADUs with arbitrary identifiers and contents, handed out in
pieces of any size. A call skips the ADUs of other transactions and ends on the first one of its own.
What it ends with is decided by that ADU alone: `Call.judge` is the judgement of a client that holds
this ADU and nothing else. Only a response with the unit identifier and the function code of the
request makes the call succeed or report an exception; every other end is an error that leaves the
caller's buffer alone. -/

set_option autoImplicit false

namespace Modbus

/-! ## The calls of the client as values -/

namespace ClientRequest

/-- What the caller's buffer holds: packed bits, registers, or nothing. -/
def Buffer : ClientRequest → Type
  | readCoils _ _ | readDiscreteInputs _ _ => Memory UInt8
  | readHoldingRegs _ _ | readInputRegs _ _ | readWriteMultipleRegs _ _ _ _ _ => Memory UInt16
  | writeSingleCoil _ _ | writeSingleReg _ _ | writeMultipleCoils _ _ _ | writeMultipleRegs _ _ _
  | maskWriteReg _ _ _ => Unit

/-- The call behind a request. -/
def call : (r : ClientRequest) → Call r.Buffer
  | readCoils address quantity => readCoilsCall address quantity
  | readDiscreteInputs address quantity => readDiscreteInputsCall address quantity
  | readHoldingRegs address quantity => readHoldingRegsCall address quantity
  | readInputRegs address quantity => readInputRegsCall address quantity
  | writeSingleCoil address value => writeSingleCoilCall address value
  | writeSingleReg address value => writeSingleRegCall address value
  | writeMultipleCoils address quantity value => writeMultipleCoilsCall address quantity value
  | writeMultipleRegs address quantity value => writeMultipleRegsCall address quantity value
  | maskWriteReg address andMask orMask => maskWriteRegCall address andMask orMask
  | readWriteMultipleRegs readAddress readQuantity writeAddress writeQuantity writeValue =>
      readWriteMultipleRegsCall readAddress readQuantity writeAddress writeQuantity writeValue

/-- The function code of the request. -/
def functionCode : ClientRequest → UInt8
  | readCoils _ _ => functionReadCoils
  | readDiscreteInputs _ _ => functionReadDiscreteInputs
  | readHoldingRegs _ _ => functionReadHoldingRegs
  | readInputRegs _ _ => functionReadInputRegs
  | writeSingleCoil _ _ => functionWriteSingleCoil
  | writeSingleReg _ _ => functionWriteSingleReg
  | writeMultipleCoils _ _ _ => functionWriteMultipleCoils
  | writeMultipleRegs _ _ _ => functionWriteMultipleRegs
  | maskWriteReg _ _ _ => functionMaskWriteReg
  | readWriteMultipleRegs _ _ _ _ _ => functionReadWriteMultipleRegs

theorem call_format (r : ClientRequest) : r.call.format = r.format := by
  cases r <;> rfl

/-- No function code has the bit that marks an exception. -/
theorem functionCode_mask (r : ClientRequest) : r.functionCode &&& exceptionMask = 0 := by
  cases r <;> simp only [functionCode] <;> decide

end ClientRequest

/-! ## What the parsers look at -/

/-- Two contexts whose responses are the same, as far as they go. -/
structure SameResponse (c c' : ModbusClientContext) : Prop where
  length_eq : c.responseAduLen = c'.responseAduLen
  agree : Memory.Agree c.responseAduLen c.responseAdu c'.responseAdu

/-- What all parsers have in common: they look at the response only, accept one function code, do
not report exceptions themselves, and write to the caller's buffer only when they succeed. -/
structure ParsesCode {β : Type*} (functionCode : UInt8)
    (parse : ModbusClientContext → β → ErrorCode × β) : Prop where
  congr : ∀ {c c' : ModbusClientContext} (value : β), SameResponse c c' →
    parse c value = parse c' value
  code : ∀ {c : ModbusClientContext} {value : β}, (parse c value).1 = .noError →
    c.responseAdu headerSize = functionCode
  noException : ∀ (c : ModbusClientContext) (value : β), (parse c value).1 ≠ .exceptionReceived
  keeps : ∀ {c : ModbusClientContext} {value : β}, (parse c value).1 ≠ .noError →
    (parse c value).2 = value

theorem SameResponse.pduLength {c c' : ModbusClientContext} (h : SameResponse c c') :
    (modbusClientGetResponsePdu c).2 = (modbusClientGetResponsePdu c').2 := by
  simp only [modbusClientGetResponsePdu, h.length_eq]

/-- The bytes of the PDU agree. -/
theorem SameResponse.pdu {c c' : ModbusClientContext} (h : SameResponse c c') :
    Memory.Agree (modbusClientGetResponsePdu c).2 (modbusClientGetResponsePdu c).1
      (modbusClientGetResponsePdu c').1 := by
  intro i hi
  simp only [modbusClientGetResponsePdu] at hi ⊢
  by_cases hle : c.responseAduLen ≥ headerSize
  · rw [if_pos hle] at hi
    exact h.agree (headerSize + i) (by omega)
  · rw [if_neg hle] at hi
    omega

/-- The shape all parsers have: the length, the function code, a check of the contents, and then the
contents are stored. -/
theorem ParsesCode.of_shape {β : Type*} {functionCode : UInt8}
    {parse : ModbusClientContext → β → ErrorCode × β} (lo : ℕ) (error : ErrorCode)
    (bad : Memory UInt8 → ℕ → Prop) [∀ m n, Decidable (bad m n)] (store : Memory UInt8 → β → β)
    (hparse : ∀ c value, parse c value =
      if (modbusClientGetResponsePdu c).2 < lo then (.invalidLength, value)
      else if (modbusClientGetResponsePdu c).1 0 ≠ functionCode then (.invalidResponse, value)
      else if bad (modbusClientGetResponsePdu c).1 (modbusClientGetResponsePdu c).2 then
        (error, value)
      else (.noError, store (modbusClientGetResponsePdu c).1 value))
    (hlo : 1 ≤ lo) (herror : error ≠ .noError ∧ error ≠ .exceptionReceived)
    (hbad : ∀ {m m' : Memory UInt8} {n : ℕ}, lo ≤ n → Memory.Agree n m m' →
      (bad m n ↔ bad m' n))
    (hstore : ∀ {m m' : Memory UInt8} {n : ℕ} (value : β), lo ≤ n → Memory.Agree n m m' →
      ¬ bad m n → store m value = store m' value) :
    ParsesCode functionCode parse := by
  -- one case for each of the four ends
  have hends : ∀ c value, parse c value = (.invalidLength, value) ∨
      parse c value = (.invalidResponse, value) ∨ parse c value = (error, value) ∨
      (modbusClientGetResponsePdu c).1 0 = functionCode ∧ (parse c value).1 = .noError := by
    intro c value
    rw [hparse]
    split
    · exact .inl rfl
    · split
      · exact .inr (.inl rfl)
      · next hcode =>
        split
        · exact .inr (.inr (.inl rfl))
        · exact .inr (.inr (.inr ⟨not_not.1 hcode, rfl⟩))
  refine ⟨fun {c c'} value h => ?_, fun {c value} h => ?_, fun c value => ?_, fun {c value} h => ?_⟩
  · have hlen := h.pduLength
    have hpdu := h.pdu
    rw [hparse, hparse, ← hlen]
    by_cases hshort : (modbusClientGetResponsePdu c).2 < lo
    · rw [if_pos hshort, if_pos hshort]
    · have hsame := hbad (Nat.not_lt.1 hshort) hpdu
      rw [if_neg hshort, if_neg hshort, ← hpdu 0 (by omega)]
      by_cases hok : bad (modbusClientGetResponsePdu c).1 (modbusClientGetResponsePdu c).2
      · rw [if_pos hok, if_pos (hsame.1 hok)]
      · rw [if_neg hok, if_neg (fun hno => hok (hsame.2 hno)),
          hstore value (Nat.not_lt.1 hshort) hpdu hok]
  · rcases hends c value with hend | hend | hend | hend
    · rw [hend] at h
      cases h
    · rw [hend] at h
      cases h
    · rw [hend] at h
      exact absurd h herror.1
    · exact hend.1
  · rcases hends c value with hend | hend | hend | hend
    · rw [hend]
      nofun
    · rw [hend]
      nofun
    · rw [hend]
      exact herror.2
    · rw [hend.2]
      nofun
  · rcases hends c value with hend | hend | hend | hend
    · rw [hend]
    · rw [hend]
    · rw [hend]
    · exact absurd hend.2 h

theorem parsesCode_bits (functionCode : UInt8) (quantity : ℕ) :
    ParsesCode functionCode (parseBitsResp functionCode quantity) := by
  refine .of_shape 2 .invalidLength (fun m n => (m 1).toNat ≠ n - 2 ∨ (m 1).toNat ≠ coilBytes quantity)
    (fun m value => value.write 0 (m.read 2 (m 1).toNat))
    (fun _ _ => rfl) (by decide) ⟨nofun, nofun⟩ (fun hn h => by rw [h 1 hn])
    fun value hn h hok => ?_
  obtain ⟨hcount, -⟩ := not_or.1 hok
  rw [← h 1 hn, h.read (by omega)]

theorem parsesCode_regs (functionCode : UInt8) (quantity : ℕ) :
    ParsesCode functionCode (parseRegsResp functionCode quantity) := by
  refine .of_shape 2 .invalidLength (fun m n => (m 1).toNat ≠ n - 2 ∨ (m 1).toNat ≠ quantity * 2)
    (fun m value => value.write 0 (regValues m 2 quantity))
    (fun _ _ => rfl) (by decide) ⟨nofun, nofun⟩ (fun hn h => by rw [h 1 hn])
    fun value hn h hok => ?_
  obtain ⟨hcount, hquantity⟩ := not_or.1 hok
  rw [regValues_congr fun i hi => h.getU16 (by omega)]

theorem parsesCode_echo (functionCode : UInt8) (words : List UInt16) :
    ParsesCode functionCode (parseEchoResp functionCode words) := by
  refine .of_shape (1 + 2 * words.length) .invalidResponse
    (fun m _ => regValues m 1 words.length ≠ words) (fun _ value => value)
    (fun _ _ => rfl) (Nat.le_add_right _ _) ⟨nofun, nofun⟩ (fun hn h => ?_) fun _ _ _ _ => rfl
  rw [regValues_congr fun i hi => h.getU16 (by omega)]

theorem parsesCode_quantity (functionCode : UInt8) (address : UInt16) (quantity : ℕ) :
    ParsesCode functionCode (parseQuantityResp functionCode address quantity) := by
  refine .of_shape 5 .invalidResponse
    (fun m _ => m.getU16 1 ≠ address ∨ (m.getU16 3).toNat ≠ quantity)
    (fun _ value => value) (fun _ _ => rfl) (by decide) ⟨nofun, nofun⟩ (fun hn h => ?_)
    fun _ _ _ _ => rfl
  rw [h.getU16 (by omega), h.getU16 (by omega)]

theorem ClientRequest.parsesCode (r : ClientRequest) : ParsesCode r.functionCode r.call.parse := by
  cases r with
  | readCoils | readDiscreteInputs => exact parsesCode_bits _ _
  | readHoldingRegs | readInputRegs | readWriteMultipleRegs => exact parsesCode_regs _ _
  | writeSingleCoil | writeSingleReg | maskWriteReg => exact parsesCode_echo _ _
  | writeMultipleCoils | writeMultipleRegs => exact parsesCode_quantity _ _ _

/-! ## The judgement of one response -/

/-- The client as it would be if it had received `a` and nothing else. -/
def ModbusClientContext.holding (c : ModbusClientContext) (a : Adu) : ModbusClientContext :=
  { c with
    responseAdu := Memory.write (fun _ => 0) 0 a.bytes
    responseAduLen := a.bytes.length
    responseAduPos := a.bytes.length }

/-- What the request of the client `c` ends with if `a` is its response: the status, the exception
code and the caller's buffer. -/
def Call.judge {β : Type*} (call : Call β) (c : ModbusClientContext) (a : Adu) (value : β) :
    ErrorCode × UInt8 × β :=
  let p := modbusClientCheckResp (c.holding a)
  if p.1 = .noError then
    let q := call.parse p.2 value
    (q.1, p.2.exceptionCode, q.2)
  else
    (p.1, p.2.exceptionCode, value)

/-- Two clients with the same request, and with the same response as far as it goes. -/
structure SameExchange (c c' : ModbusClientContext) : Prop extends SameResponse c c' where
  requestAdu : c.requestAdu = c'.requestAdu
  requestAduLen : c.requestAduLen = c'.requestAduLen
  exceptionCode : c.exceptionCode = c'.exceptionCode

/-- The check writes the exception code and nothing else. -/
theorem modbusClientCheckResp_context (c : ModbusClientContext) :
    (modbusClientCheckResp c).2
      = { c with exceptionCode := (modbusClientCheckResp c).2.exceptionCode } := by
  unfold modbusClientCheckResp modbusClientParseExceptionResp
  dsimp only
  repeat' split
  all_goals rfl

/-- The check looks at the request and at the response only. -/
theorem SameExchange.check {c c' : ModbusClientContext} (h : SameExchange c c') :
    (modbusClientCheckResp c).1 = (modbusClientCheckResp c').1 ∧
      (modbusClientCheckResp c).2.exceptionCode = (modbusClientCheckResp c').2.exceptionCode := by
  unfold modbusClientCheckResp
  rw [← h.requestAduLen, ← h.requestAdu, ← h.length_eq]
  by_cases hrequest : c.requestAduLen < headerSize + 1
  · rw [if_pos hrequest, if_pos hrequest]
    exact ⟨rfl, h.exceptionCode⟩
  by_cases hresponse : c.responseAduLen < headerSize + 1
  · rw [if_neg hrequest, if_neg hrequest, if_pos hresponse, if_pos hresponse]
    exact ⟨rfl, h.exceptionCode⟩
  have hlong : headerSize + 1 ≤ c.responseAduLen := Nat.not_lt.1 hresponse
  have hid : c'.responseAdu.getU16 0 = c.responseAdu.getU16 0 :=
    (h.agree.getU16 (Nat.le_trans (by decide) hlong)).symm
  have hunit : c'.responseAdu 6 = c.responseAdu 6 :=
    (h.agree 6 (Nat.le_trans (by decide) hlong)).symm
  have hcode : c'.responseAdu headerSize = c.responseAdu headerSize :=
    (h.agree headerSize hlong).symm
  rw [if_neg hrequest, if_neg hrequest, if_neg hresponse, if_neg hresponse, hid, hunit, hcode]
  split
  · exact ⟨rfl, h.exceptionCode⟩
  split
  · exact ⟨rfl, h.exceptionCode⟩
  split
  · exact ⟨rfl, h.exceptionCode⟩
  split
  · -- both are exceptions, and carry the same code
    have hlen := h.pduLength
    have hpdu := h.pdu
    unfold modbusClientParseExceptionResp
    dsimp only
    rw [← hlen]
    split
    · exact ⟨rfl, h.exceptionCode⟩
    · exact ⟨rfl, hpdu 1 (by omega)⟩
  · exact ⟨rfl, h.exceptionCode⟩

/-- What an exception with the bytes `body` behind its function code is reported as. -/
def ModbusClientContext.reporting (c : ModbusClientContext) :
    List UInt8 → ErrorCode × ModbusClientContext
  | [] => (.invalidLength, c)
  | code :: _ => (.exceptionReceived, { c with exceptionCode := code })

/-- The check of a single response, field by field: `f` is its function code and `body` the PDU
behind it. -/
theorem check_holding {c : ModbusClientContext} {a : Adu} {f : UInt8} {body : List UInt8}
    (hpdu : a.pdu = f :: body) (hrequest : headerSize + 1 ≤ c.requestAduLen) :
    modbusClientCheckResp (c.holding a)
      = if a.transactionId ≠ c.requestAdu.getU16 0 then (.wrongIdentifier, c.holding a)
        else if a.unitId ≠ c.requestAdu 6 then (.unexpectedResponse, c.holding a)
        else if (f &&& functionCodeMask) ≠ (c.requestAdu headerSize &&& functionCodeMask) then
          (.unexpectedResponse, c.holding a)
        else if (f &&& exceptionMask) ≠ 0 then (c.holding a).reporting body
        else (.noError, c.holding a) := by
  have hlength : (c.holding a).responseAduLen = headerSize + (body.length + 1) := by
    rw [ModbusClientContext.holding, a.length_bytes, hpdu, List.length_cons]
  have hid : (c.holding a).responseAdu.getU16 0 = a.transactionId :=
    a.header_transactionId (List.prefix_append _ _)
  have hunit : (c.holding a).responseAdu 6 = a.unitId :=
    a.header_unitId (m := fun _ => 0) (List.prefix_append _ _)
  have hcell : ∀ i (hi : i < a.pdu.length), pdu (c.holding a).responseAdu i = a.pdu[i] := by
    intro i hi
    have hget := Memory.write_add (fun _ => 0) 0 a.bytes
      (show headerSize + i < a.bytes.length by rw [a.length_bytes]; omega)
    rw [Nat.zero_add] at hget
    refine hget.trans ?_
    simp only [Adu.bytes]
    rw [List.getElem_append_right (by rw [a.length_header]; omega)]
    simp only [a.length_header, Nat.add_sub_cancel_left]
  have hcode : (c.holding a).responseAdu headerSize = f := by
    have h0 := hcell 0 (by rw [hpdu]; exact Nat.succ_pos _)
    simp only [hpdu, List.getElem_cons_zero] at h0
    exact h0
  have hlen : (c.holding a).requestAduLen = c.requestAduLen := rfl
  have hadu : (c.holding a).requestAdu = c.requestAdu := rfl
  rw [modbusClientCheckResp, if_neg (by rw [hlen]; omega), if_neg (by rw [hlength]; omega), hid,
    hunit, hcode, hadu]
  -- only the exception is left to be looked at
  by_cases hexception : (f &&& exceptionMask) ≠ 0
  · have hparse : modbusClientParseExceptionResp (c.holding a)
        = (c.holding a).reporting body := by
      have hn : (modbusClientGetResponsePdu (c.holding a)).2 = body.length + 1 := by
        rw [modbusClientGetResponsePdu, hlength, if_pos (Nat.le_add_right _ _),
          Nat.add_sub_cancel_left]
      rw [modbusClientParseExceptionResp, hn]
      cases body with
      | nil => rfl
      | cons code body =>
          have h1 := hcell 1 (by simp only [hpdu, List.length_cons]; omega)
          simp only [hpdu, List.getElem_cons_succ, List.getElem_cons_zero] at h1
          rw [if_neg (by simp only [List.length_cons]; omega)]
          exact congrArg (fun x => (ErrorCode.exceptionReceived,
            { c.holding a with exceptionCode := x })) h1
    rw [if_pos hexception, if_pos hexception, hparse]
  · rw [if_neg hexception, if_neg hexception]

/-- A function code and its exception bit. -/
theorem functionCode_split (f : UInt8) :
    ((f &&& exceptionMask) = 0 ∧ (f &&& functionCodeMask) = f) ∨
      ((f &&& exceptionMask) ≠ 0 ∧ exceptionMask ||| (f &&& functionCodeMask) = f) := by
  have hall : ∀ n : Fin 256, ((UInt8.ofNat n &&& exceptionMask) = 0 ∧
      (UInt8.ofNat n &&& functionCodeMask) = UInt8.ofNat n) ∨
      ((UInt8.ofNat n &&& exceptionMask) ≠ 0 ∧
        exceptionMask ||| (UInt8.ofNat n &&& functionCodeMask) = UInt8.ofNat n) := by
    decide +kernel
  have h := hall ⟨f.toNat, f.toNat_lt⟩
  rwa [show UInt8.ofNat f.toNat = f from UInt8.ofNat_toNat] at h

/-- What a call may end with, given its response: a success needs the unit identifier and the function
code of the request, an exception the same with the exception bit, and any error leaves the caller's
buffer as it was. -/
structure ClientRequest.Admits (r : ClientRequest) (c : ModbusClientContext) (a : Adu)
    (before : r.Buffer) (verdict : ErrorCode × UInt8 × r.Buffer) : Prop where
  success : verdict.1 = .noError → a.unitId = c.requestAdu 6 ∧ a.pdu.head? = some r.functionCode
  exception : verdict.1 = .exceptionReceived → a.unitId = c.requestAdu 6 ∧
    a.pdu.head? = some (exceptionMask ||| r.functionCode) ∧ a.pdu[1]? = some verdict.2.1
  untouched : verdict.1 ≠ .noError → verdict.2.2 = before

/-- A response the check turns down. -/
theorem ClientRequest.admits_refused {r : ClientRequest} {c : ModbusClientContext} {a : Adu}
    (error : ErrorCode) (hne : error ≠ .noError) (hne' : error ≠ .exceptionReceived)
    (hcheck : modbusClientCheckResp (c.holding a) = (error, c.holding a)) (value : r.Buffer) :
    r.Admits c a value (r.call.judge c a value) := by
  have hjudge : r.call.judge c a value = (error, c.exceptionCode, value) := by
    rw [Call.judge, hcheck]
    exact if_neg hne
  rw [hjudge]
  exact ⟨fun h => absurd h hne, fun h => absurd h hne', fun _ => rfl⟩

/-- **Only a response to the request counts.** -/
theorem ClientRequest.judge_admits (r : ClientRequest) {c : ModbusClientContext} {a : Adu}
    (ha : a.WellFormed) (hrequest : headerSize + 1 ≤ c.requestAduLen)
    (hcode : c.requestAdu headerSize = r.functionCode) (value : r.Buffer) :
    r.Admits c a value (r.call.judge c a value) := by
  obtain ⟨f, body, hpdu⟩ := List.exists_cons_of_length_pos ha.nonempty
  have hcheck := check_holding (c := c) hpdu hrequest
  have hmask : (r.functionCode &&& functionCodeMask) = r.functionCode := by
    rcases functionCode_split r.functionCode with h | h
    · exact h.2
    · exact absurd r.functionCode_mask h.1
  rw [hcode, hmask] at hcheck
  by_cases hid : a.transactionId ≠ c.requestAdu.getU16 0
  · rw [if_pos hid] at hcheck
    exact admits_refused .wrongIdentifier nofun nofun hcheck value
  by_cases hunit : a.unitId ≠ c.requestAdu 6
  · rw [if_neg hid, if_pos hunit] at hcheck
    exact admits_refused .unexpectedResponse nofun nofun hcheck value
  by_cases hfunction : (f &&& functionCodeMask) ≠ r.functionCode
  · rw [if_neg hid, if_neg hunit, if_pos hfunction] at hcheck
    exact admits_refused .unexpectedResponse nofun nofun hcheck value
  rw [if_neg hid, if_neg hunit, if_neg hfunction] at hcheck
  rcases functionCode_split f with ⟨hbit, hf⟩ | ⟨hbit, hf⟩
  · -- a normal response, for the parser
    rw [if_neg (not_not_intro hbit)] at hcheck
    have hjudge : r.call.judge c a value = ((r.call.parse (c.holding a) value).1, c.exceptionCode,
        (r.call.parse (c.holding a) value).2) := by
      rw [Call.judge, hcheck]
      exact if_pos rfl
    rw [hjudge]
    refine ⟨fun _ => ⟨not_not.1 hunit, ?_⟩, fun h => absurd h (r.parsesCode.noException _ _),
      r.parsesCode.keeps⟩
    rw [hpdu, List.head?_cons, ← not_not.1 hfunction, hf]
  · rw [if_pos hbit] at hcheck
    cases body with
    | nil => exact admits_refused .invalidLength nofun nofun hcheck value
    | cons code body =>
        have hjudge : r.call.judge c a value = (.exceptionReceived, code, value) := by
          rw [Call.judge, hcheck]
          exact if_neg nofun
        rw [hjudge]
        refine ⟨nofun, fun _ => ⟨not_not.1 hunit, ?_, ?_⟩, fun _ => rfl⟩
        · rw [hpdu, List.head?_cons, ← not_not.1 hfunction, hf]
        · rw [hpdu]
          rfl

/-! ## Where the call stands in the stream -/

/-- The client waits for the response to the request of `c`. -/
structure Awaits (c context : ModbusClientContext) : Prop where
  state : context.state = .receiving
  requestAdu : c.requestAdu = context.requestAdu
  requestAduLen : c.requestAduLen = context.requestAduLen
  exceptionCode : c.exceptionCode = context.exceptionCode

/-- The client has the first `j` bytes of `a`; the rest of it is unread, and `rest` behind it. -/
structure ReceivedPart (c : ModbusClientContext) (a : Adu) (rest : List Adu) (j : ℕ)
    (s : Client StreamSocket) : Prop where
  awaits : Awaits c s.context
  le_length : j ≤ a.bytes.length
  responseAduPos : s.context.responseAduPos = j
  buffer : s.context.responseAdu.read 0 j = a.bytes.take j
  responseAduLen : headerSize ≤ j → s.context.responseAduLen = a.bytes.length
  unread : s.net.inbound = a.bytes.drop j ++ stream rest

section Receiving

variable {c : ModbusClientContext} {a : Adu} {rest : List Adu} {j : ℕ} {s : Client StreamSocket}

/-- A socket call that fails ends the transaction with a timeout. -/
theorem transaction_timeout (h : (transact streamApi s).1 = .timeout) :
    (modbusClientTransaction streamApi s).1 = .timeout := by
  have hadjust : adjustTimeout streamApi s = s := rfl
  simp [modbusClientTransaction, hadjust, h]

/-- Nothing comes: the plan says so, or the stream has ended. -/
theorem transact_wait (hstate : s.context.state = .receiving)
    (hwants : s.context.responseAduPos < headerSize ∨
      s.context.responseAduPos < s.context.responseAduLen)
    (hnone : s.net.transfers = false ∨ s.net.inbound = []) :
    (transact streamApi s).1 = .timeout := by
  have hreceive : ∀ size, (s.net.receive size).1 = .timeout := by
    intro size
    rcases hnone with hnone | hnone
    · rw [receive_of_not_transfers hnone]
    · rw [receive_of_inbound_nil hnone]
  have hne : (.timeout : ErrorCode) ≠ .noError := nofun
  by_cases hheader : s.context.responseAduPos < headerSize
  · simp only [transact, hstate, receiveResponse, if_pos hheader, receiveResponseHeader, streamApi,
      hreceive, if_neg hne]
  · have hbody := hwants.resolve_left hheader
    simp only [transact, hstate, receiveResponse, if_neg hheader, if_pos hbody, receiveResponseBody,
      streamApi, hreceive, if_neg hne]

/-- The client after it has stored the next `t` bytes of the response. -/
theorem ReceivedPart.advance (h : ReceivedPart c a rest j s) {t : ℕ} (ht : j + t ≤ a.bytes.length)
    (responseAduLen : ℕ) (hlen : headerSize ≤ j + t → responseAduLen = a.bytes.length) :
    ReceivedPart c a rest (j + t)
      ⟨{ (s.context.store ((a.bytes.drop j).take t)).advance t with
          responseAduLen := responseAduLen },
        { s.net with inbound := s.net.inbound.drop t, plan := s.net.plan.tail }⟩ := by
  have hlength : ((a.bytes.drop j).take t).length = t := by
    rw [List.length_take, List.length_drop]
    omega
  have hread := Memory.read_write_self s.context.responseAdu j ((a.bytes.drop j).take t)
  rw [hlength] at hread
  refine ⟨⟨h.awaits.state, h.awaits.requestAdu, h.awaits.requestAduLen, h.awaits.exceptionCode⟩, ht,
    ?_, ?_, hlen, ?_⟩
  · simp only [ModbusClientContext.advance, ModbusClientContext.store, h.responseAduPos]
  · simp only [ModbusClientContext.advance, ModbusClientContext.store, h.responseAduPos]
    rw [Memory.read_add, Memory.read_write_of_le _ _ (by omega), h.buffer, Nat.zero_add, hread,
      ← List.take_add]
  · simp only
    rw [h.unread, List.drop_append_of_le_length (by rw [List.length_drop]; omega), List.drop_drop]

/-- A receive that transfers something returns the next bytes of the response. -/
theorem ReceivedPart.receive (h : ReceivedPart c a rest j s) (htransfers : s.net.transfers = true)
    (size : ℕ) (hsize : 0 < size) (hle : j + size ≤ a.bytes.length) :
    ∃ t, 0 < t ∧ j + t ≤ a.bytes.length ∧ t ≤ size ∧ ((a.bytes.drop j).take t).length = t ∧
      s.net.receive size = (.noError, (a.bytes.drop j).take t,
        { s.net with inbound := s.net.inbound.drop t, plan := s.net.plan.tail }) := by
  have hne : s.net.inbound ≠ [] := by
    rw [h.unread]
    intro hnil
    have hlength := congrArg List.length (List.append_eq_nil_iff.1 hnil).1
    rw [List.length_drop, List.length_nil] at hlength
    omega
  obtain ⟨t, hlo, hhi, hreceive⟩ := receive_of_transfers htransfers hne hsize
  have htake : s.net.inbound.take t = (a.bytes.drop j).take t := by
    rw [h.unread, List.take_append_of_le_length (by rw [List.length_drop]; omega)]
  refine ⟨t, hlo, by omega, hhi, ?_, htake ▸ hreceive⟩
  rw [List.length_take, List.length_drop]
  omega

/-- One more piece of the response. -/
theorem ReceivedPart.piece (ha : a.WellFormed) (h : ReceivedPart c a rest j s)
    (hj : j < a.bytes.length) (htransfers : s.net.transfers = true) :
    ∃ t s', 0 < t ∧ modbusClientTransaction streamApi s = (.noError, s') ∧
      ReceivedPart c a rest (j + t) s' ∧ s'.net.plan = s.net.plan.tail := by
  have hbytes := a.length_bytes
  have hadjust : adjustTimeout streamApi s = s := rfl
  by_cases hheader : j < headerSize
  · obtain ⟨t, ht, hle, hhi, hlength, hreceive⟩ :=
      h.receive htransfers (headerSize - j) (by omega) (by omega)
    have hadvanced : ((s.context.store ((a.bytes.drop j).take t)).advance t).responseAduPos
        = j + t := by
      simp only [ModbusClientContext.advance, ModbusClientContext.store, h.responseAduPos]
    by_cases hfull : headerSize ≤ j + t
    · have hjt : j + t = headerSize := by omega
      have hnew := h.advance hle a.bytes.length fun _ => rfl
      have hread : ((s.context.store ((a.bytes.drop j).take t)).advance t).responseAdu.read 0
          headerSize = a.header := by
        have hbuffer := hnew.buffer
        rw [hjt, a.take_header] at hbuffer
        exact hbuffer
      refine ⟨t, _, ht, modbusClientTransaction_noError ?_, hnew, rfl⟩
      rw [hadjust]
      simp only [transact, h.awaits.state, receiveResponse, h.responseAduPos,
        if_pos hheader, receiveResponseHeader, streamApi, hreceive, hlength, if_true]
      rw [if_pos (hadvanced ▸ hfull), parse_header_ok ha (hadvanced ▸ hfull) hread]
    · refine ⟨t, _, ht, modbusClientTransaction_noError ?_,
        h.advance hle s.context.responseAduLen fun hle => absurd hle hfull, rfl⟩
      rw [hadjust]
      simp only [transact, h.awaits.state, receiveResponse, h.responseAduPos,
        if_pos hheader, receiveResponseHeader, streamApi, hreceive, hlength, if_true]
      rw [if_neg (hadvanced ▸ hfull)]
      rfl
  · have hlen := h.responseAduLen (Nat.not_lt.1 hheader)
    obtain ⟨t, ht, hle, hhi, hlength, hreceive⟩ :=
      h.receive htransfers (a.bytes.length - j) (by omega) (by omega)
    refine ⟨t, _, ht, modbusClientTransaction_noError ?_,
      h.advance hle s.context.responseAduLen fun _ => hlen, rfl⟩
    rw [hadjust]
    simp only [transact, h.awaits.state, receiveResponse, h.responseAduPos,
      if_neg hheader, hlen, if_pos hj, receiveResponseBody, streamApi, hreceive, hlength, if_true]
    rw [← hlen]
    rfl

/-- The whole response is there: the client's exchange is the one with `a` alone. -/
theorem ReceivedPart.sameExchange (h : ReceivedPart c a rest a.bytes.length s) :
    SameExchange (c.holding a) s.context where
  length_eq := (h.responseAduLen (by rw [a.length_bytes]; exact Nat.le_add_right _ _)).symm
  agree := by
    intro i hi
    have hread : (Memory.write (fun _ => 0) 0 a.bytes).read 0 a.bytes.length = a.bytes :=
      Memory.read_write_self _ 0 _
    have hcells := Memory.read_eq_iff.1 (h.buffer.trans (List.take_length ..))
    have hcells' := Memory.read_eq_iff.1 hread
    have hi' : i < a.bytes.length := hi
    have hcell := (hcells' i hi').trans (hcells i hi').symm
    rwa [Nat.zero_add] at hcell
  requestAdu := h.awaits.requestAdu
  requestAduLen := h.awaits.requestAduLen
  exceptionCode := h.awaits.exceptionCode

end Receiving

/-! ## How a call ends -/

/-- A call that has failed is at its end. -/
theorem Ends.of_failure {ν β : Type*} {api : SocketApi ν} {call : Call β}
    {Q : ErrorCode → Calling ν β → Prop} {s s' : Calling ν β} {error : ErrorCode}
    (h : call.iterate api s = ⟨error, false, s'⟩) (hne : error ≠ .noError) (hQ : Q error s') :
    Ends api call s Q := by
  refine ⟨1, error, s', ?_, hQ⟩
  rw [Call.loop, h]
  simp [hne]

/-- The next `n` socket calls transfer something. -/
def Timely (n : ℕ) (plan : List (Option ℕ)) : Prop :=
  ∀ i, i < n → ∃ k, plan[i]? = some (some k)

theorem Timely.transfers {n : ℕ} {v : StreamSocket} (h : Timely n v.plan) (hn : 0 < n) :
    v.transfers = true := by
  obtain ⟨k, hk⟩ := h 0 hn
  unfold StreamSocket.transfers
  cases hplan : v.plan with
  | nil => simp [hplan] at hk
  | cons p plan =>
      obtain rfl : p = some k := by simpa [hplan] using hk
      rfl

theorem Timely.tail {m n : ℕ} {plan : List (Option ℕ)} (h : Timely n plan) (hle : m + 1 ≤ n) :
    Timely m plan.tail := by
  intro i hi
  obtain ⟨k, hk⟩ := h (i + 1) (by omega)
  refine ⟨k, ?_⟩
  rw [List.getElem?_tail]
  exact hk

theorem Timely.mono {m n : ℕ} {plan : List (Option ℕ)} (h : Timely n plan) (hle : m ≤ n) :
    Timely m plan :=
  fun i hi => h i (by omega)

section Ending

variable (r : ClientRequest) (c : ModbusClientContext) (before : r.Buffer)

/-- The call has ended on the response `a`, the first one of its transaction: the ones before it are
skipped, the ones behind it are unread, and the result is the judgement of `a` alone. -/
structure EndsOn (adus skipped : List Adu) (a : Adu) (rest : List Adu) (error : ErrorCode)
    (s : Calling StreamSocket r.Buffer) : Prop where
  split : adus = skipped ++ a :: rest
  skipped : ∀ b ∈ skipped, b.transactionId ≠ c.requestAdu.getU16 0
  first : a.transactionId = c.requestAdu.getU16 0
  unread : s.net.inbound = stream rest
  verdict : (error, s.context.exceptionCode, s.value) = r.call.judge c a before
  admits : r.Admits c a before (error, s.context.exceptionCode, s.value)

/-- The call has ended with a timeout, because no response of its transaction came, or because a
socket call among the first `work` of the plan timed out. The caller's buffer is as it was. -/
structure EndsLate (adus : List Adu) (work : ℕ) (plan : List (Option ℕ)) (error : ErrorCode)
    (s : Calling StreamSocket r.Buffer) : Prop where
  timeout : error = .timeout
  untouched : s.value = before
  late : (∀ a ∈ adus, a.transactionId ≠ c.requestAdu.getU16 0) ∨ ¬ Timely work plan

/-- The two ends of a call. -/
def Concludes (adus : List Adu) (work : ℕ) (plan : List (Option ℕ)) (error : ErrorCode)
    (s : Calling StreamSocket r.Buffer) : Prop :=
  (∃ skipped a rest, EndsOn r c before adus skipped a rest error s) ∨
    EndsLate r c before adus work plan error s

variable {r c before} {adus : List Adu} {work : ℕ} {plan : List (Option ℕ)} {error : ErrorCode}
  {s : Calling StreamSocket r.Buffer}

/-- One socket call earlier. -/
theorem Concludes.earlier {work' : ℕ} (h : Concludes r c before adus work' plan.tail error s)
    (hle : work' + 1 ≤ work) : Concludes r c before adus work plan error s :=
  h.imp id fun h => ⟨h.timeout, h.untouched, h.late.imp id fun hlate htimely =>
    hlate (htimely.tail hle)⟩

/-- With more socket calls allowed for. -/
theorem Concludes.within {work' : ℕ} (h : Concludes r c before adus work' plan error s)
    (hle : work' ≤ work) : Concludes r c before adus work plan error s :=
  h.imp id fun h => ⟨h.timeout, h.untouched, h.late.imp id fun hlate htimely =>
    hlate (htimely.mono hle)⟩

/-- One response earlier, of another transaction. -/
theorem Concludes.skip {a : Adu} {work' : ℕ} (h : Concludes r c before adus work' plan error s)
    (hid : a.transactionId ≠ c.requestAdu.getU16 0) (hle : work' ≤ work) :
    Concludes r c before (a :: adus) work plan error s := by
  rcases h with ⟨skipped, b, rest, h⟩ | h
  · refine .inl ⟨a :: skipped, b, rest, congrArg (a :: ·) h.split, ?_, h.first, h.unread, h.verdict,
      h.admits⟩
    intro b hb
    rcases List.mem_cons.1 hb with rfl | hb
    · exact hid
    · exact h.skipped b hb
  · refine .inr ⟨h.timeout, h.untouched, h.late.imp (fun hother b hb => ?_) fun hlate htimely =>
      hlate (htimely.mono hle)⟩
    rcases List.mem_cons.1 hb with rfl | hb
    · exact hid
    · exact hother b hb

end Ending

/-! ## The response is there -/

/-- The check does not report that a socket was not ready. -/
theorem modbusClientCheckResp_error (c : ModbusClientContext) :
    (modbusClientCheckResp c).1 ≠ .wouldBlock ∧ (modbusClientCheckResp c).1 ≠ .timeout := by
  unfold modbusClientCheckResp modbusClientParseExceptionResp
  dsimp only
  repeat' split
  all_goals exact ⟨nofun, nofun⟩

section Accepting

variable {r : ClientRequest} {c : ModbusClientContext} {a : Adu} {rest : List Adu}
  {s : Client StreamSocket}

theorem ReceivedPart.transact_accept (h : ReceivedPart c a rest a.bytes.length s) :
    transact streamApi (adjustTimeout streamApi s) = acceptResponse s := by
  have hadjust : adjustTimeout streamApi s = s := rfl
  have hheader : headerSize ≤ a.bytes.length := by
    rw [a.length_bytes]
    exact Nat.le_add_right _ _
  rw [hadjust]
  simp only [transact, h.awaits.state, receiveResponse, h.responseAduPos, h.responseAduLen hheader,
    if_neg (Nat.not_lt.2 hheader), lt_irrefl, if_false]

/-- A response of another transaction is dropped. -/
theorem ReceivedPart.drop_other (ha : a.WellFormed) (hrequest : headerSize + 1 ≤ c.requestAduLen)
    (h : ReceivedPart c a rest a.bytes.length s)
    (hid : a.transactionId ≠ c.requestAdu.getU16 0) :
    ∃ s', modbusClientTransaction streamApi s = (.noError, s') ∧ Awaits c s'.context ∧
      s'.context.responseAduPos = 0 ∧ s'.net = s.net := by
  obtain ⟨f, body, hpdu⟩ := List.exists_cons_of_length_pos ha.nonempty
  have hcheck : (modbusClientCheckResp s.context).1 = .wrongIdentifier := by
    rw [← h.sameExchange.check.1, check_holding hpdu hrequest, if_pos hid]
  have hcode := h.sameExchange.check.2
  rw [check_holding hpdu hrequest, if_pos hid] at hcode
  refine ⟨⟨{ (modbusClientCheckResp s.context).2 with responseAduLen := 0, responseAduPos := 0 },
    s.net⟩, modbusClientTransaction_noError ?_, ?_, rfl, rfl⟩
  · rw [h.transact_accept, acceptResponse, hcheck]
    rfl
  · rw [modbusClientCheckResp_context]
    exact ⟨h.awaits.state, h.awaits.requestAdu, h.awaits.requestAduLen, hcode⟩

/-- A response of the transaction ends the call. -/
theorem ReceivedPart.ends (ha : a.WellFormed) (hrequest : headerSize + 1 ≤ c.requestAduLen)
    (hcode : c.requestAdu headerSize = r.functionCode)
    (h : ReceivedPart c a rest a.bytes.length s)
    (hid : a.transactionId = c.requestAdu.getU16 0) (value : r.Buffer) :
    Ends streamApi r.call { toClient := s, value := value }
      (EndsOn r c value (a :: rest) [] a rest) := by
  have hadmits := r.judge_admits ha hrequest hcode value
  have hsame := h.sameExchange
  obtain ⟨herror, hexception⟩ := hsame.check
  obtain ⟨hblock, htimeout⟩ := modbusClientCheckResp_error s.context
  have hunread : s.net.inbound = stream rest := by
    rw [h.unread, List.drop_length, List.nil_append]
  have hother : (modbusClientCheckResp s.context).1 ≠ .wrongIdentifier := by
    obtain ⟨f, body, hpdu⟩ := List.exists_cons_of_length_pos ha.nonempty
    rw [← herror, check_holding hpdu hrequest, if_neg (not_not_intro hid)]
    split
    · simp
    split
    · simp
    split
    · cases body <;> simp [ModbusClientContext.reporting]
    · simp
  by_cases hok : (modbusClientCheckResp s.context).1 = .noError
  · -- the response is parsed in the next iteration
    set context : ModbusClientContext :=
      { (modbusClientCheckResp s.context).2 with state := .complete } with hcontext
    have htransaction : modbusClientTransaction streamApi s = (.noError, ⟨context, s.net⟩) := by
      refine modbusClientTransaction_noError ?_
      rw [h.transact_accept, acceptResponse, if_pos hok]
    have hfirst : r.call.iterate streamApi { toClient := s, value := value }
        = ⟨.noError, false, { toClient := ⟨context, s.net⟩, value := value }⟩ := by
      simp only [Call.iterate, h.awaits.state, htransaction]
    have hparse : r.call.parse context value
        = r.call.parse (modbusClientCheckResp (c.holding a)).2 value := by
      refine (r.parsesCode.congr value ⟨?_, ?_⟩).symm
      · rw [hcontext, modbusClientCheckResp_context, modbusClientCheckResp_context s.context]
        exact hsame.length_eq
      · rw [hcontext, modbusClientCheckResp_context, modbusClientCheckResp_context s.context]
        exact hsame.agree
    have hjudge : r.call.judge c a value = ((r.call.parse context value).1,
        context.exceptionCode, (r.call.parse context value).2) := by
      rw [Call.judge, if_pos (herror.trans hok), hparse, hexception]
    have hlast : r.call.iterate streamApi { toClient := ⟨context, s.net⟩, value := value }
        = ⟨(r.call.parse context value).1, true, {
            toClient := ⟨{ context with state := .connected }, s.net⟩
            value := (r.call.parse context value).2 }⟩ := rfl
    refine .of_iterate hfirst (.of_left hlast ⟨rfl, by simp, hid, hunread, hjudge.symm, ?_⟩)
    exact hjudge ▸ hadmits
  · -- the check has failed
    have htransaction : modbusClientTransaction streamApi s
        = ((modbusClientCheckResp s.context).1,
          ⟨{ (modbusClientCheckResp s.context).2 with state := .connected }, s.net⟩) := by
      rw [modbusClientTransaction, h.transact_accept, acceptResponse, if_neg hok, if_neg hother]
      simp [hblock, htimeout, hok]
    have hiterate : r.call.iterate streamApi { toClient := s, value := value }
        = ⟨(modbusClientCheckResp s.context).1, false,
          { toClient := ⟨{ (modbusClientCheckResp s.context).2 with state := .connected }, s.net⟩
            value := value }⟩ := by
      simp only [Call.iterate, h.awaits.state, htransaction]
    have hjudge : r.call.judge c a value = ((modbusClientCheckResp s.context).1,
        (modbusClientCheckResp s.context).2.exceptionCode, value) := by
      rw [Call.judge, if_neg (herror ▸ hok), herror, hexception]
    refine .of_failure hiterate hok ⟨rfl, by simp, hid, hunread, hjudge.symm, ?_⟩
    exact hjudge ▸ hadmits

end Accepting

/-! ## The run of a call -/

section Runs

variable {r : ClientRequest} {c : ModbusClientContext} {s : Client StreamSocket}

/-- A timeout of the transaction ends the call, with the caller's buffer as it was. -/
theorem ends_timeout {adus : List Adu} {work : ℕ} {plan : List (Option ℕ)} {value : r.Buffer}
    (hactive : s.context.state = .sending ∨ s.context.state = .receiving)
    (htimeout : (transact streamApi s).1 = .timeout)
    (hlate : (∀ a ∈ adus, a.transactionId ≠ c.requestAdu.getU16 0) ∨ ¬ Timely work plan) :
    Ends streamApi r.call { toClient := s, value := value } (Concludes r c value adus work plan) := by
  have hiterate : r.call.iterate streamApi { toClient := s, value := value }
      = ⟨.timeout, false,
        { toClient := (modbusClientTransaction streamApi s).2, value := value }⟩ := by
    rcases hactive with hstate | hstate <;>
      simp only [Call.iterate, hstate, transaction_timeout htimeout]
  exact .of_failure hiterate (by simp) (.inr ⟨rfl, rfl, hlate⟩)

/-- One more transaction without an error. -/
theorem ends_step {s' : Client StreamSocket} {value : r.Buffer}
    {Q : ErrorCode → Calling StreamSocket r.Buffer → Prop}
    (hactive : s.context.state = .sending ∨ s.context.state = .receiving)
    (hstep : modbusClientTransaction streamApi s = (.noError, s'))
    (h : Ends streamApi r.call { toClient := s', value := value } Q) :
    Ends streamApi r.call { toClient := s, value := value } Q := by
  refine .of_iterate ?_ h
  rcases hactive with hstate | hstate <;> simp only [Call.iterate, hstate, hstep]

theorem Ends.mono {ν β : Type*} {api : SocketApi ν} {call : Call β} {s : Calling ν β}
    {Q Q' : ErrorCode → Calling ν β → Prop} (h : Ends api call s Q)
    (hQ : ∀ error s', Q error s' → Q' error s') : Ends api call s Q' := by
  obtain ⟨fuel, error, s', hloop, hend⟩ := h
  exact ⟨fuel, error, s', hloop, hQ _ _ hend⟩

variable (hrequest : headerSize + 1 ≤ c.requestAduLen)
  (hcode : c.requestAdu headerSize = r.functionCode)
include hrequest hcode

/-- From the middle of a response: it arrives piece by piece, and is then judged or dropped. -/
theorem ends_response {a : Adu} (ha : a.WellFormed) {rest : List Adu} (value : r.Buffer)
    (hrest : ∀ s' : Client StreamSocket, Awaits c s'.context → s'.context.responseAduPos = 0 →
      s'.net.inbound = stream rest →
      Ends streamApi r.call { toClient := s', value := value }
        (Concludes r c value rest (stream rest).length s'.net.plan))
    {j : ℕ} (h : ReceivedPart c a rest j s) :
    Ends streamApi r.call { toClient := s, value := value }
      (Concludes r c value (a :: rest) (a.bytes.length - j + (stream rest).length) s.net.plan) := by
  have hbytes := a.length_bytes
  -- the induction is on the bytes that are missing
  induction hleft : a.bytes.length - j using Nat.strong_induction_on generalizing j s with
  | _ left ih =>
      have hle := h.le_length
      by_cases hj : j < a.bytes.length
      · by_cases htransfers : s.net.transfers = true
        · obtain ⟨t, s', ht, hstep, hnext, hplan⟩ := h.piece ha hj htransfers
          have hle' := hnext.le_length
          refine ends_step (.inr h.awaits.state) hstep
            ((ih (a.bytes.length - (j + t)) (by omega) hnext rfl).mono fun error s'' hend => ?_)
          rw [hplan] at hend
          exact hend.earlier (by omega)
        · have hwants : s.context.responseAduPos < headerSize ∨
              s.context.responseAduPos < s.context.responseAduLen := by
            rw [h.responseAduPos]
            by_cases hheader : j < headerSize
            · exact .inl hheader
            · rw [h.responseAduLen (Nat.not_lt.1 hheader)]
              exact .inr hj
          refine ends_timeout (.inr h.awaits.state)
            (transact_wait h.awaits.state hwants (.inl (Bool.not_eq_true _ ▸ htransfers)))
            (.inr fun htimely => htransfers (htimely.transfers (by omega)))
      · obtain rfl : j = a.bytes.length := by omega
        by_cases hid : a.transactionId = c.requestAdu.getU16 0
        · exact (h.ends ha hrequest hcode hid value).mono fun error s' hend =>
            .inl ⟨[], a, rest, hend⟩
        · obtain ⟨s', hstep, hawaits, hpos, hnet⟩ := h.drop_other ha hrequest hid
          have hunread : s'.net.inbound = stream rest := by
            rw [hnet, h.unread, List.drop_length, List.nil_append]
          refine ends_step (.inr h.awaits.state) hstep
            ((hrest s' hawaits hpos hunread).mono fun error s'' hend => ?_)
          rw [hnet] at hend
          exact hend.skip hid (by omega)

/-- From the border of two responses. -/
theorem ends_awaiting {adus : List Adu} (hadus : ∀ a ∈ adus, a.WellFormed) (value : r.Buffer)
    (hawaits : Awaits c s.context) (hpos : s.context.responseAduPos = 0)
    (hunread : s.net.inbound = stream adus) :
    Ends streamApi r.call { toClient := s, value := value }
      (Concludes r c value adus (stream adus).length s.net.plan) := by
  induction adus generalizing s with
  | nil =>
      have hwants : s.context.responseAduPos < headerSize := by
        rw [hpos]
        decide
      exact ends_timeout (.inr hawaits.state)
        (transact_wait hawaits.state (.inl hwants) (.inr hunread)) (.inl (by simp))
  | cons a rest ih =>
      have hstart : ReceivedPart c a rest 0 s :=
        ⟨hawaits, Nat.zero_le _, hpos, rfl, fun h => absurd h (by decide), hunread⟩
      have hends := ends_response hrequest hcode (hadus a (List.mem_cons_self ..)) value
        (fun s' hawaits' hpos' hunread' =>
          ih (fun b hb => hadus b (List.mem_cons_of_mem _ hb)) hawaits' hpos' hunread') hstart
      rw [stream_cons, List.length_append]
      exact hends

/-- From the middle of the request: the rest of it goes out first. -/
theorem ends_sending {adus : List Adu} (hadus : ∀ a ∈ adus, a.WellFormed) (value : r.Buffer)
    (hstate : c.state = .sending) {k : ℕ} (hk : k ≤ c.requestAduLen)
    (hcontext : s.context = { c with requestAduPos := k })
    (hunread : s.net.inbound = stream adus) :
    Ends streamApi r.call { toClient := s, value := value }
      (Concludes r c value adus (c.requestAduLen - k + (stream adus).length) s.net.plan) := by
  have hadjust : ∀ s : Client StreamSocket, adjustTimeout streamApi s = s := fun _ => rfl
  -- the induction is on the bytes that are not sent
  induction hleft : c.requestAduLen - k using Nat.strong_induction_on generalizing k s with
  | _ left ih =>
      have hsending : s.context.state = .sending := by rw [hcontext, ← hstate]
      have hlen : s.context.requestAduLen = c.requestAduLen := by rw [hcontext]
      have hpos : s.context.requestAduPos = k := by rw [hcontext]
      by_cases hlt : k < c.requestAduLen
      · by_cases htransfers : s.net.transfers = true
        · have hne : s.context.requestAdu.read k (c.requestAduLen - k) ≠ [] := by
            intro hnil
            have hlength := congrArg List.length hnil
            rw [Memory.length_read, List.length_nil] at hlength
            omega
          obtain ⟨t, hlo, hhi, hsend⟩ := send_of_transfers htransfers hne
          rw [Memory.length_read] at hhi
          obtain ⟨s', hs'⟩ : ∃ s' : Client StreamSocket, s' = ⟨{ c with requestAduPos := k + t },
              { s.net with
                outbound := s.net.outbound ++
                  (s.context.requestAdu.read k (c.requestAduLen - k)).take t
                plan := s.net.plan.tail }⟩ := ⟨_, rfl⟩
          have hstep : modbusClientTransaction streamApi s = (.noError, s') := by
            refine modbusClientTransaction_noError ?_
            rw [hadjust]
            simp only [transact, hsending, sendRequest, hpos, hlen, if_pos hlt, streamApi, hsend,
              if_true]
            rw [hs', hcontext, hstate]
          have hrest := ih (c.requestAduLen - (k + t)) (by omega) (s := s') (by omega)
            (by rw [hs']) (by rw [hs']; exact hunread) rfl
          refine ends_step (.inl hsending) hstep (hrest.mono fun error s'' hend => ?_)
          rw [hs'] at hend
          exact hend.earlier (by omega)
        · have htimeout : (transact streamApi s).1 = .timeout := by
            have hne : (.timeout : ErrorCode) ≠ .noError := by simp
            simp only [transact, hsending, sendRequest, hpos, hlen, if_pos hlt, streamApi,
              send_of_not_transfers (Bool.not_eq_true _ ▸ htransfers), if_neg hne]
          exact ends_timeout (.inl hsending) htimeout
            (.inr fun htimely => htransfers (htimely.transfers (by omega)))
      · have hstep : modbusClientTransaction streamApi s
            = (.noError, ⟨{ s.context with
                responseAduLen := 0, responseAduPos := 0, state := .receiving }, s.net⟩) := by
          refine modbusClientTransaction_noError ?_
          rw [hadjust]
          simp only [transact, hsending, sendRequest, hpos, hlen, if_neg hlt]
        have hawaits : Awaits c { s.context with
            responseAduLen := 0, responseAduPos := 0, state := .receiving } := by
          rw [hcontext]
          exact ⟨rfl, rfl, rfl, rfl⟩
        obtain rfl : left = 0 := by omega
        rw [Nat.zero_add]
        exact ends_step (.inl hsending) hstep
          (ends_awaiting hrequest hcode hadus value hawaits rfl hunread)

end Runs

/-! ## The whole call -/

/-- The formatter puts the function code at the front of the PDU. -/
theorem ClientRequest.format_functionCode {r : ClientRequest} (h : r.Accepted)
    (context : ModbusClientContext) (time : UInt32) :
    (r.format context time).2.requestAdu headerSize = r.functionCode := by
  cases r with
  | readCoils | readDiscreteInputs | readHoldingRegs | readInputRegs | writeSingleCoil
  | writeSingleReg => exact (formatWordsReq_request context time _ _ _).2.1
  | writeMultipleCoils address quantity value =>
      exact (modbusClientFormatWriteMultipleCoilsReq_request context time address h.2 value).2.1
  | writeMultipleRegs address quantity value =>
      exact (modbusClientFormatWriteMultipleRegsReq_request context time address h.2 value).2.1
  | maskWriteReg address andMask orMask =>
      exact (modbusClientFormatMaskWriteRegReq_request context time address andMask orMask).2.1
  | readWriteMultipleRegs readAddress readQuantity writeAddress writeQuantity writeValue =>
      exact (modbusClientFormatReadWriteMultipleRegsReq_request readAddress readQuantity writeAddress
        context time h.2.2 writeValue).2.1

/-- The request `r` is pending: about to be formatted, partly sent, or sent with no byte of a
response read. `c` is the context the formatter has left or will leave. -/
inductive Pending (r : ClientRequest) (c : ModbusClientContext) (s : Client StreamSocket) : Prop where
  | connected (hstate : s.context.state = .connected)
      (hc : c = (r.format s.context (streamApi.osGetSystemTime s.net)).2)
  | sending (context : ModbusClientContext) (time : UInt32) (hc : c = (r.format context time).2)
      (k : ℕ) (hk : k ≤ c.requestAduLen) (hcontext : s.context = { c with requestAduPos := k })
  | receiving (context : ModbusClientContext) (time : UInt32) (hc : c = (r.format context time).2)
      (hawaits : Awaits c s.context) (hpos : s.context.responseAduPos = 0)

/-- **Transaction matching.** A pending request comes to an end. It ends on the first response of its
transaction, with what this response alone would have given; or with a timeout and an untouched
buffer, if there is no such response or one of the socket calls up to it timed out. -/
theorem transaction_matching (r : ClientRequest) (haccepted : r.Accepted) {c : ModbusClientContext}
    {s : Calling StreamSocket r.Buffer} (hpending : Pending r c s.toClient) (adus : List Adu)
    (hadus : ∀ a ∈ adus, a.WellFormed) (hunread : s.net.inbound = stream adus) :
    ∃ enough error s',
      (∀ fuel, enough ≤ fuel → r.call.run streamApi r.Accepted fuel s = some (error, s')) ∧
      Concludes r c s.value adus (c.requestAduLen + (stream adus).length) s.net.plan error s' := by
  have hfacts : ∀ context time, c = (r.format context time).2 →
      c.state = .sending ∧ headerSize + 1 ≤ c.requestAduLen ∧
        c.requestAdu headerSize = r.functionCode ∧ c = { c with requestAduPos := 0 } := by
    rintro context time rfl
    obtain ⟨n, hformatted⟩ := ClientRequest.format_formatted haccepted context time
    refine ⟨hformatted.state, ?_, ClientRequest.format_functionCode haccepted context time, ?_⟩
    · rw [hformatted.requestAduLen]
      exact Nat.add_le_add_left hformatted.nonempty _
    · rw [← hformatted.requestAduPos]
  have hends : Ends streamApi r.call s
      (Concludes r c s.value adus (c.requestAduLen + (stream adus).length) s.net.plan) := by
    cases hpending with
    | connected hstate hc =>
        obtain ⟨hsending, hrequest, hcode, hpos⟩ := hfacts _ _ hc
        have hfirst : r.call.iterate streamApi s
            = ⟨(r.format s.context (streamApi.osGetSystemTime s.net)).1, false,
              { toClient := ⟨c, s.net⟩, value := s.value }⟩ := by
          simp only [Call.iterate, hstate, r.call_format, hc]
        have hok : (r.format s.context (streamApi.osGetSystemTime s.net)).1 = .noError := by
          cases r <;> rfl
        rw [hok] at hfirst
        exact .of_iterate hfirst (ends_sending (s := ⟨c, s.net⟩) hrequest hcode hadus s.value
          hsending (Nat.zero_le _) hpos hunread)
    | sending context time hc k hk hcontext =>
        obtain ⟨hsending, hrequest, hcode, -⟩ := hfacts _ _ hc
        exact (ends_sending hrequest hcode hadus s.value hsending hk hcontext hunread).mono
          fun error s' h => h.within (by omega)
    | receiving context time hc hawaits hpos =>
        obtain ⟨-, hrequest, hcode, -⟩ := hfacts _ _ hc
        exact (ends_awaiting hrequest hcode hadus s.value hawaits hpos hunread).mono
          fun error s' h => h.within (by omega)
  obtain ⟨enough, error, s', hloop, hend⟩ := hends
  refine ⟨enough, error, s', fun fuel hle => ?_, hend⟩
  rw [Call.run, if_pos haccepted]
  exact Call.loop_mono hle hloop

/-- A client about to read one holding register, on whose connection the response to an earlier
request is still unread. -/
def clientWithStaleResponse : Calling StreamSocket (ClientRequest.readHoldingRegs 0 1).Buffer where
  context := freshSession.client.context
  net := {
    inbound := stream [⟨0, 1, [3, 2, 0, 7]⟩, ⟨1, 1, [3, 2, 0, 8]⟩], outbound := []
    plan := List.replicate 40 (some 2), clock := fun _ => 0, isClosed := false }
  value := fun _ => 0

/-- The response to the earlier request does not end the call. -/
theorem transaction_matching_stale :
    ∃ enough error s',
      (∀ fuel, enough ≤ fuel → (ClientRequest.readHoldingRegs 0 1).call.run streamApi
        (ClientRequest.readHoldingRegs 0 1).Accepted fuel clientWithStaleResponse
          = some (error, s')) ∧
      Concludes (.readHoldingRegs 0 1)
        ((ClientRequest.readHoldingRegs 0 1).format freshSession.client.context 0).2
        clientWithStaleResponse.value [⟨0, 1, [3, 2, 0, 7]⟩, ⟨1, 1, [3, 2, 0, 8]⟩] 34
        (List.replicate 40 (some 2)) error s' := by
  refine transaction_matching (.readHoldingRegs 0 1) (by decide) (s := clientWithStaleResponse)
    (.connected rfl rfl) [⟨0, 1, [3, 2, 0, 7]⟩, ⟨1, 1, [3, 2, 0, 8]⟩] ?_ rfl
  intro a ha
  simp only [List.mem_cons, List.not_mem_nil, or_false] at ha
  rcases ha with rfl | rfl <;> exact ⟨by decide, by decide⟩

end Modbus
