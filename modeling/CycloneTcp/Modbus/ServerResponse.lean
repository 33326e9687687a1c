import CycloneTcp.Modbus.ServerLoops
import CycloneTcp.Modbus.TableServer

/-! # The responses of the server

`Responds` refines `Handled`: it says which response PDU stands in the buffer when a handler succeeds,
and that no handler writes behind the end of the buffer, whether it succeeds or not. The two theorems
about whole requests follow: a request that ends without an error has been answered with a well-formed
ADU, and the memory behind the response buffer is not touched. -/

set_option autoImplicit false

namespace Modbus

variable {σ : Type*} (settings : ModbusServerSettings σ)

/-! ## Response PDUs -/

/-- The function codes whose response carries data behind a byte count. -/
def dataCodes : List UInt8 :=
  [functionReadCoils, functionReadDiscreteInputs, functionReadHoldingRegs, functionReadInputRegs,
    functionReadWriteMultipleRegs]

/-- The function codes whose response echoes two words of the request. -/
def echoCodes : List UInt8 :=
  [functionWriteSingleCoil, functionWriteSingleReg, functionWriteMultipleCoils,
    functionWriteMultipleRegs]

/-- The number of data bytes that the request asks for. -/
def dataBytes (request : Memory UInt8) : ℕ :=
  if request 0 = functionReadCoils ∨ request 0 = functionReadDiscreteInputs then
    coilBytes (request.getU16 3).toNat
  else (request.getU16 3).toNat * 2

/-- The normal response to a request, of `length` bytes. -/
inductive NormalResponse (request response : Memory UInt8) (length : ℕ) : Prop where
  | data (hcode : request 0 ∈ dataCodes) (hfunction : response 0 = request 0)
      (hcount : (response 1).toNat = dataBytes request) (hlength : length = 2 + dataBytes request)
      (hmax : length ≤ 252)
  | echo (hcode : request 0 ∈ echoCodes) (hecho : Echoes request 2 response) (hlength : length = 5)
  | maskEcho (hcode : request 0 = functionMaskWriteReg) (hecho : Echoes request 3 response)
      (hlength : length = 7)

theorem NormalResponse.length_le {request response : Memory UInt8} {length : ℕ}
    (h : NormalResponse request response length) : length ≤ 252 := by
  cases h with
  | data _ _ _ _ hmax => exact hmax
  | echo _ _ hlength => omega
  | maskEcho _ _ hlength => omega

/-- Nothing behind the buffer has changed. -/
def KeptBehind (m m' : Memory UInt8) : Prop := ∀ p, maxAduSize ≤ p → m' p = m p

theorem KeptBehind.refl (m : Memory UInt8) : KeptBehind m m := fun _ _ => rfl

theorem KeptBehind.trans {m m' m'' : Memory UInt8} (h : KeptBehind m m') (h' : KeptBehind m' m'') :
    KeptBehind m m'' := fun p hp => (h' p hp).trans (h p hp)

theorem keptBehind_update (m : Memory UInt8) {i : ℕ} (hi : i < maxAduSize) (b : UInt8) :
    KeptBehind m (Function.update m i b) := by
  intro p hp
  rw [Function.update_of_ne (by omega)]

theorem keptBehind_setU16 (m : Memory UInt8) {i : ℕ} (hi : i + 1 < maxAduSize) (v : UInt16) :
    KeptBehind m (m.setU16 i v) := by
  intro p hp
  rw [Memory.setU16_apply, if_neg (by omega), if_neg (by omega)]

/-- The header of a response lies in the buffer. -/
theorem keptBehind_responseHeader (requestAdu : Memory UInt8) (length : ℕ) (m : Memory UInt8) :
    KeptBehind m (responseHeader requestAdu length m) :=
  (((keptBehind_setU16 m (by decide) _).trans (keptBehind_setU16 _ (by decide) _)).trans
    (keptBehind_setU16 _ (by decide) _)).trans (keptBehind_update _ (by decide) _)

theorem keptBehind_echoResponse (request : Memory UInt8) {words : ℕ} (hwords : words ≤ 3)
    (m : Memory UInt8) : KeptBehind m (echoResponse request words m) := by
  have hfold : ∀ (js : List ℕ) (m : Memory UInt8), (∀ j ∈ js, j < words) → KeptBehind m
      (js.foldl (fun m j => m.setU16 (headerSize + 1 + 2 * j) (request.getU16 (1 + 2 * j))) m) := by
    intro js
    induction js with
    | nil => exact fun m _ => .refl m
    | cons j js ih =>
        intro m hjs
        have hj : j < words := hjs j List.mem_cons_self
        rw [List.foldl_cons]
        refine (keptBehind_setU16 m ?_ _).trans (ih _ fun i hi => hjs i (List.mem_cons_of_mem _ hi))
        simp only [headerSize, maxAduSize]
        omega
  exact (keptBehind_update m (by decide) _).trans (hfold _ _ fun j hj => List.mem_range.1 hj)

/-! ## Handlers -/

/-- How a handler ends that is given the request PDU `request`. -/
inductive Responds (request : Memory UInt8) (connection : ModbusClientConnection) :
    ErrorCode → ModbusClientConnection → Prop where
  | answered (responseAdu : Memory UInt8) (length : ℕ)
      (hresponse : NormalResponse request (pdu responseAdu) length)
      (hkept : KeptBehind connection.responseAdu responseAdu) :
      Responds request connection .noError (connection.answering responseAdu length)
  | failed (error : ErrorCode) (responseAdu : Memory UInt8) (herror : error ≠ .noError)
      (hkept : KeptBehind connection.responseAdu responseAdu) :
      Responds request connection error (connection.withResponse responseAdu)

section Handlers

variable (connection : ModbusClientConnection) (request : Memory UInt8) (length : ℕ)
  (w : ServerWorld σ)

variable {connection request} in
theorem Responds.unchanged {error : ErrorCode} (herror : error ≠ .noError) :
    Responds request connection error connection :=
  .failed error connection.responseAdu herror (.refl _)

theorem responds_ite {p : Prop} [Decidable p] {a b : Outcome σ}
    (ha : p → Responds request connection a.1 a.2.1)
    (hb : ¬p → Responds request connection b.1 b.2.1) :
    Responds request connection (if p then a else b).1 (if p then a else b).2.1 := by
  by_cases h : p
  · rw [if_pos h]
    exact ha h
  · rw [if_neg h]
    exact hb h

/-- Every handler ends like this: it reports a callback's error, or formats the header. -/
theorem report_responds {responseAdu responseAdu' : Memory UInt8} (error : ErrorCode) {n : ℕ}
    (hresponse : NormalResponse request (pdu responseAdu') n)
    (hkept : KeptBehind connection.responseAdu responseAdu)
    (hkept' : KeptBehind connection.responseAdu responseAdu') :
    Responds request connection
      (if error ≠ .noError then (error, connection.withResponse responseAdu, w)
        else finish (connection.withResponse responseAdu') n w).1
      (if error ≠ .noError then (error, connection.withResponse responseAdu, w)
        else finish (connection.withResponse responseAdu') n w).2.1 := by
  by_cases herror : error ≠ .noError
  · simp only [if_pos herror]
    exact .failed error responseAdu herror hkept
  · simp only [if_neg herror, finish, modbusServerFormatMbapHeader]
    by_cases hpos : (connection.withResponse responseAdu').requestAduPos < headerSize
    · simp only [if_pos hpos]
      exact .failed _ responseAdu' (by simp) hkept'
    · simp only [if_neg hpos]
      exact .answered responseAdu' n hresponse hkept'

/-- The response of a handler that reads: the function code, the byte count, and what a loop that stays
behind the two has stored. -/
theorem normalResponse_data {m m' : Memory UInt8} (hcode : request 0 ∈ dataCodes)
    (hm : m headerSize = request 0)
    (hcount : m (headerSize + 1) = UInt8.ofNat (dataBytes request)) (hmax : dataBytes request ≤ 250)
    (hbelow : ∀ p, p < headerSize + 2 → m' p = m p) :
    NormalResponse request (pdu m') (2 + (m' (headerSize + 1)).toNat) := by
  have hbytes : (m' (headerSize + 1)).toNat = dataBytes request := by
    rw [hbelow _ (by omega), hcount, UInt8.toNat_ofNat', Nat.mod_eq_of_lt (by omega)]
  refine .data hcode ?_ hbytes (by rw [hbytes]) (by omega)
  exact (hbelow headerSize (by omega)).trans hm

theorem processReadBitsReq_responds
    (hcode : request 0 = functionReadCoils ∨ request 0 = functionReadDiscreteInputs) :
    Responds request connection (processReadBitsReq settings connection request length w).1
      (processReadBitsReq settings connection request length w).2.1 := by
  refine responds_ite connection request (fun _ => .unchanged nofun) fun _ => ?_
  refine responds_ite connection request (fun _ => .unchanged nofun) fun hquantity => ?_
  have hdata : dataBytes request = coilBytes (request.getU16 3).toNat := if_pos hcode
  have hmax : coilBytes (request.getU16 3).toNat ≤ 250 := by
    simp only [coilBytes]
    omega
  have hcodes : request 0 ∈ dataCodes := by rcases hcode with h | h <;> rw [h] <;> decide
  set count := coilBytes (request.getU16 3).toNat
  have hpositive : 1 ≤ count := by
    simp only [count, coilBytes]
    omega
  set m₀ : Memory UInt8 := Function.update (Function.update connection.responseAdu headerSize
    (request 0)) (headerSize + 1) (UInt8.ofNat count) with hm₀
  set m : Memory UInt8 := if (request.getU16 3).toNat % 8 ≠ 0 then
    Function.update m₀ (headerSize + 2 + (count - 1)) 0 else m₀ with hm
  have hfront : ∀ p, p < headerSize + 2 → m p = m₀ p := by
    intro p hp
    rw [hm]
    split
    · rw [Function.update_of_ne (by omega)]
    · rfl
  have hkept₀ : KeptBehind connection.responseAdu m₀ :=
    (keptBehind_update _ (by decide) _).trans (keptBehind_update _ (by decide) _)
  have hkept : KeptBehind connection.responseAdu m := by
    rw [hm]
    split
    · refine hkept₀.trans (keptBehind_update _ ?_ _)
      simp only [headerSize, maxAduSize]
      omega
    · exact hkept₀
  have hloop : KeptBehind m (readCoils settings (request.getU16 1) (headerSize + 2)
      (request.getU16 3).toNat 0 m (modbusServerLock settings w)).2.1 := by
    intro p hp
    refine readCoils_outside settings _ (.inr ?_) _ _
    simp only [headerSize, maxAduSize] at hp ⊢
    omega
  refine report_responds connection request _ _ ?_ (hkept.trans hloop) (hkept.trans hloop)
  refine normalResponse_data request (m := m) hcodes ?_ ?_ (by omega) fun p hp =>
    readCoils_below settings _ hp _ _ _ _
  · rw [hfront _ (by omega), hm₀, Function.update_of_ne (by omega), Function.update_self]
  · rw [hfront _ (by omega), hm₀, Function.update_self, hdata]

/-- The two handlers that store registers in the response. -/
theorem readRegs_responds (hcode : request 0 ∈ dataCodes)
    (hdata : dataBytes request = (request.getU16 3).toNat * 2)
    (hquantity : (request.getU16 3).toNat ≤ 125) (w' : ServerWorld σ) :
    let r := readRegs settings (request.getU16 1) (headerSize + 2) (request.getU16 3).toNat 0
      (Function.update (Function.update connection.responseAdu headerSize (request 0))
        (headerSize + 1) (UInt8.ofNat ((request.getU16 3).toNat * 2))) w'
    NormalResponse request (pdu r.2.1) (2 + (r.2.1 (headerSize + 1)).toNat) ∧
      KeptBehind connection.responseAdu r.2.1 := by
  intro r
  constructor
  · refine normalResponse_data request hcode ?_ ?_ (by omega) fun p hp =>
      readRegs_below settings _ hp _ _ _ _
    · rw [Function.update_of_ne (by omega), Function.update_self]
    · rw [Function.update_self, hdata]
  · intro p hp
    have hbehind : 9 + 250 < p := Nat.lt_of_lt_of_le (by decide) hp
    have houtside : r.2.1 p = _ := readRegs_outside settings (request.getU16 1) (.inr (by
      simp only [headerSize]
      omega)) _ _
    have hne : p ≠ headerSize ∧ p ≠ headerSize + 1 := by
      simp only [headerSize]
      omega
    rw [houtside, Function.update_of_ne hne.2, Function.update_of_ne hne.1]

theorem processReadRegsReq_responds
    (hcode : request 0 = functionReadHoldingRegs ∨ request 0 = functionReadInputRegs) :
    Responds request connection (processReadRegsReq settings connection request length w).1
      (processReadRegsReq settings connection request length w).2.1 := by
  refine responds_ite connection request (fun _ => .unchanged nofun) fun _ => ?_
  refine responds_ite connection request (fun _ => .unchanged nofun) fun hquantity => ?_
  have hcodes : request 0 ∈ dataCodes := by rcases hcode with h | h <;> rw [h] <;> decide
  have hdata : dataBytes request = (request.getU16 3).toNat * 2 := by
    refine if_neg ?_
    rcases hcode with h | h <;> rw [h] <;> decide
  obtain ⟨hresponse, hkept⟩ := readRegs_responds settings connection request hcodes hdata (by omega)
    (modbusServerLock settings w)
  exact report_responds connection request _ _ hresponse hkept hkept

theorem modbusServerProcessReadWriteMultipleRegsReq_responds
    (hcode : request 0 = functionReadWriteMultipleRegs) :
    Responds request connection
      (modbusServerProcessReadWriteMultipleRegsReq settings connection request length w).1
      (modbusServerProcessReadWriteMultipleRegsReq settings connection request length w).2.1 := by
  refine responds_ite connection request (fun _ => .unchanged nofun) fun _ => ?_
  refine responds_ite connection request (fun _ => .unchanged nofun) fun _ => ?_
  refine responds_ite connection request (fun _ => .unchanged nofun) fun hquantity => ?_
  refine responds_ite connection request (fun _ => .unchanged nofun) fun _ => ?_
  refine responds_ite connection request (fun _ => .unchanged nofun) fun _ => ?_
  have hdata : dataBytes request = (request.getU16 3).toNat * 2 :=
    if_neg (by rw [hcode]; decide)
  obtain ⟨hresponse, hkept⟩ := readRegs_responds settings connection request
    (by rw [hcode]; decide) hdata (by omega) (modbusServerLock settings w)
  exact report_responds connection request _ _ hresponse hkept hkept

theorem echo_responds (error : ErrorCode) (hcode : request 0 ∈ echoCodes) :
    Responds request connection
      (if error ≠ .noError then (error, connection, w)
        else finish (connection.withResponse (echoResponse request 2 connection.responseAdu)) 5 w).1
      (if error ≠ .noError then (error, connection, w)
        else finish (connection.withResponse (echoResponse request 2 connection.responseAdu))
          5 w).2.1 :=
  report_responds connection request w error
    (.echo hcode (echoes_echoResponse ..) rfl) (.refl _)
    (keptBehind_echoResponse request (by decide) _)

theorem modbusServerProcessWriteSingleCoilReq_responds (hcode : request 0 ∈ echoCodes) :
    Responds request connection
      (modbusServerProcessWriteSingleCoilReq settings connection request length w).1
      (modbusServerProcessWriteSingleCoilReq settings connection request length w).2.1 := by
  refine responds_ite connection request (fun _ => .unchanged nofun) fun _ => ?_
  refine responds_ite connection request (fun _ => .unchanged nofun) fun _ => ?_
  exact echo_responds connection request _ _ hcode

theorem modbusServerProcessWriteSingleRegReq_responds (hcode : request 0 ∈ echoCodes) :
    Responds request connection
      (modbusServerProcessWriteSingleRegReq settings connection request length w).1
      (modbusServerProcessWriteSingleRegReq settings connection request length w).2.1 := by
  refine responds_ite connection request (fun _ => .unchanged nofun) fun _ => ?_
  exact echo_responds connection request _ _ hcode

theorem modbusServerProcessWriteMultipleCoilsReq_responds (hcode : request 0 ∈ echoCodes) :
    Responds request connection
      (modbusServerProcessWriteMultipleCoilsReq settings connection request length w).1
      (modbusServerProcessWriteMultipleCoilsReq settings connection request length w).2.1 := by
  refine responds_ite connection request (fun _ => .unchanged nofun) fun _ => ?_
  refine responds_ite connection request (fun _ => .unchanged nofun) fun _ => ?_
  refine responds_ite connection request (fun _ => .unchanged nofun) fun _ => ?_
  refine responds_ite connection request (fun _ => .unchanged nofun) fun _ => ?_
  exact echo_responds connection request _ _ hcode

theorem modbusServerProcessWriteMultipleRegsReq_responds (hcode : request 0 ∈ echoCodes) :
    Responds request connection
      (modbusServerProcessWriteMultipleRegsReq settings connection request length w).1
      (modbusServerProcessWriteMultipleRegsReq settings connection request length w).2.1 := by
  refine responds_ite connection request (fun _ => .unchanged nofun) fun _ => ?_
  refine responds_ite connection request (fun _ => .unchanged nofun) fun _ => ?_
  refine responds_ite connection request (fun _ => .unchanged nofun) fun _ => ?_
  refine responds_ite connection request (fun _ => .unchanged nofun) fun _ => ?_
  exact echo_responds connection request _ _ hcode

theorem modbusServerProcessMaskWriteRegReq_responds (hcode : request 0 = functionMaskWriteReg) :
    Responds request connection
      (modbusServerProcessMaskWriteRegReq settings connection request length w).1
      (modbusServerProcessMaskWriteRegReq settings connection request length w).2.1 := by
  refine responds_ite connection request (fun _ => .unchanged nofun) fun _ => ?_
  exact report_responds connection request _ _
    (.maskEcho hcode (echoes_echoResponse ..) rfl) (.refl _)
    (keptBehind_echoResponse request (by decide) _)

theorem dispatch_responds :
    Responds request connection (dispatch settings connection request length w).1
      (dispatch settings connection request length w).2.1 := by
  have hmem : ∀ code : UInt8, request 0 = code → code ∈ echoCodes → request 0 ∈ echoCodes := by
    intro code h hcode
    rwa [h]
  refine responds_ite connection request
    (fun h => processReadBitsReq_responds settings _ _ _ _ (.inl h)) fun _ => ?_
  refine responds_ite connection request
    (fun h => processReadBitsReq_responds settings _ _ _ _ (.inr h)) fun _ => ?_
  refine responds_ite connection request
    (fun h => processReadRegsReq_responds settings _ _ _ _ (.inl h)) fun _ => ?_
  refine responds_ite connection request
    (fun h => processReadRegsReq_responds settings _ _ _ _ (.inr h)) fun _ => ?_
  refine responds_ite connection request (fun h =>
    modbusServerProcessWriteSingleCoilReq_responds settings _ _ _ _ (hmem _ h (by decide))) fun _ => ?_
  refine responds_ite connection request (fun h =>
    modbusServerProcessWriteSingleRegReq_responds settings _ _ _ _ (hmem _ h (by decide))) fun _ => ?_
  refine responds_ite connection request (fun h =>
    modbusServerProcessWriteMultipleCoilsReq_responds settings _ _ _ _ (hmem _ h (by decide)))
    fun _ => ?_
  refine responds_ite connection request (fun h =>
    modbusServerProcessWriteMultipleRegsReq_responds settings _ _ _ _ (hmem _ h (by decide)))
    fun _ => ?_
  refine responds_ite connection request (fun h =>
    modbusServerProcessMaskWriteRegReq_responds settings _ _ _ _ h) fun _ => ?_
  exact responds_ite connection request (fun h =>
    modbusServerProcessReadWriteMultipleRegsReq_responds settings _ _ _ _ h)
    fun _ => .unchanged nofun

end Handlers

/-! ## Requests -/

/-- The two-byte exception response to a handler's `error`. -/
structure ExceptionResponse (request response : Memory UInt8) (length : ℕ) (error : ErrorCode) :
    Prop where
  length_eq : length = 2
  functionCode : response 0 = exceptionMask ||| request 0
  exceptionCode : response 1 = modbusServerTranslateExceptionCode error

/-- The response ADU of a connection that answers the request in its buffer; `error` is what the
handler of the request has reported. -/
structure WellFormedResponse (requestAdu : Memory UInt8) (error : ErrorCode)
    (connection : ModbusClientConnection) : Prop where
  header_le : headerSize ≤ connection.responseAduLen
  length_le : connection.responseAduLen ≤ maxAduSize
  transactionId : connection.responseAdu.getU16 0 = requestAdu.getU16 0
  protocol : connection.responseAdu.getU16 2 = requestAdu.getU16 2
  lengthField : (connection.responseAdu.getU16 4).toNat
    = connection.responseAduLen - headerSize + 1
  unitId : connection.responseAdu 6 = requestAdu 6
  responseAduPos : connection.responseAduPos = 0
  state : connection.state = .sending
  pdu : (error = .noError ∧ NormalResponse (pdu requestAdu) (pdu connection.responseAdu)
      (connection.responseAduLen - headerSize)) ∨
    (isException error = true ∧ ExceptionResponse (Modbus.pdu requestAdu)
      (Modbus.pdu connection.responseAdu) (connection.responseAduLen - headerSize) error)

/-- A response behind a fresh header. -/
theorem wellFormed_answering {connection : ModbusClientConnection} {responseAdu : Memory UInt8}
    {length : ℕ} {error : ErrorCode} (hmax : length ≤ 252)
    (hpdu : (error = .noError ∧
        NormalResponse (pdu connection.requestAdu) (pdu responseAdu) length) ∨
      (isException error = true ∧
        ExceptionResponse (pdu connection.requestAdu) (pdu responseAdu) length error)) :
    WellFormedResponse connection.requestAdu error (connection.answering responseAdu length) := by
  obtain ⟨htransaction, hprotocol, hlength, hunit, hpdu'⟩ := header_fields
    (rfl : (connection.answering responseAdu length).responseAdu = _)
  have hsub : (connection.answering responseAdu length).responseAduLen - headerSize = length :=
    Nat.add_sub_cancel_left _ _
  refine ⟨Nat.le_add_right _ _, ?_, htransaction, hprotocol, ?_, hunit, rfl, rfl, ?_⟩
  · simp only [ModbusClientConnection.answering, headerSize, maxAduSize]
    omega
  · rw [hlength, hsub, UInt16.toNat_ofNat']
    omega
  · rw [hsub, hpdu']
    exact hpdu

/-- **Every response is well formed and fits its buffer**: when the processing of a request ends without
an error, a well-formed response ADU is about to be sent, and however it ends, nothing behind the
response buffer has been written. -/
theorem modbusServerProcessRequest_response (connection : ModbusClientConnection)
    (w : ServerWorld σ) :
    let o := modbusServerProcessRequest settings connection w
    let p := modbusServerGetRequestPdu connection
    (o.1 = .noError → WellFormedResponse connection.requestAdu
      (dispatch settings connection p.1 p.2 (w.dumpRequestPdu (p.1.read 0 p.2))).1 o.2.1) ∧
      KeptBehind connection.responseAdu o.2.1.responseAdu := by
  intro o p
  have hresponds := dispatch_responds settings connection p.1 p.2 (w.dumpRequestPdu (p.1.read 0 p.2))
  have ho : o = modbusServerProcessRequest settings connection w := rfl
  have hp : p.1 = pdu connection.requestAdu := rfl
  simp only [modbusServerProcessRequest] at ho
  by_cases hlength : p.2 = 0
  · rw [if_pos hlength] at ho
    rw [ho]
    exact ⟨by simp, .refl _⟩
  · rw [if_neg hlength] at ho
    change o = if isException (dispatch settings connection p.1 p.2
      (w.dumpRequestPdu (p.1.read 0 p.2))).1 = true then _ else _ at ho
    generalize dispatch settings connection p.1 p.2 (w.dumpRequestPdu (p.1.read 0 p.2)) = r
      at ho hresponds ⊢
    obtain ⟨error, connection', w'⟩ := r
    cases hresponds with
    | answered responseAdu length hresponse hkept =>
        rw [if_neg (by simp [isException])] at ho
        rw [ho]
        exact ⟨fun _ => wellFormed_answering hresponse.length_le (.inl ⟨rfl, hresponse⟩),
          hkept.trans (keptBehind_responseHeader _ _ _)⟩
    | failed _ responseAdu herror hkept =>
        by_cases hexception : isException error = true
        · rw [if_pos hexception] at ho
          -- the exception response replaces what the handler has stored so far
          have hkept' : KeptBehind connection.responseAdu
              (Function.update (Function.update responseAdu headerSize (exceptionMask ||| p.1 0))
                (headerSize + 1) (modbusServerTranslateExceptionCode error)) :=
            hkept.trans ((keptBehind_update _ (by decide) _).trans
              (keptBehind_update _ (by decide) _))
          have hresponse : ExceptionResponse (pdu connection.requestAdu)
              (pdu (Function.update (Function.update responseAdu headerSize
                (exceptionMask ||| p.1 0)) (headerSize + 1)
                (modbusServerTranslateExceptionCode error))) 2 error := by
            refine ⟨rfl, ?_, ?_⟩
            · rw [pdu_apply, Nat.add_zero, Function.update_of_ne (by decide), Function.update_self,
                hp]
            · rw [pdu_apply, Function.update_self]
          simp only [modbusServerFormatExceptionResp, modbusServerFormatMbapHeader] at ho
          split at ho
          · rw [ho]
            exact ⟨by simp, hkept'⟩
          · rw [ho]
            exact ⟨fun _ => wellFormed_answering (by decide) (.inr ⟨hexception, hresponse⟩),
              hkept'.trans (keptBehind_responseHeader _ _ _)⟩
        · rw [if_neg hexception] at ho
          rw [ho]
          exact ⟨fun heq => absurd heq herror, hkept⟩

end Modbus
