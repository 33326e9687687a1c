import CycloneTcp.Modbus.ServerRequest

/-! # What a request handler reads

The request buffer keeps what earlier, longer requests left behind the current one, and a connection
record holds more than the request. A handler should depend on none of it: it reads the header, the
received part of the PDU and the response buffer it writes into. `Like` relates two connections that
agree on these, and every handler but one serves such connections alike (`dispatch_same`,
`modbusServerProcessRequest_same`). The Read/Write Multiple Registers handler checks its byte count
against a data length that is four bytes too large, and `ReadsPastEnd` says which requests make it
write registers from stale bytes. -/

set_option autoImplicit false

namespace Modbus

variable {σ : Type*} (settings : ModbusServerSettings σ)

/-- Replace the request buffer. -/
def ModbusClientConnection.withRequest (connection : ModbusClientConnection)
    (requestAdu : Memory UInt8) : ModbusClientConnection :=
  { connection with requestAdu := requestAdu }

/-- Connections that look the same to a handler, apart from the PDU it is given. -/
structure Like (connection connection' : ModbusClientConnection) : Prop where
  header : Memory.Agree headerSize connection.requestAdu connection'.requestAdu
  requestAduPos : connection'.requestAduPos = connection.requestAduPos
  responseAdu : connection'.responseAdu = connection.responseAdu

/-- The same status, the same callback invocations (and the same state of the application), and the
same response. -/
structure SameService (a b : Outcome σ) : Prop where
  status : b.1 = a.1
  world : b.2.2 = a.2.2
  responseAdu : b.2.1.responseAdu = a.2.1.responseAdu
  responseAduLen : a.1 = .noError → b.2.1.responseAduLen = a.2.1.responseAduLen

theorem SameService.ite {p : Prop} [Decidable p] {a b a' b' : Outcome σ}
    (ha : p → SameService a a') (hb : ¬p → SameService b b') :
    SameService (if p then a else b) (if p then a' else b') := by
  by_cases h : p
  · rw [if_pos h, if_pos h]
    exact ha h
  · rw [if_neg h, if_neg h]
    exact hb h

/-! ## Loops read the request at the indices they process -/

theorem writeCoils_congr {request request' : Memory UInt8} (address : UInt16) (base : ℕ)
    (commit : Bool) (k i : ℕ) (w : ServerWorld σ)
    (h : ∀ j, i ≤ j → j < i + k → request.testBit base j = request'.testBit base j) :
    writeCoils settings address request base commit k i w
      = writeCoils settings address request' base commit k i w := by
  induction k generalizing i w with
  | zero => rfl
  | succ k ih =>
      simp only [writeCoils]
      rw [h i (by omega) (by omega)]
      split
      · exact ih (i + 1) _ (fun j hlo hhi => h j (by omega) (by omega))
      · rfl

theorem writeRegs_congr {request request' : Memory UInt8} (address : UInt16) (base : ℕ)
    (commit : Bool) (k i : ℕ) (w : ServerWorld σ)
    (h : ∀ j, i ≤ j → j < i + k →
      request.getU16 (base + 2 * j) = request'.getU16 (base + 2 * j)) :
    writeRegs settings address request base commit k i w
      = writeRegs settings address request' base commit k i w := by
  induction k generalizing i w with
  | zero => rfl
  | succ k ih =>
      simp only [writeRegs]
      rw [h i (by omega) (by omega)]
      split
      · exact ih (i + 1) _ (fun j hlo hhi => h j (by omega) (by omega))
      · rfl

theorem writeCoilsTwoPhase_congr {request request' : Memory UInt8} {n base quantity : ℕ}
    (address : UInt16) (w : ServerWorld σ) (h : Memory.Agree n request request')
    (hn : base + coilBytes quantity ≤ n) :
    writeCoilsTwoPhase settings address request base quantity w
      = writeCoilsTwoPhase settings address request' base quantity w := by
  have hbit : ∀ j, 0 ≤ j → j < 0 + quantity →
      request.testBit base j = request'.testBit base j := by
    intro j _ hj
    have hbyte : base + j / 8 < n := by
      simp only [coilBytes] at hn
      omega
    rw [Memory.testBit, Memory.testBit, h _ hbyte]
  simp only [writeCoilsTwoPhase, writeCoils_congr settings address base _ quantity 0 _ hbit]

theorem writeRegsTwoPhase_congr {request request' : Memory UInt8} {n base quantity : ℕ}
    (address : UInt16) (w : ServerWorld σ) (h : Memory.Agree n request request')
    (hn : base + 2 * quantity ≤ n) :
    writeRegsTwoPhase settings address request base quantity w
      = writeRegsTwoPhase settings address request' base quantity w := by
  have hreg : ∀ j, 0 ≤ j → j < 0 + quantity →
      request.getU16 (base + 2 * j) = request'.getU16 (base + 2 * j) :=
    fun j _ hj => h.getU16 (by omega)
  simp only [writeRegsTwoPhase, writeRegs_congr settings address base _ quantity 0 _ hreg]

theorem echoResponse_congr {request request' : Memory UInt8} {n k : ℕ}
    (responseAdu : Memory UInt8) (h : Memory.Agree n request request') (hn : 1 + 2 * k ≤ n) :
    echoResponse request k responseAdu = echoResponse request' k responseAdu := by
  have hfold : ∀ (js : List ℕ) (m : Memory UInt8), (∀ j ∈ js, j < k) →
      js.foldl (fun m j => m.setU16 (headerSize + 1 + 2 * j) (request.getU16 (1 + 2 * j))) m
        = js.foldl (fun m j => m.setU16 (headerSize + 1 + 2 * j) (request'.getU16 (1 + 2 * j))) m := by
    intro js
    induction js with
    | nil => intro m _; simp only [List.foldl_nil]
    | cons j js ih =>
        intro m hjs
        have hj : j < k := hjs j (List.mem_cons_self ..)
        rw [List.foldl_cons, List.foldl_cons, h.getU16 (by omega),
          ih _ (fun j' hj' => hjs j' (List.mem_cons_of_mem _ hj'))]
  rw [echoResponse, echoResponse, h 0 (by omega), hfold _ _ (fun j hj => List.mem_range.1 hj)]

/-! ## Handlers -/

section Handlers

variable {connection connection' : ModbusClientConnection} {request request' : Memory UInt8}
  {length : ℕ}

theorem Like.withResponse (h : Like connection connection') (responseAdu : Memory UInt8) :
    Like (connection.withResponse responseAdu) (connection'.withResponse responseAdu) :=
  ⟨h.header, h.requestAduPos, rfl⟩

theorem Like.reject (h : Like connection connection') {error : ErrorCode} (herror : error ≠ .noError)
    (w : ServerWorld σ) : SameService (error, connection, w) (error, connection', w) :=
  ⟨rfl, rfl, h.responseAdu, fun hok => absurd hok herror⟩

theorem Like.finish (h : Like connection connection') (len : ℕ) (w : ServerWorld σ) :
    SameService (finish connection len w) (Modbus.finish connection' len w) := by
  have h0 := h.header.getU16 (p := 0) (by decide)
  have h2 := h.header.getU16 (p := 2) (by decide)
  have h6 := h.header 6 (by decide)
  simp only [Modbus.finish, modbusServerFormatMbapHeader, h.requestAduPos]
  by_cases hpos : connection.requestAduPos < headerSize
  · rw [if_pos hpos, if_pos hpos]
    have hreject : ErrorCode.invalidLength ≠ .noError := by decide
    exact h.reject hreject w
  · rw [if_neg hpos, if_neg hpos]
    refine ⟨rfl, rfl, ?_, fun _ => rfl⟩
    simp only [responseHeader, h.responseAdu, ← h0, ← h2, ← h6]

/-- Every handler ends like this: it reports a callback's error, or formats the header. -/
theorem Like.report (h : Like connection connection') (responseAdu responseAdu' : Memory UInt8)
    (error : ErrorCode) (len : ℕ) (w : ServerWorld σ) :
    SameService
      (if error ≠ .noError then (error, connection.withResponse responseAdu, w)
        else Modbus.finish (connection.withResponse responseAdu') len w)
      (if error ≠ .noError then (error, connection'.withResponse responseAdu, w)
        else Modbus.finish (connection'.withResponse responseAdu') len w) :=
  SameService.ite (fun herror => (h.withResponse responseAdu).reject herror w)
    fun _ => (h.withResponse responseAdu').finish len w

theorem Like.report_write (h : Like connection connection') (responseAdu : Memory UInt8)
    (error : ErrorCode) (len : ℕ) (w : ServerWorld σ) :
    SameService
      (if error ≠ .noError then (error, connection, w)
        else Modbus.finish (connection.withResponse responseAdu) len w)
      (if error ≠ .noError then (error, connection', w)
        else Modbus.finish (connection'.withResponse responseAdu) len w) :=
  SameService.ite (fun herror => h.reject herror w)
    fun _ => (h.withResponse responseAdu).finish len w

theorem processReadBitsReq_same (w : ServerWorld σ) (h : Like connection connection')
    (hreq : Memory.Agree length request request') :
    SameService (processReadBitsReq settings connection request length w)
      (processReadBitsReq settings connection' request' length w) := by
  simp only [processReadBitsReq, h.responseAdu]
  by_cases hlen : length < 5
  · rw [if_pos hlen, if_pos hlen]
    exact h.reject (by decide) w
  · rw [if_neg hlen, if_neg hlen, ← hreq 0 (by omega), ← hreq.getU16 (p := 1) (by omega),
      ← hreq.getU16 (p := 3) (by omega)]
    split
    · exact h.reject (by decide) w
    · exact h.report ..

theorem processReadRegsReq_same (w : ServerWorld σ) (h : Like connection connection')
    (hreq : Memory.Agree length request request') :
    SameService (processReadRegsReq settings connection request length w)
      (processReadRegsReq settings connection' request' length w) := by
  simp only [processReadRegsReq, h.responseAdu]
  by_cases hlen : length < 5
  · rw [if_pos hlen, if_pos hlen]
    exact h.reject (by decide) w
  · rw [if_neg hlen, if_neg hlen, ← hreq 0 (by omega), ← hreq.getU16 (p := 1) (by omega),
      ← hreq.getU16 (p := 3) (by omega)]
    split
    · exact h.reject (by decide) w
    · exact h.report ..

theorem modbusServerProcessWriteSingleCoilReq_same (w : ServerWorld σ)
    (h : Like connection connection') (hreq : Memory.Agree length request request') :
    SameService (modbusServerProcessWriteSingleCoilReq settings connection request length w)
      (modbusServerProcessWriteSingleCoilReq settings connection' request' length w) := by
  simp only [modbusServerProcessWriteSingleCoilReq, h.responseAdu]
  by_cases hlen : length < 5
  · rw [if_pos hlen, if_pos hlen]
    exact h.reject (by decide) w
  · rw [if_neg hlen, if_neg hlen, ← hreq.getU16 (p := 1) (by omega),
      ← hreq.getU16 (p := 3) (by omega),
      ← echoResponse_congr _ hreq (k := 2) (by omega)]
    split
    · exact h.reject (by decide) w
    · exact h.report_write ..

theorem modbusServerProcessWriteSingleRegReq_same (w : ServerWorld σ)
    (h : Like connection connection') (hreq : Memory.Agree length request request') :
    SameService (modbusServerProcessWriteSingleRegReq settings connection request length w)
      (modbusServerProcessWriteSingleRegReq settings connection' request' length w) := by
  simp only [modbusServerProcessWriteSingleRegReq, h.responseAdu]
  by_cases hlen : length < 5
  · rw [if_pos hlen, if_pos hlen]
    exact h.reject (by decide) w
  · rw [if_neg hlen, if_neg hlen, ← hreq.getU16 (p := 1) (by omega),
      ← hreq.getU16 (p := 3) (by omega),
      ← echoResponse_congr _ hreq (k := 2) (by omega)]
    exact h.report_write ..

theorem modbusServerProcessWriteMultipleCoilsReq_same (w : ServerWorld σ)
    (h : Like connection connection') (hreq : Memory.Agree length request request') :
    SameService (modbusServerProcessWriteMultipleCoilsReq settings connection request length w)
      (modbusServerProcessWriteMultipleCoilsReq settings connection' request' length w) := by
  simp only [modbusServerProcessWriteMultipleCoilsReq, h.responseAdu]
  by_cases hlen : length < 6
  · rw [if_pos hlen, if_pos hlen]
    exact h.reject (by decide) w
  · rw [if_neg hlen, if_neg hlen, ← hreq 5 (by omega)]
    by_cases hdata : length - 6 < (request 5).toNat
    · rw [if_pos hdata, if_pos hdata]
      exact h.reject (by decide) w
    · rw [if_neg hdata, if_neg hdata, ← hreq.getU16 (p := 1) (by omega),
        ← hreq.getU16 (p := 3) (by omega), ← echoResponse_congr _ hreq (k := 2) (by omega)]
      split
      · exact h.reject (by decide) w
      · split
        · exact h.reject (by decide) w
        · next hcount =>
          -- the byte count is that of the coils, so they all lie in the received part
          rw [writeCoilsTwoPhase_congr settings _ _ hreq.symm (by omega)]
          exact h.report_write ..

theorem modbusServerProcessWriteMultipleRegsReq_same (w : ServerWorld σ)
    (h : Like connection connection') (hreq : Memory.Agree length request request') :
    SameService (modbusServerProcessWriteMultipleRegsReq settings connection request length w)
      (modbusServerProcessWriteMultipleRegsReq settings connection' request' length w) := by
  simp only [modbusServerProcessWriteMultipleRegsReq, h.responseAdu]
  by_cases hlen : length < 6
  · rw [if_pos hlen, if_pos hlen]
    exact h.reject (by decide) w
  · rw [if_neg hlen, if_neg hlen, ← hreq 5 (by omega)]
    by_cases hdata : length - 6 < (request 5).toNat
    · rw [if_pos hdata, if_pos hdata]
      exact h.reject (by decide) w
    · rw [if_neg hdata, if_neg hdata, ← hreq.getU16 (p := 1) (by omega),
        ← hreq.getU16 (p := 3) (by omega), ← echoResponse_congr _ hreq (k := 2) (by omega)]
      split
      · exact h.reject (by decide) w
      · split
        · exact h.reject (by decide) w
        · next hcount =>
          rw [writeRegsTwoPhase_congr settings _ _ hreq.symm (by omega)]
          exact h.report_write ..

theorem modbusServerProcessMaskWriteRegReq_same (w : ServerWorld σ)
    (h : Like connection connection') (hreq : Memory.Agree length request request') :
    SameService (modbusServerProcessMaskWriteRegReq settings connection request length w)
      (modbusServerProcessMaskWriteRegReq settings connection' request' length w) := by
  simp only [modbusServerProcessMaskWriteRegReq, h.responseAdu]
  by_cases hlen : length < 7
  · rw [if_pos hlen, if_pos hlen]
    exact h.reject (by decide) w
  · rw [if_neg hlen, if_neg hlen, ← hreq.getU16 (p := 1) (by omega),
      ← hreq.getU16 (p := 3) (by omega), ← hreq.getU16 (p := 5) (by omega),
      ← echoResponse_congr _ hreq (k := 3) (by omega)]
    exact h.report_write ..

end Handlers

/-! ## Requests that reach past their end -/

/-- The Read/Write Multiple Registers requests whose register values lie partly behind the `n`
received bytes and that the handler nevertheless accepts. -/
def ReadsPastEnd (n : ℕ) (request : Memory UInt8) : Prop :=
  request 0 = functionReadWriteMultipleRegs ∧ 10 ≤ n ∧
    (1 ≤ (request.getU16 3).toNat ∧ (request.getU16 3).toNat ≤ 125) ∧
    (1 ≤ (request.getU16 7).toNat ∧ (request.getU16 7).toNat ≤ 121) ∧
    (request 9).toNat = (request.getU16 7).toNat * 2 ∧
    (request 9).toNat ≤ n - 6 ∧ n < 10 + (request 9).toNat

instance (n : ℕ) (request : Memory UInt8) : Decidable (ReadsPastEnd n request) :=
  inferInstanceAs (Decidable (_ ∧ _))

theorem ReadsPastEnd.congr {n : ℕ} {request request' : Memory UInt8}
    (h : Memory.Agree n request request') (hp : ReadsPastEnd n request) :
    ReadsPastEnd n request' := by
  obtain ⟨hfc, hlen, hrest⟩ := hp
  refine ⟨?_, hlen, ?_⟩
  · rw [← h 0 (by omega)]
    exact hfc
  · rw [← h.getU16 (p := 3) (by omega), ← h.getU16 (p := 7) (by omega), ← h 9 (by omega)]
    exact hrest

section Request

variable {connection connection' : ModbusClientConnection} {request request' : Memory UInt8}
  {length : ℕ}

theorem modbusServerProcessReadWriteMultipleRegsReq_same (w : ServerWorld σ)
    (h : Like connection connection') (hreq : Memory.Agree length request request')
    (hfc : request 0 = functionReadWriteMultipleRegs)
    (hend : ReadsPastEnd length request → request' = request) :
    SameService (modbusServerProcessReadWriteMultipleRegsReq settings connection request length w)
      (modbusServerProcessReadWriteMultipleRegsReq settings connection' request' length w) := by
  simp only [modbusServerProcessReadWriteMultipleRegsReq, h.responseAdu]
  by_cases hlen : length < 10
  · rw [if_pos hlen, if_pos hlen]
    exact h.reject (by decide) w
  · rw [if_neg hlen, if_neg hlen, ← hreq 9 (by omega)]
    by_cases hdata : length - 6 < (request 9).toNat
    · rw [if_pos hdata, if_pos hdata]
      exact h.reject (by decide) w
    · rw [if_neg hdata, if_neg hdata, ← hreq 0 (by omega), ← hreq.getU16 (p := 1) (by omega),
        ← hreq.getU16 (p := 3) (by omega), ← hreq.getU16 (p := 5) (by omega),
        ← hreq.getU16 (p := 7) (by omega)]
      split
      · exact h.reject (by decide) w
      · next hrq =>
        split
        · exact h.reject (by decide) w
        · next hwq =>
          split
          · exact h.reject (by decide) w
          · next hcount =>
            have hwrite : ∀ w', writeRegsTwoPhase settings (request.getU16 5) request' 10
                (request.getU16 7).toNat w'
                = writeRegsTwoPhase settings (request.getU16 5) request 10
                    (request.getU16 7).toNat w' := by
              intro w'
              by_cases hfull : 10 + (request 9).toNat ≤ length
              · exact writeRegsTwoPhase_congr settings _ w' hreq.symm (by omega)
              · -- an accepted request that was not received completely
                rw [hend ⟨hfc, by omega, by omega, by omega, by omega, by omega, by omega⟩]
            simp only [hwrite]
            exact h.report ..

theorem dispatch_same (w : ServerWorld σ) (h : Like connection connection')
    (hreq : Memory.Agree length request request') (hlen : 0 < length)
    (hend : ReadsPastEnd length request → request' = request) :
    SameService (dispatch settings connection request length w)
      (dispatch settings connection' request' length w) := by
  simp only [dispatch, ← hreq 0 hlen]
  refine SameService.ite (fun _ => processReadBitsReq_same settings w h hreq)
    fun _ => ?_
  refine SameService.ite (fun _ => processReadBitsReq_same settings w h hreq)
    fun _ => ?_
  refine SameService.ite (fun _ => processReadRegsReq_same settings w h hreq)
    fun _ => ?_
  refine SameService.ite (fun _ => processReadRegsReq_same settings w h hreq)
    fun _ => ?_
  refine SameService.ite
    (fun _ => modbusServerProcessWriteSingleCoilReq_same settings w h hreq) fun _ => ?_
  refine SameService.ite
    (fun _ => modbusServerProcessWriteSingleRegReq_same settings w h hreq) fun _ => ?_
  refine SameService.ite
    (fun _ => modbusServerProcessWriteMultipleCoilsReq_same settings w h hreq) fun _ => ?_
  refine SameService.ite
    (fun _ => modbusServerProcessWriteMultipleRegsReq_same settings w h hreq) fun _ => ?_
  refine SameService.ite
    (fun _ => modbusServerProcessMaskWriteRegReq_same settings w h hreq) fun _ => ?_
  exact SameService.ite
    (fun hfc =>
      modbusServerProcessReadWriteMultipleRegsReq_same settings w h hreq hfc hend)
    fun _ => h.reject (by decide) w

end Request

/-! ## Whole requests -/

/-- **Connections that look the same to the handlers are served alike.** -/
theorem modbusServerProcessRequest_same {connection connection' : ModbusClientConnection}
    (w : ServerWorld σ) {n : ℕ} (h : Like connection connection')
    (hn : (modbusServerGetRequestPdu connection).2 = n)
    (hn' : (modbusServerGetRequestPdu connection').2 = n)
    (hreq : Memory.Agree n (pdu connection.requestAdu) (pdu connection'.requestAdu))
    (hend : ReadsPastEnd n (pdu connection.requestAdu) →
      pdu connection'.requestAdu = pdu connection.requestAdu) :
    SameService (modbusServerProcessRequest settings connection w)
      (modbusServerProcessRequest settings connection' w) := by
  have hpdu : modbusServerGetRequestPdu connection = (pdu connection.requestAdu, n) :=
    Prod.ext rfl hn
  have hpdu' : modbusServerGetRequestPdu connection' = (pdu connection'.requestAdu, n) :=
    Prod.ext rfl hn'
  simp only [modbusServerProcessRequest, hpdu, hpdu']
  by_cases hlen : n = 0
  · rw [if_pos hlen, if_pos hlen]
    exact h.reject (by decide) w
  · rw [if_neg hlen, if_neg hlen, ← hreq.read (p := 0) (by omega), ← hreq 0 (by omega)]
    generalize w.dumpRequestPdu ((pdu connection.requestAdu).read 0 n) = w
    have hsame := dispatch_same settings w h hreq (by omega) hend
    have hdone := dispatch_handled settings connection (pdu connection.requestAdu) n w
    have hdone' := dispatch_handled settings connection' (pdu connection'.requestAdu) n w
    generalize dispatch settings connection _ _ _ = r at *
    generalize dispatch settings connection' _ _ _ = r' at *
    rw [hsame.status]
    refine SameService.ite (fun _ => ?_) fun _ => hsame
    -- the exception header is formatted from the request's header, which the handlers have kept
    have hlike : Like r.2.1 r'.2.1 := by
      refine ⟨?_, ?_, hsame.responseAdu⟩
      · rw [hdone.requestAdu, hdone'.requestAdu]
        exact h.header
      · rw [hdone.requestAduPos, hdone'.requestAduPos]
        exact h.requestAduPos
    rw [hsame.world]
    simp only [modbusServerFormatExceptionResp, hlike.responseAdu]
    exact (hlike.withResponse _).finish 2 r.2.2

/-- The buffer behind the MBAP header holds the received bytes `p` of a request PDU. -/
structure Holds (connection : ModbusClientConnection) (p : List UInt8) : Prop where
  len : connection.requestAduLen = headerSize + p.length
  bytes : connection.requestAdu.read headerSize p.length = p

theorem Holds.pdu_length {connection : ModbusClientConnection} {p : List UInt8}
    (h : Holds connection p) : (modbusServerGetRequestPdu connection).2 = p.length := by
  simp only [modbusServerGetRequestPdu, h.len]
  rw [if_pos (by omega), Nat.add_sub_cancel_left]

/-- Replace the request buffer of the connection a handler returns; the status, the callback
invocations, the application and the response stay. -/
def Outcome.withRequest (o : Outcome σ) (requestAdu : Memory UInt8) : Outcome σ :=
  (o.1, o.2.1.withRequest requestAdu, o.2.2)

/-- A service that differs in the request buffer only leaves connections that do. -/
theorem SameService.withRequest {connection : ModbusClientConnection} {requestAdu : Memory UInt8}
    {o o' : Outcome σ} (h : SameService o o') (hdone : Handled connection o.1 o.2.1)
    (hdone' : Handled (connection.withRequest requestAdu) o'.1 o'.2.1) :
    o' = o.withRequest requestAdu := by
  obtain ⟨error, c, w⟩ := o
  obtain ⟨error', c', w'⟩ := o'
  obtain ⟨hstatus, hworld, hresponse, hlen⟩ := h
  simp only at hstatus hworld hresponse hlen hdone hdone'
  subst hstatus hworld
  have hc : c' = c.withRequest requestAdu := by
    cases hdone with
    | answered responseAdu length hlo hhi hpos =>
        cases hdone' with
        | answered responseAdu' length' hlo' hhi' hpos' =>
            have hlen := hlen rfl
            simp only [ModbusClientConnection.answering, ModbusClientConnection.withRequest]
              at hlen hresponse ⊢
            simp only [hlen, hresponse]
        | failed _ responseAdu' herror => exact absurd rfl herror
    | failed _ responseAdu herror =>
        cases hdone' with
        | answered => exact absurd rfl herror
        | failed _ responseAdu' _ =>
            simp only [ModbusClientConnection.withResponse, ModbusClientConnection.withRequest]
              at hresponse ⊢
            simp only [hresponse]
  rw [Outcome.withRequest, hc]

/-- The server acts only on the received bytes of the request PDU `p`: for any callbacks, putting
anything else into the request buffer behind `p` changes neither the status, nor the callback
invocations, nor the response. -/
def ActsOnReceived (p : List UInt8) : Prop :=
  ∀ (σ : Type) (settings : ModbusServerSettings σ) (w : ServerWorld σ)
    (connection : ModbusClientConnection) (requestAdu : Memory UInt8),
    Holds connection p →
    Memory.Agree (headerSize + p.length) connection.requestAdu requestAdu →
    modbusServerProcessRequest settings (connection.withRequest requestAdu) w
      = (modbusServerProcessRequest settings connection w).withRequest requestAdu

/-- The PDU as a memory. -/
def bytesOf (p : List UInt8) : Memory UInt8 := Memory.write (fun _ => 0) 0 p

theorem bytesOf_agree {connection : ModbusClientConnection} {p : List UInt8}
    (h : Holds connection p) : Memory.Agree p.length (pdu connection.requestAdu) (bytesOf p) := by
  intro i hi
  have hget := Memory.read_eq_iff.1 h.bytes i hi
  have hwrite := Memory.write_add (fun _ => 0) 0 p hi
  rw [Nat.zero_add] at hwrite
  rw [pdu_apply, hget, bytesOf, hwrite]

/-! ## An application that shows what was written last -/

/-- Callbacks that always succeed; the application's state is the register value written last. -/
def lastWritten : ModbusServerSettings UInt16 where
  unitId := 0
  lockCallback := none
  unlockCallback := id
  readCoilCallback := none
  writeCoilCallback := none
  readRegCallback := some fun _ last => (.noError, 0, last)
  writeRegValueCallback := some fun _ value _ _ => (.noError, value)

theorem readRegs_lastWritten (address : UInt16) (base k i : ℕ) (response : Memory UInt8)
    (w : ServerWorld UInt16) :
    (readRegs lastWritten address base k i response w).1 = .noError := by
  induction k generalizing i response w with
  | zero => rfl
  | succ k ih =>
      simp only [readRegs, modbusServerReadReg, lastWritten, if_true]
      exact ih _ _ _

theorem writeRegs_lastWritten (address : UInt16) (request : Memory UInt8) (base : ℕ)
    (commit : Bool) (k i : ℕ) (w : ServerWorld UInt16) :
    (writeRegs lastWritten address request base commit (k + 1) i w).1 = .noError ∧
      (writeRegs lastWritten address request base commit (k + 1) i w).2.user
        = request.getU16 (base + 2 * (i + k)) := by
  induction k generalizing i w with
  | zero => exact ⟨rfl, rfl⟩
  | succ k ih =>
      rw [writeRegs]
      simp only [modbusServerWriteReg, lastWritten, if_true]
      have h := ih (i + 1) (w.invoke (.writeReg (address + UInt16.ofNat i)
        (request.getU16 (base + 2 * i)) commit) (request.getU16 (base + 2 * i)))
      rwa [show i + 1 + k = i + (k + 1) from by omega] at h

/-- A request that `ReadsPastEnd` is carried out, and the register it writes last is taken from the
last word it claims to carry. -/
theorem modbusServerProcessRequest_lastWritten {connection : ModbusClientConnection}
    {p : List UInt8} (h : Holds connection p)
    (hend : ReadsPastEnd p.length (pdu connection.requestAdu)) (w : ServerWorld UInt16) :
    (modbusServerProcessRequest lastWritten connection w).2.2.user
      = (pdu connection.requestAdu).getU16
          (10 + 2 * (((pdu connection.requestAdu).getU16 7).toNat - 1)) := by
  obtain ⟨hfc, hlen, hrq, hwq, hcount, hdata, _⟩ := hend
  have hpdu : modbusServerGetRequestPdu connection = (pdu connection.requestAdu, p.length) :=
    Prod.ext rfl h.pdu_length
  generalize pdu connection.requestAdu = request at *
  obtain ⟨k, hk⟩ : ∃ k, (request.getU16 7).toNat = k + 1 :=
    ⟨_, (Nat.succ_pred_eq_of_pos hwq.1).symm⟩
  have hwrite : ∀ w, (writeRegsTwoPhase lastWritten (request.getU16 5) request 10 (k + 1) w).1
        = .noError ∧
      (writeRegsTwoPhase lastWritten (request.getU16 5) request 10 (k + 1) w).2.user
        = request.getU16 (10 + 2 * k) := by
    intro w
    simp only [writeRegsTwoPhase]
    rw [if_pos (writeRegs_lastWritten ..).1]
    have hcommit := writeRegs_lastWritten (request.getU16 5) request 10 true k 0
    simp only [Nat.zero_add] at hcommit
    exact hcommit _
  have hhandler : ∀ w,
      (modbusServerProcessReadWriteMultipleRegsReq lastWritten connection request p.length
        w).2.2.user = request.getU16 (10 + 2 * k) := by
    intro w
    simp only [modbusServerProcessReadWriteMultipleRegsReq, hk]
    rw [if_neg (by omega), if_neg (by omega), if_neg (by omega), if_neg (by omega),
      if_neg (by omega), if_pos (readRegs_lastWritten ..), if_neg (not_not.2 (hwrite _).1)]
    exact (hwrite _).2
  have hdispatch : ∀ w, dispatch lastWritten connection request p.length w
      = modbusServerProcessReadWriteMultipleRegsReq lastWritten connection request p.length w := by
    intro w
    simp only [dispatch, hfc]
    rfl
  simp only [modbusServerProcessRequest, hpdu, hdispatch]
  rw [if_neg (by omega), hk, Nat.add_sub_cancel]
  split
  · exact hhandler _
  · exact hhandler _

/-- A request buffer with the PDU `p` behind a zero header, and `b` in every cell behind it. -/
def staleBuffer (p : List UInt8) (b : UInt8) : Memory UInt8 :=
  Memory.write (fun i => if i < headerSize then 0 else b) headerSize p

/-- A connection that has just received the PDU `p` into `staleBuffer p 0`. -/
def staleConnection (p : List UInt8) : ModbusClientConnection where
  state := .receiving
  socket := some 0
  timestamp := 0
  requestAdu := staleBuffer p 0
  requestAduLen := headerSize + p.length
  requestAduPos := headerSize + p.length
  requestUnitId := 0
  responseAdu := fun _ => 0
  responseAduLen := 0
  responseAduPos := 0

theorem staleBuffer_agree (p : List UInt8) (b b' : UInt8) :
    Memory.Agree (headerSize + p.length) (staleBuffer p b) (staleBuffer p b') := by
  intro i hi
  by_cases hhdr : i < headerSize
  · rw [staleBuffer, staleBuffer, Memory.write_of_lt _ _ hhdr, Memory.write_of_lt _ _ hhdr,
      if_pos hhdr, if_pos hhdr]
  · obtain ⟨k, rfl⟩ : ∃ k, i = headerSize + k := ⟨i - headerSize, by omega⟩
    rw [staleBuffer, staleBuffer, Memory.write_add _ _ _ (by omega),
      Memory.write_add _ _ _ (by omega)]

theorem staleBuffer_behind {p : List UInt8} (b : UInt8) {i : ℕ} (hi : p.length ≤ i) :
    pdu (staleBuffer p b) i = b := by
  rw [pdu_apply, staleBuffer, Memory.write_of_ge _ _ (by omega), if_neg (by omega)]

theorem staleConnection_holds (p : List UInt8) : Holds (staleConnection p) p :=
  ⟨rfl, Memory.read_write_self _ _ _⟩

/-- A request that `ReadsPastEnd` writes a register whose low byte was never received. -/
theorem not_actsOnReceived_of_readsPastEnd {p : List UInt8}
    (hend : ReadsPastEnd p.length (bytesOf p)) : ¬ ActsOnReceived p := by
  intro hacts
  have hholds := staleConnection_holds p
  have hholds' : Holds ((staleConnection p).withRequest (staleBuffer p 1)) p :=
    ⟨rfl, Memory.read_write_self _ _ _⟩
  have hend0 := hend.congr (bytesOf_agree hholds).symm
  have hend1 := hend.congr (bytesOf_agree hholds').symm
  have hsame := hacts UInt16 lastWritten ⟨0, [], []⟩ (staleConnection p) (staleBuffer p 1) hholds
    (staleBuffer_agree p 0 1)
  have huser := congrArg (fun o : Outcome UInt16 => o.2.2.user) hsame
  simp only [Outcome.withRequest] at huser
  rw [modbusServerProcessRequest_lastWritten hholds hend0,
    modbusServerProcessRequest_lastWritten hholds' hend1] at huser
  simp only [ModbusClientConnection.withRequest] at huser
  obtain ⟨-, hlen, -, hwq, hcount, hdata, hpast⟩ := hend0
  have hwq' : ((pdu (staleBuffer p 1)).getU16 7) = (pdu (staleConnection p).requestAdu).getU16 7 :=
    (Memory.Agree.getU16 (n := p.length)
      (fun i hi => staleBuffer_agree p 1 0 _ (by omega)) (by omega))
  rw [hwq'] at huser
  generalize ((pdu (staleConnection p).requestAdu).getU16 7).toNat = wq at *
  -- the low byte of the last word lies behind the received bytes
  have hlow := congrArg Memory.lo8 huser
  simp only [Memory.getU16, Memory.lo8_be16] at hlow
  have h0 : pdu (staleConnection p).requestAdu (10 + 2 * (wq - 1) + 1) = 0 :=
    staleBuffer_behind 0 (by omega)
  have h1 : pdu (staleBuffer p 1) (10 + 2 * (wq - 1) + 1) = 1 := staleBuffer_behind 1 (by omega)
  rw [h0, h1] at hlow
  exact absurd hlow (by decide)

/-- **The server acts only on the bytes it received, except for the requests that `ReadsPastEnd`.** -/
theorem actsOnReceived_iff (p : List UInt8) :
    ActsOnReceived p ↔ ¬ ReadsPastEnd p.length (bytesOf p) := by
  constructor
  · intro hacts hend
    exact not_actsOnReceived_of_readsPastEnd hend hacts
  · intro hend σ settings w connection requestAdu hholds hagree
    have hholds' : (modbusServerGetRequestPdu (connection.withRequest requestAdu)).2 = p.length :=
      hholds.pdu_length
    have hlike : Like connection (connection.withRequest requestAdu) :=
      ⟨hagree.mono (by omega), rfl, rfl⟩
    have hsame := modbusServerProcessRequest_same settings w hlike
      hholds.pdu_length hholds' (fun i hi => hagree _ (by omega))
      fun hp => absurd (hp.congr (bytesOf_agree hholds)) hend
    exact hsame.withRequest (modbusServerProcessRequest_handled ..)
      (modbusServerProcessRequest_handled ..)

/-- A Read/Write Multiple Registers request for one register to read and two to write, cut off
before its register values. -/
def truncatedReadWrite : List UInt8 := [23, 0, 0, 0, 1, 0, 0, 0, 2, 4]

theorem not_actsOnReceived_truncatedReadWrite :
    0 < truncatedReadWrite.length ∧ truncatedReadWrite.length ≤ maxPduSize ∧
      ¬ ActsOnReceived truncatedReadWrite :=
  ⟨by decide, by decide, not_actsOnReceived_of_readsPastEnd (by decide)⟩

end Modbus
