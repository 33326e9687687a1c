import CycloneTcp.Modbus.Loopback

/-! # End-to-end agreement of client and server

A client whose socket leads to a server in front of a table: every read returns the table's entries
and every write changes the table as requested. For each call there are three facts to put together,
what the formatter stores, what the handler answers (`TableServer`) and what the parser accepts; the
transaction in between is `exchange_accepted`. -/

set_option autoImplicit false

namespace Modbus

variable {σ β : Type*} (settings : ModbusServerSettings σ)

/-- The client is connected to a server that answers to its unit identifier, and nothing is on its
way. -/
structure Ready (s : Client (Loopback σ)) : Prop where
  state : s.context.state = .connected
  unitId : acceptsUnit settings s.context.unitId
  toServer : s.net.toServer = []
  toClient : s.net.toClient = []

/-- The call returns `NO_ERROR`, the caller's buffer then satisfies `Value`, the server's table is
`table`, and the client is ready for the next call. -/
def Completes (view : σ → Table)
    (call : ℕ → Calling (Loopback σ) β → Option (ErrorCode × Calling (Loopback σ) β))
    (s : Calling (Loopback σ) β) (Value : β → Prop) (table : Table) : Prop :=
  ∃ enough s', (∀ fuel, enough ≤ fuel → call fuel s = some (.noError, s')) ∧
    Ready settings s'.toClient ∧ Value s'.value ∧ view s'.net.world.user = table

/-! ## Calls in general -/

/-- Fuel that is enough stays enough. -/
theorem Call.loop_mono {ν : Type*} {api : SocketApi ν} {call : Call β} {fuel fuel' : ℕ}
    (hle : fuel ≤ fuel') {s : Calling ν β} {r : ErrorCode × Calling ν β}
    (h : call.loop api fuel s = some r) : call.loop api fuel' s = some r := by
  induction fuel generalizing fuel' s with
  | zero => exact absurd h nofun
  | succ fuel ih =>
      obtain ⟨k, rfl⟩ : ∃ k, fuel' = k + 1 := ⟨fuel' - 1, by omega⟩
      rw [Call.loop] at h ⊢
      by_cases hgo : (call.iterate api s).error = .noError ∧ (call.iterate api s).left = false
      · rw [if_pos hgo] at h ⊢
        exact ih (by omega) h
      · rw [if_neg hgo] at h ⊢
        exact h

/-- A call completes when its request is well formed and unanswered by no one: the server serves it,
and the parser accepts every response that agrees with the server's. -/
theorem completes_of_serves {view : σ → Table} (call : Call β) {s : Calling (Loopback σ) β}
    (hready : Ready settings s.toClient) {n length : ℕ} {Response : Memory UInt8 → Prop}
    {table table' : Table} {Value : β → Prop} {c : ModbusClientContext} {functionCode : UInt8}
    (hformat : call.format s.context ((Loopback.api settings).osGetSystemTime s.net)
      = (.noError, c))
    (hunitId : c.unitId = s.context.unitId) (hc : Formatted c n)
    (hserves : Serves settings view (pdu c.requestAdu) n length Response table table')
    (htable : view s.net.world.user = table)
    (hrequest : pdu c.requestAdu 0 = functionCode) (hexception : functionCode &&& exceptionMask = 0)
    (hcode : ∀ p, Response p → p 0 = pdu c.requestAdu 0)
    (hlo : 1 ≤ length) (hhi : length ≤ maxPduSize)
    (hparse : ∀ (context : ModbusClientContext) (response : Memory UInt8), Response response →
      context.responseAduLen = headerSize + length →
      Memory.Agree length (pdu context.responseAdu) response →
      (call.parse context s.value).1 = .noError ∧ Value (call.parse context s.value).2) :
    Completes settings view (call.loop (Loopback.api settings)) s Value table' := by
  obtain ⟨responseAdu, world, t, hprogress, haccepted, hresponse, htable'⟩ :=
    exchange_accepted settings hc (hunitId ▸ hready.unitId) hserves hcode
      ((congrArg (· &&& exceptionMask) hrequest).trans hexception) hlo hhi hready.toServer
      hready.toClient htable
  have hagree : Memory.Agree length (pdu t.context.responseAdu) (pdu responseAdu) :=
    fun i hi => haccepted.received (headerSize + i) (by omega)
  obtain ⟨hok, hvalue⟩ := hparse t.context _ hresponse haccepted.responseAduLen hagree
  have hends : Ends (Loopback.api settings) call s fun error s' => error = .noError ∧
      Ready settings s'.toClient ∧ Value s'.value ∧ view s'.net.world.user = table' := by
    have hfirst : call.iterate (Loopback.api settings) s
        = ⟨.noError, false, { toClient := ⟨c, s.net⟩, value := s.value }⟩ := by
      simp only [Call.iterate, hready.state, hformat]
    have hlast : call.iterate (Loopback.api settings) { toClient := t, value := s.value }
        = ⟨.noError, true, {
            toClient := { t with context := { t.context with state := .connected } }
            value := (call.parse t.context s.value).2 }⟩ := by
      simp only [Call.iterate, haccepted.state, hok]
    refine .of_iterate hfirst (.of_progress hprogress (.of_left hlast
      ⟨rfl, ⟨rfl, ?_, ?_, ?_⟩, hvalue, ?_⟩))
    · rw [haccepted.unitId]
      exact hunitId ▸ hready.unitId
    · exact haccepted.toServer
    · exact haccepted.toClient
    · rw [haccepted.world_eq, htable']
  obtain ⟨enough, error, s', hloop, rfl, hrest⟩ := hends
  exact ⟨enough, s', fun fuel hle => Call.loop_mono hle hloop, hrest⟩

/-! ## What the server serves -/

section Serves

variable {settings} {view : σ → Table} {request : Memory UInt8} {n length : ℕ}
  {Response : Memory UInt8 → Prop} {table table' : Table}

/-- The request handler serves what the handler for the function code serves. -/
theorem serves_of_dispatch (hn : 1 ≤ n)
    (h : ∀ (connection : ModbusClientConnection) (w : ServerWorld σ) (r : Memory UInt8),
      Memory.Agree n r request → headerSize ≤ connection.requestAduPos → view w.user = table →
      Answered view connection (dispatch settings connection r n w) length Response table') :
    Serves settings view request n length Response table table' := by
  intro connection w hagree hlen hpos htable
  have hpdu : modbusServerGetRequestPdu connection = (pdu connection.requestAdu, n) := by
    rw [modbusServerGetRequestPdu, hlen, if_pos (Nat.le_add_right _ _), Nat.add_sub_cancel_left]
  obtain ⟨hok, hconnection, htable'⟩ := h connection
    (w.dumpRequestPdu ((pdu connection.requestAdu).read 0 n)) _ hagree hpos htable
  have hdispatch : modbusServerProcessRequest settings connection w
      = dispatch settings connection (pdu connection.requestAdu) n
        (w.dumpRequestPdu ((pdu connection.requestAdu).read 0 n)) := by
    rw [modbusServerProcessRequest, hpdu, if_neg (by omega)]
    refine if_neg ?_
    rw [hok]
    decide
  rw [hdispatch]
  exact ⟨hok, hconnection, htable'⟩

/-- A handler that echoes its request has echoed the client's. -/
theorem Answered.of_echoes {connection : ModbusClientConnection} {o : Outcome σ} {r : Memory UInt8}
    {words : ℕ} (hr : Memory.Agree (1 + 2 * words) r request)
    (ho : Answered view connection o length (Echoes r words) table) :
    Answered view connection o length (Echoes request words) table := by
  obtain ⟨hok, ⟨responseAdu, hconnection, hcode, hwords⟩, htable⟩ := ho
  refine ⟨hok, ⟨responseAdu, hconnection, hcode.trans (hr 0 (by omega)), fun j hj => ?_⟩, htable⟩
  exact (hwords j hj).trans (hr.getU16 (by omega))

variable (h : ServesTable settings view)
include h

theorem serves_readBits {address : UInt16} {quantity : ℕ} (hn : 5 ≤ n)
    (hcode : request 0 = functionReadCoils) (haddress : request.getU16 1 = address)
    (hquantity : (request.getU16 3).toNat = quantity) (hlo : 1 ≤ quantity)
    (hhi : quantity ≤ 2000) :
    Serves settings view request n (2 + coilBytes quantity)
      (CarriesCoils functionReadCoils quantity fun i => table.coils (address + UInt16.ofNat i))
      table table := by
  refine serves_of_dispatch (by omega) fun connection w r hr hpos htable => ?_
  have hr0 : r 0 = functionReadCoils := (hr 0 (by omega)).trans hcode
  rw [dispatch, if_pos hr0, ← htable, ← hr0]
  exact processReadBitsReq_table h hpos r n w hn ((hr.getU16 (by omega)).trans haddress)
    ((congrArg UInt16.toNat (hr.getU16 (by omega))).trans hquantity) hlo hhi

/-- Holding registers and input registers are served alike. -/
theorem serves_readRegs {functionCode : UInt8} {address : UInt16} {quantity : ℕ} (hn : 5 ≤ n)
    (hregs : functionCode = functionReadHoldingRegs ∨ functionCode = functionReadInputRegs)
    (hcode : request 0 = functionCode) (haddress : request.getU16 1 = address)
    (hquantity : (request.getU16 3).toNat = quantity) (hlo : 1 ≤ quantity) (hhi : quantity ≤ 125) :
    Serves settings view request n (2 + quantity * 2)
      (CarriesRegs functionCode quantity fun i => table.regs (address + UInt16.ofNat i))
      table table := by
  refine serves_of_dispatch (by omega) fun connection w r hr hpos htable => ?_
  have hr0 : r 0 = functionCode := (hr 0 (by omega)).trans hcode
  have hdispatch : dispatch settings connection r n w
      = processReadRegsReq settings connection r n w := by
    rcases hregs with rfl | rfl
    · rw [dispatch, hr0, if_neg (by decide), if_neg (by decide), if_pos rfl]
      rfl
    · rw [dispatch, hr0, if_neg (by decide), if_neg (by decide), if_neg (by decide), if_pos rfl]
      rfl
  rw [hdispatch, ← htable, ← hr0]
  exact processReadRegsReq_table h hpos r n w hn ((hr.getU16 (by omega)).trans haddress)
    ((congrArg UInt16.toNat (hr.getU16 (by omega))).trans hquantity) hlo hhi

theorem serves_writeSingleCoil {address : UInt16} {state : Bool} (hn : 5 ≤ n)
    (hcode : request 0 = functionWriteSingleCoil) (haddress : request.getU16 1 = address)
    (hstate : request.getU16 3 = coilWord state) :
    Serves settings view request n 5 (Echoes request 2) table (table.setCoil address state) := by
  refine serves_of_dispatch (by omega) fun connection w r hr hpos htable => ?_
  have hr0 : r 0 = functionWriteSingleCoil := (hr 0 (by omega)).trans hcode
  have hdispatch : dispatch settings connection r n w
      = modbusServerProcessWriteSingleCoilReq settings connection r n w := by
    rw [dispatch, hr0]
    rfl
  rw [hdispatch, ← htable]
  exact (modbusServerProcessWriteSingleCoilReq_table h hpos r n w hn
    ((hr.getU16 (by omega)).trans haddress) ((hr.getU16 (by omega)).trans hstate)).of_echoes
    (hr.mono hn)

theorem serves_writeSingleReg {address value : UInt16} (hn : 5 ≤ n)
    (hcode : request 0 = functionWriteSingleReg) (haddress : request.getU16 1 = address)
    (hvalue : request.getU16 3 = value) :
    Serves settings view request n 5 (Echoes request 2) table (table.setReg address value) := by
  refine serves_of_dispatch (by omega) fun connection w r hr hpos htable => ?_
  have hr0 : r 0 = functionWriteSingleReg := (hr 0 (by omega)).trans hcode
  have hdispatch : dispatch settings connection r n w
      = modbusServerProcessWriteSingleRegReq settings connection r n w := by
    rw [dispatch, hr0]
    rfl
  rw [hdispatch, ← htable]
  exact (modbusServerProcessWriteSingleRegReq_table h hpos r n w hn
    ((hr.getU16 (by omega)).trans haddress) ((hr.getU16 (by omega)).trans hvalue)).of_echoes
    (hr.mono hn)

theorem serves_writeMultipleCoils {address : UInt16} {quantity : ℕ} {states : ℕ → Bool}
    (hn : n = 6 + coilBytes quantity) (hcode : request 0 = functionWriteMultipleCoils)
    (haddress : request.getU16 1 = address) (hquantity : (request.getU16 3).toNat = quantity)
    (hlo : 1 ≤ quantity) (hhi : quantity ≤ 1968) (hcount : (request 5).toNat = coilBytes quantity)
    (hstates : ∀ i, i < quantity → request.testBit 6 i = states i)
    (hrange : address.toNat + quantity ≤ 65536) :
    Serves settings view request n 5 (Echoes request 2) table
      (table.setCoils address quantity states) := by
  refine serves_of_dispatch (by omega) fun connection w r hr hpos htable => ?_
  have hr0 : r 0 = functionWriteMultipleCoils := (hr 0 (by omega)).trans hcode
  have hdispatch : dispatch settings connection r n w
      = modbusServerProcessWriteMultipleCoilsReq settings connection r n w := by
    rw [dispatch, hr0]
    rfl
  have hsame : table.setCoils address quantity states
      = (view w.user).setCoils address quantity (r.testBit 6) := by
    rw [htable]
    refine Table.setCoils_congr fun i hi => ?_
    rw [← hstates i hi, Memory.testBit, Memory.testBit, hr (6 + i / 8) (by
      simp only [coilBytes] at hn
      omega)]
  rw [hdispatch, hsame]
  exact (modbusServerProcessWriteMultipleCoilsReq_table h hpos r n w (by omega)
    ((hr.getU16 (by omega)).trans haddress)
    ((congrArg UInt16.toNat (hr.getU16 (by omega))).trans hquantity) hlo (by omega)
    ((congrArg UInt8.toNat (hr 5 (by omega))).trans hcount) hrange).of_echoes (hr.mono (by omega))

theorem serves_writeMultipleRegs {address : UInt16} {quantity : ℕ} {values : ℕ → UInt16}
    (hn : n = 6 + quantity * 2) (hcode : request 0 = functionWriteMultipleRegs)
    (haddress : request.getU16 1 = address) (hquantity : (request.getU16 3).toNat = quantity)
    (hlo : 1 ≤ quantity) (hhi : quantity ≤ 123) (hcount : (request 5).toNat = quantity * 2)
    (hvalues : ∀ i, i < quantity → request.getU16 (6 + 2 * i) = values i)
    (hrange : address.toNat + quantity ≤ 65536) :
    Serves settings view request n 5 (Echoes request 2) table
      (table.setRegs address quantity values) := by
  refine serves_of_dispatch (by omega) fun connection w r hr hpos htable => ?_
  have hr0 : r 0 = functionWriteMultipleRegs := (hr 0 (by omega)).trans hcode
  have hdispatch : dispatch settings connection r n w
      = modbusServerProcessWriteMultipleRegsReq settings connection r n w := by
    rw [dispatch, hr0]
    rfl
  have hsame : table.setRegs address quantity values
      = (view w.user).setRegs address quantity fun i => r.getU16 (6 + 2 * i) := by
    rw [htable]
    refine Table.setRegs_congr fun i hi => ?_
    rw [← hvalues i hi, hr.getU16 (by omega)]
  rw [hdispatch, hsame]
  exact (modbusServerProcessWriteMultipleRegsReq_table h hpos r n w (by omega)
    ((hr.getU16 (by omega)).trans haddress)
    ((congrArg UInt16.toNat (hr.getU16 (by omega))).trans hquantity) hlo hhi
    ((congrArg UInt8.toNat (hr 5 (by omega))).trans hcount) hrange).of_echoes (hr.mono (by omega))

theorem serves_maskWriteReg {address andMask orMask : UInt16} (hn : 7 ≤ n)
    (hcode : request 0 = functionMaskWriteReg) (haddress : request.getU16 1 = address)
    (hand : request.getU16 3 = andMask) (hor : request.getU16 5 = orMask) :
    Serves settings view request n 7 (Echoes request 3) table
      (table.setReg address ((table.regs address &&& andMask) ||| (orMask &&& ~~~andMask))) := by
  refine serves_of_dispatch (by omega) fun connection w r hr hpos htable => ?_
  have hr0 : r 0 = functionMaskWriteReg := (hr 0 (by omega)).trans hcode
  have hdispatch : dispatch settings connection r n w
      = modbusServerProcessMaskWriteRegReq settings connection r n w := by
    rw [dispatch, hr0]
    rfl
  rw [hdispatch, ← htable]
  exact (modbusServerProcessMaskWriteRegReq_table h hpos r n w hn
    ((hr.getU16 (by omega)).trans haddress) ((hr.getU16 (by omega)).trans hand)
    ((hr.getU16 (by omega)).trans hor)).of_echoes (hr.mono hn)

end Serves

/-! ## What the formatters store -/

section Format

variable (context : ModbusClientContext) (time : UInt32)

theorem formatWordsReq_request (functionCode : UInt8) (word1 word2 : UInt16) :
    Formatted (formatWordsReq functionCode word1 word2 context time).2 5 ∧
      pdu (formatWordsReq functionCode word1 word2 context time).2.requestAdu 0 = functionCode ∧
      (pdu (formatWordsReq functionCode word1 word2 context time).2.requestAdu).getU16 1 = word1 ∧
      (pdu (formatWordsReq functionCode word1 word2 context time).2.requestAdu).getU16 3
        = word2 := by
  obtain ⟨hformatted, hpdu⟩ := modbusClientFormatMbapHeader_formatted (context.withRequest
    (Memory.setU16 (Memory.setU16 (Function.update context.requestAdu headerSize functionCode)
      (headerSize + 1) word1) (headerSize + 3) word2)) (n := 5) (by decide) (by decide) time
  refine ⟨hformatted, (congrFun hpdu 0).trans ?_, (congrArg (Memory.getU16 · 1) hpdu).trans ?_,
    (congrArg (Memory.getU16 · 3) hpdu).trans ?_⟩
  · simp [Memory.setU16_apply, headerSize]
  · simp [Memory.getU16, Memory.setU16_apply, headerSize]
  · simp [Memory.getU16, Memory.setU16_apply, headerSize]

theorem modbusClientFormatMaskWriteRegReq_request (address andMask orMask : UInt16) :
    Formatted (modbusClientFormatMaskWriteRegReq address andMask orMask context time).2 7 ∧
      pdu (modbusClientFormatMaskWriteRegReq address andMask orMask context time).2.requestAdu 0
        = functionMaskWriteReg ∧
      (pdu (modbusClientFormatMaskWriteRegReq address andMask orMask context
        time).2.requestAdu).getU16 1 = address ∧
      (pdu (modbusClientFormatMaskWriteRegReq address andMask orMask context
        time).2.requestAdu).getU16 3 = andMask ∧
      (pdu (modbusClientFormatMaskWriteRegReq address andMask orMask context
        time).2.requestAdu).getU16 5 = orMask := by
  obtain ⟨hformatted, hpdu⟩ := modbusClientFormatMbapHeader_formatted (context.withRequest
    (Memory.setU16 (Memory.setU16 (Memory.setU16
      (Function.update context.requestAdu headerSize functionMaskWriteReg)
      (headerSize + 1) address) (headerSize + 3) andMask) (headerSize + 5) orMask)) (n := 7)
    (by decide) (by decide) time
  refine ⟨hformatted, (congrFun hpdu 0).trans ?_, (congrArg (Memory.getU16 · 1) hpdu).trans ?_,
    (congrArg (Memory.getU16 · 3) hpdu).trans ?_, (congrArg (Memory.getU16 · 5) hpdu).trans ?_⟩
  · simp [Memory.setU16_apply, headerSize]
  · simp [Memory.getU16, Memory.setU16_apply, headerSize]
  · simp [Memory.getU16, Memory.setU16_apply, headerSize]
  · simp [Memory.getU16, Memory.setU16_apply, headerSize]

/-- The fixed part of a request that writes several coils or registers. -/
def writeMultipleHeader (functionCode : UInt8) (address : UInt16) (quantity : ℕ) (byteCount : UInt8)
    (requestAdu : Memory UInt8) : Memory UInt8 :=
  Function.update (Memory.setU16 (Memory.setU16 (Function.update requestAdu headerSize functionCode)
    (headerSize + 1) address) (headerSize + 3) (UInt16.ofNat quantity)) (headerSize + 5) byteCount

theorem writeMultipleHeader_fields (functionCode : UInt8) (address : UInt16) (quantity : ℕ)
    (byteCount : UInt8) (requestAdu : Memory UInt8) :
    pdu (writeMultipleHeader functionCode address quantity byteCount requestAdu) 0 = functionCode ∧
      (pdu (writeMultipleHeader functionCode address quantity byteCount requestAdu)).getU16 1
        = address ∧
      (pdu (writeMultipleHeader functionCode address quantity byteCount requestAdu)).getU16 3
        = UInt16.ofNat quantity ∧
      pdu (writeMultipleHeader functionCode address quantity byteCount requestAdu) 5
        = byteCount := by
  refine ⟨?_, ?_, ?_, ?_⟩ <;>
    simp [writeMultipleHeader, Memory.getU16, Memory.setU16_apply, headerSize]

theorem modbusClientFormatWriteMultipleCoilsReq_request (address : UInt16) {quantity : ℕ}
    (hhi : quantity ≤ 1968) (value : Memory UInt8) :
    let c := (modbusClientFormatWriteMultipleCoilsReq address quantity value context time).2
    Formatted c (6 + coilBytes quantity) ∧ pdu c.requestAdu 0 = functionWriteMultipleCoils ∧
      (pdu c.requestAdu).getU16 1 = address ∧
      (pdu c.requestAdu).getU16 3 = UInt16.ofNat quantity ∧
      (pdu c.requestAdu 5).toNat = coilBytes quantity ∧
      ∀ i, i < quantity → (pdu c.requestAdu).testBit 6 i = value.testBit 0 i := by
  have hbytes : coilBytes quantity ≤ 246 := by
    simp only [coilBytes]
    omega
  have hcount : (UInt8.ofNat (coilBytes quantity)).toNat = coilBytes quantity := by
    rw [UInt8.toNat_ofNat', Nat.mod_eq_of_lt (by omega)]
  set m := writeMultipleHeader functionWriteMultipleCoils address quantity
    (UInt8.ofNat (coilBytes quantity)) context.requestAdu with hm
  obtain ⟨h0, h1, h3, h5⟩ := writeMultipleHeader_fields functionWriteMultipleCoils address quantity
    (UInt8.ofNat (coilBytes quantity)) context.requestAdu
  have hc : modbusClientFormatWriteMultipleCoilsReq address quantity value context time
      = modbusClientFormatMbapHeader (context.withRequest
        (m.write (headerSize + 6) (value.read 0 (coilBytes quantity)))) (6 + coilBytes quantity)
        time := by
    simp only [modbusClientFormatWriteMultipleCoilsReq, hcount]
    rfl
  obtain ⟨hformatted, hpdu⟩ := modbusClientFormatMbapHeader_formatted (context.withRequest
    (m.write (headerSize + 6) (value.read 0 (coilBytes quantity)))) (n := 6 + coilBytes quantity)
    (by omega) (by simp only [maxPduSize]; omega) time
  -- the coils stand behind the fixed part
  have hbelow : ∀ i, i < 6 → (pdu (m.write (headerSize + 6)
      (value.read 0 (coilBytes quantity)))) i = pdu m i :=
    fun i hi => Memory.write_of_lt _ _ (by omega)
  simp only [hc, hpdu]
  refine ⟨hformatted, (hbelow 0 (by decide)).trans h0,
    (Memory.getU16_congr (hbelow 1 (by decide)) (hbelow 2 (by decide))).trans h1,
    (Memory.getU16_congr (hbelow 3 (by decide)) (hbelow 4 (by decide))).trans h3,
    (congrArg UInt8.toNat ((hbelow 5 (by decide)).trans h5)).trans hcount, fun i hi => ?_⟩
  have hlt : i / 8 < (value.read 0 (coilBytes quantity)).length := by
    rw [Memory.length_read]
    simp only [coilBytes]
    omega
  rw [pdu_testBit, Memory.testBit, ModbusClientContext.withRequest_requestAdu,
    Memory.write_add _ _ _ hlt, Memory.getElem_read]
  rfl

/-! `copyRegs` stores the registers of its range and nothing else. -/

theorem copyRegs_below (value : Memory UInt16) {base p : ℕ} (hp : p < base) (k i : ℕ)
    (m : Memory UInt8) : copyRegs value base k i m p = m p := by
  induction k generalizing i m with
  | zero => rfl
  | succ k ih => rw [copyRegs, ih, Memory.setU16_apply, if_neg (by omega), if_neg (by omega)]

theorem copyRegs_getU16 (value : Memory UInt16) (base k i : ℕ) (m : Memory UInt8) (n : ℕ) :
    (copyRegs value base k i m).getU16 (base + 2 * n)
      = if i ≤ n ∧ n < i + k then value n else m.getU16 (base + 2 * n) := by
  induction k generalizing i m with
  | zero =>
      rw [if_neg (by omega)]
      rfl
  | succ k ih =>
      rw [copyRegs, ih]
      by_cases hlater : i + 1 ≤ n ∧ n < i + 1 + k
      · rw [if_pos hlater, if_pos (by omega)]
      · rw [if_neg hlater]
        by_cases heq : n = i
        · subst heq
          rw [Memory.getU16_setU16_self, if_pos (by omega)]
        · rw [Memory.getU16_setU16_of_ne _ _ (by omega), if_neg (by omega)]

theorem modbusClientFormatWriteMultipleRegsReq_request (address : UInt16) {quantity : ℕ}
    (hhi : quantity ≤ 123) (value : Memory UInt16) :
    let c := (modbusClientFormatWriteMultipleRegsReq address quantity value context time).2
    Formatted c (6 + quantity * 2) ∧ pdu c.requestAdu 0 = functionWriteMultipleRegs ∧
      (pdu c.requestAdu).getU16 1 = address ∧
      (pdu c.requestAdu).getU16 3 = UInt16.ofNat quantity ∧
      (pdu c.requestAdu 5).toNat = quantity * 2 ∧
      ∀ i, i < quantity → (pdu c.requestAdu).getU16 (6 + 2 * i) = value i := by
  have hcount : (UInt8.ofNat (quantity * 2)).toNat = quantity * 2 := by
    rw [UInt8.toNat_ofNat', Nat.mod_eq_of_lt (by omega)]
  set m := writeMultipleHeader functionWriteMultipleRegs address quantity
    (UInt8.ofNat (quantity * 2)) context.requestAdu with hm
  obtain ⟨h0, h1, h3, h5⟩ := writeMultipleHeader_fields functionWriteMultipleRegs address quantity
    (UInt8.ofNat (quantity * 2)) context.requestAdu
  have hc : modbusClientFormatWriteMultipleRegsReq address quantity value context time
      = modbusClientFormatMbapHeader (context.withRequest
        (copyRegs value (headerSize + 6) quantity 0 m)) (6 + quantity * 2) time := by
    simp only [modbusClientFormatWriteMultipleRegsReq, hcount]
    rfl
  obtain ⟨hformatted, hpdu⟩ := modbusClientFormatMbapHeader_formatted (context.withRequest
    (copyRegs value (headerSize + 6) quantity 0 m)) (n := 6 + quantity * 2)
    (by omega) (by simp only [maxPduSize]; omega) time
  have hbelow : ∀ i, i < 6 →
      pdu (copyRegs value (headerSize + 6) quantity 0 m) i = pdu m i :=
    fun i hi => copyRegs_below value (by omega) _ _ _
  simp only [hc, hpdu]
  refine ⟨hformatted, (hbelow 0 (by decide)).trans h0,
    (Memory.getU16_congr (hbelow 1 (by decide)) (hbelow 2 (by decide))).trans h1,
    (Memory.getU16_congr (hbelow 3 (by decide)) (hbelow 4 (by decide))).trans h3,
    (congrArg UInt8.toNat ((hbelow 5 (by decide)).trans h5)).trans hcount, fun i hi => ?_⟩
  rw [pdu_getU16, ModbusClientContext.withRequest_requestAdu, ← Nat.add_assoc, copyRegs_getU16,
    if_pos (by omega)]

end Format

/-! ## What the parsers accept -/

/-- The caller's buffer after a read of coils: the coils packed in order, zero bits up to the end of
the last byte, and nothing else changed. -/
structure HoldsCoils (coils : ℕ → Bool) (quantity : ℕ) (before after : Memory UInt8) : Prop where
  bits : ∀ n, n < 8 * coilBytes quantity →
    after.testBit 0 n = if n < quantity then coils n else false
  rest : ∀ i, coilBytes quantity ≤ i → after i = before i

/-- The caller's buffer after a read of registers. -/
structure HoldsRegs (regs : ℕ → UInt16) (quantity : ℕ) (before after : Memory UInt16) : Prop where
  values : ∀ n, n < quantity → after n = regs n
  rest : ∀ i, quantity ≤ i → after i = before i

section Parse

variable {context : ModbusClientContext} {response request : Memory UInt8} {length : ℕ}

theorem getResponsePdu_eq (hlen : context.responseAduLen = headerSize + length) :
    modbusClientGetResponsePdu context = (pdu context.responseAdu, length) := by
  rw [modbusClientGetResponsePdu, hlen, if_pos (Nat.le_add_right _ _), Nat.add_sub_cancel_left]

theorem parseBitsResp_coils {functionCode : UInt8} {quantity : ℕ} {coils : ℕ → Bool}
    (hresponse : CarriesCoils functionCode quantity coils response)
    (hlen : context.responseAduLen = headerSize + (2 + coilBytes quantity))
    (hagree : Memory.Agree (2 + coilBytes quantity) (pdu context.responseAdu) response)
    (value : Memory UInt8) :
    (parseBitsResp functionCode quantity context value).1 = .noError ∧
      HoldsCoils coils quantity value (parseBitsResp functionCode quantity context value).2 := by
  have hcode : pdu context.responseAdu 0 = functionCode :=
    (hagree 0 (by omega)).trans hresponse.functionCode_eq
  have hcount : (pdu context.responseAdu 1).toNat = coilBytes quantity :=
    (congrArg UInt8.toNat (hagree 1 (by omega))).trans hresponse.byteCount
  have hparse : parseBitsResp functionCode quantity context value
      = (.noError, value.write 0 ((pdu context.responseAdu).read 2 (coilBytes quantity))) := by
    rw [parseBitsResp, getResponsePdu_eq hlen, if_neg (by omega), if_neg (not_not_intro hcode),
      hcount, if_neg (by omega)]
  rw [hparse]
  refine ⟨rfl, fun n hn => ?_, fun i hi => Memory.write_of_ge _ _ (by
    rw [Memory.length_read, Nat.zero_add]
    exact hi)⟩
  have hlt : n / 8 < ((pdu context.responseAdu).read 2 (coilBytes quantity)).length := by
    rw [Memory.length_read]
    omega
  simp only
  rw [← hresponse.bits n hn, Memory.testBit, Memory.testBit, Memory.write_add _ _ _ hlt,
    Memory.getElem_read, hagree (2 + n / 8) (by omega)]

theorem parseRegsResp_regs {functionCode : UInt8} {quantity : ℕ} {regs : ℕ → UInt16}
    (hresponse : CarriesRegs functionCode quantity regs response)
    (hlen : context.responseAduLen = headerSize + (2 + quantity * 2))
    (hagree : Memory.Agree (2 + quantity * 2) (pdu context.responseAdu) response)
    (value : Memory UInt16) :
    (parseRegsResp functionCode quantity context value).1 = .noError ∧
      HoldsRegs regs quantity value (parseRegsResp functionCode quantity context value).2 := by
  have hcode : pdu context.responseAdu 0 = functionCode :=
    (hagree 0 (by omega)).trans hresponse.functionCode_eq
  have hcount : (pdu context.responseAdu 1).toNat = quantity * 2 :=
    (congrArg UInt8.toNat (hagree 1 (by omega))).trans hresponse.byteCount
  have hparse : parseRegsResp functionCode quantity context value
      = (.noError, value.write 0 (regValues (pdu context.responseAdu) 2 quantity)) := by
    rw [parseRegsResp, getResponsePdu_eq hlen, if_neg (by omega), if_neg (not_not_intro hcode),
      hcount, if_neg (by omega)]
  have hlength : (regValues (pdu context.responseAdu) 2 quantity).length = quantity := by
    simp [regValues]
  rw [hparse]
  refine ⟨rfl, fun n hn => ?_, fun i hi => Memory.write_of_ge _ _ (by
    rw [hlength, Nat.zero_add]
    exact hi)⟩
  have hget := Memory.write_add value 0 (regValues (pdu context.responseAdu) 2 quantity)
    (hlength.symm ▸ hn)
  rw [Nat.zero_add] at hget
  simp only
  rw [hget, ← hresponse.words n hn, ← hagree.getU16 (by omega)]
  simp only [regValues, List.getElem_map, List.getElem_range]

theorem regValues_congr {m m' : Memory UInt8} {base quantity : ℕ}
    (h : ∀ i, i < quantity → m.getU16 (base + 2 * i) = m'.getU16 (base + 2 * i)) :
    regValues m base quantity = regValues m' base quantity :=
  List.map_congr_left fun i hi => h i (List.mem_range.1 hi)

theorem regValues_pair {m : Memory UInt8} {word1 word2 : UInt16} (h1 : m.getU16 1 = word1)
    (h2 : m.getU16 3 = word2) : regValues m 1 2 = [word1, word2] := by
  subst h1 h2
  rfl

theorem parseEchoResp_echo {functionCode : UInt8} (words : List UInt16)
    (hresponse : Echoes request words.length response) (hcode : request 0 = functionCode)
    (hwords : regValues request 1 words.length = words)
    (hlen : context.responseAduLen = headerSize + (1 + 2 * words.length))
    (hagree : Memory.Agree (1 + 2 * words.length) (pdu context.responseAdu) response)
    (value : Unit) : (parseEchoResp functionCode words context value).1 = .noError := by
  have hcode' : pdu context.responseAdu 0 = functionCode :=
    ((hagree 0 (by omega)).trans hresponse.functionCode_eq).trans hcode
  have hwords' : regValues (pdu context.responseAdu) 1 words.length = words := by
    refine (regValues_congr fun i hi => ?_).trans hwords
    rw [hagree.getU16 (by omega), hresponse.words_eq i hi]
  rw [parseEchoResp, getResponsePdu_eq hlen, if_neg (lt_irrefl _), if_neg (not_not_intro hcode'),
    if_neg (not_not_intro hwords')]

theorem parseQuantityResp_echo {functionCode : UInt8} {address : UInt16} {quantity : ℕ}
    (hresponse : Echoes request 2 response) (hcode : request 0 = functionCode)
    (haddress : request.getU16 1 = address) (hquantity : (request.getU16 3).toNat = quantity)
    (hlen : context.responseAduLen = headerSize + 5)
    (hagree : Memory.Agree 5 (pdu context.responseAdu) response) (value : Unit) :
    (parseQuantityResp functionCode address quantity context value).1 = .noError := by
  have hcode' : pdu context.responseAdu 0 = functionCode :=
    ((hagree 0 (by omega)).trans hresponse.functionCode_eq).trans hcode
  have haddress' : (pdu context.responseAdu).getU16 1 = address :=
    ((hagree.getU16 (by omega)).trans (hresponse.words_eq 0 (by decide))).trans haddress
  have hquantity' : ((pdu context.responseAdu).getU16 3).toNat = quantity :=
    (congrArg UInt16.toNat
      ((hagree.getU16 (by omega)).trans (hresponse.words_eq 1 (by decide)))).trans hquantity
  rw [parseQuantityResp, getResponsePdu_eq hlen, if_neg (lt_irrefl _), if_neg (not_not_intro hcode'),
    if_neg (by simp [haddress', hquantity'])]

end Parse

/-! ## The calls -/

/-- What each of the calls does over a table, whatever the client's transaction counter and buffers
are and however the network cuts the two ADUs into pieces. -/
structure EndToEnd (view : σ → Table) : Prop where
  readCoils : ∀ (s : Calling (Loopback σ) (Memory UInt8)) (address : UInt16) (quantity : ℕ),
    Ready settings s.toClient → 1 ≤ quantity → quantity ≤ 2000 →
    address.toNat + quantity ≤ 65536 →
    Completes settings view (modbusClientReadCoils (Loopback.api settings) address quantity) s
      (HoldsCoils (fun i => (view s.net.world.user).coils (address + UInt16.ofNat i)) quantity s.value)
      (view s.net.world.user)
  readHoldingRegs : ∀ (s : Calling (Loopback σ) (Memory UInt16)) (address : UInt16) (quantity : ℕ),
    Ready settings s.toClient → 1 ≤ quantity → quantity ≤ 125 →
    address.toNat + quantity ≤ 65536 →
    Completes settings view (modbusClientReadHoldingRegs (Loopback.api settings) address quantity) s
      (HoldsRegs (fun i => (view s.net.world.user).regs (address + UInt16.ofNat i)) quantity s.value)
      (view s.net.world.user)
  readInputRegs : ∀ (s : Calling (Loopback σ) (Memory UInt16)) (address : UInt16) (quantity : ℕ),
    Ready settings s.toClient → 1 ≤ quantity → quantity ≤ 125 →
    address.toNat + quantity ≤ 65536 →
    Completes settings view (modbusClientReadInputRegs (Loopback.api settings) address quantity) s
      (HoldsRegs (fun i => (view s.net.world.user).regs (address + UInt16.ofNat i)) quantity s.value)
      (view s.net.world.user)
  writeSingleCoil : ∀ (s : Calling (Loopback σ) Unit) (address : UInt16) (value : Bool),
    Ready settings s.toClient →
    Completes settings view (modbusClientWriteSingleCoil (Loopback.api settings) address value) s
      (fun _ => True) ((view s.net.world.user).setCoil address value)
  writeSingleReg : ∀ (s : Calling (Loopback σ) Unit) (address value : UInt16),
    Ready settings s.toClient →
    Completes settings view (modbusClientWriteSingleReg (Loopback.api settings) address value) s
      (fun _ => True) ((view s.net.world.user).setReg address value)
  writeMultipleCoils : ∀ (s : Calling (Loopback σ) Unit) (address : UInt16) (quantity : ℕ)
    (value : Memory UInt8), Ready settings s.toClient → 1 ≤ quantity → quantity ≤ 1968 →
    address.toNat + quantity ≤ 65536 →
    Completes settings view
      (modbusClientWriteMultipleCoils (Loopback.api settings) address quantity value) s
      (fun _ => True) ((view s.net.world.user).setCoils address quantity (value.testBit 0))
  writeMultipleRegs : ∀ (s : Calling (Loopback σ) Unit) (address : UInt16) (quantity : ℕ)
    (value : Memory UInt16), Ready settings s.toClient → 1 ≤ quantity → quantity ≤ 123 →
    address.toNat + quantity ≤ 65536 →
    Completes settings view
      (modbusClientWriteMultipleRegs (Loopback.api settings) address quantity value) s
      (fun _ => True) ((view s.net.world.user).setRegs address quantity value)
  maskWriteReg : ∀ (s : Calling (Loopback σ) Unit) (address andMask orMask : UInt16),
    Ready settings s.toClient →
    Completes settings view
      (modbusClientMaskWriteReg (Loopback.api settings) address andMask orMask) s (fun _ => True)
      ((view s.net.world.user).setReg address
        (((view s.net.world.user).regs address &&& andMask) ||| (orMask &&& ~~~andMask)))

section Calls

variable {settings} {view : σ → Table}

/-- A call that accepts its parameters is its loop. -/
theorem completes_run {call : Call β} {accepted : Prop} [Decidable accepted] (haccepted : accepted)
    {s : Calling (Loopback σ) β} {Value : β → Prop} {table : Table}
    (h : Completes settings view (call.loop (Loopback.api settings)) s Value table) :
    Completes settings view (call.run (Loopback.api settings) accepted) s Value table := by
  obtain ⟨enough, s', hloop, hrest⟩ := h
  refine ⟨enough, s', fun fuel hle => ?_, hrest⟩
  rw [Call.run, if_pos haccepted]
  exact hloop fuel hle

theorem toNat_ofNat_quantity {quantity : ℕ} (h : quantity ≤ 2000) :
    (UInt16.ofNat quantity).toNat = quantity := by
  rw [UInt16.toNat_ofNat']
  omega

variable (h : ServesTable settings view)
include h

theorem readRegs_completes {s : Calling (Loopback σ) (Memory UInt16)} {functionCode : UInt8}
    (hregs : functionCode = functionReadHoldingRegs ∨ functionCode = functionReadInputRegs)
    (address : UInt16) {quantity : ℕ} (hready : Ready settings s.toClient) (hlo : 1 ≤ quantity)
    (hhi : quantity ≤ 125) :
    Completes settings view
      (Call.loop (Loopback.api settings) {
        format := formatWordsReq functionCode address (UInt16.ofNat quantity)
        parse := parseRegsResp functionCode quantity }) s
      (HoldsRegs (fun i => (view s.net.world.user).regs (address + UInt16.ofNat i)) quantity s.value)
      (view s.net.world.user) := by
  obtain ⟨hformatted, hcode, haddress, hquantity⟩ := formatWordsReq_request s.context
    ((Loopback.api settings).osGetSystemTime s.net) functionCode address (UInt16.ofNat quantity)
  have hexception : functionCode &&& exceptionMask = 0 := by
    rcases hregs with rfl | rfl <;> decide
  exact completes_of_serves settings _ hready rfl rfl hformatted
    (serves_readRegs h (le_refl 5) hregs hcode haddress
      ((congrArg UInt16.toNat hquantity).trans (toNat_ofNat_quantity (by omega))) hlo hhi)
    rfl hcode hexception (fun p hp => hp.functionCode_eq.trans hcode.symm) (by omega)
    (by simp only [maxPduSize]; omega) fun context response hresponse hlen hagree =>
      parseRegsResp_regs hresponse hlen hagree s.value

theorem readCoils_completes {s : Calling (Loopback σ) (Memory UInt8)} (address : UInt16)
    {quantity : ℕ} (hready : Ready settings s.toClient) (hlo : 1 ≤ quantity)
    (hhi : quantity ≤ 2000) :
    Completes settings view ((readCoilsCall address quantity).loop (Loopback.api settings)) s
      (HoldsCoils (fun i => (view s.net.world.user).coils (address + UInt16.ofNat i)) quantity s.value)
      (view s.net.world.user) := by
  obtain ⟨hformatted, hcode, haddress, hquantity⟩ := formatWordsReq_request s.context
    ((Loopback.api settings).osGetSystemTime s.net) functionReadCoils address (UInt16.ofNat quantity)
  have hlength : 2 + coilBytes quantity ≤ maxPduSize := by
    simp only [maxPduSize, coilBytes]
    omega
  exact completes_of_serves settings _ hready rfl rfl hformatted
    (serves_readBits h (le_refl 5) hcode haddress
      ((congrArg UInt16.toNat hquantity).trans (toNat_ofNat_quantity hhi)) hlo hhi)
    rfl hcode (by decide) (fun p hp => hp.functionCode_eq.trans hcode.symm) (by omega) hlength
    fun context response hresponse hlen hagree => parseBitsResp_coils hresponse hlen hagree s.value

theorem writeSingleCoil_completes {s : Calling (Loopback σ) Unit} (address : UInt16) (value : Bool)
    (hready : Ready settings s.toClient) :
    Completes settings view ((writeSingleCoilCall address value).loop (Loopback.api settings)) s
      (fun _ => True) ((view s.net.world.user).setCoil address value) := by
  obtain ⟨hformatted, hcode, haddress, hvalue⟩ := formatWordsReq_request s.context
    ((Loopback.api settings).osGetSystemTime s.net) functionWriteSingleCoil address (coilWord value)
  exact completes_of_serves settings _ hready rfl rfl hformatted
    (serves_writeSingleCoil h (le_refl 5) hcode haddress hvalue)
    rfl hcode (by decide) (fun p hp => hp.functionCode_eq) (by decide) (by decide)
    fun context response hresponse hlen hagree =>
      ⟨parseEchoResp_echo [address, coilWord value] hresponse hcode (regValues_pair haddress hvalue)
        hlen hagree (), trivial⟩

theorem writeSingleReg_completes {s : Calling (Loopback σ) Unit} (address value : UInt16)
    (hready : Ready settings s.toClient) :
    Completes settings view ((writeSingleRegCall address value).loop (Loopback.api settings)) s
      (fun _ => True) ((view s.net.world.user).setReg address value) := by
  obtain ⟨hformatted, hcode, haddress, hvalue⟩ := formatWordsReq_request s.context
    ((Loopback.api settings).osGetSystemTime s.net) functionWriteSingleReg address value
  exact completes_of_serves settings _ hready rfl rfl hformatted
    (serves_writeSingleReg h (le_refl 5) hcode haddress hvalue)
    rfl hcode (by decide) (fun p hp => hp.functionCode_eq) (by decide) (by decide)
    fun context response hresponse hlen hagree =>
      ⟨parseEchoResp_echo [address, value] hresponse hcode (regValues_pair haddress hvalue)
        hlen hagree (), trivial⟩

theorem writeMultipleCoils_completes {s : Calling (Loopback σ) Unit} (address : UInt16)
    {quantity : ℕ} (value : Memory UInt8) (hready : Ready settings s.toClient) (hlo : 1 ≤ quantity)
    (hhi : quantity ≤ 1968) (hrange : address.toNat + quantity ≤ 65536) :
    Completes settings view
      ((writeMultipleCoilsCall address quantity value).loop (Loopback.api settings)) s
      (fun _ => True) ((view s.net.world.user).setCoils address quantity (value.testBit 0)) := by
  obtain ⟨hformatted, hcode, haddress, hquantity, hcount, hbits⟩ :=
    modbusClientFormatWriteMultipleCoilsReq_request s.context
      ((Loopback.api settings).osGetSystemTime s.net) address hhi value
  have hquantity' := (congrArg UInt16.toNat hquantity).trans (toNat_ofNat_quantity (by omega))
  exact completes_of_serves settings _ hready rfl rfl hformatted
    (serves_writeMultipleCoils h rfl hcode haddress hquantity' hlo hhi hcount hbits hrange)
    rfl hcode (by decide) (fun p hp => hp.functionCode_eq) (by decide) (by decide)
    fun context response hresponse hlen hagree =>
      ⟨parseQuantityResp_echo hresponse hcode haddress hquantity' hlen hagree (), trivial⟩

theorem writeMultipleRegs_completes {s : Calling (Loopback σ) Unit} (address : UInt16)
    {quantity : ℕ} (value : Memory UInt16) (hready : Ready settings s.toClient) (hlo : 1 ≤ quantity)
    (hhi : quantity ≤ 123) (hrange : address.toNat + quantity ≤ 65536) :
    Completes settings view
      ((writeMultipleRegsCall address quantity value).loop (Loopback.api settings)) s
      (fun _ => True) ((view s.net.world.user).setRegs address quantity value) := by
  obtain ⟨hformatted, hcode, haddress, hquantity, hcount, hwords⟩ :=
    modbusClientFormatWriteMultipleRegsReq_request s.context
      ((Loopback.api settings).osGetSystemTime s.net) address hhi value
  have hquantity' := (congrArg UInt16.toNat hquantity).trans (toNat_ofNat_quantity (by omega))
  exact completes_of_serves settings _ hready rfl rfl hformatted
    (serves_writeMultipleRegs h rfl hcode haddress hquantity' hlo hhi hcount hwords hrange)
    rfl hcode (by decide) (fun p hp => hp.functionCode_eq) (by decide) (by decide)
    fun context response hresponse hlen hagree =>
      ⟨parseQuantityResp_echo hresponse hcode haddress hquantity' hlen hagree (), trivial⟩

theorem maskWriteReg_completes {s : Calling (Loopback σ) Unit} (address andMask orMask : UInt16)
    (hready : Ready settings s.toClient) :
    Completes settings view
      ((maskWriteRegCall address andMask orMask).loop (Loopback.api settings)) s (fun _ => True)
      ((view s.net.world.user).setReg address
        (((view s.net.world.user).regs address &&& andMask) ||| (orMask &&& ~~~andMask))) := by
  obtain ⟨hformatted, hcode, haddress, hand, hor⟩ :=
    modbusClientFormatMaskWriteRegReq_request s.context
      ((Loopback.api settings).osGetSystemTime s.net) address andMask orMask
  have hwords : regValues (pdu (modbusClientFormatMaskWriteRegReq address andMask orMask s.context
      ((Loopback.api settings).osGetSystemTime s.net)).2.requestAdu) 1 3
      = [address, andMask, orMask] :=
    congrArg₂ List.cons haddress (congrArg₂ List.cons hand (congrArg (fun x => [x]) hor))
  exact completes_of_serves settings _ hready rfl rfl hformatted
    (serves_maskWriteReg h (le_refl 7) hcode haddress hand hor)
    rfl hcode (by decide) (fun p hp => hp.functionCode_eq) (by decide) (by decide)
    fun context response hresponse hlen hagree =>
      ⟨parseEchoResp_echo [address, andMask, orMask] hresponse hcode hwords hlen hagree (), trivial⟩

/-- **End-to-end agreement.** A client and a server in front of a table agree, call by call. -/
theorem end_to_end : EndToEnd settings view where
  readCoils _ address _ hready hlo hhi _ :=
    completes_run ⟨hlo, hhi⟩ (readCoils_completes h address hready hlo hhi)
  readHoldingRegs _ address _ hready hlo hhi _ :=
    completes_run ⟨hlo, hhi⟩ (readRegs_completes h (.inl rfl) address hready hlo hhi)
  readInputRegs _ address _ hready hlo hhi _ :=
    completes_run ⟨hlo, hhi⟩ (readRegs_completes h (.inr rfl) address hready hlo hhi)
  writeSingleCoil _ address value hready :=
    completes_run trivial (writeSingleCoil_completes h address value hready)
  writeSingleReg _ address value hready :=
    completes_run trivial (writeSingleReg_completes h address value hready)
  writeMultipleCoils _ address _ value hready hlo hhi hrange :=
    completes_run ⟨hlo, hhi⟩ (writeMultipleCoils_completes h address value hready hlo hhi hrange)
  writeMultipleRegs _ address _ value hready hlo hhi hrange :=
    completes_run ⟨hlo, hhi⟩ (writeMultipleRegs_completes h address value hready hlo hhi hrange)
  maskWriteReg _ address andMask orMask hready :=
    completes_run trivial (maskWriteReg_completes h address andMask orMask hready)

end Calls

/-! ## A table as the application -/

/-- Callbacks of an application whose state is the table itself. -/
def tableSettings (unitId : UInt8) : ModbusServerSettings Table where
  unitId := unitId
  lockCallback := none
  unlockCallback t := t
  readCoilCallback := some fun address t => (.noError, t.coils address, t)
  writeCoilCallback := some fun address state commit t =>
    (.noError, if commit then t.setCoil address state else t)
  readRegCallback := some fun address t => (.noError, t.regs address, t)
  writeRegValueCallback := some fun address value commit t =>
    (.noError, if commit then t.setReg address value else t)

theorem tableSettings_serves (unitId : UInt8) : ServesTable (tableSettings unitId) id where
  lock _ hf := nomatch hf
  unlock _ := rfl
  readCoil := ⟨_, rfl, fun _ _ => ⟨rfl, rfl, rfl⟩⟩
  writeCoil := ⟨_, rfl, fun _ _ _ _ => ⟨rfl, rfl⟩⟩
  readReg := ⟨_, rfl, fun _ _ => ⟨rfl, rfl, rfl⟩⟩
  writeReg := ⟨_, rfl, fun _ _ _ _ => ⟨rfl, rfl⟩⟩

/-- A client of unit 17 in front of a table, about to use transaction identifier 0, over a network
that moves two bytes at a time. -/
def tableClient (t : Table) : Calling (Loopback Table) (Memory UInt8) where
  context := {
    state := .connected, unitId := 17, transactionId := 0xFFFF, timestamp := 0, timeout := 1000
    requestAdu := fun _ => 0, requestAduLen := 0, requestAduPos := 0
    responseAdu := fun _ => 0, responseAduLen := 0, responseAduPos := 0, exceptionCode := 0 }
  net := {
    connection := acceptedConnection 0 0
    world := ⟨t, [], []⟩
    toServer := [], toClient := [], pieces := fun _ => 1, transfers := 0, clock := fun _ => 0 }
  value := fun _ => 0xFF

/-- The last eleven coils of the table, read over that network. -/
theorem end_to_end_lastCoils :
    Completes (tableSettings 17) id
      (modbusClientReadCoils (Loopback.api (tableSettings 17)) 65525 11)
      (tableClient ⟨fun a => decide (a.toNat % 3 = 0), fun _ => 0⟩)
      (HoldsCoils (fun i => decide ((65525 + UInt16.ofNat i).toNat % 3 = 0)) 11 (fun _ => 0xFF))
      ⟨fun a => decide (a.toNat % 3 = 0), fun _ => 0⟩ :=
  (end_to_end (tableSettings_serves 17)).readCoils (tableClient _) 65525 11
    ⟨rfl, .inr (.inr rfl), rfl, rfl⟩ (by decide) (by decide) (by decide)

end Modbus
