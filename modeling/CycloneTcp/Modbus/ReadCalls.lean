import CycloneTcp.Modbus.EndToEnd
import CycloneTcp.Modbus.ServerLoops

/-! # The two reads that may return something else

The calls of `EndToEnd` return what the table holds. Two further calls complete in the same way, but
the values they return need not be the ones asked for. The address of `modbusClientReadDiscreteInputs`
is a byte, so from 256 on another block of inputs is read. The handler behind
`modbusClientReadWriteMultipleRegs` reads first and writes afterwards, so where the two ranges meet
the caller gets the values from before the write. For both the exact condition is given under which
the values are right all the same. -/

set_option autoImplicit false

namespace Modbus

variable {σ β : Type*} {settings : ModbusServerSettings σ} {view : σ → Table}

/-- A call ends in one way only: what two accounts of it say holds of the same buffer and table. -/
theorem Completes.both
    {call : ℕ → Calling (Loopback σ) β → Option (ErrorCode × Calling (Loopback σ) β)}
    {s : Calling (Loopback σ) β} {Value Value' : β → Prop} {table table' : Table}
    (h : Completes settings view call s Value table)
    (h' : Completes settings view call s Value' table') :
    ∃ value, Value value ∧ Value' value := by
  obtain ⟨enough, t, hcall, -, hvalue, -⟩ := h
  obtain ⟨enough', t', hcall', -, hvalue', -⟩ := h'
  have hend : some (ErrorCode.noError, t) = some (ErrorCode.noError, t') :=
    (hcall _ (le_max_left enough enough')).symm.trans (hcall' _ (le_max_right enough enough'))
  obtain rfl : t = t' := congrArg Prod.snd (Option.some.inj hend)
  exact ⟨t.value, hvalue, hvalue'⟩

/-- A call that completes keeps to every account its values agree with. -/
theorem Completes.imp
    {call : ℕ → Calling (Loopback σ) β → Option (ErrorCode × Calling (Loopback σ) β)}
    {s : Calling (Loopback σ) β} {Value Value' : β → Prop} {table : Table}
    (h : Completes settings view call s Value table) (himp : ∀ value, Value value → Value' value) :
    Completes settings view call s Value' table := by
  obtain ⟨enough, t, hcall, hready, hvalue, htable⟩ := h
  exact ⟨enough, t, hcall, hready, himp _ hvalue, htable⟩

/-! ## Buffers that hold the values of two blocks -/

/-- A buffer tells the coils it holds. -/
theorem HoldsCoils.congr_iff {coils coils' : ℕ → Bool} {quantity : ℕ} {before after : Memory UInt8}
    (h : HoldsCoils coils quantity before after) :
    HoldsCoils coils' quantity before after ↔ ∀ i, i < quantity → coils i = coils' i := by
  have hbytes : quantity ≤ 8 * coilBytes quantity := by
    simp only [coilBytes]
    omega
  constructor
  · intro h' i hi
    have hbit := (h.bits i (by omega)).symm.trans (h'.bits i (by omega))
    rwa [if_pos hi, if_pos hi] at hbit
  · intro heq
    refine ⟨fun n hn => (h.bits n hn).trans ?_, h.rest⟩
    by_cases hin : n < quantity
    · rw [if_pos hin, if_pos hin, heq n hin]
    · rw [if_neg hin, if_neg hin]

/-- A buffer tells the registers it holds. -/
theorem HoldsRegs.congr_iff {regs regs' : ℕ → UInt16} {quantity : ℕ} {before after : Memory UInt16}
    (h : HoldsRegs regs quantity before after) :
    HoldsRegs regs' quantity before after ↔ ∀ i, i < quantity → regs i = regs' i := by
  constructor
  · intro h' i hi
    exact (h.values i hi).symm.trans (h'.values i hi)
  · intro heq
    exact ⟨fun n hn => (h.values n hn).trans (heq n hn), h.rest⟩

section DiscreteInputs

/-! ## Read Discrete Inputs -/

variable (h : ServesTable settings view)
include h

theorem serves_readDiscreteInputs {request : Memory UInt8} {n : ℕ} {table : Table}
    {address : UInt16} {quantity : ℕ} (hn : 5 ≤ n)
    (hcode : request 0 = functionReadDiscreteInputs) (haddress : request.getU16 1 = address)
    (hquantity : (request.getU16 3).toNat = quantity) (hlo : 1 ≤ quantity)
    (hhi : quantity ≤ 2000) :
    Serves settings view request n (2 + coilBytes quantity)
      (CarriesCoils functionReadDiscreteInputs quantity fun i =>
        table.coils (address + UInt16.ofNat i)) table table := by
  refine serves_of_dispatch (by omega) fun connection w r hr hpos htable => ?_
  have hr0 : r 0 = functionReadDiscreteInputs := (hr 0 (by omega)).trans hcode
  rw [dispatch_readBits settings (.inr hr0), ← htable, ← hr0]
  exact processReadBitsReq_table h hpos r n w hn ((hr.getU16 (by omega)).trans haddress)
    ((congrArg UInt16.toNat (hr.getU16 (by omega))).trans hquantity) hlo hhi

/-- What the call returns: the inputs from the byte it takes for the address. -/
theorem readDiscreteInputs_completes {s : Calling (Loopback σ) (Memory UInt8)} (address : UInt8)
    {quantity : ℕ} (hready : Ready settings s.toClient) (hlo : 1 ≤ quantity)
    (hhi : quantity ≤ 2000) :
    Completes settings view
      (modbusClientReadDiscreteInputs (Loopback.api settings) address quantity) s
      (HoldsCoils (fun i => (view s.net.world.user).coils (address.toUInt16 + UInt16.ofNat i))
        quantity s.value)
      (view s.net.world.user) := by
  obtain ⟨hformatted, hcode, haddress, hquantity⟩ := formatWordsReq_request s.context
    ((Loopback.api settings).osGetSystemTime s.net) functionReadDiscreteInputs address.toUInt16
    (UInt16.ofNat quantity)
  have hlength : 2 + coilBytes quantity ≤ maxPduSize := by
    simp only [maxPduSize, coilBytes]
    omega
  refine completes_run ⟨hlo, hhi⟩ ?_
  exact completes_of_serves settings _ hready rfl rfl hformatted
    (serves_readDiscreteInputs h (le_refl 5) hcode haddress
      ((congrArg UInt16.toNat hquantity).trans (toNat_ofNat_quantity hhi)) hlo hhi)
    rfl hcode (by decide) (fun p hp => hp.functionCode_eq.trans hcode.symm) (by omega) hlength
    fun context response hresponse hlen hagree => parseBitsResp_coils hresponse hlen hagree s.value

/-- **Read Discrete Inputs.** The call returns the inputs from `address` on exactly if the address is
below 256, or the block it reads instead is in the same states. -/
theorem readDiscreteInputs_iff {s : Calling (Loopback σ) (Memory UInt8)} (address : UInt16)
    {quantity : ℕ} (hready : Ready settings s.toClient) (hlo : 1 ≤ quantity)
    (hhi : quantity ≤ 2000) :
    Completes settings view
        (modbusClientReadDiscreteInputs (Loopback.api settings) address.toUInt8 quantity) s
        (HoldsCoils (fun i => (view s.net.world.user).coils (address + UInt16.ofNat i)) quantity
          s.value)
        (view s.net.world.user) ↔
      address.toNat < 256 ∨ ∀ i, i < quantity →
        (view s.net.world.user).coils (UInt16.ofNat (address.toNat % 256) + UInt16.ofNat i)
          = (view s.net.world.user).coils (address + UInt16.ofNat i) := by
  have hreads := readDiscreteInputs_completes h address.toUInt8 hready hlo hhi
  have hnarrow : address.toUInt8.toUInt16 = UInt16.ofNat (address.toNat % 256) := by
    refine UInt16.toNat_inj.1 ?_
    rw [UInt8.toNat_toUInt16, UInt16.toNat_toUInt8, UInt16.toNat_ofNat']
    omega
  rw [hnarrow] at hreads
  constructor
  · intro hasked
    obtain ⟨value, hread, hvalue⟩ := hreads.both hasked
    exact .inr (hread.congr_iff.1 hvalue)
  · rintro (hlow | hsame)
    · have hsame : UInt16.ofNat (address.toNat % 256) = address := by
        rw [Nat.mod_eq_of_lt hlow, UInt16.ofNat_toNat]
      rwa [hsame] at hreads
    · exact hreads.imp fun value hread => hread.congr_iff.2 hsame

end DiscreteInputs

/-- A table of inputs in which only input 300 is set. -/
def onlyInput300 : Table := ⟨fun a => decide (a = 300), fun _ => 0⟩

/-- Input 44 is read where input 300 is asked for. -/
theorem readDiscreteInputs_300 :
    ¬ Completes (tableSettings 17) id
      (modbusClientReadDiscreteInputs (Loopback.api (tableSettings 17)) (300 : UInt16).toUInt8 1)
      (tableClient onlyInput300)
      (HoldsCoils (fun i => onlyInput300.coils (300 + UInt16.ofNat i)) 1 (fun _ => 0xFF))
      onlyInput300 := by
  intro hasked
  obtain ⟨value, hread, hvalue⟩ := (readDiscreteInputs_completes (tableSettings_serves 17)
    (300 : UInt16).toUInt8 (s := tableClient onlyInput300) ⟨rfl, .inr (.inr rfl), rfl, rfl⟩
    (le_refl 1) (by decide)).both hasked
  exact absurd (hread.congr_iff.1 hvalue 0 (by decide)) (by decide)

/-- The inputs of the lowest byte of addresses are read as asked. -/
theorem readDiscreteInputs_iff_low :
    Completes (tableSettings 17) id
        (modbusClientReadDiscreteInputs (Loopback.api (tableSettings 17)) (250 : UInt16).toUInt8 60)
        (tableClient onlyInput300)
        (HoldsCoils (fun i => onlyInput300.coils (250 + UInt16.ofNat i)) 60 (fun _ => 0xFF))
        onlyInput300 :=
  (readDiscreteInputs_iff (tableSettings_serves 17) (s := tableClient onlyInput300) 250
    ⟨rfl, .inr (.inr rfl), rfl, rfl⟩ (by decide) (by decide)).2 (.inl (by decide))

section ReadWrite

/-! ## Read/Write Multiple Registers -/

variable {readAddress writeAddress readQuantity writeQuantity : UInt16}

/-- What the handler does: the values it answers with are those from before the write. -/
theorem modbusServerProcessReadWriteMultipleRegsReq_table (h : ServesTable settings view)
    {connection : ModbusClientConnection} (hpos : headerSize ≤ connection.requestAduPos)
    (request : Memory UInt8) (length : ℕ) (w : ServerWorld σ)
    (hlength : 10 + writeQuantity.toNat * 2 ≤ length) (hread : request.getU16 1 = readAddress)
    (hreads : request.getU16 3 = readQuantity) (hwrite : request.getU16 5 = writeAddress)
    (hwrites : request.getU16 7 = writeQuantity)
    (hcount : (request 9).toNat = writeQuantity.toNat * 2)
    (hr : 1 ≤ readQuantity.toNat ∧ readQuantity.toNat ≤ 125)
    (hw : 1 ≤ writeQuantity.toNat ∧ writeQuantity.toNat ≤ 121)
    (hrange : writeAddress.toNat + writeQuantity.toNat ≤ 65536) :
    Answered view connection
      (modbusServerProcessReadWriteMultipleRegsReq settings connection request length w)
      (2 + readQuantity.toNat * 2)
      (CarriesRegs (request 0) readQuantity.toNat fun n =>
        (view w.user).regs (readAddress + UInt16.ofNat n))
      ((view w.user).setRegs writeAddress writeQuantity.toNat fun n =>
        request.getU16 (10 + 2 * n)) := by
  subst hread hreads hwrite hwrites
  set quantity := (request.getU16 3).toNat
  set response : Memory UInt8 := Function.update
    (Function.update connection.responseAdu headerSize (request 0)) (headerSize + 1)
    (UInt8.ofNat (quantity * 2)) with hresponse
  have hcode : response headerSize = request 0 := by
    rw [hresponse, Function.update_of_ne (by omega), Function.update_self]
  have hbytes : (response (headerSize + 1)).toNat = quantity * 2 := by
    rw [hresponse, Function.update_self, UInt8.toNat_ofNat', Nat.mod_eq_of_lt (by omega)]
  obtain ⟨hok, hview, hwords⟩ := readRegs_table h (request.getU16 1) (headerSize + 2) quantity 0
    response (modbusServerLock settings w)
  have hbelow := fun p (hp : p < headerSize + 2) => readRegs_below settings (request.getU16 1)
    hp quantity 0 response (modbusServerLock settings w)
  -- the write starts from the table the read has left as it was
  obtain ⟨hok', hview'⟩ := writeRegsTwoPhase_table h (request.getU16 5) request 10
    (request.getU16 7).toNat
    (readRegs settings (request.getU16 1) (headerSize + 2) quantity 0 response
      (modbusServerLock settings w)).2.2 hrange
  rw [modbusServerProcessReadWriteMultipleRegsReq, if_neg (by omega), if_neg (by omega),
    if_neg (by omega), if_neg (by omega), if_neg (not_not_intro hcount)]
  simp only
  rw [if_pos hok]
  refine Answered.finish hpos _ hok' _ ?_ _ ⟨?_, ?_, fun n hn => ?_⟩ ?_
  · rw [hbelow _ (by omega), hbytes]
  · rw [h.unlock_view, hview', hview, h.lock_view]
  · exact (hbelow headerSize (by omega)).trans hcode
  · exact (congrArg UInt8.toNat (hbelow (headerSize + 1) (by omega))).trans hbytes
  · rw [pdu_getU16, ← Nat.add_assoc, hwords, if_pos (by omega), h.lock_view]

theorem modbusClientFormatReadWriteMultipleRegsReq_request
    (readAddress readQuantity writeAddress : UInt16) (context : ModbusClientContext) (time : UInt32)
    (hw : writeQuantity.toNat ≤ 121) (value : Memory UInt16) :
    let c := (modbusClientFormatReadWriteMultipleRegsReq readAddress readQuantity writeAddress
      writeQuantity value context time).2
    Formatted c (10 + writeQuantity.toNat * 2) ∧
      pdu c.requestAdu 0 = functionReadWriteMultipleRegs ∧
      (pdu c.requestAdu).getU16 1 = readAddress ∧ (pdu c.requestAdu).getU16 3 = readQuantity ∧
      (pdu c.requestAdu).getU16 5 = writeAddress ∧ (pdu c.requestAdu).getU16 7 = writeQuantity ∧
      (pdu c.requestAdu 9).toNat = writeQuantity.toNat * 2 ∧
      ∀ i, i < writeQuantity.toNat → (pdu c.requestAdu).getU16 (10 + 2 * i) = value i := by
  have hcount : (UInt8.ofNat (writeQuantity.toNat * 2)).toNat = writeQuantity.toNat * 2 := by
    rw [UInt8.toNat_ofNat', Nat.mod_eq_of_lt (by omega)]
  set m : Memory UInt8 := Function.update (Memory.setU16 (Memory.setU16 (Memory.setU16
    (Memory.setU16 (Function.update context.requestAdu headerSize functionReadWriteMultipleRegs)
      (headerSize + 1) readAddress) (headerSize + 3) readQuantity) (headerSize + 5) writeAddress)
    (headerSize + 7) writeQuantity) (headerSize + 9) (UInt8.ofNat (writeQuantity.toNat * 2)) with hm
  have hc : modbusClientFormatReadWriteMultipleRegsReq readAddress readQuantity writeAddress
      writeQuantity value context time
      = modbusClientFormatMbapHeader (context.withRequest
        (copyRegs value (headerSize + 10) writeQuantity.toNat 0 m))
        (10 + writeQuantity.toNat * 2) time := by
    simp only [modbusClientFormatReadWriteMultipleRegsReq, hcount]
    rfl
  obtain ⟨hformatted, hpdu⟩ := modbusClientFormatMbapHeader_formatted (context.withRequest
    (copyRegs value (headerSize + 10) writeQuantity.toNat 0 m))
    (n := 10 + writeQuantity.toNat * 2) (by omega) (by simp only [maxPduSize]; omega) time
  have hbelow : ∀ i, i < 10 →
      pdu (copyRegs value (headerSize + 10) writeQuantity.toNat 0 m) i = pdu m i :=
    fun i hi => copyRegs_below value (by omega) _ _ _
  simp only [hc, hpdu]
  refine ⟨hformatted, (hbelow 0 (by decide)).trans ?_,
    (Memory.getU16_congr (hbelow 1 (by decide)) (hbelow 2 (by decide))).trans ?_,
    (Memory.getU16_congr (hbelow 3 (by decide)) (hbelow 4 (by decide))).trans ?_,
    (Memory.getU16_congr (hbelow 5 (by decide)) (hbelow 6 (by decide))).trans ?_,
    (Memory.getU16_congr (hbelow 7 (by decide)) (hbelow 8 (by decide))).trans ?_,
    (congrArg UInt8.toNat ((hbelow 9 (by decide)).trans ?_)).trans hcount, fun i hi => ?_⟩
  · simp [hm, Memory.setU16_apply, headerSize]
  · simp [hm, Memory.getU16, Memory.setU16_apply, headerSize]
  · simp [hm, Memory.getU16, Memory.setU16_apply, headerSize]
  · simp [hm, Memory.getU16, Memory.setU16_apply, headerSize]
  · simp [hm, Memory.getU16, Memory.setU16_apply, headerSize]
  · simp [hm, headerSize]
  · rw [pdu_getU16, ModbusClientContext.withRequest_requestAdu, ← Nat.add_assoc, copyRegs_getU16,
      if_pos (by omega)]

variable (h : ServesTable settings view)
include h

theorem serves_readWriteMultipleRegs {request : Memory UInt8} {n : ℕ} {table : Table}
    {values : ℕ → UInt16} (hn : n = 10 + writeQuantity.toNat * 2)
    (hcode : request 0 = functionReadWriteMultipleRegs) (hread : request.getU16 1 = readAddress)
    (hreads : request.getU16 3 = readQuantity) (hwrite : request.getU16 5 = writeAddress)
    (hwrites : request.getU16 7 = writeQuantity)
    (hcount : (request 9).toNat = writeQuantity.toNat * 2)
    (hvalues : ∀ i, i < writeQuantity.toNat → request.getU16 (10 + 2 * i) = values i)
    (hr : 1 ≤ readQuantity.toNat ∧ readQuantity.toNat ≤ 125)
    (hw : 1 ≤ writeQuantity.toNat ∧ writeQuantity.toNat ≤ 121)
    (hrange : writeAddress.toNat + writeQuantity.toNat ≤ 65536) :
    Serves settings view request n (2 + readQuantity.toNat * 2)
      (CarriesRegs functionReadWriteMultipleRegs readQuantity.toNat fun i =>
        table.regs (readAddress + UInt16.ofNat i)) table
      (table.setRegs writeAddress writeQuantity.toNat values) := by
  refine serves_of_dispatch (by omega) fun connection w r hagree hpos htable => ?_
  have hr0 : r 0 = functionReadWriteMultipleRegs := (hagree 0 (by omega)).trans hcode
  have hsame : table.setRegs writeAddress writeQuantity.toNat values
      = (view w.user).setRegs writeAddress writeQuantity.toNat fun i => r.getU16 (10 + 2 * i) := by
    rw [htable]
    refine Table.setRegs_congr fun i hi => ?_
    rw [← hvalues i hi, hagree.getU16 (by omega)]
  rw [dispatch_readWriteMultipleRegs settings hr0, hsame, ← htable, ← hr0]
  exact modbusServerProcessReadWriteMultipleRegsReq_table h hpos r n w hn.ge
    ((hagree.getU16 (by omega)).trans hread) ((hagree.getU16 (by omega)).trans hreads)
    ((hagree.getU16 (by omega)).trans hwrite) ((hagree.getU16 (by omega)).trans hwrites)
    ((congrArg UInt8.toNat (hagree 9 (by omega))).trans hcount) hr hw hrange

/-- What the call returns: the registers from before the write. -/
theorem readWriteMultipleRegs_completes {s : Calling (Loopback σ) (Memory UInt16)}
    (readAddress : UInt16) (writeValue : Memory UInt16) (hready : Ready settings s.toClient)
    (hr : 1 ≤ readQuantity.toNat ∧ readQuantity.toNat ≤ 125)
    (hw : 1 ≤ writeQuantity.toNat ∧ writeQuantity.toNat ≤ 121)
    (hrange : writeAddress.toNat + writeQuantity.toNat ≤ 65536) :
    Completes settings view
      (modbusClientReadWriteMultipleRegs (Loopback.api settings) readAddress readQuantity
        writeAddress writeQuantity writeValue) s
      (HoldsRegs (fun i => (view s.net.world.user).regs (readAddress + UInt16.ofNat i))
        readQuantity.toNat s.value)
      ((view s.net.world.user).setRegs writeAddress writeQuantity.toNat writeValue) := by
  obtain ⟨hformatted, hcode, hread, hreads, hwrite, hwrites, hcount, hvalues⟩ :=
    modbusClientFormatReadWriteMultipleRegsReq_request readAddress readQuantity writeAddress
      s.context ((Loopback.api settings).osGetSystemTime s.net) hw.2 writeValue
  refine completes_run ⟨hr, hw⟩ ?_
  exact completes_of_serves settings _ hready rfl rfl hformatted
    (serves_readWriteMultipleRegs h rfl hcode hread hreads hwrite hwrites hcount hvalues hr hw
      hrange)
    rfl hcode (by decide) (fun p hp => hp.functionCode_eq.trans hcode.symm) (by omega)
    (by simp only [maxPduSize]; omega) fun context response hresponse hlen hagree =>
      parseRegsResp_regs hresponse hlen hagree s.value

/-- **Read/Write Multiple Registers.** The call returns the registers as they are after the write
exactly if the write gives no register of the read range a new value. -/
theorem readWriteMultipleRegs_iff {s : Calling (Loopback σ) (Memory UInt16)}
    (readAddress readQuantity writeAddress writeQuantity : UInt16) (writeValue : Memory UInt16)
    (hready : Ready settings s.toClient)
    (hr : 1 ≤ readQuantity.toNat ∧ readQuantity.toNat ≤ 125)
    (hw : 1 ≤ writeQuantity.toNat ∧ writeQuantity.toNat ≤ 121)
    (hreadRange : readAddress.toNat + readQuantity.toNat ≤ 65536)
    (hwriteRange : writeAddress.toNat + writeQuantity.toNat ≤ 65536) :
    let table := view s.net.world.user
    let written := table.setRegs writeAddress writeQuantity.toNat writeValue
    Completes settings view
        (modbusClientReadWriteMultipleRegs (Loopback.api settings) readAddress readQuantity
          writeAddress writeQuantity writeValue) s
        (HoldsRegs (fun i => written.regs (readAddress + UInt16.ofNat i)) readQuantity.toNat s.value)
        written ↔
      ∀ i j, i < readQuantity.toNat → j < writeQuantity.toNat →
        readAddress.toNat + i = writeAddress.toNat + j →
        table.regs (readAddress + UInt16.ofNat i) = writeValue j := by
  intro table written
  have hreads := readWriteMultipleRegs_completes h readAddress writeValue hready hr hw hwriteRange
  have hat : ∀ i, i < readQuantity.toNat →
      (readAddress + UInt16.ofNat i).toNat = readAddress.toNat + i :=
    fun i hi => Table.toNat_add_ofNat (by omega)
  constructor
  · intro hasked i j hi hj hij
    obtain ⟨value, hread, hvalue⟩ := hreads.both hasked
    have hsame : table.regs (readAddress + UInt16.ofNat i)
        = written.regs (readAddress + UInt16.ofNat i) := hread.congr_iff.1 hvalue i hi
    simp only [written, Table.setRegs, hat i hi] at hsame
    rw [hsame, if_pos (by omega), hij, Nat.add_sub_cancel_left]
  · intro hkept
    refine hreads.imp fun value hread => hread.congr_iff.2 fun i hi => ?_
    simp only [written, Table.setRegs, hat i hi]
    by_cases hin : writeAddress.toNat ≤ readAddress.toNat + i ∧
        readAddress.toNat + i < writeAddress.toNat + writeQuantity.toNat
    · rw [if_pos hin]
      exact hkept i (readAddress.toNat + i - writeAddress.toNat) hi (by omega) (by omega)
    · rw [if_neg hin]

end ReadWrite

/-- A client like `tableClient` that is about to read registers. -/
def registerClient (t : Table) : Calling (Loopback Table) (Memory UInt16) where
  toClient := (tableClient t).toClient
  value := fun _ => 0xFFFF

/-- A table without anything in it. -/
def emptyTable : Table := ⟨fun _ => false, fun _ => 0⟩

theorem registerClient_ready (t : Table) : Ready (tableSettings 17) (registerClient t).toClient :=
  ⟨rfl, .inr (.inr rfl), rfl, rfl⟩

/-- The value 5 is written to register 10, and the read of registers 10 and 11 in the same request
returns zeros. -/
theorem readWriteMultipleRegs_overlap :
    ¬ Completes (tableSettings 17) id
      (modbusClientReadWriteMultipleRegs (Loopback.api (tableSettings 17)) 10 2 10 1 fun _ => 5)
      (registerClient emptyTable)
      (HoldsRegs (fun i => (emptyTable.setRegs 10 1 fun _ => 5).regs (10 + UInt16.ofNat i)) 2
        (fun _ => 0xFFFF))
      (emptyTable.setRegs 10 1 fun _ => 5) := by
  intro hasked
  obtain ⟨value, hread, hvalue⟩ := (readWriteMultipleRegs_completes (tableSettings_serves 17) 10
    (fun _ => 5) (registerClient_ready emptyTable) (by decide) (by decide) (by decide)).both hasked
  exact absurd (hread.congr_iff.1 hvalue 0 (by decide)) (by decide)

/-- Registers 10 to 14 are read while registers 15 to 17 are written. -/
theorem readWriteMultipleRegs_iff_apart :
    Completes (tableSettings 17) id
      (modbusClientReadWriteMultipleRegs (Loopback.api (tableSettings 17)) 10 5 15 3 fun _ => 5)
      (registerClient emptyTable)
      (HoldsRegs (fun i => (emptyTable.setRegs 15 3 fun _ => 5).regs (10 + UInt16.ofNat i)) 5
        (fun _ => 0xFFFF))
      (emptyTable.setRegs 15 3 fun _ => 5) :=
  (readWriteMultipleRegs_iff (tableSettings_serves 17) 10 5 15 3 (fun _ => 5)
    (registerClient_ready emptyTable) (by decide) (by decide) (by decide) (by decide)).2
    fun i j hi hj hij => by
      have hi' : i < 5 := hi
      have hij' : 10 + i = 15 + j := hij
      omega

end Modbus
