import CycloneTcp.Modbus.ServerWrites

/-! # The addresses a request touches

A request names a first address and a quantity, and the handlers pass `address + i` to callbacks that
take 16 bits. `Extends P w w'` says that the application has been called on the way from `w` to `w'`,
with calls that all satisfy `P`. As long as the range of a request ends within the address space, the
calls stay in the range; nothing in the handlers looks at where it ends (`staysInRange_iff`). -/

set_option autoImplicit false

namespace Modbus

open Loops

/-! ## The record of calls -/

section Calls

variable {σ : Type*}

/-- The application has been called, and all of the calls satisfy `P`. -/
def Extends (P : Invocation → Prop) (w w' : ServerWorld σ) : Prop :=
  ∃ new, w'.calls = w.calls ++ new ∧ ∀ call ∈ new, P call

variable {P : Invocation → Prop} {w w' w'' : ServerWorld σ}

theorem Extends.refl (w : ServerWorld σ) : Extends P w w := ⟨[], by simp, by simp⟩

theorem Extends.trans (h : Extends P w w') (h' : Extends P w' w'') : Extends P w w'' := by
  obtain ⟨new, heq, hnew⟩ := h
  obtain ⟨new', heq', hnew'⟩ := h'
  refine ⟨new ++ new', by rw [heq', heq, List.append_assoc], fun call hcall => ?_⟩
  rcases List.mem_append.1 hcall with hcall | hcall
  · exact hnew call hcall
  · exact hnew' call hcall

theorem extends_invoke {call : Invocation} (h : P call) (user : σ) :
    Extends P w (w.invoke call user) :=
  ⟨[call], rfl, fun _ hcall => List.mem_singleton.1 hcall ▸ h⟩

variable (settings : ModbusServerSettings σ)

theorem modbusServerLock_extends (h : P .lock) (w : ServerWorld σ) :
    Extends P w (modbusServerLock settings w) := by
  unfold modbusServerLock
  split
  · exact extends_invoke h _
  · exact .refl w

theorem modbusServerUnlock_extends (h : P .unlock) (w : ServerWorld σ) :
    Extends P w (modbusServerUnlock settings w) := by
  unfold modbusServerUnlock
  split
  · exact extends_invoke h _
  · exact .refl w

theorem modbusServerReadCoil_extends {a : UInt16} (h : P (.readCoil a)) (w : ServerWorld σ) :
    Extends P w (modbusServerReadCoil settings a w).2.2 := by
  unfold modbusServerReadCoil
  split
  · exact extends_invoke h _
  · exact .refl w

theorem modbusServerReadReg_extends {a : UInt16} (h : P (.readReg a)) (w : ServerWorld σ) :
    Extends P w (modbusServerReadReg settings a w).2.2 := by
  unfold modbusServerReadReg
  split
  · exact extends_invoke h _
  · exact .refl w

theorem modbusServerWriteCoil_extends {a : UInt16} {b commit : Bool} (h : P (.writeCoil a b commit))
    (w : ServerWorld σ) : Extends P w (modbusServerWriteCoil settings a b commit w).2 := by
  unfold modbusServerWriteCoil
  split
  · exact extends_invoke h _
  · exact .refl w

theorem modbusServerWriteReg_extends {a v : UInt16} {commit : Bool} (h : P (.writeReg a v commit))
    (w : ServerWorld σ) : Extends P w (modbusServerWriteReg settings a v commit w).2 := by
  unfold modbusServerWriteReg
  split
  · exact extends_invoke h _
  · exact .refl w

/-! The loops call the application for the addresses of their range. -/

theorem readCoils_extends {address : UInt16} {quantity : ℕ}
    (h : ∀ i, i < quantity → P (.readCoil (address + UInt16.ofNat i))) (base : ℕ)
    (response : Memory UInt8) (w : ServerWorld σ) :
    Extends P w (readCoils settings address base quantity 0 response w).2.2 := by
  rw [readCoils_eq_loop]
  exact loop_invariant (I := fun s : Memory UInt8 × ServerWorld σ => Extends P w s.2)
    (fun j s _ hj hs => hs.trans (modbusServerReadCoil_extends settings (h j (by omega)) s.2))
    (.refl w)

theorem readRegs_extends {address : UInt16} {quantity : ℕ}
    (h : ∀ i, i < quantity → P (.readReg (address + UInt16.ofNat i))) (base : ℕ)
    (response : Memory UInt8) (w : ServerWorld σ) :
    Extends P w (readRegs settings address base quantity 0 response w).2.2 := by
  rw [readRegs_eq_loop]
  exact loop_invariant (I := fun s : Memory UInt8 × ServerWorld σ => Extends P w s.2)
    (fun j s _ hj hs => hs.trans (modbusServerReadReg_extends settings (h j (by omega)) s.2))
    (.refl w)

theorem writeCoilsTwoPhase_extends {address : UInt16} {quantity : ℕ}
    (h : ∀ i b commit, i < quantity → P (.writeCoil (address + UInt16.ofNat i) b commit))
    (request : Memory UInt8) (base : ℕ) (w : ServerWorld σ) :
    Extends P w (writeCoilsTwoPhase settings address request base quantity w).2 := by
  have hloop : ∀ (commit : Bool) (w : ServerWorld σ),
      Extends P w (writeCoils settings address request base commit quantity 0 w).2 := by
    intro commit w
    rw [writeCoils_eq_loop]
    exact loop_invariant (I := Extends P w)
      (fun j t _ hj ht => ht.trans (modbusServerWriteCoil_extends settings
        (h j _ commit (by omega)) t)) (.refl w)
  simp only [writeCoilsTwoPhase]
  split
  · exact (hloop false w).trans (hloop true _)
  · exact hloop false w

theorem writeRegsTwoPhase_extends {address : UInt16} {quantity : ℕ}
    (h : ∀ i v commit, i < quantity → P (.writeReg (address + UInt16.ofNat i) v commit))
    (request : Memory UInt8) (base : ℕ) (w : ServerWorld σ) :
    Extends P w (writeRegsTwoPhase settings address request base quantity w).2 := by
  have hloop : ∀ (commit : Bool) (w : ServerWorld σ),
      Extends P w (writeRegs settings address request base commit quantity 0 w).2 := by
    intro commit w
    rw [writeRegs_eq_loop]
    exact loop_invariant (I := Extends P w)
      (fun j t _ hj ht => ht.trans (modbusServerWriteReg_extends settings
        (h j _ commit (by omega)) t)) (.refl w)
  simp only [writeRegsTwoPhase]
  split
  · exact (hloop false w).trans (hloop true _)
  · exact hloop false w

end Calls

/-! ## Ranges -/

/-- The function codes of the requests for several items. -/
def multiItemCodes : List UInt8 :=
  [functionReadCoils, functionReadDiscreteInputs, functionReadHoldingRegs, functionReadInputRegs,
    functionWriteMultipleCoils, functionWriteMultipleRegs, functionReadWriteMultipleRegs]

/-- The address lies in the `quantity` addresses from `address` on. -/
def InRange (address : UInt16) (quantity : ℕ) (a : UInt16) : Prop :=
  address.toNat ≤ a.toNat ∧ a.toNat < address.toNat + quantity

/-- The call has an address of the request. -/
def Invocation.Within (request : Memory UInt8) : Invocation → Prop
  | .lock | .unlock => True
  | .readCoil a | .readReg a | .writeCoil a _ _ =>
      InRange (request.getU16 1) (request.getU16 3).toNat a
  | .writeReg a _ _ =>
      if request 0 = functionReadWriteMultipleRegs then
        InRange (request.getU16 5) (request.getU16 7).toNat a
      else InRange (request.getU16 1) (request.getU16 3).toNat a

/-- The call changes the table. -/
def Invocation.Commits : Invocation → Prop
  | .writeCoil _ _ commit | .writeReg _ _ commit => commit = true
  | _ => False

/-- A range of the request ends behind the last address. -/
def Overruns (request : Memory UInt8) : Prop :=
  65536 < (request.getU16 1).toNat + (request.getU16 3).toNat ∨
    request 0 = functionReadWriteMultipleRegs ∧
      65536 < (request.getU16 5).toNat + (request.getU16 7).toNat

instance (request : Memory UInt8) : Decidable (Overruns request) :=
  inferInstanceAs (Decidable (_ ∨ _))

/-- The request passes the checks of its handler. -/
def AcceptedRequest (request : Memory UInt8) (length : ℕ) : Prop :=
  let quantity := (request.getU16 3).toNat
  if request 0 = functionReadCoils ∨ request 0 = functionReadDiscreteInputs then
    5 ≤ length ∧ 1 ≤ quantity ∧ quantity ≤ 2000
  else if request 0 = functionReadHoldingRegs ∨ request 0 = functionReadInputRegs then
    5 ≤ length ∧ 1 ≤ quantity ∧ quantity ≤ 125
  else if request 0 = functionWriteMultipleCoils then
    6 ≤ length ∧ (request 5).toNat ≤ length - 6 ∧ (1 ≤ quantity ∧ quantity ≤ 2000) ∧
      (request 5).toNat = coilBytes quantity
  else if request 0 = functionWriteMultipleRegs then
    6 ≤ length ∧ (request 5).toNat ≤ length - 6 ∧ (1 ≤ quantity ∧ quantity ≤ 123) ∧
      (request 5).toNat = quantity * 2
  else
    10 ≤ length ∧ (request 9).toNat ≤ length - 6 ∧ (1 ≤ quantity ∧ quantity ≤ 125) ∧
      (1 ≤ (request.getU16 7).toNat ∧ (request.getU16 7).toNat ≤ 121) ∧
      (request 9).toNat = (request.getU16 7).toNat * 2

instance (request : Memory UInt8) (length : ℕ) : Decidable (AcceptedRequest request length) := by
  unfold AcceptedRequest
  infer_instance

/-- The calls stay in the ranges of the request, and a request whose range ends behind the last address
is answered with an exception and commits nothing. -/
def StaysInRange {σ : Type*} (request : Memory UInt8) (w : ServerWorld σ) (o : Outcome σ) : Prop :=
  ∃ new, o.2.2.calls = w.calls ++ new ∧ (∀ call ∈ new, call.Within request) ∧
    (Overruns request → isException o.1 = true ∧ ∀ call ∈ new, ¬ call.Commits)

theorem inRange_add {address : UInt16} {quantity : ℕ} (h : address.toNat + quantity ≤ 65536) {i : ℕ}
    (hi : i < quantity) : InRange address quantity (address + UInt16.ofNat i) := by
  have hadd : (address + UInt16.ofNat i).toNat = address.toNat + i :=
    Table.toNat_add_ofNat (by omega)
  constructor
  · omega
  · omega

section Handlers

variable {σ : Type*} (settings : ModbusServerSettings σ) (connection : ModbusClientConnection)
  {request : Memory UInt8} (length : ℕ) (w : ServerWorld σ)

theorem Extends.ite {P : Invocation → Prop} {p : Prop} [Decidable p] {a b : Outcome σ}
    (ha : p → Extends P w a.2.2) (hb : ¬p → Extends P w b.2.2) :
    Extends P w (if p then a else b).2.2 := by
  by_cases h : p
  · rw [if_pos h]
    exact ha h
  · rw [if_neg h]
    exact hb h

/-- The end of a handler makes no more calls. -/
theorem Extends.report {P : Invocation → Prop} {w' : ServerWorld σ} (h : Extends P w w')
    (error : ErrorCode) (connection connection' : ModbusClientConnection) (n : ℕ) :
    Extends P w (if error ≠ .noError then (error, connection, w') else finish connection' n w').2.2 := by
  by_cases herror : error ≠ .noError
  · rw [if_pos herror]
    exact h
  · rw [if_neg herror]
    exact h

variable {P : Invocation → Prop} (hlock : P .lock ∧ P .unlock)
include hlock

/-- A section that is locked. -/
theorem Extends.locked {w' : ServerWorld σ} (h : Extends P (modbusServerLock settings w) w') :
    Extends P w (modbusServerUnlock settings w') :=
  ((modbusServerLock_extends settings hlock.1 w).trans h).trans
    (modbusServerUnlock_extends settings hlock.2 w')

theorem processReadBitsReq_extends
    (h : ∀ i, i < (request.getU16 3).toNat → P (.readCoil (request.getU16 1 + UInt16.ofNat i))) :
    Extends P w (processReadBitsReq settings connection request length w).2.2 := by
  refine .ite w (fun _ => .refl w) fun _ => ?_
  refine .ite w (fun _ => .refl w) fun _ => ?_
  exact .report w (.locked settings w hlock (readCoils_extends settings h _ _ _)) _ _ _ _

theorem processReadRegsReq_extends
    (h : ∀ i, i < (request.getU16 3).toNat → P (.readReg (request.getU16 1 + UInt16.ofNat i))) :
    Extends P w (processReadRegsReq settings connection request length w).2.2 := by
  refine .ite w (fun _ => .refl w) fun _ => ?_
  refine .ite w (fun _ => .refl w) fun _ => ?_
  exact .report w (.locked settings w hlock (readRegs_extends settings h _ _ _)) _ _ _ _

theorem modbusServerProcessWriteMultipleCoilsReq_extends
    (h : ∀ i b commit, i < (request.getU16 3).toNat →
      P (.writeCoil (request.getU16 1 + UInt16.ofNat i) b commit)) :
    Extends P w
      (modbusServerProcessWriteMultipleCoilsReq settings connection request length w).2.2 := by
  refine .ite w (fun _ => .refl w) fun _ => ?_
  refine .ite w (fun _ => .refl w) fun _ => ?_
  refine .ite w (fun _ => .refl w) fun _ => ?_
  refine .ite w (fun _ => .refl w) fun _ => ?_
  exact .report w (.locked settings w hlock (writeCoilsTwoPhase_extends settings h _ _ _)) _ _ _ _

theorem modbusServerProcessWriteMultipleRegsReq_extends
    (h : ∀ i v commit, i < (request.getU16 3).toNat →
      P (.writeReg (request.getU16 1 + UInt16.ofNat i) v commit)) :
    Extends P w
      (modbusServerProcessWriteMultipleRegsReq settings connection request length w).2.2 := by
  refine .ite w (fun _ => .refl w) fun _ => ?_
  refine .ite w (fun _ => .refl w) fun _ => ?_
  refine .ite w (fun _ => .refl w) fun _ => ?_
  refine .ite w (fun _ => .refl w) fun _ => ?_
  exact .report w (.locked settings w hlock (writeRegsTwoPhase_extends settings h _ _ _)) _ _ _ _

theorem modbusServerProcessReadWriteMultipleRegsReq_extends
    (hread : ∀ i, i < (request.getU16 3).toNat →
      P (.readReg (request.getU16 1 + UInt16.ofNat i)))
    (hwrite : ∀ i v commit, i < (request.getU16 7).toNat →
      P (.writeReg (request.getU16 5 + UInt16.ofNat i) v commit)) :
    Extends P w
      (modbusServerProcessReadWriteMultipleRegsReq settings connection request length w).2.2 := by
  refine .ite w (fun _ => .refl w) fun _ => ?_
  refine .ite w (fun _ => .refl w) fun _ => ?_
  refine .ite w (fun _ => .refl w) fun _ => ?_
  refine .ite w (fun _ => .refl w) fun _ => ?_
  refine .ite w (fun _ => .refl w) fun _ => ?_
  refine .report w (.locked settings w hlock ?_) _ _ _ _
  have hreads := fun response => readRegs_extends settings hread (headerSize + 2) response
    (modbusServerLock settings w)
  split
  · exact (hreads _).trans (writeRegsTwoPhase_extends settings hwrite _ _ _)
  · exact hreads _

omit hlock in
/-- The calls for a request whose ranges end within the address space. -/
theorem dispatch_extends (hcode : request 0 ∈ multiItemCodes) (hrange : ¬ Overruns request) :
    Extends (Invocation.Within request) w
      (dispatch settings connection request length w).2.2 := by
  obtain ⟨hfirst, hsecond⟩ := not_or.1 hrange
  rw [not_lt] at hfirst
  have hlock : Invocation.Within request .lock ∧ Invocation.Within request .unlock :=
    ⟨trivial, trivial⟩
  have hin : ∀ i, i < (request.getU16 3).toNat →
      InRange (request.getU16 1) (request.getU16 3).toNat (request.getU16 1 + UInt16.ofNat i) :=
    fun i hi => inRange_add hfirst hi
  simp only [multiItemCodes, List.mem_cons, List.not_mem_nil, or_false] at hcode
  rcases hcode with hcode | hcode | hcode | hcode | hcode | hcode | hcode
  · rw [dispatch_readBits settings (.inl hcode)]
    exact processReadBitsReq_extends settings connection length w hlock hin
  · rw [dispatch_readBits settings (.inr hcode)]
    exact processReadBitsReq_extends settings connection length w hlock hin
  · rw [dispatch_readRegs settings (.inl hcode)]
    exact processReadRegsReq_extends settings connection length w hlock hin
  · rw [dispatch_readRegs settings (.inr hcode)]
    exact processReadRegsReq_extends settings connection length w hlock hin
  · rw [dispatch_writeMultipleCoils settings hcode]
    exact modbusServerProcessWriteMultipleCoilsReq_extends settings connection length w hlock
      fun i _ _ hi => hin i hi
  · rw [dispatch_writeMultipleRegs settings hcode]
    refine modbusServerProcessWriteMultipleRegsReq_extends settings connection length w hlock
      fun i _ _ hi => ?_
    rw [Invocation.Within, hcode, if_neg (by decide)]
    exact hin i hi
  · rw [dispatch_readWriteMultipleRegs settings hcode]
    refine modbusServerProcessReadWriteMultipleRegsReq_extends settings connection length w hlock
      hin fun i _ _ hi => ?_
    rw [Invocation.Within, hcode, if_pos rfl]
    exact inRange_add (not_lt.1 fun hlt => hsecond ⟨hcode, hlt⟩) hi

end Handlers

/-! ## Requests that overrun the address space -/

section Serves

variable {σ : Type*} {settings : ModbusServerSettings σ} {view : σ → Table}
  (h : ServesTable settings view) {connection : ModbusClientConnection}
  (hpos : headerSize ≤ connection.requestAduPos) {request : Memory UInt8} {length : ℕ}
include h hpos

theorem modbusServerProcessWriteMultipleCoilsReq_ok (hlength : 6 ≤ length)
    (hbytes : (request 5).toNat ≤ length - 6)
    (hquantity : 1 ≤ (request.getU16 3).toNat ∧ (request.getU16 3).toNat ≤ 2000)
    (hcount : (request 5).toNat = coilBytes (request.getU16 3).toNat) (w : ServerWorld σ) :
    (modbusServerProcessWriteMultipleCoilsReq settings connection request length w).1
      = .noError := by
  rw [modbusServerProcessWriteMultipleCoilsReq, if_neg (by omega), if_neg (by omega),
    if_neg (by omega), if_neg (by omega)]
  simp only [writeCoilsTwoPhase_ok h, ne_eq, not_true, if_false, finish]
  rw [modbusServerFormatMbapHeader_answering _ _ (by exact hpos)]

theorem modbusServerProcessWriteMultipleRegsReq_ok (hlength : 6 ≤ length)
    (hbytes : (request 5).toNat ≤ length - 6)
    (hquantity : 1 ≤ (request.getU16 3).toNat ∧ (request.getU16 3).toNat ≤ 123)
    (hcount : (request 5).toNat = (request.getU16 3).toNat * 2) (w : ServerWorld σ) :
    (modbusServerProcessWriteMultipleRegsReq settings connection request length w).1
      = .noError := by
  rw [modbusServerProcessWriteMultipleRegsReq, if_neg (by omega), if_neg (by omega),
    if_neg (by omega), if_neg (by omega)]
  simp only [writeRegsTwoPhase_ok h, ne_eq, not_true, if_false, finish]
  rw [modbusServerFormatMbapHeader_answering _ _ (by exact hpos)]

/-- Where the callbacks never fail, every request that passes its checks is answered with a normal
response. -/
theorem dispatch_ok (hcode : request 0 ∈ multiItemCodes) (haccepted : AcceptedRequest request length)
    (w : ServerWorld σ) : (dispatch settings connection request length w).1 = .noError := by
  have hbits : (5 ≤ length ∧ 1 ≤ (request.getU16 3).toNat ∧ (request.getU16 3).toNat ≤ 2000) →
      (processReadBitsReq settings connection request length w).1 = .noError := fun hok =>
    (processReadBitsReq_table h hpos request length w hok.1 rfl rfl hok.2.1 hok.2.2).noError
  have hregs : (5 ≤ length ∧ 1 ≤ (request.getU16 3).toNat ∧ (request.getU16 3).toNat ≤ 125) →
      (processReadRegsReq settings connection request length w).1 = .noError := fun hok =>
    (processReadRegsReq_table h hpos request length w hok.1 rfl rfl hok.2.1 hok.2.2).noError
  unfold AcceptedRequest at haccepted
  simp only [multiItemCodes, List.mem_cons, List.not_mem_nil, or_false] at hcode
  rcases hcode with hcode | hcode | hcode | hcode | hcode | hcode | hcode <;>
    rw [hcode] at haccepted
  · rw [dispatch_readBits settings (.inl hcode)]
    exact hbits haccepted
  · rw [dispatch_readBits settings (.inr hcode)]
    exact hbits haccepted
  · rw [dispatch_readRegs settings (.inl hcode)]
    exact hregs haccepted
  · rw [dispatch_readRegs settings (.inr hcode)]
    exact hregs haccepted
  · obtain ⟨hlength, hbytes, hquantity, hcount⟩ := haccepted
    rw [dispatch_writeMultipleCoils settings hcode]
    exact modbusServerProcessWriteMultipleCoilsReq_ok h hpos hlength hbytes hquantity hcount w
  · obtain ⟨hlength, hbytes, hquantity, hcount⟩ := haccepted
    rw [dispatch_writeMultipleRegs settings hcode]
    exact modbusServerProcessWriteMultipleRegsReq_ok h hpos hlength hbytes hquantity hcount w
  · obtain ⟨hlength, hbytes, hread, hwrite, hcount⟩ := haccepted
    rw [dispatch_readWriteMultipleRegs settings hcode]
    exact modbusServerProcessReadWriteMultipleRegsReq_ok h hpos hlength hbytes hread hwrite hcount w

end Serves

/-- **A request stays in its range** with every application just when its range ends within the
address space. -/
theorem staysInRange_iff {request : Memory UInt8} {length : ℕ} (hcode : request 0 ∈ multiItemCodes)
    (haccepted : AcceptedRequest request length) :
    (∀ (σ : Type) (settings : ModbusServerSettings σ) (connection : ModbusClientConnection),
      headerSize ≤ connection.requestAduPos → ∀ w : ServerWorld σ,
        StaysInRange request w (dispatch settings connection request length w)) ↔
    ¬ Overruns request := by
  constructor
  · intro hall hover
    let connection : ModbusClientConnection :=
      { acceptedConnection 0 0 with requestAduPos := headerSize }
    have hpos : headerSize ≤ connection.requestAduPos := Nat.le_refl _
    let w : ServerWorld Table := ⟨⟨fun _ => false, fun _ => 0⟩, [], []⟩
    have hok := dispatch_ok (tableSettings_serves 0) hpos hcode haccepted w
    obtain ⟨_, _, _, hexception⟩ := hall Table (tableSettings 0) connection hpos w
    have hexc := (hexception hover).1
    rw [hok] at hexc
    exact absurd hexc (by decide)
  · intro hrange σ settings connection _ w
    obtain ⟨new, hcalls, hwithin⟩ := dispatch_extends settings connection length w hcode hrange
    exact ⟨new, hcalls, hwithin, fun hover => absurd hover hrange⟩

/-- A request for the last two coils. -/
theorem staysInRange_lastCoils :
    (∀ (σ : Type) (settings : ModbusServerSettings σ) (connection : ModbusClientConnection),
      headerSize ≤ connection.requestAduPos → ∀ w : ServerWorld σ,
        StaysInRange (bytesOf [15, 0xFF, 0xFE, 0, 2, 1, 3]) w
          (dispatch settings connection (bytesOf [15, 0xFF, 0xFE, 0, 2, 1, 3]) 7 w)) ↔
    ¬ Overruns (bytesOf [15, 0xFF, 0xFE, 0, 2, 1, 3]) :=
  staysInRange_iff (by decide) (by decide)

/-- A request to force the last coil and the one behind it on forces coil 0. -/
theorem writeBehindLastCoil_not_inRange :
    let request := bytesOf [15, 0xFF, 0xFF, 0, 2, 1, 3]
    let w : ServerWorld Table := ⟨⟨fun _ => false, fun _ => 0⟩, [], []⟩
    let o := dispatch (tableSettings 0) { acceptedConnection 0 0 with requestAduPos := 14 } request 7 w
    o.1 = .noError ∧ .writeCoil 0 true true ∈ o.2.2.calls ∧ o.2.2.user.coils 0 = true ∧
      ¬ StaysInRange request w o := by
  refine ⟨by decide, by decide, by decide, ?_⟩
  rintro ⟨_, _, _, hexception⟩
  exact absurd (hexception (by decide)).1 (by decide)

end Modbus
