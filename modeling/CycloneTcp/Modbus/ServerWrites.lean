import CycloneTcp.Modbus.EndToEnd
import CycloneTcp.Modbus.ServerIsolation
import CycloneTcp.Modbus.ServerLoops

/-! # Requests that write several entries

The handlers for such requests call the application twice for each entry: a first loop validates all
of them, and only if it succeeds does a second loop commit them. `TwoPhase` says what the callbacks
contribute to that: a validation changes nothing, and a commit of what has been validated succeeds.
With such callbacks a request is carried out as a whole or not at all (`allOrNothing_iff`), except
that Read/Write Multiple Registers writes entries for which the request holds no value. -/

set_option autoImplicit false

namespace Modbus

open Loops

/-- The callbacks work on the table `view s` in two phases. A call that reports an error has written
nothing, and one that commits successfully has set its entry. -/
structure TwoPhase {σ : Type*} (settings : ModbusServerSettings σ) (view : σ → Table) : Prop where
  lock : ∀ f ∈ settings.lockCallback, ∀ s, view (f s) = view s
  unlock : ∀ s, view (settings.unlockCallback s) = view s
  readReg : ∀ f ∈ settings.readRegCallback, ∀ a s,
    view (f a s).2.2 = view s ∧ ((f a s).1 = .noError → (f a s).2.1 = (view s).regs a)
  validateCoil : ∀ f ∈ settings.writeCoilCallback, ∀ a b s, view (f a b false s).2 = view s
  commitCoil : ∀ f ∈ settings.writeCoilCallback, ∀ a b s, view (f a b true s).2
    = if (f a b true s).1 = .noError then (view s).setCoil a b else view s
  validCoil : ∀ f ∈ settings.writeCoilCallback, ∀ a b s s',
    (f a b false s).1 = .noError → (f a b true s').1 = .noError
  validateReg : ∀ f ∈ settings.writeRegValueCallback, ∀ a v s, view (f a v false s).2 = view s
  commitReg : ∀ f ∈ settings.writeRegValueCallback, ∀ a v s, view (f a v true s).2
    = if (f a v true s).1 = .noError then (view s).setReg a v else view s
  validReg : ∀ f ∈ settings.writeRegValueCallback, ∀ a v s s',
    (f a v false s).1 = .noError → (f a v true s').1 = .noError

/-! ## What a request asks for -/

/-- Bit `n` of the array at `base`, if the PDU of `length` bytes holds it. -/
def bitOf (request : Memory UInt8) (length base n : ℕ) : Option Bool :=
  if base + n / 8 < length then some (request.testBit base n) else none

/-- Word `n` of the array at `base`, if the PDU of `length` bytes holds it. -/
def wordOf (request : Memory UInt8) (length base n : ℕ) : Option UInt16 :=
  if base + 2 * n + 2 ≤ length then some (request.getU16 (base + 2 * n)) else none

/-- The `quantity` entries from `address` on, modulo 2 ^ 16, have the values `values`, and no other entry
has changed. -/
def SetsRange {β : Type*} (address : UInt16) (quantity : ℕ) (values : ℕ → Option β)
    (entries entries' : UInt16 → β) : Prop :=
  ∀ a, if (a - address).toNat < quantity then values (a - address).toNat = some (entries' a)
    else entries' a = entries a

/-- The coils of a range have been set, and nothing else has changed. -/
def WritesCoils (address : UInt16) (quantity : ℕ) (states : ℕ → Option Bool) (t t' : Table) : Prop :=
  SetsRange address quantity states t.coils t'.coils ∧ t'.regs = t.regs

/-- The registers of a range have been set, and nothing else has changed. -/
def WritesRegs (address : UInt16) (quantity : ℕ) (values : ℕ → Option UInt16) (t t' : Table) : Prop :=
  SetsRange address quantity values t.regs t'.regs ∧ t'.coils = t.coils

/-- The function codes of the requests that may write more than they can check at once. -/
def multiWriteCodes : List UInt8 :=
  [functionWriteMultipleCoils, functionWriteMultipleRegs, functionMaskWriteReg,
    functionReadWriteMultipleRegs]

/-- The request has been carried out. -/
def Requested (request : Memory UInt8) (length : ℕ) (t t' : Table) : Prop :=
  if request 0 = functionWriteMultipleCoils then
    WritesCoils (request.getU16 1) (request.getU16 3).toNat (bitOf request length 6) t t'
  else if request 0 = functionWriteMultipleRegs then
    WritesRegs (request.getU16 1) (request.getU16 3).toNat (wordOf request length 6) t t'
  else if request 0 = functionMaskWriteReg then
    t' = t.setReg (request.getU16 1)
      ((t.regs (request.getU16 1) &&& request.getU16 3) ||| (request.getU16 5 &&& ~~~request.getU16 3))
  else
    WritesRegs (request.getU16 5) (request.getU16 7).toNat (wordOf request length 10) t t'

/-- The request has been carried out as a whole or not at all. -/
structure AllOrNothing {σ : Type*} (view : σ → Table) (request : Memory UInt8) (length : ℕ)
    (w : ServerWorld σ) (o : Outcome σ) : Prop where
  nothing : o.1 ≠ .noError → view o.2.2.user = view w.user
  all : o.1 = .noError → Requested request length (view w.user) (view o.2.2.user)

/-! ## Ranges -/

section Ranges

variable {β : Type*} {address : UInt16} {values : ℕ → Option β} {entries entries' : UInt16 → β}

theorem eq_add_ofNat_iff {a address : UInt16} {i : ℕ} (hi : i < 65536) :
    a = address + UInt16.ofNat i ↔ (a - address).toNat = i := by
  have ha := a.toNat_lt
  have haddress := address.toNat_lt
  constructor
  · rintro rfl
    rw [UInt16.toNat_sub, UInt16.toNat_add, UInt16.toNat_ofNat']
    omega
  · intro h
    apply UInt16.toNat_inj.1
    rw [← h, UInt16.ofNat_toNat, UInt16.toNat_add, UInt16.toNat_sub]
    omega

theorem setsRange_zero (address : UInt16) (values : ℕ → Option β) (entries : UInt16 → β) :
    SetsRange address 0 values entries entries := by
  intro a
  rw [if_neg (by omega)]

/-- One more entry is set. -/
theorem SetsRange.succ {n : ℕ} {v : β} (h : SetsRange address n values entries entries')
    (hn : n < 65536) (hv : values n = some v) :
    SetsRange address (n + 1) values entries
      (Function.update entries' (address + UInt16.ofNat n) v) := by
  intro a
  have ha := h a
  by_cases hthis : (a - address).toNat = n
  · have heq := (eq_add_ofNat_iff hn).2 hthis
    rw [if_pos (by omega), hthis, hv, heq, Function.update_self]
  · have hother : a ≠ address + UInt16.ofNat n := fun heq => hthis ((eq_add_ofNat_iff hn).1 heq)
    rw [Function.update_of_ne hother]
    by_cases hbelow : (a - address).toNat < n
    · rw [if_pos hbelow] at ha
      rwa [if_pos (by omega)]
    · rw [if_neg hbelow] at ha
      rwa [if_neg (by omega)]

theorem SetsRange.congr {values' : ℕ → Option β} {n : ℕ}
    (h : SetsRange address n values entries entries')
    (hvalues : ∀ i, i < n → values' i = values i) :
    SetsRange address n values' entries entries' := by
  intro a
  have ha := h a
  by_cases hin : (a - address).toNat < n
  · rw [if_pos hin] at ha ⊢
    rw [hvalues _ hin, ha]
  · rwa [if_neg hin] at ha ⊢

end Ranges

/-! ## Two phases -/

section TwoPhase

variable {σ : Type*} {settings : ModbusServerSettings σ} {view : σ → Table}
  (h : TwoPhase settings view)

/-- A validation loop, and a commit loop if it has succeeded: `written n` says that the entries below
`n` have been written. -/
theorem twoPhase_all (view : σ → Table) {validate commit : ℕ → ServerWorld σ → ErrorCode × ServerWorld σ}
    {quantity : ℕ} (w : ServerWorld σ) (written : ℕ → Table → Prop) (hzero : written 0 (view w.user))
    (hvalidate : ∀ j t, view (validate j t).2.user = view t.user)
    (hcommit : ∀ j t w', j < quantity → (validate j w').1 = .noError → written j (view t.user) →
      (commit j t).1 = .noError ∧ written (j + 1) (view (commit j t).2.user))
    {r : ErrorCode × ServerWorld σ}
    (hr : r = if (loop .noError validate quantity 0 w).1 = .noError then
        loop .noError commit quantity 0 (loop .noError validate quantity 0 w).2
      else loop .noError validate quantity 0 w) :
    (r.1 ≠ .noError → view r.2.user = view w.user) ∧
      (r.1 = .noError → written quantity (view r.2.user)) := by
  have hkeep : view (loop .noError validate quantity 0 w).2.user = view w.user :=
    loop_invariant (I := fun t : ServerWorld σ => view t.user = view w.user)
      (fun j t _ _ ht => (hvalidate j t).trans ht) rfl
  by_cases hok : (loop .noError validate quantity 0 w).1 = .noError
  · rw [if_pos hok] at hr
    have hdone := loop_progress (I := fun n (t : ServerWorld σ) => written n (view t.user))
      (fun j t _ hj ht => by
        obtain ⟨w', hvalid⟩ := loop_ok hok (Nat.zero_le j) hj
        exact hcommit j t w' (by omega) hvalid ht)
      (s := (loop .noError validate quantity 0 w).2) (by rw [hkeep]; exact hzero)
    rw [← hr, Nat.zero_add] at hdone
    exact ⟨fun hne => absurd hdone.1 hne, fun _ => hdone.2⟩
  · rw [if_neg hok] at hr
    rw [hr]
    exact ⟨fun _ => hkeep, fun heq => absurd heq hok⟩

include h

theorem TwoPhase.lock_view (w : ServerWorld σ) :
    view (modbusServerLock settings w).user = view w.user := by
  unfold modbusServerLock
  split
  · next f hf => exact h.lock f hf _
  · rfl

theorem TwoPhase.unlock_view (w : ServerWorld σ) :
    view (modbusServerUnlock settings w).user = view w.user := by
  unfold modbusServerUnlock
  split
  · exact h.unlock _
  · rfl

theorem TwoPhase.readReg_view (a : UInt16) (w : ServerWorld σ) :
    view (modbusServerReadReg settings a w).2.2.user = view w.user ∧
      ((modbusServerReadReg settings a w).1 = .noError →
        (modbusServerReadReg settings a w).2.1 = (view w.user).regs a) := by
  unfold modbusServerReadReg
  split
  · next f hf => exact h.readReg f hf a w.user
  · exact ⟨rfl, nofun⟩

theorem TwoPhase.readRegs_view (address : UInt16) (base k i : ℕ) (response : Memory UInt8)
    (w : ServerWorld σ) :
    view (readRegs settings address base k i response w).2.2.user = view w.user := by
  rw [readRegs_eq_loop]
  exact loop_invariant (I := fun s : Memory UInt8 × ServerWorld σ => view s.2.user = view w.user)
    (fun j s _ _ hs => (h.readReg_view _ s.2).1.trans hs) rfl

theorem TwoPhase.validateCoil_view (a : UInt16) (b : Bool) (w : ServerWorld σ) :
    view (modbusServerWriteCoil settings a b false w).2.user = view w.user := by
  unfold modbusServerWriteCoil
  split
  · next f hf => exact h.validateCoil f hf a b w.user
  · rfl

theorem TwoPhase.commitCoil_view (a : UInt16) (b : Bool) (w : ServerWorld σ) :
    view (modbusServerWriteCoil settings a b true w).2.user
      = if (modbusServerWriteCoil settings a b true w).1 = .noError then (view w.user).setCoil a b
        else view w.user := by
  unfold modbusServerWriteCoil
  split
  · next f hf => exact h.commitCoil f hf a b w.user
  · rfl

theorem TwoPhase.commitCoil_ok {a : UInt16} {b : Bool} {w : ServerWorld σ}
    (hvalid : (modbusServerWriteCoil settings a b false w).1 = .noError) (w' : ServerWorld σ) :
    (modbusServerWriteCoil settings a b true w').1 = .noError := by
  unfold modbusServerWriteCoil at hvalid ⊢
  split at hvalid
  · next f hf => exact h.validCoil f hf a b _ _ hvalid
  · exact hvalid

theorem TwoPhase.validateReg_view (a v : UInt16) (w : ServerWorld σ) :
    view (modbusServerWriteReg settings a v false w).2.user = view w.user := by
  unfold modbusServerWriteReg
  split
  · next f hf => exact h.validateReg f hf a v w.user
  · rfl

theorem TwoPhase.commitReg_view (a v : UInt16) (w : ServerWorld σ) :
    view (modbusServerWriteReg settings a v true w).2.user
      = if (modbusServerWriteReg settings a v true w).1 = .noError then (view w.user).setReg a v
        else view w.user := by
  unfold modbusServerWriteReg
  split
  · next f hf => exact h.commitReg f hf a v w.user
  · rfl

theorem TwoPhase.commitReg_ok {a v : UInt16} {w : ServerWorld σ}
    (hvalid : (modbusServerWriteReg settings a v false w).1 = .noError) (w' : ServerWorld σ) :
    (modbusServerWriteReg settings a v true w').1 = .noError := by
  unfold modbusServerWriteReg at hvalid ⊢
  split at hvalid
  · next f hf => exact h.validReg f hf a v _ _ hvalid
  · exact hvalid

theorem writeCoilsTwoPhase_all (address : UInt16) (request : Memory UInt8) (base : ℕ) {quantity : ℕ}
    (hquantity : quantity ≤ 65536) (w : ServerWorld σ) :
    let r := writeCoilsTwoPhase settings address request base quantity w
    (r.1 ≠ .noError → view r.2.user = view w.user) ∧
      (r.1 = .noError → WritesCoils address quantity (fun n => some (request.testBit base n))
        (view w.user) (view r.2.user)) := by
  intro r
  have hr : r = writeCoilsTwoPhase settings address request base quantity w := rfl
  simp only [writeCoilsTwoPhase, writeCoils_eq_loop] at hr
  refine twoPhase_all view w
    (fun n t => WritesCoils address n (fun n => some (request.testBit base n)) (view w.user) t)
    ⟨setsRange_zero _ _ _, rfl⟩ (fun j t => h.validateCoil_view _ _ t) (fun j t w' hj hvalid ht => ?_) hr
  have hset := h.commitCoil_ok hvalid t
  refine ⟨hset, ?_⟩
  rw [writeCoilBody, h.commitCoil_view, if_pos hset]
  exact ⟨ht.1.succ (by omega) rfl, ht.2⟩

theorem writeRegsTwoPhase_all (address : UInt16) (request : Memory UInt8) (base : ℕ) {quantity : ℕ}
    (hquantity : quantity ≤ 65536) (w : ServerWorld σ) :
    let r := writeRegsTwoPhase settings address request base quantity w
    (r.1 ≠ .noError → view r.2.user = view w.user) ∧
      (r.1 = .noError → WritesRegs address quantity
        (fun n => some (request.getU16 (base + 2 * n))) (view w.user) (view r.2.user)) := by
  intro r
  have hr : r = writeRegsTwoPhase settings address request base quantity w := rfl
  simp only [writeRegsTwoPhase, writeRegs_eq_loop] at hr
  refine twoPhase_all view w
    (fun n t => WritesRegs address n (fun n => some (request.getU16 (base + 2 * n)))
      (view w.user) t)
    ⟨setsRange_zero _ _ _, rfl⟩ (fun j t => h.validateReg_view _ _ t) (fun j t w' hj hvalid ht => ?_) hr
  have hset := h.commitReg_ok hvalid t
  refine ⟨hset, ?_⟩
  rw [writeRegBody, h.commitReg_view, if_pos hset]
  exact ⟨ht.1.succ (by omega) rfl, ht.2⟩

/-! ## Handlers -/

section Handlers

variable {connection : ModbusClientConnection} {request : Memory UInt8} {length : ℕ}
  (hpos : headerSize ≤ connection.requestAduPos) (w : ServerWorld σ)

omit h in
theorem AllOrNothing.reject (connection : ModbusClientConnection) {error : ErrorCode}
    (herror : error ≠ .noError) : AllOrNothing view request length w (error, connection, w) :=
  ⟨fun _ => rfl, fun heq => absurd heq herror⟩

omit h in
include hpos in
/-- The end of a handler: the status of the loops is reported, or a response is formatted. -/
theorem AllOrNothing.report {error : ErrorCode} {w' : ServerWorld σ}
    (hnothing : error ≠ .noError → view w'.user = view w.user)
    (hall : error = .noError → Requested request length (view w.user) (view w'.user))
    (connection' : ModbusClientConnection) (responseAdu : Memory UInt8) (n : ℕ) :
    AllOrNothing view request length w
      (if error ≠ .noError then (error, connection', w')
        else finish (connection.withResponse responseAdu) n w') := by
  by_cases herror : error ≠ .noError
  · rw [if_pos herror]
    exact ⟨fun _ => hnothing herror, fun heq => absurd heq herror⟩
  · rw [if_neg herror, finish,
      modbusServerFormatMbapHeader_answering (connection.withResponse responseAdu) n hpos]
    exact ⟨fun hne => absurd rfl hne, fun _ => hall (not_not.1 herror)⟩

omit h in
theorem AllOrNothing.ite {p : Prop} [Decidable p] {a b : Outcome σ}
    (ha : p → AllOrNothing view request length w a) (hb : ¬p → AllOrNothing view request length w b) :
    AllOrNothing view request length w (if p then a else b) := by
  by_cases h : p
  · rw [if_pos h]
    exact ha h
  · rw [if_neg h]
    exact hb h

include hpos in
theorem modbusServerProcessWriteMultipleCoilsReq_all
    (hcode : request 0 = functionWriteMultipleCoils) :
    AllOrNothing view request length w
      (modbusServerProcessWriteMultipleCoilsReq settings connection request length w) := by
  refine .ite w (fun _ => .reject w connection nofun) fun _ => ?_
  refine .ite w (fun _ => .reject w connection nofun) fun hlength => ?_
  refine .ite w (fun _ => .reject w connection nofun) fun _ => ?_
  refine .ite w (fun _ => .reject w connection nofun) fun hcount => ?_
  have hall := writeCoilsTwoPhase_all h (request.getU16 1) request 6
    (request.getU16 3).toNat_lt.le (modbusServerLock settings w)
  rw [h.lock_view] at hall
  refine .report hpos w (fun hne => (h.unlock_view _).trans (hall.1 hne)) (fun hok => ?_) _ _ _
  rw [Requested, if_pos hcode, h.unlock_view]
  obtain ⟨hset, hregs⟩ := hall.2 hok
  refine ⟨hset.congr fun i hi => if_pos ?_, hregs⟩
  -- the byte count covers all the bits, and the PDU covers the byte count
  rw [not_not] at hcount
  simp only [coilBytes] at hcount
  omega

include hpos in
theorem modbusServerProcessWriteMultipleRegsReq_all
    (hcode : request 0 = functionWriteMultipleRegs) :
    AllOrNothing view request length w
      (modbusServerProcessWriteMultipleRegsReq settings connection request length w) := by
  refine .ite w (fun _ => .reject w connection nofun) fun _ => ?_
  refine .ite w (fun _ => .reject w connection nofun) fun hlength => ?_
  refine .ite w (fun _ => .reject w connection nofun) fun _ => ?_
  refine .ite w (fun _ => .reject w connection nofun) fun hcount => ?_
  have hall := writeRegsTwoPhase_all h (request.getU16 1) request 6
    (request.getU16 3).toNat_lt.le (modbusServerLock settings w)
  rw [h.lock_view] at hall
  refine .report hpos w (fun hne => (h.unlock_view _).trans (hall.1 hne)) (fun hok => ?_) _ _ _
  rw [Requested, if_neg (by rw [hcode]; decide), if_pos hcode, h.unlock_view]
  obtain ⟨hset, hcoils⟩ := hall.2 hok
  refine ⟨hset.congr fun i hi => if_pos ?_, hcoils⟩
  rw [not_not] at hcount
  omega

include hpos in
theorem modbusServerProcessMaskWriteRegReq_all (hcode : request 0 = functionMaskWriteReg) :
    AllOrNothing view request length w
      (modbusServerProcessMaskWriteRegReq settings connection request length w) := by
  refine .ite w (fun _ => .reject w connection nofun) fun _ => ?_
  obtain ⟨hkeep, hvalue⟩ := h.readReg_view (request.getU16 1) (modbusServerLock settings w)
  rw [h.lock_view] at hkeep hvalue
  by_cases hread : (modbusServerReadReg settings (request.getU16 1)
      (modbusServerLock settings w)).1 = .noError
  · have hwrite := h.commitReg_view (request.getU16 1)
      (((modbusServerReadReg settings (request.getU16 1) (modbusServerLock settings w)).2.1 &&&
        request.getU16 3) ||| (request.getU16 5 &&& ~~~request.getU16 3))
      (modbusServerReadReg settings (request.getU16 1) (modbusServerLock settings w)).2.2
    simp only [hread, if_true]
    refine .report hpos w (fun hne => ?_) (fun hok => ?_) _ _ _
    · rw [h.unlock_view, hwrite, if_neg hne, hkeep]
    · rw [Requested, if_neg (by rw [hcode]; decide), if_neg (by rw [hcode]; decide), if_pos hcode,
        h.unlock_view, hwrite, if_pos hok, hkeep, hvalue hread]
  · simp only [hread, if_false]
    exact .report hpos w (fun _ => (h.unlock_view _).trans hkeep) (fun hok => absurd hok hread) _ _ _

include hpos in
theorem modbusServerProcessReadWriteMultipleRegsReq_all
    (hcode : request 0 = functionReadWriteMultipleRegs) (hend : ¬ ReadsPastEnd length request) :
    AllOrNothing view request length w
      (modbusServerProcessReadWriteMultipleRegsReq settings connection request length w) := by
  refine .ite w (fun _ => .reject w connection nofun) fun hlength => ?_
  refine .ite w (fun _ => .reject w connection nofun) fun hbytes => ?_
  refine .ite w (fun _ => .reject w connection nofun) fun hread => ?_
  refine .ite w (fun _ => .reject w connection nofun) fun hwrite => ?_
  refine .ite w (fun _ => .reject w connection nofun) fun hcount => ?_
  rw [not_not] at hcount
  have hfits : 10 + (request 9).toNat ≤ length := by
    by_contra hlt
    exact hend ⟨hcode, by omega, by omega, by omega, hcount, by omega, by omega⟩
  set response : Memory UInt8 := Function.update (Function.update connection.responseAdu headerSize
    (request 0)) (headerSize + 1) (UInt8.ofNat ((request.getU16 3).toNat * 2))
  have hkeep := h.readRegs_view (request.getU16 1) (headerSize + 2) (request.getU16 3).toNat 0
    response (modbusServerLock settings w)
  rw [h.lock_view] at hkeep
  by_cases hok : (readRegs settings (request.getU16 1) (headerSize + 2) (request.getU16 3).toNat 0
      response (modbusServerLock settings w)).1 = .noError
  · have hall := writeRegsTwoPhase_all h (request.getU16 5) request 10
      (request.getU16 7).toNat_lt.le (readRegs settings (request.getU16 1) (headerSize + 2)
        (request.getU16 3).toNat 0 response (modbusServerLock settings w)).2.2
    rw [hkeep] at hall
    simp only [hok, if_true]
    refine .report hpos w (fun hne => (h.unlock_view _).trans (hall.1 hne)) (fun hdone => ?_) _ _ _
    rw [Requested, if_neg (by rw [hcode]; decide), if_neg (by rw [hcode]; decide),
      if_neg (by rw [hcode]; decide), h.unlock_view]
    obtain ⟨hset, hcoils⟩ := hall.2 hdone
    exact ⟨hset.congr fun i hi => if_pos (by omega), hcoils⟩
  · simp only [hok, if_false]
    exact .report hpos w (fun _ => (h.unlock_view _).trans hkeep) (fun heq => absurd heq hok) _ _ _

include hpos in
/-- Every request but those that reach past their end is carried out as a whole or not at all. -/
theorem dispatch_all (hcode : request 0 ∈ multiWriteCodes) (hend : ¬ ReadsPastEnd length request) :
    AllOrNothing view request length w (dispatch settings connection request length w) := by
  simp only [multiWriteCodes, List.mem_cons, List.not_mem_nil, or_false] at hcode
  rcases hcode with hcode | hcode | hcode | hcode
  · rw [dispatch_writeMultipleCoils settings hcode]
    exact modbusServerProcessWriteMultipleCoilsReq_all h hpos w hcode
  · rw [dispatch_writeMultipleRegs settings hcode]
    exact modbusServerProcessWriteMultipleRegsReq_all h hpos w hcode
  · rw [dispatch_maskWriteReg settings hcode]
    exact modbusServerProcessMaskWriteRegReq_all h hpos w hcode
  · rw [dispatch_readWriteMultipleRegs settings hcode]
    exact modbusServerProcessReadWriteMultipleRegsReq_all h hpos w hcode hend

end Handlers

end TwoPhase

/-! ## Requests that reach past their end -/

section Serves

variable {σ : Type*} {settings : ModbusServerSettings σ} {view : σ → Table}

/-- Callbacks that never fail keep the protocol. -/
theorem ServesTable.twoPhase (h : ServesTable settings view) : TwoPhase settings view where
  lock := h.lock
  unlock := h.unlock
  readReg f hf a s := by
    obtain ⟨g, hg, hspec⟩ := h.readReg
    obtain rfl : g = f := Option.some.inj (hg.symm.trans hf)
    exact ⟨(hspec a s).2.2, fun _ => (hspec a s).2.1⟩
  validateCoil f hf a b s := by
    obtain ⟨g, hg, hspec⟩ := h.writeCoil
    obtain rfl : g = f := Option.some.inj (hg.symm.trans hf)
    exact (hspec a b false s).2
  commitCoil f hf a b s := by
    obtain ⟨g, hg, hspec⟩ := h.writeCoil
    obtain rfl : g = f := Option.some.inj (hg.symm.trans hf)
    rw [if_pos (hspec a b true s).1]
    exact (hspec a b true s).2
  validCoil f hf a b s s' _ := by
    obtain ⟨g, hg, hspec⟩ := h.writeCoil
    obtain rfl : g = f := Option.some.inj (hg.symm.trans hf)
    exact (hspec a b true s').1
  validateReg f hf a v s := by
    obtain ⟨g, hg, hspec⟩ := h.writeReg
    obtain rfl : g = f := Option.some.inj (hg.symm.trans hf)
    exact (hspec a v false s).2
  commitReg f hf a v s := by
    obtain ⟨g, hg, hspec⟩ := h.writeReg
    obtain rfl : g = f := Option.some.inj (hg.symm.trans hf)
    rw [if_pos (hspec a v true s).1]
    exact (hspec a v true s).2
  validReg f hf a v s s' _ := by
    obtain ⟨g, hg, hspec⟩ := h.writeReg
    obtain rfl : g = f := Option.some.inj (hg.symm.trans hf)
    exact (hspec a v true s').1

/-- With callbacks that never fail, both phases succeed, whatever the range is. -/
theorem writeRegsTwoPhase_ok (h : ServesTable settings view) (address : UInt16)
    (request : Memory UInt8) (base quantity : ℕ) (w : ServerWorld σ) :
    (writeRegsTwoPhase settings address request base quantity w).1 = .noError := by
  have hloop : ∀ (commit : Bool) (w : ServerWorld σ),
      (writeRegs settings address request base commit quantity 0 w).1 = .noError := by
    intro commit w
    rw [writeRegs_eq_loop]
    exact (loop_progress (I := fun _ _ => True)
      (fun j t _ _ _ => ⟨(h.writeReg_eq _ _ commit t).1, trivial⟩) trivial).1
  rw [writeRegsTwoPhase, if_pos (hloop false w)]
  exact hloop true _

theorem writeCoilsTwoPhase_ok (h : ServesTable settings view) (address : UInt16)
    (request : Memory UInt8) (base quantity : ℕ) (w : ServerWorld σ) :
    (writeCoilsTwoPhase settings address request base quantity w).1 = .noError := by
  have hloop : ∀ (commit : Bool) (w : ServerWorld σ),
      (writeCoils settings address request base commit quantity 0 w).1 = .noError := by
    intro commit w
    rw [writeCoils_eq_loop]
    exact (loop_progress (I := fun _ _ => True)
      (fun j t _ _ _ => ⟨(h.writeCoil_eq _ _ commit t).1, trivial⟩) trivial).1
  rw [writeCoilsTwoPhase, if_pos (hloop false w)]
  exact hloop true _

theorem modbusServerProcessReadWriteMultipleRegsReq_ok (h : ServesTable settings view)
    {connection : ModbusClientConnection} (hpos : headerSize ≤ connection.requestAduPos)
    {request : Memory UInt8} {length : ℕ} (hlength : 10 ≤ length)
    (hbytes : (request 9).toNat ≤ length - 6)
    (hread : 1 ≤ (request.getU16 3).toNat ∧ (request.getU16 3).toNat ≤ 125)
    (hwrite : 1 ≤ (request.getU16 7).toNat ∧ (request.getU16 7).toNat ≤ 121)
    (hcount : (request 9).toNat = (request.getU16 7).toNat * 2) (w : ServerWorld σ) :
    (modbusServerProcessReadWriteMultipleRegsReq settings connection request length w).1
      = .noError := by
  rw [modbusServerProcessReadWriteMultipleRegsReq, if_neg (by omega), if_neg (by omega),
    if_neg (by omega), if_neg (by omega), if_neg (by omega)]
  simp only [(readRegs_table h _ _ _ _ _ _).1, if_true, writeRegsTwoPhase_ok h, ne_eq, not_true,
    if_false, finish]
  rw [modbusServerFormatMbapHeader_answering _ _ (by exact hpos)]

/-- The last register of a request that reaches past its end is written all the same. -/
theorem not_allOrNothing_of_readsPastEnd (h : ServesTable settings view) {request : Memory UInt8}
    {length : ℕ} (hend : ReadsPastEnd length request) {connection : ModbusClientConnection}
    (hpos : headerSize ≤ connection.requestAduPos) (w : ServerWorld σ) :
    ¬ AllOrNothing view request length w (dispatch settings connection request length w) := by
  obtain ⟨hcode, hlength, hread, hwrite, hcount, hbytes, hshort⟩ := hend
  have hok : (dispatch settings connection request length w).1 = .noError := by
    rw [dispatch_readWriteMultipleRegs settings hcode]
    exact modbusServerProcessReadWriteMultipleRegsReq_ok h hpos hlength hbytes hread hwrite hcount w
  intro hall
  have hreq := hall.all hok
  rw [Requested, if_neg (by rw [hcode]; decide), if_neg (by rw [hcode]; decide),
    if_neg (by rw [hcode]; decide)] at hreq
  -- the PDU does not hold the last value
  set last := (request.getU16 7).toNat - 1 with hlast
  have hentry := hreq.1 (request.getU16 5 + UInt16.ofNat last)
  have hmax := (request.getU16 7).toNat_lt
  rw [(eq_add_ofNat_iff (by omega)).1 rfl, if_pos (by omega), wordOf, if_neg (by omega)] at hentry
  exact absurd hentry (by simp)

end Serves

/-- **All or nothing.** For every PDU of the four multi-write function codes: whatever callbacks keep
the protocol, the request is carried out as a whole or not at all, just when the request does not
reach past its end. -/
theorem allOrNothing_iff {request : Memory UInt8} {length : ℕ}
    (hcode : request 0 ∈ multiWriteCodes) :
    (∀ (σ : Type) (settings : ModbusServerSettings σ) (view : σ → Table), TwoPhase settings view →
      ∀ connection : ModbusClientConnection, headerSize ≤ connection.requestAduPos →
      ∀ w : ServerWorld σ,
        AllOrNothing view request length w (dispatch settings connection request length w)) ↔
    ¬ ReadsPastEnd length request := by
  constructor
  · intro hall hend
    have hserves := tableSettings_serves 0
    have hfails := hall Table _ id hserves.twoPhase
      { acceptedConnection 0 0 with requestAduPos := headerSize } (Nat.le_refl _)
      ⟨⟨fun _ => false, fun _ => 0⟩, [], []⟩
    exact not_allOrNothing_of_readsPastEnd hserves hend (Nat.le_refl _) _ hfails
  · intro hend σ settings view h connection hpos w
    exact dispatch_all h hpos w hcode hend

/-- A Write Multiple Coils request for three coils. -/
theorem allOrNothing_writeThreeCoils :
    (∀ (σ : Type) (settings : ModbusServerSettings σ) (view : σ → Table), TwoPhase settings view →
      ∀ connection : ModbusClientConnection, headerSize ≤ connection.requestAduPos →
      ∀ w : ServerWorld σ,
        AllOrNothing view (bytesOf [15, 0, 1, 0, 3, 1, 5]) 7 w
          (dispatch settings connection (bytesOf [15, 0, 1, 0, 3, 1, 5]) 7 w)) ↔
    ¬ ReadsPastEnd 7 (bytesOf [15, 0, 1, 0, 3, 1, 5]) :=
  allOrNothing_iff (by decide)

/-- A Read/Write Multiple Registers request of ten bytes writes two registers whose values it does not
hold, and reports success. -/
theorem truncatedReadWrite_not_allOrNothing :
    let connection := { acceptedConnection 0 0 with requestAduPos := 17 }
    let w : ServerWorld Table := ⟨⟨fun _ => false, fun _ => 7⟩, [], []⟩
    let o := dispatch (tableSettings 0) connection (bytesOf truncatedReadWrite) 10 w
    o.1 = .noError ∧ o.2.2.user.regs 0 = 0 ∧
      ¬ AllOrNothing id (bytesOf truncatedReadWrite) 10 w o :=
  ⟨by decide, by decide, not_allOrNothing_of_readsPastEnd (tableSettings_serves 0) (by decide)
    (by decide) _⟩

end Modbus
