import CycloneTcp.Modbus.ServerResponse
import CycloneTcp.Modbus.ServerWrites

/-! # The server as a device

A Modbus device has some coils and some registers. What it does with a request is said here on the
bytes of the request: they are decoded to a command or refused, and a command is carried out on the
table if the entries that it names exist. The server in front of callbacks that know the same entries
answers every request as the device does, and leaves the same table. -/

set_option autoImplicit false

namespace Modbus

open Loops

/-! ## The device -/

/-- The coils and the registers that exist. -/
structure Device where
  hasCoil : UInt16 → Bool
  hasReg : UInt16 → Bool

/-- What a request asks for. A single entry is written as a list of one. -/
inductive Command where
  | readCoils (address : UInt16) (quantity : ℕ)
  | readRegs (address : UInt16) (quantity : ℕ)
  | writeCoils (address : UInt16) (states : List Bool)
  | writeRegs (address : UInt16) (values : List UInt16)
  | maskWriteReg (address andMask orMask : UInt16)
  | readWriteRegs (readAddress : UInt16) (quantity : ℕ) (writeAddress : UInt16)
      (values : List UInt16)

/-- Why a request is not carried out: the server gives the connection up, or it reports an exception. -/
inductive Refusal where
  | malformed
  | exception (code : UInt8)

/-- The byte at offset `i` of a PDU. -/
def byteAt (pdu : List UInt8) (i : ℕ) : UInt8 := pdu.getD i 0

/-- The word at offset `i` of a PDU. -/
def wordAt (pdu : List UInt8) (i : ℕ) : UInt16 := Memory.be16 (byteAt pdu i) (byteAt pdu (i + 1))

/-- The first `quantity` bits of the array at offset `base`. -/
def bitsAt (pdu : List UInt8) (base quantity : ℕ) : List Bool :=
  (List.range quantity).map fun n => Memory.bit (byteAt pdu (base + n / 8)) (n % 8)

/-- The first `quantity` words of the array at offset `base`. -/
def wordsAt (pdu : List UInt8) (base quantity : ℕ) : List UInt16 :=
  (List.range quantity).map fun n => wordAt pdu (base + 2 * n)

/-- A request for `1` to `max` entries. -/
def decodeRead (max : ℕ) (command : UInt16 → ℕ → Command) (pdu : List UInt8) :
    Except Refusal Command :=
  if pdu.length < 5 then .error .malformed
  else if (wordAt pdu 3).toNat < 1 ∨ max < (wordAt pdu 3).toNat then
    .error (.exception exceptionIllegalDataValue)
  else .ok (command (wordAt pdu 1) (wordAt pdu 3).toNat)

def decodeWriteSingleCoil (pdu : List UInt8) : Except Refusal Command :=
  if pdu.length < 5 then .error .malformed
  else if wordAt pdu 3 ≠ coilStateOn ∧ wordAt pdu 3 ≠ coilStateOff then
    .error (.exception exceptionIllegalDataValue)
  else .ok (.writeCoils (wordAt pdu 1) [decide (wordAt pdu 3 = coilStateOn)])

def decodeWriteSingleReg (pdu : List UInt8) : Except Refusal Command :=
  if pdu.length < 5 then .error .malformed
  else .ok (.writeRegs (wordAt pdu 1) [wordAt pdu 3])

/-- A request with `1` to `max` entries behind a byte count, which is `bytes` of their number. -/
def decodeWriteMultiple (max : ℕ) (bytes : ℕ → ℕ) (command : UInt16 → ℕ → Command)
    (pdu : List UInt8) : Except Refusal Command :=
  if pdu.length < 6 then .error .malformed
  else if pdu.length < 6 + (byteAt pdu 5).toNat then .error .malformed
  else if (wordAt pdu 3).toNat < 1 ∨ max < (wordAt pdu 3).toNat then
    .error (.exception exceptionIllegalDataValue)
  else if (byteAt pdu 5).toNat ≠ bytes (wordAt pdu 3).toNat then
    .error (.exception exceptionIllegalDataValue)
  else .ok (command (wordAt pdu 1) (wordAt pdu 3).toNat)

def decodeMaskWriteReg (pdu : List UInt8) : Except Refusal Command :=
  if pdu.length < 7 then .error .malformed
  else .ok (.maskWriteReg (wordAt pdu 1) (wordAt pdu 3) (wordAt pdu 5))

/-- The numbers of entries and the byte count are looked at before the end of the values. -/
def decodeReadWriteMultipleRegs (pdu : List UInt8) : Except Refusal Command :=
  if pdu.length < 10 then .error .malformed
  else if pdu.length < 6 + (byteAt pdu 9).toNat then .error .malformed
  else if (wordAt pdu 3).toNat < 1 ∨ 125 < (wordAt pdu 3).toNat then
    .error (.exception exceptionIllegalDataValue)
  else if (wordAt pdu 7).toNat < 1 ∨ 121 < (wordAt pdu 7).toNat then
    .error (.exception exceptionIllegalDataValue)
  else if (byteAt pdu 9).toNat ≠ (wordAt pdu 7).toNat * 2 then
    .error (.exception exceptionIllegalDataValue)
  else if pdu.length < 10 + (byteAt pdu 9).toNat then .error .malformed
  else .ok (.readWriteRegs (wordAt pdu 1) (wordAt pdu 3).toNat (wordAt pdu 5)
    (wordsAt pdu 10 (wordAt pdu 7).toNat))

/-- What a request PDU asks for. -/
def decode (pdu : List UInt8) : Except Refusal Command :=
  if pdu.length = 0 then .error .malformed
  else if byteAt pdu 0 = functionReadCoils ∨ byteAt pdu 0 = functionReadDiscreteInputs then
    decodeRead 2000 .readCoils pdu
  else if byteAt pdu 0 = functionReadHoldingRegs ∨ byteAt pdu 0 = functionReadInputRegs then
    decodeRead 125 .readRegs pdu
  else if byteAt pdu 0 = functionWriteSingleCoil then decodeWriteSingleCoil pdu
  else if byteAt pdu 0 = functionWriteSingleReg then decodeWriteSingleReg pdu
  else if byteAt pdu 0 = functionWriteMultipleCoils then
    decodeWriteMultiple 2000 coilBytes (fun a n => .writeCoils a (bitsAt pdu 6 n)) pdu
  else if byteAt pdu 0 = functionWriteMultipleRegs then
    decodeWriteMultiple 123 (· * 2) (fun a n => .writeRegs a (wordsAt pdu 6 n)) pdu
  else if byteAt pdu 0 = functionMaskWriteReg then decodeMaskWriteReg pdu
  else if byteAt pdu 0 = functionReadWriteMultipleRegs then decodeReadWriteMultipleRegs pdu
  else .error (.exception exceptionIllegalFunction)

/-- The entries of a range, which goes on at 0 behind the last address, exist. -/
def Present (has : UInt16 → Bool) (address : UInt16) (quantity : ℕ) : Prop :=
  ∀ i < quantity, has (address + UInt16.ofNat i) = true

instance (has : UInt16 → Bool) (address : UInt16) (quantity : ℕ) :
    Decidable (Present has address quantity) :=
  inferInstanceAs (Decidable (∀ i < quantity, _))

/-- The values from `address` on are replaced. -/
def overwrite {β : Type*} (address : UInt16) (values : List β) (entries : UInt16 → β) : UInt16 → β :=
  fun a => values.getD (a - address).toNat (entries a)

/-- Coils, eight to a byte. The bits behind the last one are clear. -/
def packCoils (quantity : ℕ) (coils : ℕ → Bool) : List UInt8 :=
  (List.range (coilBytes quantity)).map fun k =>
    Memory.byteOfBits fun j => decide (8 * k + j < quantity) && coils (8 * k + j)

/-- Registers, the high byte first. -/
def packRegs (quantity : ℕ) (regs : ℕ → UInt16) : List UInt8 :=
  (List.range quantity).flatMap fun n => [Memory.hi8 (regs n), Memory.lo8 (regs n)]

def Table.writeCoils (t : Table) (address : UInt16) (states : List Bool) : Table :=
  { t with coils := overwrite address states t.coils }

def Table.writeRegs (t : Table) (address : UInt16) (values : List UInt16) : Table :=
  { t with regs := overwrite address values t.regs }

/-- The registers from `address` on. -/
def Table.packRegs (t : Table) (address : UInt16) (quantity : ℕ) : List UInt8 :=
  Modbus.packRegs quantity fun n => t.regs (address + UInt16.ofNat n)

/-- The data that has been read, behind the function code and its length. -/
def dataResponse (pdu data : List UInt8) : List UInt8 :=
  byteAt pdu 0 :: UInt8.ofNat data.length :: data

namespace Device

variable (d : Device)

/-- A command is carried out as a whole: the table that it leaves, and the data that is read. Values
are read before others are written. -/
def execute (t : Table) : Command → Option (Table × List UInt8)
  | .readCoils address quantity =>
      if Present d.hasCoil address quantity then
        some (t, packCoils quantity fun n => t.coils (address + UInt16.ofNat n))
      else none
  | .readRegs address quantity =>
      if Present d.hasReg address quantity then some (t, t.packRegs address quantity) else none
  | .writeCoils address states =>
      if Present d.hasCoil address states.length then some (t.writeCoils address states, []) else none
  | .writeRegs address values =>
      if Present d.hasReg address values.length then some (t.writeRegs address values, []) else none
  | .maskWriteReg address andMask orMask =>
      if Present d.hasReg address 1 then
        some (t.writeRegs address [(t.regs address &&& andMask) ||| (orMask &&& ~~~andMask)], [])
      else none
  | .readWriteRegs readAddress quantity writeAddress values =>
      if Present d.hasReg readAddress quantity ∧ Present d.hasReg writeAddress values.length then
        some (t.writeRegs writeAddress values, t.packRegs readAddress quantity)
      else none

/-- The response to a command that has been carried out: the data that has been read behind its
length, or the beginning of the request. -/
def respond (pdu data : List UInt8) : Command → List UInt8
  | .readCoils _ _ | .readRegs _ _ | .readWriteRegs _ _ _ _ => dataResponse pdu data
  | .writeCoils _ _ | .writeRegs _ _ => pdu.take 5
  | .maskWriteReg _ _ _ => pdu.take 7

/-- What becomes of a request that has been decoded: a new table and a normal response, or a
refusal. -/
def carryOut (t : Table) (pdu : List UInt8) :
    Except Refusal Command → Except Refusal (Table × List UInt8)
  | .error refusal => .error refusal
  | .ok command =>
      match d.execute t command with
      | some (t', data) => .ok (t', respond pdu data command)
      | none => .error (.exception exceptionIllegalDataAddress)

/-- The table and the response, if there is one. -/
def reply (t : Table) (pdu : List UInt8) :
    Except Refusal (Table × List UInt8) → Table × Option (List UInt8)
  | .ok r => (r.1, some r.2)
  | .error (.exception code) => (t, some [exceptionMask ||| byteAt pdu 0, code])
  | .error .malformed => (t, none)

/-- The table and the response to a request, if it is answered at all. -/
def answer (t : Table) (pdu : List UInt8) : Table × Option (List UInt8) :=
  reply t pdu (d.carryOut t pdu (decode pdu))

end Device

/-! ## Callbacks that know the same entries -/

/-- The callbacks report `ERROR_INVALID_ADDRESS` for the entries that the device does not have, and
otherwise work on the table `view s`. -/
structure ServesDevice {σ : Type*} (settings : ModbusServerSettings σ) (view : σ → Table)
    (d : Device) : Prop where
  lock : ∀ f ∈ settings.lockCallback, ∀ s, view (f s) = view s
  unlock : ∀ s, view (settings.unlockCallback s) = view s
  readCoil : ∃ f, settings.readCoilCallback = some f ∧ ∀ a s,
    (f a s).1 = (if d.hasCoil a then .noError else .invalidAddress) ∧
      (d.hasCoil a = true → (f a s).2.1 = (view s).coils a) ∧ view (f a s).2.2 = view s
  writeCoil : ∃ f, settings.writeCoilCallback = some f ∧ ∀ a b commit s,
    (f a b commit s).1 = (if d.hasCoil a then .noError else .invalidAddress) ∧
      view (f a b commit s).2
        = if d.hasCoil a ∧ commit then (view s).setCoil a b else view s
  readReg : ∃ f, settings.readRegCallback = some f ∧ ∀ a s,
    (f a s).1 = (if d.hasReg a then .noError else .invalidAddress) ∧
      (d.hasReg a = true → (f a s).2.1 = (view s).regs a) ∧ view (f a s).2.2 = view s
  writeReg : ∃ f, settings.writeRegValueCallback = some f ∧ ∀ a v commit s,
    (f a v commit s).1 = (if d.hasReg a then .noError else .invalidAddress) ∧
      view (f a v commit s).2
        = if d.hasReg a ∧ commit then (view s).setReg a v else view s

section Serves

variable {σ : Type*} {settings : ModbusServerSettings σ} {view : σ → Table} {d : Device}
  (h : ServesDevice settings view d)
include h

theorem ServesDevice.twoPhase : TwoPhase settings view where
  lock := h.lock
  unlock := h.unlock
  readReg f hf a s := by
    obtain ⟨g, hg, hspec⟩ := h.readReg
    cases hg.symm.trans hf
    obtain ⟨hstatus, hvalue, hview⟩ := hspec a s
    refine ⟨hview, fun hok => hvalue ?_⟩
    by_contra hno
    rw [hstatus, if_neg hno] at hok
    cases hok
  validateCoil f hf a b s := by
    obtain ⟨g, hg, hspec⟩ := h.writeCoil
    cases hg.symm.trans hf
    rw [(hspec a b false s).2, if_neg (by simp)]
  commitCoil f hf a b s := by
    obtain ⟨g, hg, hspec⟩ := h.writeCoil
    cases hg.symm.trans hf
    rw [(hspec a b true s).2, (hspec a b true s).1]
    cases d.hasCoil a <;> simp
  validCoil f hf a b s s' := by
    obtain ⟨g, hg, hspec⟩ := h.writeCoil
    cases hg.symm.trans hf
    rw [(hspec a b false s).1, (hspec a b true s').1]
    exact id
  validateReg f hf a v s := by
    obtain ⟨g, hg, hspec⟩ := h.writeReg
    cases hg.symm.trans hf
    rw [(hspec a v false s).2, if_neg (by simp)]
  commitReg f hf a v s := by
    obtain ⟨g, hg, hspec⟩ := h.writeReg
    cases hg.symm.trans hf
    rw [(hspec a v true s).2, (hspec a v true s).1]
    cases d.hasReg a <;> simp
  validReg f hf a v s s' := by
    obtain ⟨g, hg, hspec⟩ := h.writeReg
    cases hg.symm.trans hf
    rw [(hspec a v false s).1, (hspec a v true s').1]
    exact id

/-! ## Status of the loops -/

theorem ServesDevice.readCoil_eq (a : UInt16) (w : ServerWorld σ) :
    (modbusServerReadCoil settings a w).1 = (if d.hasCoil a then .noError else .invalidAddress) ∧
      (d.hasCoil a = true → (modbusServerReadCoil settings a w).2.1 = (view w.user).coils a) ∧
      view (modbusServerReadCoil settings a w).2.2.user = view w.user := by
  obtain ⟨f, hf, hspec⟩ := h.readCoil
  simp only [modbusServerReadCoil, hf]
  exact hspec a w.user

theorem ServesDevice.readReg_eq (a : UInt16) (w : ServerWorld σ) :
    (modbusServerReadReg settings a w).1 = (if d.hasReg a then .noError else .invalidAddress) ∧
      (d.hasReg a = true → (modbusServerReadReg settings a w).2.1 = (view w.user).regs a) ∧
      view (modbusServerReadReg settings a w).2.2.user = view w.user := by
  obtain ⟨f, hf, hspec⟩ := h.readReg
  simp only [modbusServerReadReg, hf]
  exact hspec a w.user

theorem ServesDevice.writeCoil_status (a : UInt16) (b commit : Bool) (w : ServerWorld σ) :
    (modbusServerWriteCoil settings a b commit w).1
      = if d.hasCoil a then .noError else .invalidAddress := by
  obtain ⟨f, hf, hspec⟩ := h.writeCoil
  simp only [modbusServerWriteCoil, hf]
  exact (hspec a b commit w.user).1

theorem ServesDevice.writeReg_status (a v : UInt16) (commit : Bool) (w : ServerWorld σ) :
    (modbusServerWriteReg settings a v commit w).1
      = if d.hasReg a then .noError else .invalidAddress := by
  obtain ⟨f, hf, hspec⟩ := h.writeReg
  simp only [modbusServerWriteReg, hf]
  exact (hspec a v commit w.user).1

omit h in
/-- A loop over a range whose body knows which entries exist. -/
theorem loop_present {S : Type*} {body : ℕ → S → ErrorCode × S} {has : UInt16 → Bool}
    {address : UInt16} (hbody : ∀ j s, (body j s).1
      = if has (address + UInt16.ofNat j) then .noError else .invalidAddress) (k : ℕ) (s : S) :
    (loop .noError body k 0 s).1
      = if Present has address k then .noError else .invalidAddress := by
  rw [loop_status hbody (by decide)]
  congr 1
  simp [Present]

theorem readCoils_status (address : UInt16) (base k : ℕ) (response : Memory UInt8)
    (w : ServerWorld σ) : (readCoils settings address base k 0 response w).1
      = if Present d.hasCoil address k then .noError else .invalidAddress := by
  rw [readCoils_eq_loop]
  refine loop_present (fun j s => ?_) k _
  exact (h.readCoil_eq _ s.2).1

theorem readRegs_status (address : UInt16) (base k : ℕ) (response : Memory UInt8)
    (w : ServerWorld σ) : (readRegs settings address base k 0 response w).1
      = if Present d.hasReg address k then .noError else .invalidAddress := by
  rw [readRegs_eq_loop]
  refine loop_present (fun j s => ?_) k _
  exact (h.readReg_eq _ s.2).1

theorem writeCoilsTwoPhase_status (address : UInt16) (request : Memory UInt8) (base k : ℕ)
    (w : ServerWorld σ) : (writeCoilsTwoPhase settings address request base k w).1
      = if Present d.hasCoil address k then .noError else .invalidAddress := by
  have hphase : ∀ commit w', (writeCoils settings address request base commit k 0 w').1
      = if Present d.hasCoil address k then .noError else .invalidAddress := by
    intro commit w'
    rw [writeCoils_eq_loop]
    exact loop_present (fun j s => h.writeCoil_status _ _ commit s) k _
  rw [writeCoilsTwoPhase]
  split
  · exact hphase true _
  · exact hphase false _

theorem writeRegsTwoPhase_status (address : UInt16) (request : Memory UInt8) (base k : ℕ)
    (w : ServerWorld σ) : (writeRegsTwoPhase settings address request base k w).1
      = if Present d.hasReg address k then .noError else .invalidAddress := by
  have hphase : ∀ commit w', (writeRegs settings address request base commit k 0 w').1
      = if Present d.hasReg address k then .noError else .invalidAddress := by
    intro commit w'
    rw [writeRegs_eq_loop]
    exact loop_present (fun j s => h.writeReg_status _ _ commit s) k _
  rw [writeRegsTwoPhase]
  split
  · exact hphase true _
  · exact hphase false _

/-! ## What the loops read -/

omit h in
theorem testBit_putBit (m : Memory UInt8) (base i n : ℕ) (b : Bool) :
    (m.putBit base i b).testBit base n = if n = i then b else m.testBit base n := by
  rw [Memory.testBit, Memory.bit_putBit m base i b _ (Nat.mod_lt n (by decide)), Memory.testBit]
  by_cases hn : n = i
  · rw [if_pos hn, if_pos ⟨by rw [hn], by rw [hn]⟩]
  · rw [if_neg hn, if_neg (by omega)]

theorem readCoils_view (address : UInt16) (base k : ℕ) (response : Memory UInt8)
    (w : ServerWorld σ) :
    view (readCoils settings address base k 0 response w).2.2.user = view w.user := by
  rw [readCoils_eq_loop]
  refine loop_invariant (I := fun s : Memory UInt8 × ServerWorld σ => view s.2.user = view w.user)
    (fun j s _ _ hs => ?_) rfl
  exact (h.readCoil_eq _ s.2).2.2.trans hs

/-- The bits of the range are those of the table, and no other bit of the array changes. -/
theorem readCoils_bits {address : UInt16} {k : ℕ} (hpresent : Present d.hasCoil address k)
    (base : ℕ) (response : Memory UInt8) (w : ServerWorld σ) (n : ℕ) :
    (readCoils settings address base k 0 response w).2.1.testBit base n
      = if n < k then (view w.user).coils (address + UInt16.ofNat n)
        else response.testBit base n := by
  rw [readCoils_eq_loop]
  refine ((loop_progress (I := fun j (s : Memory UInt8 × ServerWorld σ) =>
      view s.2.user = view w.user ∧ ∀ n, s.1.testBit base n
        = if n < j then (view w.user).coils (address + UInt16.ofNat n)
          else response.testBit base n) (fun j s _ hj hs => ?_) ?_).2.2 n).trans ?_
  rotate_left
  · exact ⟨rfl, fun n => (if_neg (Nat.not_lt_zero n)).symm⟩
  · rw [Nat.zero_add]
  · obtain ⟨hstatus, hvalue, hview⟩ := h.readCoil_eq (address + UInt16.ofNat j) s.2
    have hthere := hpresent j (by omega)
    rw [if_pos hthere] at hstatus
    refine ⟨hstatus, hview.trans hs.1, fun n => ?_⟩
    simp only [readCoilBody, if_pos hstatus]
    rw [testBit_putBit, hvalue hthere, hs.1, hs.2]
    by_cases hn : n = j
    · rw [if_pos hn, if_pos (by omega), hn]
    · rw [if_neg hn]
      by_cases hlt : n < j
      · rw [if_pos hlt, if_pos (by omega)]
      · rw [if_neg hlt, if_neg (by omega)]

theorem readRegs_words {address : UInt16} {k : ℕ} (hpresent : Present d.hasReg address k)
    (base : ℕ) (response : Memory UInt8) (w : ServerWorld σ) {n : ℕ} (hn : n < k) :
    (readRegs settings address base k 0 response w).2.1.getU16 (base + 2 * n)
      = (view w.user).regs (address + UInt16.ofNat n) := by
  rw [readRegs_eq_loop]
  refine (loop_progress (I := fun j (s : Memory UInt8 × ServerWorld σ) =>
      view s.2.user = view w.user ∧ ∀ n < j, s.1.getU16 (base + 2 * n)
        = (view w.user).regs (address + UInt16.ofNat n)) (fun j s _ hj hs => ?_) ?_).2.2 n (by omega)
  rotate_left
  · exact ⟨rfl, fun n hn => absurd hn (Nat.not_lt_zero n)⟩
  · obtain ⟨hstatus, hvalue, hview⟩ := h.readReg_eq (address + UInt16.ofNat j) s.2
    have hthere := hpresent j (by omega)
    rw [if_pos hthere] at hstatus
    refine ⟨hstatus, hview.trans hs.1, fun n hlt => ?_⟩
    simp only [readRegBody]
    by_cases hn : n = j
    · rw [hn, Memory.getU16_setU16_self, hvalue hthere, hs.1]
    · rw [Memory.getU16_setU16_of_ne _ _ (by omega), hs.2 n (by omega)]

end Serves

/-! ## Requests and responses as bytes -/

section Bytes

variable {request : Memory UInt8} {length : ℕ}

theorem byteAt_read {i : ℕ} (hi : i < length) : byteAt (request.read 0 length) i = request i := by
  rw [byteAt, List.getD_eq_getElem?_getD, List.getElem?_eq_getElem (by simpa using hi),
    Option.getD_some, Memory.getElem_read, Nat.zero_add]

theorem wordAt_read {i : ℕ} (hi : i + 1 < length) :
    wordAt (request.read 0 length) i = request.getU16 i := by
  rw [wordAt, byteAt_read (by omega), byteAt_read hi]
  rfl

theorem bitsAt_read {base quantity : ℕ} (h : base + coilBytes quantity ≤ length) :
    bitsAt (request.read 0 length) base quantity
      = (List.range quantity).map (request.testBit base) := by
  refine List.map_congr_left fun n hn => ?_
  have hlt := List.mem_range.1 hn
  rw [byteAt_read (by simp only [coilBytes] at h; omega)]
  rfl

theorem wordsAt_read {base quantity : ℕ} (h : base + 2 * quantity ≤ length) :
    wordsAt (request.read 0 length) base quantity
      = (List.range quantity).map fun n => request.getU16 (base + 2 * n) := by
  refine List.map_congr_left fun n hn => ?_
  have hlt := List.mem_range.1 hn
  rw [wordAt_read (by omega)]

theorem cells_of_getU16 {m m' : Memory UInt8} {i : ℕ} (h : m.getU16 i = m'.getU16 i) :
    m i = m' i ∧ m (i + 1) = m' (i + 1) := by
  have hhi := congrArg Memory.hi8 h
  have hlo := congrArg Memory.lo8 h
  simp only [Memory.getU16, Memory.hi8_be16, Memory.lo8_be16] at hhi hlo
  exact ⟨hhi, hlo⟩

theorem Echoes.read {response : Memory UInt8} {words : ℕ} (h : Echoes request words response)
    (hlength : 1 + 2 * words ≤ length) :
    response.read 0 (1 + 2 * words) = (request.read 0 length).take (1 + 2 * words) := by
  rw [Memory.take_read _ _ hlength]
  refine Memory.read_congr fun i hi => ?_
  rw [Nat.zero_add]
  rcases Nat.eq_zero_or_pos i with rfl | hpos
  · exact h.functionCode_eq
  · obtain ⟨j, rfl | rfl⟩ : ∃ j, i = 1 + 2 * j ∨ i = 1 + 2 * j + 1 := ⟨(i - 1) / 2, by omega⟩
    · exact (cells_of_getU16 (h.words_eq j (by omega))).1
    · exact (cells_of_getU16 (h.words_eq j (by omega))).2

theorem eq_of_bits {x y : UInt8} (h : ∀ j < 8, Memory.bit x j = Memory.bit y j) : x = y := by
  refine UInt8.toNat_inj.1 (Nat.eq_of_testBit_eq fun j => ?_)
  by_cases hj : j < 8
  · exact h j hj
  · have hsize : 2 ^ 8 ≤ 2 ^ j := Nat.pow_le_pow_right (by decide) (by omega)
    rw [Nat.testBit_lt_two_pow (Nat.lt_of_lt_of_le x.toNat_lt hsize),
      Nat.testBit_lt_two_pow (Nat.lt_of_lt_of_le y.toNat_lt hsize)]

theorem length_packCoils (quantity : ℕ) (coils : ℕ → Bool) :
    (packCoils quantity coils).length = coilBytes quantity := by
  rw [packCoils, List.length_map, List.length_range]

theorem read_packCoils {m : Memory UInt8} {base quantity : ℕ} {coils : ℕ → Bool}
    (h : ∀ n < 8 * coilBytes quantity,
      m.testBit base n = if n < quantity then coils n else false) :
    m.read base (coilBytes quantity) = packCoils quantity coils := by
  rw [← length_packCoils quantity coils, Memory.read_eq_iff]
  intro k hk
  rw [length_packCoils] at hk
  simp only [packCoils, List.getElem_map, List.getElem_range]
  refine eq_of_bits fun j hj => ?_
  have hbit := h (8 * k + j) (by omega)
  rw [Memory.testBit, show (8 * k + j) / 8 = k by omega, show (8 * k + j) % 8 = j by omega] at hbit
  rw [hbit, Memory.bit_byteOfBits _ hj]
  split <;> simp_all

theorem length_packRegs (quantity : ℕ) (regs : ℕ → UInt16) :
    (packRegs quantity regs).length = quantity * 2 := by
  simp [packRegs]

theorem read_packRegs {m : Memory UInt8} {base quantity : ℕ} {regs : ℕ → UInt16}
    (h : ∀ n < quantity, m.getU16 (base + 2 * n) = regs n) :
    m.read base (quantity * 2) = packRegs quantity regs := by
  induction quantity with
  | zero => rfl
  | succ quantity ih =>
      have hlast := h quantity (Nat.lt_succ_self quantity)
      rw [Nat.succ_mul, Memory.read_add, ih fun n hn => h n (by omega), packRegs, packRegs,
        List.range_succ, List.flatMap_append, List.flatMap_singleton, ← hlast, Nat.mul_comm quantity 2]
      simp [Memory.read, List.range_succ, Memory.getU16]

theorem read_dataResponse {bytes data : List UInt8} {m : Memory UInt8}
    (hcode : m headerSize = byteAt bytes 0) (hcount : m (headerSize + 1) = UInt8.ofNat data.length)
    (hshort : data.length < 256) (hdata : (pdu m).read 2 data.length = data) :
    2 + (m (headerSize + 1)).toNat = (dataResponse bytes data).length ∧
      (pdu m).read 0 (2 + (m (headerSize + 1)).toNat) = dataResponse bytes data := by
  have hlength : (m (headerSize + 1)).toNat = data.length := by
    rw [hcount, UInt8.toNat_ofNat', Nat.mod_eq_of_lt hshort]
  rw [hlength]
  constructor
  · rw [dataResponse, List.length_cons, List.length_cons, Nat.add_comm]
  · have htwo : (pdu m).read 0 2 = [m headerSize, m (headerSize + 1)] := rfl
    rw [Memory.read_add, htwo, Nat.zero_add, hdata, hcode, hcount]
    rfl

end Bytes

/-! ## Tables -/

section Tables

variable {t t' : Table} {address : UInt16}

theorem overwrite_of_setsRange {β : Type*} {quantity : ℕ} {values : ℕ → β}
    {entries entries' : UInt16 → β}
    (h : SetsRange address quantity (fun n => some (values n)) entries entries') :
    entries' = overwrite address ((List.range quantity).map values) entries := by
  funext a
  have ha := h a
  rw [overwrite, List.getD_eq_getElem?_getD]
  by_cases hin : (a - address).toNat < quantity
  · rw [if_pos hin] at ha
    rw [List.getElem?_eq_getElem (by simpa using hin), Option.getD_some, List.getElem_map,
      List.getElem_range]
    exact (Option.some.inj ha).symm
  · rw [if_neg hin] at ha
    rw [List.getElem?_eq_none (by simpa using hin), Option.getD_none, ha]

theorem WritesCoils.eq {quantity : ℕ} {states : ℕ → Bool}
    (h : WritesCoils address quantity (fun n => some (states n)) t t') :
    t' = t.writeCoils address ((List.range quantity).map states) := by
  obtain ⟨hset, hregs⟩ := h
  cases t'
  rw [Table.writeCoils, ← overwrite_of_setsRange hset]
  exact congrArg _ hregs

theorem WritesRegs.eq {quantity : ℕ} {values : ℕ → UInt16}
    (h : WritesRegs address quantity (fun n => some (values n)) t t') :
    t' = t.writeRegs address ((List.range quantity).map values) := by
  obtain ⟨hset, hcoils⟩ := h
  cases t'
  rw [Table.writeRegs, ← overwrite_of_setsRange hset]
  cases hcoils
  rfl

theorem overwrite_one {β : Type*} (v : β) (entries : UInt16 → β) :
    overwrite address [v] entries = Function.update entries address v := by
  have hset := (setsRange_zero address (fun _ => some v) entries).succ (by decide) rfl
  have h := overwrite_of_setsRange hset
  rw [show address + UInt16.ofNat 0 = address from UInt16.add_zero address] at h
  exact h.symm

theorem present_one {has : UInt16 → Bool} : Present has address 1 ↔ has address = true := by
  rw [Present, Nat.forall_lt_succ_left]
  simp

end Tables

/-! ## Handlers -/

/-- How a handler ends, and what the device does with the request. -/
inductive Agrees {σ : Type*} (view : σ → Table) (connection : ModbusClientConnection)
    (w : ServerWorld σ) (o : Outcome σ) : Except Refusal (Table × List UInt8) → Prop
  | answered (response : List UInt8) (responseAdu : Memory UInt8) (hok : o.1 = .noError)
      (hconnection : o.2.1 = connection.answering responseAdu response.length)
      (hresponse : (pdu responseAdu).read 0 response.length = response) :
      Agrees view connection w o (.ok (view o.2.2.user, response))
  | refused (responseAdu : Memory UInt8) (herror : isException o.1 = true)
      (hconnection : o.2.1 = connection.withResponse responseAdu)
      (htable : view o.2.2.user = view w.user) :
      Agrees view connection w o (.error (.exception (modbusServerTranslateExceptionCode o.1)))
  | malformed (herror : o.1 = .invalidLength) (htable : view o.2.2.user = view w.user) :
      Agrees view connection w o (.error .malformed)

section Handlers

variable {σ : Type*} {settings : ModbusServerSettings σ} {view : σ → Table} {d : Device}
  {connection : ModbusClientConnection} {w : ServerWorld σ} {t : Table} {bytes : List UInt8}

theorem Agrees.ite {p p' : Prop} [Decidable p] [Decidable p'] (hiff : p ↔ p') {a b : Outcome σ}
    {x y : Except Refusal Command} (ha : p → Agrees view connection w a (d.carryOut t bytes x))
    (hb : ¬p → Agrees view connection w b (d.carryOut t bytes y)) :
    Agrees view connection w (if p then a else b) (d.carryOut t bytes (if p' then x else y)) := by
  by_cases h : p
  · rw [if_pos h, if_pos (hiff.1 h)]
    exact ha h
  · rw [if_neg h, if_neg fun h' => h (hiff.2 h')]
    exact hb h

/-- The end of a handler: the status of the callbacks is reported, or a response is formatted. -/
theorem Agrees.report (hpos : headerSize ≤ connection.requestAduPos) {status : ErrorCode}
    {p : Prop} [Decidable p] (hstatus : status = if p then .noError else .invalidAddress)
    {command : Command} {t' : Table} {data : List UInt8}
    (hexecute : d.execute t command = if p then some (t', data) else none) {w' : ServerWorld σ}
    (hkept : ¬p → view w'.user = view w.user) (htable : p → view w'.user = t')
    {responseAdu : Memory UInt8} (responseAdu' : Memory UInt8) {n : ℕ}
    (hlength : p → n = (Device.respond bytes data command).length)
    (hresponse : p → (pdu responseAdu).read 0 n = Device.respond bytes data command) :
    Agrees view connection w
      (if status ≠ .noError then (status, connection.withResponse responseAdu', w')
        else finish (connection.withResponse responseAdu) n w')
      (d.carryOut t bytes (.ok command)) := by
  rw [Device.carryOut, hexecute]
  by_cases hp : p
  · rw [if_pos hp] at hstatus
    rw [if_neg (not_not_intro hstatus), finish,
      modbusServerFormatMbapHeader_answering (connection.withResponse responseAdu) n hpos,
      if_pos hp, ← htable hp]
    have hn := hlength hp
    subst hn
    exact .answered _ responseAdu rfl rfl (hresponse hp)
  · rw [if_neg hp] at hstatus
    subst hstatus
    rw [if_pos (by decide), if_neg hp]
    exact .refused (o := (.invalidAddress, _, w')) responseAdu' rfl rfl (hkept hp)

variable (h : ServesDevice settings view d) (hpos : headerSize ≤ connection.requestAduPos)
  (request : Memory UInt8) (length : ℕ)
include h hpos

theorem processReadBitsReq_agrees :
    Agrees view connection w (processReadBitsReq settings connection request length w)
      (d.carryOut (view w.user) (request.read 0 length)
        (decodeRead 2000 .readCoils (request.read 0 length))) := by
  rw [decodeRead, Memory.length_read]
  refine .ite Iff.rfl (fun _ => .malformed rfl rfl) fun hlength => ?_
  have hwords : wordAt (request.read 0 length) 1 = request.getU16 1 ∧
      wordAt (request.read 0 length) 3 = request.getU16 3 :=
    ⟨wordAt_read (by omega), wordAt_read (by omega)⟩
  rw [hwords.1, hwords.2]
  refine .ite Iff.rfl (fun _ => .refused connection.responseAdu rfl rfl rfl) fun hquantity => ?_
  set quantity := (request.getU16 3).toNat
  have hbytes : 1 ≤ coilBytes quantity ∧ coilBytes quantity < 256 := by
    simp only [coilBytes]
    omega
  set m₀ : Memory UInt8 := Function.update (Function.update connection.responseAdu headerSize
    (request 0)) (headerSize + 1) (UInt8.ofNat (coilBytes quantity)) with hm₀
  set m : Memory UInt8 := if quantity % 8 ≠ 0 then
    Function.update m₀ (headerSize + 2 + (coilBytes quantity - 1)) 0 else m₀ with hm
  have hfront : ∀ p, p < headerSize + 2 → m p = m₀ p := by
    intro p hp
    rw [hm]
    split
    · rw [Function.update_of_ne (by omega)]
    · rfl
  -- the bits behind the last coil lie in the byte that was cleared
  have hpadding : ∀ n, quantity ≤ n → n < 8 * coilBytes quantity →
      m.testBit (headerSize + 2) n = false := by
    intro n hn hlt
    have hlast : n / 8 = coilBytes quantity - 1 := by
      simp only [coilBytes] at hlt ⊢
      omega
    rw [hm, if_pos (by simp only [coilBytes] at hlt; omega), Memory.testBit, hlast,
      Function.update_self]
    exact Memory.bit_zero _
  have hbelow := fun p (hp : p < headerSize + 2) => readCoils_below settings (request.getU16 1)
    hp quantity 0 m (modbusServerLock settings w)
  have hcode : (readCoils settings (request.getU16 1) (headerSize + 2) quantity 0 m
      (modbusServerLock settings w)).2.1 headerSize = request 0 := by
    rw [hbelow _ (by omega), hfront _ (by omega), hm₀, Function.update_of_ne (by omega),
      Function.update_self]
  have hcount : (readCoils settings (request.getU16 1) (headerSize + 2) quantity 0 m
      (modbusServerLock settings w)).2.1 (headerSize + 1) = UInt8.ofNat (coilBytes quantity) := by
    rw [hbelow _ (by omega), hfront _ (by omega), hm₀, Function.update_self]
  have hview := readCoils_view h (request.getU16 1) (headerSize + 2) quantity m
    (modbusServerLock settings w)
  rw [h.twoPhase.lock_view] at hview
  have hfirst : byteAt (request.read 0 length) 0 = request 0 := byteAt_read (by omega)
  have hresponse (hpresent : Present d.hasCoil (request.getU16 1) quantity) :=
    read_dataResponse (hcode.trans hfirst.symm) (hcount.trans (congrArg _
      (length_packCoils quantity fun n => (view w.user).coils
        (request.getU16 1 + UInt16.ofNat n)).symm)) (by rw [length_packCoils]; exact hbytes.2) (by
      rw [length_packCoils]
      refine read_packCoils fun n hn => ?_
      rw [pdu_testBit, readCoils_bits h hpresent, h.twoPhase.lock_view]
      split
      case isTrue => rfl
      case isFalse hlast => exact hpadding n (by omega) hn)
  exact .report hpos (readCoils_status h ..) rfl (fun _ => (h.twoPhase.unlock_view _).trans hview)
    (fun _ => (h.twoPhase.unlock_view _).trans hview) _ (fun hpresent => (hresponse hpresent).1)
    fun hpresent => (hresponse hpresent).2

omit hpos in
theorem readRegs_response (bytes : List UInt8) {address : UInt16} {quantity : ℕ}
    (hpresent : Present d.hasReg address quantity) (hquantity : quantity ≤ 125)
    (responseAdu : Memory UInt8) (w' : ServerWorld σ) :
    let r := readRegs settings address (headerSize + 2) quantity 0
      (Function.update (Function.update responseAdu headerSize (byteAt bytes 0)) (headerSize + 1)
        (UInt8.ofNat (quantity * 2))) w'
    let data := (view w'.user).packRegs address quantity
    2 + (r.2.1 (headerSize + 1)).toNat = (dataResponse bytes data).length ∧
      (pdu r.2.1).read 0 (2 + (r.2.1 (headerSize + 1)).toNat) = dataResponse bytes data := by
  intro r data
  have hlength : data.length = quantity * 2 := length_packRegs _ _
  have hbelow := fun p (hp : p < headerSize + 2) => readRegs_below settings address hp quantity 0
    (Function.update (Function.update responseAdu headerSize (byteAt bytes 0)) (headerSize + 1)
      (UInt8.ofNat (quantity * 2))) w'
  refine read_dataResponse ?_ ?_ (by omega) ?_
  · rw [hbelow _ (by omega), Function.update_of_ne (by omega), Function.update_self]
  · rw [hbelow _ (by omega), Function.update_self, hlength]
  · rw [hlength]
    refine read_packRegs fun n hn => ?_
    rw [pdu_getU16, ← Nat.add_assoc, readRegs_words h hpresent _ _ _ hn]

theorem processReadRegsReq_agrees :
    Agrees view connection w (processReadRegsReq settings connection request length w)
      (d.carryOut (view w.user) (request.read 0 length)
        (decodeRead 125 .readRegs (request.read 0 length))) := by
  rw [decodeRead, Memory.length_read]
  refine .ite Iff.rfl (fun _ => .malformed rfl rfl) fun hlength => ?_
  rw [wordAt_read (by omega), wordAt_read (by omega)]
  refine .ite Iff.rfl (fun _ => .refused connection.responseAdu rfl rfl rfl) fun hquantity => ?_
  have hview := h.twoPhase.readRegs_view (request.getU16 1) (headerSize + 2)
    (request.getU16 3).toNat 0 (Function.update (Function.update connection.responseAdu headerSize
      (request 0)) (headerSize + 1) (UInt8.ofNat ((request.getU16 3).toNat * 2)))
    (modbusServerLock settings w)
  rw [h.twoPhase.lock_view] at hview
  have hresponse (hpresent : Present d.hasReg (request.getU16 1) (request.getU16 3).toNat) :=
    readRegs_response h (request.read 0 length) hpresent (by omega) connection.responseAdu
      (modbusServerLock settings w)
  have hfirst : byteAt (request.read 0 length) 0 = request 0 := byteAt_read (by omega)
  rw [hfirst, h.twoPhase.lock_view] at hresponse
  exact .report hpos (readRegs_status h ..) rfl (fun _ => (h.twoPhase.unlock_view _).trans hview)
    (fun _ => (h.twoPhase.unlock_view _).trans hview) _ (fun hpresent => (hresponse hpresent).1)
    fun hpresent => (hresponse hpresent).2

omit h hpos in
/-- The response of a handler that writes. -/
theorem echo_response {words : ℕ} (hlength : 1 + 2 * words ≤ length) (responseAdu : Memory UInt8) :
    1 + 2 * words = ((request.read 0 length).take (1 + 2 * words)).length ∧
      (pdu (echoResponse request words responseAdu)).read 0 (1 + 2 * words)
        = (request.read 0 length).take (1 + 2 * words) := by
  constructor
  · rw [List.length_take, Memory.length_read]
    omega
  · exact (echoes_echoResponse request words responseAdu).read hlength

theorem modbusServerProcessWriteSingleCoilReq_agrees :
    Agrees view connection w
      (modbusServerProcessWriteSingleCoilReq settings connection request length w)
      (d.carryOut (view w.user) (request.read 0 length)
        (decodeWriteSingleCoil (request.read 0 length))) := by
  rw [decodeWriteSingleCoil, Memory.length_read]
  refine .ite Iff.rfl (fun _ => .malformed rfl rfl) fun hlength => ?_
  rw [wordAt_read (by omega), wordAt_read (by omega)]
  refine .ite Iff.rfl (fun _ => .refused connection.responseAdu rfl rfl rfl) fun _ => ?_
  set state := decide (request.getU16 3 = coilStateOn)
  have hstatus := h.writeCoil_status (request.getU16 1) state true (modbusServerLock settings w)
  have hview := h.twoPhase.commitCoil_view (request.getU16 1) state (modbusServerLock settings w)
  rw [hstatus, h.twoPhase.lock_view] at hview
  have hecho := echo_response request length (show 1 + 2 * 2 ≤ length by omega) connection.responseAdu
  have hpresent : Present d.hasCoil (request.getU16 1) [state].length
      ↔ d.hasCoil (request.getU16 1) = true := present_one
  refine .report hpos (hstatus.trans (by simp only [hpresent])) rfl (fun hno => ?_) (fun hyes => ?_)
    connection.responseAdu (fun _ => hecho.1) fun _ => hecho.2
  · rw [h.twoPhase.unlock_view, hview, if_neg fun hyes => hno (hpresent.2 hyes), if_neg (by decide)]
  · rw [h.twoPhase.unlock_view, hview, if_pos (hpresent.1 hyes), if_pos rfl, Table.setCoil,
      Table.writeCoils, overwrite_one]

theorem modbusServerProcessWriteSingleRegReq_agrees :
    Agrees view connection w
      (modbusServerProcessWriteSingleRegReq settings connection request length w)
      (d.carryOut (view w.user) (request.read 0 length)
        (decodeWriteSingleReg (request.read 0 length))) := by
  rw [decodeWriteSingleReg, Memory.length_read]
  refine .ite Iff.rfl (fun _ => .malformed rfl rfl) fun hlength => ?_
  rw [wordAt_read (by omega), wordAt_read (by omega)]
  have hstatus := h.writeReg_status (request.getU16 1) (request.getU16 3) true
    (modbusServerLock settings w)
  have hview := h.twoPhase.commitReg_view (request.getU16 1) (request.getU16 3)
    (modbusServerLock settings w)
  rw [hstatus, h.twoPhase.lock_view] at hview
  have hecho := echo_response request length (show 1 + 2 * 2 ≤ length by omega) connection.responseAdu
  have hpresent : Present d.hasReg (request.getU16 1) [request.getU16 3].length
      ↔ d.hasReg (request.getU16 1) = true := present_one
  refine .report hpos (hstatus.trans (by simp only [hpresent])) rfl (fun hno => ?_) (fun hyes => ?_)
    connection.responseAdu (fun _ => hecho.1) fun _ => hecho.2
  · rw [h.twoPhase.unlock_view, hview, if_neg fun hyes => hno (hpresent.2 hyes), if_neg (by decide)]
  · rw [h.twoPhase.unlock_view, hview, if_pos (hpresent.1 hyes), if_pos rfl, Table.setReg,
      Table.writeRegs, overwrite_one]

theorem modbusServerProcessMaskWriteRegReq_agrees :
    Agrees view connection w
      (modbusServerProcessMaskWriteRegReq settings connection request length w)
      (d.carryOut (view w.user) (request.read 0 length)
        (decodeMaskWriteReg (request.read 0 length))) := by
  rw [decodeMaskWriteReg, Memory.length_read]
  refine .ite Iff.rfl (fun _ => .malformed rfl rfl) fun hlength => ?_
  rw [wordAt_read (by omega), wordAt_read (by omega), wordAt_read (by omega)]
  obtain ⟨hread, hvalue, hkept⟩ := h.readReg_eq (request.getU16 1) (modbusServerLock settings w)
  rw [h.twoPhase.lock_view] at hvalue hkept
  have hecho := echo_response request length (show 1 + 2 * 3 ≤ length by omega) connection.responseAdu
  have hpresent : Present d.hasReg (request.getU16 1) 1 ↔ d.hasReg (request.getU16 1) = true :=
    present_one
  by_cases hthere : d.hasReg (request.getU16 1) = true
  · rw [if_pos hthere] at hread
    have hstatus := h.writeReg_status (request.getU16 1)
      (((view w.user).regs (request.getU16 1) &&& request.getU16 3) |||
        (request.getU16 5 &&& ~~~request.getU16 3)) true
      (modbusServerReadReg settings (request.getU16 1) (modbusServerLock settings w)).2.2
    have hview := h.twoPhase.commitReg_view (request.getU16 1)
      (((view w.user).regs (request.getU16 1) &&& request.getU16 3) |||
        (request.getU16 5 &&& ~~~request.getU16 3))
      (modbusServerReadReg settings (request.getU16 1) (modbusServerLock settings w)).2.2
    rw [hstatus, if_pos hthere, if_pos rfl, hkept] at hview
    simp only [hread, if_true, hvalue hthere]
    refine .report hpos (hstatus.trans (by simp only [hpresent])) rfl
      (fun hno => absurd (hpresent.2 hthere) hno) (fun _ => ?_) connection.responseAdu
      (fun _ => hecho.1) fun _ => hecho.2
    rw [h.twoPhase.unlock_view, hview, Table.setReg, Table.writeRegs, overwrite_one]
  · rw [if_neg hthere] at hread
    simp only [hread]
    refine .report hpos (p := Present d.hasReg (request.getU16 1) 1) ?_ rfl
      (fun _ => (h.twoPhase.unlock_view _).trans hkept) (fun hyes => absurd (hpresent.1 hyes) hthere)
      connection.responseAdu (fun _ => hecho.1) fun _ => hecho.2
    rw [if_neg fun hyes => hthere (hpresent.1 hyes)]
    rfl

theorem modbusServerProcessWriteMultipleCoilsReq_agrees :
    Agrees view connection w
      (modbusServerProcessWriteMultipleCoilsReq settings connection request length w)
      (d.carryOut (view w.user) (request.read 0 length)
        (decodeWriteMultiple 2000 coilBytes
          (fun a n => .writeCoils a (bitsAt (request.read 0 length) 6 n))
          (request.read 0 length))) := by
  rw [decodeWriteMultiple, Memory.length_read]
  refine .ite Iff.rfl (fun _ => .malformed rfl rfl) fun hshort => ?_
  rw [byteAt_read (by omega), wordAt_read (by omega), wordAt_read (by omega)]
  refine .ite (by omega) (fun _ => .malformed rfl rfl) fun hlength => ?_
  refine .ite Iff.rfl (fun _ => .refused connection.responseAdu rfl rfl rfl) fun hquantity => ?_
  refine .ite Iff.rfl (fun _ => .refused connection.responseAdu rfl rfl rfl) fun hcount => ?_
  rw [not_not] at hcount
  rw [bitsAt_read (by omega)]
  set quantity := (request.getU16 3).toNat
  obtain ⟨hnothing, hall⟩ := writeCoilsTwoPhase_all h.twoPhase (request.getU16 1) request 6
    (show quantity ≤ 65536 by omega) (modbusServerLock settings w)
  have hstatus := writeCoilsTwoPhase_status h (request.getU16 1) request 6 quantity
    (modbusServerLock settings w)
  rw [h.twoPhase.lock_view] at hnothing hall
  have hecho := echo_response request length (show 1 + 2 * 2 ≤ length by omega) connection.responseAdu
  have hlen : ((List.range quantity).map (request.testBit 6)).length = quantity := by simp
  refine .report hpos hstatus (by rw [Device.execute, hlen]) (fun hno => ?_) (fun hyes => ?_)
    connection.responseAdu (fun _ => hecho.1) fun _ => hecho.2
  · rw [if_neg hno] at hstatus
    exact (h.twoPhase.unlock_view _).trans (hnothing (by rw [hstatus]; decide))
  · rw [if_pos hyes] at hstatus
    exact (h.twoPhase.unlock_view _).trans (hall hstatus).eq

theorem modbusServerProcessWriteMultipleRegsReq_agrees :
    Agrees view connection w
      (modbusServerProcessWriteMultipleRegsReq settings connection request length w)
      (d.carryOut (view w.user) (request.read 0 length)
        (decodeWriteMultiple 123 (· * 2)
          (fun a n => .writeRegs a (wordsAt (request.read 0 length) 6 n))
          (request.read 0 length))) := by
  rw [decodeWriteMultiple, Memory.length_read]
  refine .ite Iff.rfl (fun _ => .malformed rfl rfl) fun hshort => ?_
  rw [byteAt_read (by omega), wordAt_read (by omega), wordAt_read (by omega)]
  refine .ite (by omega) (fun _ => .malformed rfl rfl) fun hlength => ?_
  refine .ite Iff.rfl (fun _ => .refused connection.responseAdu rfl rfl rfl) fun hquantity => ?_
  refine .ite Iff.rfl (fun _ => .refused connection.responseAdu rfl rfl rfl) fun hcount => ?_
  rw [not_not] at hcount
  rw [wordsAt_read (by omega)]
  set quantity := (request.getU16 3).toNat
  obtain ⟨hnothing, hall⟩ := writeRegsTwoPhase_all h.twoPhase (request.getU16 1) request 6
    (show quantity ≤ 65536 by omega) (modbusServerLock settings w)
  have hstatus := writeRegsTwoPhase_status h (request.getU16 1) request 6 quantity
    (modbusServerLock settings w)
  rw [h.twoPhase.lock_view] at hnothing hall
  have hecho := echo_response request length (show 1 + 2 * 2 ≤ length by omega) connection.responseAdu
  have hlen : ((List.range quantity).map fun n => request.getU16 (6 + 2 * n)).length = quantity := by
    simp
  refine .report hpos hstatus (by rw [Device.execute, hlen]) (fun hno => ?_) (fun hyes => ?_)
    connection.responseAdu (fun _ => hecho.1) fun _ => hecho.2
  · rw [if_neg hno] at hstatus
    exact (h.twoPhase.unlock_view _).trans (hnothing (by rw [hstatus]; decide))
  · rw [if_pos hyes] at hstatus
    exact (h.twoPhase.unlock_view _).trans (hall hstatus).eq

/-- A request that announces more values than it holds is carried out with what the buffer holds behind
it, and the device refuses it. -/
theorem modbusServerProcessReadWriteMultipleRegsReq_agrees
    (hcode : request 0 = functionReadWriteMultipleRegs) (hend : ¬ ReadsPastEnd length request) :
    Agrees view connection w
      (modbusServerProcessReadWriteMultipleRegsReq settings connection request length w)
      (d.carryOut (view w.user) (request.read 0 length)
        (decodeReadWriteMultipleRegs (request.read 0 length))) := by
  rw [decodeReadWriteMultipleRegs, Memory.length_read]
  refine .ite Iff.rfl (fun _ => .malformed rfl rfl) fun hshort => ?_
  rw [byteAt_read (by omega), wordAt_read (by omega), wordAt_read (by omega), wordAt_read (by omega),
    wordAt_read (by omega)]
  refine .ite (by omega) (fun _ => .malformed rfl rfl) fun hlength => ?_
  refine .ite Iff.rfl (fun _ => .refused connection.responseAdu rfl rfl rfl) fun hread => ?_
  refine .ite Iff.rfl (fun _ => .refused connection.responseAdu rfl rfl rfl) fun hwrite => ?_
  refine .ite Iff.rfl (fun _ => .refused connection.responseAdu rfl rfl rfl) fun hcount => ?_
  rw [not_not] at hcount
  have hfits : ¬ length < 10 + (request 9).toNat := fun hlt =>
    hend ⟨hcode, by omega, by omega, by omega, hcount, by omega, by omega⟩
  rw [if_neg hfits, wordsAt_read (by omega)]
  set readQuantity := (request.getU16 3).toNat
  set writeQuantity := (request.getU16 7).toNat
  set response : Memory UInt8 := Function.update (Function.update connection.responseAdu headerSize
    (request 0)) (headerSize + 1) (UInt8.ofNat (readQuantity * 2)) with hresponseAdu
  have hlen : ((List.range writeQuantity).map fun n => request.getU16 (10 + 2 * n)).length
      = writeQuantity := by simp
  have hview := h.twoPhase.readRegs_view (request.getU16 1) (headerSize + 2) readQuantity 0 response
    (modbusServerLock settings w)
  have hstatus := readRegs_status h (request.getU16 1) (headerSize + 2) readQuantity response
    (modbusServerLock settings w)
  have hresponse (hpresent : Present d.hasReg (request.getU16 1) readQuantity) :=
    readRegs_response h (request.read 0 length) hpresent (by omega) connection.responseAdu
      (modbusServerLock settings w)
  have hfirst : byteAt (request.read 0 length) 0 = request 0 := byteAt_read (by omega)
  rw [hfirst, h.twoPhase.lock_view, ← hresponseAdu] at hresponse
  rw [h.twoPhase.lock_view] at hview
  have hexecute : d.execute (view w.user) (.readWriteRegs (request.getU16 1) readQuantity
      (request.getU16 5) ((List.range writeQuantity).map fun n => request.getU16 (10 + 2 * n)))
      = if Present d.hasReg (request.getU16 1) readQuantity ∧
          Present d.hasReg (request.getU16 5) writeQuantity then
        some ((view w.user).writeRegs (request.getU16 5)
          ((List.range writeQuantity).map fun n => request.getU16 (10 + 2 * n)),
          (view w.user).packRegs (request.getU16 1) readQuantity)
      else none := by
    rw [Device.execute, hlen]
  dsimp only
  generalize readRegs settings (request.getU16 1) (headerSize + 2) readQuantity 0 response
    (modbusServerLock settings w) = r at hview hstatus hresponse ⊢
  by_cases hread : Present d.hasReg (request.getU16 1) readQuantity
  · rw [if_pos hread] at hstatus
    obtain ⟨hnothing, hall⟩ := writeRegsTwoPhase_all h.twoPhase (request.getU16 5) request 10
      (show writeQuantity ≤ 65536 by omega) r.2.2
    have hwritten := writeRegsTwoPhase_status h (request.getU16 5) request 10 writeQuantity r.2.2
    rw [hview] at hnothing hall
    simp only [hstatus, if_true]
    simp only [hread, true_and] at hexecute
    refine .report hpos hwritten hexecute (fun hno => ?_) (fun hyes => ?_) _
      (fun _ => (hresponse hread).1) fun _ => (hresponse hread).2
    · rw [if_neg hno] at hwritten
      exact (h.twoPhase.unlock_view _).trans (hnothing (by rw [hwritten]; decide))
    · rw [if_pos hyes] at hwritten
      exact (h.twoPhase.unlock_view _).trans (hall hwritten).eq
  · rw [if_neg hread] at hstatus
    simp only [hstatus]
    simp only [hread, false_and] at hexecute
    refine .report hpos (p := False) (by rw [if_neg id]; rfl) hexecute (fun _ => ?_) False.elim _
      False.elim False.elim
    exact (h.twoPhase.unlock_view _).trans hview

/-- The handler that is chosen does what the device does with a request of at least one byte. -/
theorem dispatch_agrees (hlength : 0 < length) (hend : ¬ ReadsPastEnd length request) :
    Agrees view connection w (dispatch settings connection request length w)
      (d.carryOut (view w.user) (request.read 0 length) (decode (request.read 0 length))) := by
  rw [decode, if_neg (by rw [Memory.length_read]; omega), byteAt_read hlength]
  by_cases hbits : request 0 = functionReadCoils ∨ request 0 = functionReadDiscreteInputs
  · rw [dispatch_readBits settings hbits, if_pos hbits]
    exact processReadBitsReq_agrees h hpos request length
  rw [if_neg hbits]
  by_cases hregs : request 0 = functionReadHoldingRegs ∨ request 0 = functionReadInputRegs
  · rw [dispatch_readRegs settings hregs, if_pos hregs]
    exact processReadRegsReq_agrees h hpos request length
  rw [if_neg hregs, dispatch, if_neg fun hc => hbits (.inl hc), if_neg fun hc => hbits (.inr hc),
    if_neg fun hc => hregs (.inl hc), if_neg fun hc => hregs (.inr hc)]
  refine .ite Iff.rfl
    (fun _ => modbusServerProcessWriteSingleCoilReq_agrees h hpos request length) fun _ => ?_
  refine .ite Iff.rfl
    (fun _ => modbusServerProcessWriteSingleRegReq_agrees h hpos request length) fun _ => ?_
  refine .ite Iff.rfl
    (fun _ => modbusServerProcessWriteMultipleCoilsReq_agrees h hpos request length) fun _ => ?_
  refine .ite Iff.rfl
    (fun _ => modbusServerProcessWriteMultipleRegsReq_agrees h hpos request length) fun _ => ?_
  refine .ite Iff.rfl
    (fun _ => modbusServerProcessMaskWriteRegReq_agrees h hpos request length) fun _ => ?_
  refine .ite Iff.rfl (fun hcode =>
    modbusServerProcessReadWriteMultipleRegsReq_agrees h hpos request length hcode hend) fun _ => ?_
  exact .refused connection.responseAdu rfl rfl rfl

end Handlers

/-! ## Requests -/

/-- The request announces more values than it holds, and the handler accepts it nevertheless. -/
def Truncated (bytes : List UInt8) : Prop := ReadsPastEnd bytes.length (bytesOf bytes)

instance (bytes : List UInt8) : Decidable (Truncated bytes) :=
  inferInstanceAs (Decidable (ReadsPastEnd _ _))

/-- The PDU in the request buffer. -/
def ModbusClientConnection.requestPdu (connection : ModbusClientConnection) : List UInt8 :=
  (modbusServerGetRequestPdu connection).1.read 0 (modbusServerGetRequestPdu connection).2

/-- The ADU in the response buffer. -/
def ModbusClientConnection.responseBytes (connection : ModbusClientConnection) : List UInt8 :=
  connection.responseAdu.read 0 connection.responseAduLen

/-- The response goes out behind the identifiers of the request, and its length. -/
def replyBytes (requestAdu : Memory UInt8) (response : List UInt8) : List UInt8 :=
  requestAdu.read 0 4 ++ ([Memory.hi8 (UInt16.ofNat (response.length + 1)),
    Memory.lo8 (UInt16.ofNat (response.length + 1)), requestAdu 6] ++ response)

/-- How the processing of a request ends: the device answers it, or gives it up. -/
inductive Served {σ : Type*} (view : σ → Table) (d : Device) (connection : ModbusClientConnection)
    (w : ServerWorld σ) (o : Outcome σ) : Prop
  | answered (response : List UInt8)
      (hanswer : d.answer (view w.user) connection.requestPdu = (view o.2.2.user, some response))
      (hok : o.1 = .noError) (hstate : o.2.1.state = .sending) (hpos : o.2.1.responseAduPos = 0)
      (hrequest : o.2.1.requestAdu = connection.requestAdu ∧
        o.2.1.requestPdu = connection.requestPdu)
      (hbytes : o.2.1.responseBytes = replyBytes connection.requestAdu response)
  | malformed (hanswer : d.answer (view w.user) connection.requestPdu = (view o.2.2.user, none))
      (herror : o.1 = .invalidLength)

section Requests

variable {σ : Type*} {settings : ModbusServerSettings σ} {view : σ → Table} {d : Device}
  {connection : ModbusClientConnection}

theorem readsPastEnd_pdu {request : Memory UInt8} {length : ℕ}
    (h : ReadsPastEnd length request) : Truncated (request.read 0 length) := by
  rw [Truncated, Memory.length_read]
  refine h.congr fun i hi => ?_
  have hwrite := Memory.write_add (fun _ => (0 : UInt8)) 0 (request.read 0 length) (k := i)
    (by simpa using hi)
  rw [Nat.zero_add, Memory.getElem_read, Nat.zero_add] at hwrite
  exact hwrite.symm

theorem responseBytes_answering (connection : ModbusClientConnection) (responseAdu : Memory UInt8)
    {response : List UInt8}
    (h : (pdu responseAdu).read 0 response.length = response) :
    (connection.answering responseAdu response.length).responseBytes
      = replyBytes connection.requestAdu response := by
  have hpdu := (header_fields (rfl : (connection.answering responseAdu response.length).responseAdu
    = _)).2.2.2.2
  have hbehind : (connection.answering responseAdu response.length).responseAdu.read headerSize
      response.length = response := by
    rw [← Nat.add_zero headerSize, ← pdu_read, hpdu, h]
  have hfront : (connection.answering responseAdu response.length).responseAdu.read 0 headerSize
      = connection.requestAdu.read 0 4 ++ [Memory.hi8 (UInt16.ofNat (response.length + 1)),
        Memory.lo8 (UInt16.ofNat (response.length + 1)), connection.requestAdu 6] := by
    simp [Memory.read, List.range_succ, headerSize, ModbusClientConnection.answering, responseHeader,
      Memory.setU16_apply, Function.update_apply, Memory.getU16]
  rw [ModbusClientConnection.responseBytes, replyBytes, ← List.append_assoc, ← hfront]
  exact (Memory.read_add _ _ _ _).trans (by rw [Nat.zero_add, hbehind])

theorem read_exception (m : Memory UInt8) (a b : UInt8) :
    (pdu (Function.update (Function.update m headerSize a) (headerSize + 1) b)).read 0 [a, b].length
      = [a, b] := by
  have htwo (m : Memory UInt8) : (pdu m).read 0 2 = [m headerSize, m (headerSize + 1)] := rfl
  rw [List.length_cons, List.length_singleton, htwo, Function.update_self,
    Function.update_of_ne (by decide), Function.update_self]

/-- **Every request is served as the device serves it**: the table that the request leaves is the
device's, and the response that goes out is the device's, behind the header of the request. A request
that the device gives up is reported as `ERROR_INVALID_LENGTH`. -/
theorem modbusServerProcessRequest_served (h : ServesDevice settings view d)
    (hpos : headerSize ≤ connection.requestAduPos) (w : ServerWorld σ)
    (hend : ¬ Truncated connection.requestPdu) :
    Served view d connection w (modbusServerProcessRequest settings connection w) := by
  unfold ModbusClientConnection.requestPdu at hend
  unfold modbusServerProcessRequest
  dsimp only
  by_cases hlength : (modbusServerGetRequestPdu connection).2 = 0
  · rw [if_pos hlength]
    refine .malformed ?_ rfl
    rw [ModbusClientConnection.requestPdu, hlength]
    rfl
  rw [if_neg hlength]
  have hagrees := dispatch_agrees h hpos (modbusServerGetRequestPdu connection).1
    (modbusServerGetRequestPdu connection).2 (w := w.dumpRequestPdu
      ((modbusServerGetRequestPdu connection).1.read 0 (modbusServerGetRequestPdu connection).2))
    (by omega) fun hreads => hend (readsPastEnd_pdu hreads)
  have hanswer : d.answer (view w.user) connection.requestPdu
    = Device.reply (view w.user) connection.requestPdu
      (d.carryOut (view w.user) connection.requestPdu (decode connection.requestPdu)) := rfl
  have hfirst : byteAt connection.requestPdu 0 = (modbusServerGetRequestPdu connection).1 0 :=
    byteAt_read (by omega)
  rw [ServerWorld.dumpRequestPdu_user] at hagrees
  change Agrees view connection _ _
    (d.carryOut (view w.user) connection.requestPdu (decode connection.requestPdu)) at hagrees
  generalize dispatch settings connection (modbusServerGetRequestPdu connection).1
    (modbusServerGetRequestPdu connection).2 _ = r at hagrees ⊢
  generalize d.carryOut _ _ _ = x at hagrees hanswer
  cases hagrees with
  | answered response responseAdu hok hconnection hresponse =>
      rw [if_neg (by rw [hok]; decide)]
      refine .answered response hanswer hok ?_ ?_ ?_ ?_
      · rw [hconnection]
        rfl
      · rw [hconnection]
        rfl
      · rw [hconnection]
        exact ⟨rfl, rfl⟩
      · rw [hconnection]
        exact responseBytes_answering connection responseAdu hresponse
  | refused responseAdu herror hconnection htable =>
      rw [if_pos herror, hconnection, modbusServerFormatExceptionResp,
        modbusServerFormatMbapHeader_answering _ _ (by exact hpos)]
      rw [Device.reply, hfirst] at hanswer
      dsimp only
      set m := Function.update (Function.update (connection.withResponse responseAdu).responseAdu
        headerSize (exceptionMask ||| (modbusServerGetRequestPdu connection).1 0)) (headerSize + 1)
        (modbusServerTranslateExceptionCode r.1)
      have hbytes := responseBytes_answering (connection.withResponse responseAdu |>.withResponse m) m
        (read_exception responseAdu _ _)
      exact .answered _ (hanswer.trans (congrArg (·, _) htable.symm)) rfl rfl rfl ⟨rfl, rfl⟩ hbytes
  | malformed herror htable =>
      rw [if_neg (by rw [herror]; decide)]
      exact .malformed (hanswer.trans (congrArg (·, _) htable.symm)) herror

end Requests

end Modbus
