import CycloneTcp.Modbus.ServerRequest

/-! # A server in front of a table

The abstract state behind a Modbus server: a total table of coils and registers. `ServesTable` says
that callbacks which never fail implement it, whatever their own state is. For such callbacks each
handler succeeds on an acceptable request, and what it puts into the response and does to the table
is stated here handler by handler, field by field of the PDUs. -/

set_option autoImplicit false

namespace Modbus

/-- Coils and registers by address. -/
structure Table where
  coils : UInt16 → Bool
  regs : UInt16 → UInt16

namespace Table

/-- Set one coil. -/
def setCoil (t : Table) (address : UInt16) (state : Bool) : Table :=
  { t with coils := Function.update t.coils address state }

/-- Set one register. -/
def setReg (t : Table) (address value : UInt16) : Table :=
  { t with regs := Function.update t.regs address value }

/-- Set `quantity` coils from `address` on. -/
def setCoils (t : Table) (address : UInt16) (quantity : ℕ) (states : ℕ → Bool) : Table :=
  { t with coils := fun a =>
      if address.toNat ≤ a.toNat ∧ a.toNat < address.toNat + quantity then
        states (a.toNat - address.toNat)
      else t.coils a }

/-- Set `quantity` registers from `address` on. -/
def setRegs (t : Table) (address : UInt16) (quantity : ℕ) (values : ℕ → UInt16) : Table :=
  { t with regs := fun a =>
      if address.toNat ≤ a.toNat ∧ a.toNat < address.toNat + quantity then
        values (a.toNat - address.toNat)
      else t.regs a }

/-- Only the states of the range matter. -/
theorem setCoils_congr {t : Table} {address : UInt16} {quantity : ℕ} {states states' : ℕ → Bool}
    (h : ∀ i, i < quantity → states i = states' i) :
    t.setCoils address quantity states = t.setCoils address quantity states' := by
  simp only [setCoils, mk.injEq, and_true]
  funext a
  by_cases hin : address.toNat ≤ a.toNat ∧ a.toNat < address.toNat + quantity
  · rw [if_pos hin, if_pos hin, h _ (by omega)]
  · rw [if_neg hin, if_neg hin]

theorem setRegs_congr {t : Table} {address : UInt16} {quantity : ℕ} {values values' : ℕ → UInt16}
    (h : ∀ i, i < quantity → values i = values' i) :
    t.setRegs address quantity values = t.setRegs address quantity values' := by
  simp only [setRegs, mk.injEq, true_and]
  funext a
  by_cases hin : address.toNat ≤ a.toNat ∧ a.toNat < address.toNat + quantity
  · rw [if_pos hin, if_pos hin, h _ (by omega)]
  · rw [if_neg hin, if_neg hin]

theorem setCoils_zero (t : Table) (address : UInt16) (states : ℕ → Bool) :
    t.setCoils address 0 states = t := by
  have hcoils : ∀ a : UInt16, ¬ (address.toNat ≤ a.toNat ∧ a.toNat < address.toNat + 0) := by
    intro a
    omega
  simp only [setCoils, if_neg (hcoils _)]

theorem setRegs_zero (t : Table) (address : UInt16) (values : ℕ → UInt16) :
    t.setRegs address 0 values = t := by
  have hregs : ∀ a : UInt16, ¬ (address.toNat ≤ a.toNat ∧ a.toNat < address.toNat + 0) := by
    intro a
    omega
  simp only [setRegs, if_neg (hregs _)]

theorem toNat_add_ofNat {address : UInt16} {i : ℕ} (h : address.toNat + i < 65536) :
    (address + UInt16.ofNat i).toNat = address.toNat + i := by
  rw [UInt16.toNat_add, UInt16.toNat_ofNat']
  omega

theorem setCoils_succ (t : Table) {address : UInt16} {k : ℕ} (states : ℕ → Bool)
    (h : address.toNat + k < 65536) :
    (t.setCoils address k states).setCoil (address + UInt16.ofNat k) (states k)
      = t.setCoils address (k + 1) states := by
  have hk := toNat_add_ofNat h
  simp only [setCoils, setCoil, mk.injEq, and_true]
  funext a
  by_cases ha : a = address + UInt16.ofNat k
  · subst ha
    rw [Function.update_self, if_pos (by omega), hk, Nat.add_sub_cancel_left]
  · have hne : a.toNat ≠ address.toNat + k := fun heq => ha (UInt16.toNat_inj.1 (heq.trans hk.symm))
    rw [Function.update_of_ne ha]
    by_cases hin : address.toNat ≤ a.toNat ∧ a.toNat < address.toNat + k
    · rw [if_pos hin, if_pos (by omega)]
    · rw [if_neg hin, if_neg (by omega)]

theorem setRegs_succ (t : Table) {address : UInt16} {k : ℕ} (values : ℕ → UInt16)
    (h : address.toNat + k < 65536) :
    (t.setRegs address k values).setReg (address + UInt16.ofNat k) (values k)
      = t.setRegs address (k + 1) values := by
  have hk := toNat_add_ofNat h
  simp only [setRegs, setReg, mk.injEq, true_and]
  funext a
  by_cases ha : a = address + UInt16.ofNat k
  · subst ha
    rw [Function.update_self, if_pos (by omega), hk, Nat.add_sub_cancel_left]
  · have hne : a.toNat ≠ address.toNat + k := fun heq => ha (UInt16.toNat_inj.1 (heq.trans hk.symm))
    rw [Function.update_of_ne ha]
    by_cases hin : address.toNat ≤ a.toNat ∧ a.toNat < address.toNat + k
    · rw [if_pos hin, if_pos (by omega)]
    · rw [if_neg hin, if_neg (by omega)]

end Table

/-- The callbacks implement the table `view s`: they always succeed, and only a committed write
changes the table. -/
structure ServesTable {σ : Type*} (settings : ModbusServerSettings σ) (view : σ → Table) : Prop where
  lock : ∀ f ∈ settings.lockCallback, ∀ s, view (f s) = view s
  unlock : ∀ s, view (settings.unlockCallback s) = view s
  readCoil : ∃ f, settings.readCoilCallback = some f ∧ ∀ a s,
    (f a s).1 = .noError ∧ (f a s).2.1 = (view s).coils a ∧ view (f a s).2.2 = view s
  writeCoil : ∃ f, settings.writeCoilCallback = some f ∧ ∀ a b commit s,
    (f a b commit s).1 = .noError ∧
      view (f a b commit s).2 = if commit then (view s).setCoil a b else view s
  readReg : ∃ f, settings.readRegCallback = some f ∧ ∀ a s,
    (f a s).1 = .noError ∧ (f a s).2.1 = (view s).regs a ∧ view (f a s).2.2 = view s
  writeReg : ∃ f, settings.writeRegValueCallback = some f ∧ ∀ a v commit s,
    (f a v commit s).1 = .noError ∧
      view (f a v commit s).2 = if commit then (view s).setReg a v else view s

section Serves

variable {σ : Type*} {settings : ModbusServerSettings σ} {view : σ → Table}
  (h : ServesTable settings view)
include h

/-! ## Single accesses -/

theorem ServesTable.lock_view (w : ServerWorld σ) :
    view (modbusServerLock settings w).user = view w.user := by
  unfold modbusServerLock
  split
  · next f hf => exact h.lock f hf _
  · rfl

theorem ServesTable.unlock_view (w : ServerWorld σ) :
    view (modbusServerUnlock settings w).user = view w.user := by
  unfold modbusServerUnlock
  split
  · exact h.unlock _
  · rfl

theorem ServesTable.readCoil_eq (a : UInt16) (w : ServerWorld σ) :
    (modbusServerReadCoil settings a w).1 = .noError ∧
      (modbusServerReadCoil settings a w).2.1 = (view w.user).coils a ∧
      view (modbusServerReadCoil settings a w).2.2.user = view w.user := by
  obtain ⟨f, hf, hspec⟩ := h.readCoil
  simp only [modbusServerReadCoil, hf]
  exact hspec a w.user

theorem ServesTable.writeCoil_eq (a : UInt16) (b commit : Bool) (w : ServerWorld σ) :
    (modbusServerWriteCoil settings a b commit w).1 = .noError ∧
      view (modbusServerWriteCoil settings a b commit w).2.user
        = if commit then (view w.user).setCoil a b else view w.user := by
  obtain ⟨f, hf, hspec⟩ := h.writeCoil
  simp only [modbusServerWriteCoil, hf]
  exact hspec a b commit w.user

theorem ServesTable.readReg_eq (a : UInt16) (w : ServerWorld σ) :
    (modbusServerReadReg settings a w).1 = .noError ∧
      (modbusServerReadReg settings a w).2.1 = (view w.user).regs a ∧
      view (modbusServerReadReg settings a w).2.2.user = view w.user := by
  obtain ⟨f, hf, hspec⟩ := h.readReg
  simp only [modbusServerReadReg, hf]
  exact hspec a w.user

theorem ServesTable.writeReg_eq (a v : UInt16) (commit : Bool) (w : ServerWorld σ) :
    (modbusServerWriteReg settings a v commit w).1 = .noError ∧
      view (modbusServerWriteReg settings a v commit w).2.user
        = if commit then (view w.user).setReg a v else view w.user := by
  obtain ⟨f, hf, hspec⟩ := h.writeReg
  simp only [modbusServerWriteReg, hf]
  exact hspec a v commit w.user

/-! ## Loops -/

/-- `readCoils` succeeds, keeps the table, and sets exactly the bits of its range. -/
theorem readCoils_table (address : UInt16) (base k i : ℕ) (response : Memory UInt8)
    (w : ServerWorld σ) :
    (readCoils settings address base k i response w).1 = .noError ∧
      view (readCoils settings address base k i response w).2.2.user = view w.user ∧
      ∀ n, (readCoils settings address base k i response w).2.1.testBit base n
        = if i ≤ n ∧ n < i + k then (view w.user).coils (address + UInt16.ofNat n)
          else response.testBit base n := by
  induction k generalizing i response w with
  | zero =>
      refine ⟨rfl, rfl, fun n => ?_⟩
      rw [if_neg (by omega)]
      rfl
  | succ k ih =>
      obtain ⟨hok, hval, hview⟩ := h.readCoil_eq (address + UInt16.ofNat i) w
      simp only [readCoils]
      rw [if_pos hok]
      obtain ⟨hok', hview', hbits⟩ := ih (i + 1)
        (response.putBit base i (modbusServerReadCoil settings (address + UInt16.ofNat i) w).2.1)
        (modbusServerReadCoil settings (address + UInt16.ofNat i) w).2.2
      refine ⟨hok', hview'.trans hview, fun n => ?_⟩
      rw [hbits, hview, hval]
      by_cases hlater : i + 1 ≤ n ∧ n < i + 1 + k
      · rw [if_pos hlater, if_pos (by omega)]
      · have hbit := Memory.bit_putBit response base i
          ((view w.user).coils (address + UInt16.ofNat i)) (base + n / 8)
          (Nat.mod_lt n (by decide : 0 < 8))
        rw [if_neg hlater, Memory.testBit, hbit]
        by_cases heq : n = i
        · subst heq
          rw [if_pos ⟨rfl, rfl⟩, if_pos (by omega)]
        · rw [if_neg (by omega), if_neg (by omega)]
          rfl

/-- `readRegs` succeeds, keeps the table, and stores exactly the words of its range. -/
theorem readRegs_table (address : UInt16) (base k i : ℕ) (response : Memory UInt8)
    (w : ServerWorld σ) :
    (readRegs settings address base k i response w).1 = .noError ∧
      view (readRegs settings address base k i response w).2.2.user = view w.user ∧
      ∀ n, (readRegs settings address base k i response w).2.1.getU16 (base + 2 * n)
        = if i ≤ n ∧ n < i + k then (view w.user).regs (address + UInt16.ofNat n)
          else response.getU16 (base + 2 * n) := by
  induction k generalizing i response w with
  | zero =>
      refine ⟨rfl, rfl, fun n => ?_⟩
      rw [if_neg (by omega)]
      rfl
  | succ k ih =>
      obtain ⟨hok, hval, hview⟩ := h.readReg_eq (address + UInt16.ofNat i) w
      simp only [readRegs]
      rw [if_pos hok]
      obtain ⟨hok', hview', hwords⟩ := ih (i + 1)
        (response.setU16 (base + 2 * i)
          (modbusServerReadReg settings (address + UInt16.ofNat i) w).2.1)
        (modbusServerReadReg settings (address + UInt16.ofNat i) w).2.2
      refine ⟨hok', hview'.trans hview, fun n => ?_⟩
      rw [hwords, hview, hval]
      by_cases hlater : i + 1 ≤ n ∧ n < i + 1 + k
      · rw [if_pos hlater, if_pos (by omega)]
      · rw [if_neg hlater]
        by_cases heq : n = i
        · subst heq
          rw [Memory.getU16_setU16_self, if_pos (by omega)]
        · rw [Memory.getU16_setU16_of_ne _ _ (by omega), if_neg (by omega)]

/-- The validation phase keeps the table. -/
theorem writeCoils_validate (address : UInt16) (request : Memory UInt8) (base k i : ℕ)
    (w : ServerWorld σ) :
    (writeCoils settings address request base false k i w).1 = .noError ∧
      view (writeCoils settings address request base false k i w).2.user = view w.user := by
  induction k generalizing i w with
  | zero => exact ⟨rfl, rfl⟩
  | succ k ih =>
      obtain ⟨hok, hview⟩ := h.writeCoil_eq (address + UInt16.ofNat i) (request.testBit base i) false w
      simp only [writeCoils]
      rw [if_pos hok]
      obtain ⟨hok', hview'⟩ := ih (i + 1)
        (modbusServerWriteCoil settings (address + UInt16.ofNat i) (request.testBit base i) false w).2
      exact ⟨hok', hview'.trans hview⟩

theorem writeRegs_validate (address : UInt16) (request : Memory UInt8) (base k i : ℕ)
    (w : ServerWorld σ) :
    (writeRegs settings address request base false k i w).1 = .noError ∧
      view (writeRegs settings address request base false k i w).2.user = view w.user := by
  induction k generalizing i w with
  | zero => exact ⟨rfl, rfl⟩
  | succ k ih =>
      obtain ⟨hok, hview⟩ := h.writeReg_eq (address + UInt16.ofNat i)
        (request.getU16 (base + 2 * i)) false w
      simp only [writeRegs]
      rw [if_pos hok]
      obtain ⟨hok', hview'⟩ := ih (i + 1) (modbusServerWriteReg settings
        (address + UInt16.ofNat i) (request.getU16 (base + 2 * i)) false w).2
      exact ⟨hok', hview'.trans hview⟩

/-- The commit phase sets the coils of its range one after the other. -/
theorem writeCoils_commit (address : UInt16) (request : Memory UInt8) (base k i : ℕ)
    (w : ServerWorld σ) (t : Table) (hrange : address.toNat + (i + k) ≤ 65536)
    (ht : view w.user = t.setCoils address i (request.testBit base)) :
    (writeCoils settings address request base true k i w).1 = .noError ∧
      view (writeCoils settings address request base true k i w).2.user
        = t.setCoils address (i + k) (request.testBit base) := by
  induction k generalizing i w with
  | zero => exact ⟨rfl, ht⟩
  | succ k ih =>
      obtain ⟨hok, hview⟩ := h.writeCoil_eq (address + UInt16.ofNat i) (request.testBit base i) true w
      rw [if_pos rfl, ht, Table.setCoils_succ t _ (by omega)] at hview
      simp only [writeCoils]
      rw [if_pos hok]
      have hnext := ih (i + 1) _ (by omega) hview
      rwa [show i + 1 + k = i + (k + 1) by omega] at hnext

theorem writeRegs_commit (address : UInt16) (request : Memory UInt8) (base k i : ℕ)
    (w : ServerWorld σ) (t : Table) (hrange : address.toNat + (i + k) ≤ 65536)
    (ht : view w.user = t.setRegs address i fun n => request.getU16 (base + 2 * n)) :
    (writeRegs settings address request base true k i w).1 = .noError ∧
      view (writeRegs settings address request base true k i w).2.user
        = t.setRegs address (i + k) fun n => request.getU16 (base + 2 * n) := by
  induction k generalizing i w with
  | zero => exact ⟨rfl, ht⟩
  | succ k ih =>
      obtain ⟨hok, hview⟩ := h.writeReg_eq (address + UInt16.ofNat i)
        (request.getU16 (base + 2 * i)) true w
      rw [if_pos rfl, ht,
        Table.setRegs_succ t (fun n => request.getU16 (base + 2 * n)) (by omega)] at hview
      simp only [writeRegs]
      rw [if_pos hok]
      have hnext := ih (i + 1) _ (by omega) hview
      rwa [show i + 1 + k = i + (k + 1) by omega] at hnext

theorem writeCoilsTwoPhase_table (address : UInt16) (request : Memory UInt8) (base quantity : ℕ)
    (w : ServerWorld σ) (hrange : address.toNat + quantity ≤ 65536) :
    (writeCoilsTwoPhase settings address request base quantity w).1 = .noError ∧
      view (writeCoilsTwoPhase settings address request base quantity w).2.user
        = (view w.user).setCoils address quantity (request.testBit base) := by
  obtain ⟨hok, hview⟩ := writeCoils_validate h address request base quantity 0 w
  have hcommit := writeCoils_commit h address request base quantity 0
    (writeCoils settings address request base false quantity 0 w).2 (view w.user)
    (by omega) (by rw [hview, Table.setCoils_zero])
  simp only [writeCoilsTwoPhase]
  rw [if_pos hok]
  rwa [Nat.zero_add] at hcommit

theorem writeRegsTwoPhase_table (address : UInt16) (request : Memory UInt8) (base quantity : ℕ)
    (w : ServerWorld σ) (hrange : address.toNat + quantity ≤ 65536) :
    (writeRegsTwoPhase settings address request base quantity w).1 = .noError ∧
      view (writeRegsTwoPhase settings address request base quantity w).2.user
        = (view w.user).setRegs address quantity fun n => request.getU16 (base + 2 * n) := by
  obtain ⟨hok, hview⟩ := writeRegs_validate h address request base quantity 0 w
  have hcommit := writeRegs_commit h address request base quantity 0
    (writeRegs settings address request base false quantity 0 w).2 (view w.user)
    (by omega) (by rw [hview, Table.setRegs_zero])
  simp only [writeRegsTwoPhase]
  rw [if_pos hok]
  rwa [Nat.zero_add] at hcommit

end Serves

end Modbus
