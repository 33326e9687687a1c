import Mathlib.Data.Nat.Digits.Lemmas
import Mathlib.Tactic

set_option autoImplicit false

/-! # Numerals, and lists of numerals in a text

A numeral is a non-empty list of digits of a base. A list of numerals is written with a separator
between any two of them, and none of them may be above a bound. `Groups` is the grammar of such
texts; `groupsFrom` decides it from left to right, one character at a time, the way a scanner with
an accumulator does. -/

namespace Numeral

/-- How numerals are written: the base, the value of a character as a digit, the characters that
separate two numerals, and the largest value. No digit is a separator. -/
structure Format (α : Type*) where
  base : ℕ
  digit : α → Option ℕ
  sep : α → Bool
  max : ℕ
  base_pos : 0 < base
  digit_sep : ∀ c, sep c → digit c = none

namespace Format

variable {α : Type*} (f : Format α)

/-- The value of digits that follow digits of the value `v`. -/
def valueFrom (v : ℕ) : List α → Option ℕ
  | [] => some v
  | c :: g =>
      match f.digit c with
      | none => none
      | some d => valueFrom (f.base * v + d) g

/-- A numeral of the value `v`. -/
def Group (g : List α) (v : ℕ) : Prop := g ≠ [] ∧ f.valueFrom 0 g = some v ∧ v ≤ f.max

/-- Numerals with a separator between any two, and their values. -/
inductive Groups : List α → List ℕ → Prop
  | single {g : List α} {v : ℕ} : f.Group g v → Groups g [v]
  | cons {g s : List α} {c : α} {v : ℕ} {vs : List ℕ} :
      f.Group g v → f.sep c → Groups s vs → Groups (g ++ c :: s) (v :: vs)

/-- The values of a list of numerals whose first digits, of the value `p`, have been read. -/
def groupsFrom (p : Option ℕ) : List α → Option (List ℕ)
  | [] => p.map fun v => [v]
  | c :: s =>
      match f.digit c with
      | some d =>
          if f.base * p.getD 0 + d ≤ f.max then groupsFrom (some (f.base * p.getD 0 + d)) s
          else none
      | none =>
          if f.sep c then p.bind fun v => (groupsFrom none s).map (v :: ·) else none

variable {f} {g s : List α} {c : α} {v w d : ℕ} {vs : List ℕ} {p : Option ℕ}

/-! ## One numeral -/

theorem valueFrom_cons (h : f.digit c = some d) (v : ℕ) (g : List α) :
    f.valueFrom v (c :: g) = f.valueFrom (f.base * v + d) g := by
  rw [valueFrom, h]

/-- Further digits do not make a value smaller. -/
theorem le_of_valueFrom (h : f.valueFrom v g = some w) : v ≤ w := by
  induction g generalizing v with
  | nil => exact Nat.le_of_eq (Option.some.inj h)
  | cons c g ih =>
      cases hc : f.digit c with
      | none =>
          rw [valueFrom, hc] at h
          cases h
      | some d =>
          rw [valueFrom_cons hc] at h
          calc v ≤ f.base * v := Nat.le_mul_of_pos_left v f.base_pos
            _ ≤ f.base * v + d := Nat.le_add_right _ _
            _ ≤ w := ih h

/-! ## Reading a list of numerals -/

theorem groupsFrom_digit (h : f.digit c = some d) (hmax : f.base * p.getD 0 + d ≤ f.max) :
    f.groupsFrom p (c :: s) = f.groupsFrom (some (f.base * p.getD 0 + d)) s := by
  rw [groupsFrom, h]
  exact if_pos hmax

theorem groupsFrom_sep (h : f.sep c) :
    f.groupsFrom p (c :: s) = p.bind fun v => (f.groupsFrom none s).map (v :: ·) := by
  rw [groupsFrom, f.digit_sep c h]
  exact if_pos h

/-- Digits up to the end of the text or to the next separator. -/
theorem groupsFrom_group (h : f.valueFrom v g = some w) (hmax : w ≤ f.max) (s : List α) :
    f.groupsFrom (some v) (g ++ s) = f.groupsFrom (some w) s := by
  induction g generalizing v with
  | nil => rw [List.nil_append, Option.some.inj h]
  | cons c g ih =>
      cases hc : f.digit c with
      | none =>
          rw [valueFrom, hc] at h
          cases h
      | some d =>
          rw [valueFrom_cons hc] at h
          rw [List.cons_append, groupsFrom_digit (p := some v) hc ((le_of_valueFrom h).trans hmax)]
          exact ih h

theorem Group.read (h : f.Group g v) (s : List α) :
    f.groupsFrom none (g ++ s) = f.groupsFrom (some v) s := by
  obtain ⟨hne, hval, hmax⟩ := h
  cases g with
  | nil => exact absurd rfl hne
  | cons c g =>
      cases hc : f.digit c with
      | none =>
          rw [valueFrom, hc] at hval
          cases hval
      | some d =>
          rw [valueFrom_cons hc] at hval
          rw [List.cons_append, groupsFrom_digit (p := none) hc ((le_of_valueFrom hval).trans hmax)]
          exact groupsFrom_group hval hmax s

/-- What is left of a list of numerals in the middle of the first one. -/
def Rest (f : Format α) (v : ℕ) (s : List α) (vs : List ℕ) : Prop :=
  ∃ g w, f.valueFrom v g = some w ∧ w ≤ f.max ∧ (s = g ∧ vs = [w] ∨
    ∃ c s' vs', f.sep c ∧ f.Groups s' vs' ∧ s = g ++ c :: s' ∧ vs = w :: vs')

theorem Rest.digit (hc : f.digit c = some d) (h : Rest f (f.base * v + d) s vs) :
    Rest f v (c :: s) vs := by
  obtain ⟨g, w, hval, hmax, hrest⟩ := h
  refine ⟨c :: g, w, by rw [valueFrom_cons hc, hval], hmax, ?_⟩
  rcases hrest with ⟨rfl, hvs⟩ | ⟨c', s', vs', hsep, hgroups, rfl, hvs⟩
  · exact .inl ⟨rfl, hvs⟩
  · exact .inr ⟨c', s', vs', hsep, hgroups, rfl, hvs⟩

theorem Rest.groups (hc : f.digit c = some d) (h : Rest f d s vs) : f.Groups (c :: s) vs := by
  obtain ⟨g, w, hval, hmax, hrest⟩ := h
  have hgroup : f.Group (c :: g) w := by
    refine ⟨List.cons_ne_nil c g, ?_, hmax⟩
    rw [valueFrom_cons hc, Nat.mul_zero, Nat.zero_add, hval]
  rcases hrest with ⟨rfl, rfl⟩ | ⟨c', s', vs', hsep, hgroups, rfl, rfl⟩
  · exact .single hgroup
  · exact .cons hgroup hsep hgroups

/-- What is read from the start of the text and from the middle of a numeral. -/
theorem groupsFrom_sound (s : List α) :
    (∀ vs, f.groupsFrom none s = some vs → f.Groups s vs) ∧
    ∀ v vs, v ≤ f.max → f.groupsFrom (some v) s = some vs → Rest f v s vs := by
  induction s with
  | nil =>
      refine ⟨fun vs h => ?_, fun v vs hv h => ?_⟩
      · cases h
      · exact ⟨[], v, rfl, hv, .inl ⟨rfl, (Option.some.inj h).symm⟩⟩
  | cons c s ih =>
      cases hc : f.digit c with
      | some d =>
          refine ⟨fun vs h => ?_, fun v vs _ h => ?_⟩
          · rw [groupsFrom, hc] at h
            simp only [Option.getD_none, Nat.mul_zero, Nat.zero_add] at h
            split_ifs at h with hmax
            exact Rest.groups hc (ih.2 d vs hmax h)
          · rw [groupsFrom, hc] at h
            simp only [Option.getD_some] at h
            split_ifs at h with hmax
            exact Rest.digit hc (ih.2 _ vs hmax h)
      | none =>
          refine ⟨fun vs h => ?_, fun v vs hv h => ?_⟩
          · rw [groupsFrom, hc] at h
            simp only [Option.bind_none, ite_self] at h
            cases h
          · rw [groupsFrom, hc] at h
            simp only [Option.bind_some] at h
            split_ifs at h with hsep
            obtain ⟨vs', hvs', rfl⟩ := Option.map_eq_some_iff.1 h
            exact ⟨[], v, rfl, hv, .inr ⟨c, s, vs', hsep, ih.1 vs' hvs', rfl, rfl⟩⟩

/-- The grammar is what is read from left to right. -/
theorem groupsFrom_iff : f.groupsFrom none s = some vs ↔ f.Groups s vs := by
  refine ⟨(groupsFrom_sound s).1 vs, fun h => ?_⟩
  induction h with
  | @single g v hgroup =>
      have hread := hgroup.read []
      rwa [List.append_nil] at hread
  | cons hgroup hsep _ ih =>
      rw [hgroup.read, groupsFrom_sep hsep, Option.bind_some, ih, Option.map_some]

theorem Groups.ne_nil (h : f.Groups s vs) : vs ≠ [] := by
  cases h <;> exact List.cons_ne_nil _ _

theorem not_mem_of_valueFrom (hc : f.digit c = none) (h : f.valueFrom v g = some w) : c ∉ g := by
  induction g generalizing v with
  | nil => exact List.not_mem_nil
  | cons x g ih =>
      intro hmem
      cases hx : f.digit x with
      | none =>
          rw [valueFrom, hx] at h
          cases h
      | some d =>
          rw [valueFrom_cons hx] at h
          rcases List.mem_cons.1 hmem with rfl | hmem
          · rw [hx] at hc
            cases hc
          · exact ih h hmem

/-- Only digits and separators occur in the texts. -/
theorem Groups.not_mem (hc : f.digit c = none) (hsep : f.sep c = false) (h : f.Groups s vs) :
    c ∉ s := by
  induction h with
  | single hgroup => exact not_mem_of_valueFrom hc hgroup.2.1
  | @cons g s x v vs hgroup hx _ ih =>
      intro hmem
      rcases List.mem_append.1 hmem with hmem | hmem
      · exact not_mem_of_valueFrom hc hgroup.2.1 hmem
      · rcases List.mem_cons.1 hmem with rfl | hmem
        · rw [hsep] at hx
          cases hx
        · exact ih hmem

end Format

/-! ## Writing numerals -/

variable {α : Type*} {f : Format α} {v : ℕ} {vs : List ℕ}

open Format

/-- The digits of a number, without leading zeros, by the characters for the digits. -/
def digits (base : ℕ) (char : ℕ → α) (v : ℕ) : List α :=
  if v = 0 then [char 0] else ((Nat.digits base v).reverse).map char

/-- Numerals of a list of numbers, with a separator between any two. -/
def join (numeral : ℕ → List α) (sep : α) : List ℕ → List α
  | [] => []
  | [v] => numeral v
  | v :: vs => numeral v ++ sep :: join numeral sep vs

theorem join_cons_cons (numeral : ℕ → List α) (sep : α) (v w : ℕ) (vs : List ℕ) :
    join numeral sep (v :: w :: vs) = numeral v ++ sep :: join numeral sep (w :: vs) := rfl

theorem join_cons (numeral : ℕ → List α) (sep : α) (v : ℕ) (vs : List ℕ) :
    join numeral sep (v :: vs) = numeral v ++ vs.flatMap fun w => sep :: numeral w := by
  induction vs generalizing v with
  | nil => exact (List.append_nil _).symm
  | cons w vs ih => rw [join_cons_cons, ih w, List.flatMap_cons, List.cons_append]

/-- What is added to a text of at least one numeral. -/
theorem join_append (numeral : ℕ → List α) (sep : α) {vs : List ℕ} (hne : vs ≠ []) (ws : List ℕ) :
    join numeral sep (vs ++ ws) = join numeral sep vs ++ ws.flatMap fun w => sep :: numeral w := by
  cases vs with
  | nil => exact absurd rfl hne
  | cons v vs =>
      rw [List.cons_append, join_cons, join_cons, List.flatMap_append, List.append_assoc]

/-- A text that is written with numerals is a list of numerals. -/
theorem groups_join {numeral : ℕ → List α} {sep : α} (hsep : f.sep sep)
    (h : ∀ v ∈ vs, f.Group (numeral v) v) (hne : vs ≠ []) : f.Groups (join numeral sep vs) vs := by
  induction vs with
  | nil => exact absurd rfl hne
  | cons v vs ih =>
      have hv : f.Group (numeral v) v := h v List.mem_cons_self
      cases vs with
      | nil => exact .single hv
      | cons w vs =>
          rw [join_cons_cons]
          exact .cons hv hsep (ih (fun x hx => h x (List.mem_cons_of_mem v hx)) (List.cons_ne_nil w vs))

/-- The length of a text by the lengths of its numerals. -/
theorem length_join_le (numeral : ℕ → List α) (sep : α) {n : ℕ}
    (h : ∀ v ∈ vs, (numeral v).length ≤ n) :
    (join numeral sep vs).length ≤ (n + 1) * vs.length - 1 := by
  induction vs with
  | nil => exact Nat.zero_le _
  | cons v vs ih =>
      have hv := h v List.mem_cons_self
      have hrest := ih fun x hx => h x (List.mem_cons_of_mem v hx)
      cases vs with
      | nil => simpa [join] using hv
      | cons w vs =>
          rw [join_cons_cons, List.length_append, List.length_cons]
          rw [List.length_cons] at hrest ⊢
          rw [List.length_cons]
          simp only [Nat.mul_add, Nat.mul_one] at hrest ⊢
          omega

theorem valueFrom_map {char : ℕ → α} {ds : List ℕ} (h : ∀ d ∈ ds, f.digit (char d) = some d) (v : ℕ) :
    f.valueFrom v (ds.map char) = some (ds.foldl (fun a d => f.base * a + d) v) := by
  induction ds generalizing v with
  | nil => rfl
  | cons d ds ih =>
      rw [List.map_cons, valueFrom_cons (h d List.mem_cons_self), List.foldl_cons]
      exact ih (fun x hx => h x (List.mem_cons_of_mem d hx)) _

/-- Digits in the order in which they are written, the most significant one first. -/
theorem foldl_reverse_digits (base v : ℕ) :
    (Nat.digits base v).reverse.foldl (fun a d => base * a + d) 0 = v := by
  rw [List.foldl_reverse]
  conv_rhs => rw [← Nat.ofDigits_digits base v, Nat.ofDigits_eq_foldr]
  simp [Nat.add_comm]

theorem group_digits {char : ℕ → α} (hbase : 1 < f.base)
    (hchar : ∀ d < f.base, f.digit (char d) = some d) (hmax : v ≤ f.max) :
    f.Group (digits f.base char v) v := by
  rw [digits]
  split_ifs with hv
  · refine ⟨List.cons_ne_nil _ _, ?_, hmax⟩
    rw [valueFrom_cons (hchar 0 f.base_pos), hv]
    rfl
  · refine ⟨?_, ?_, hmax⟩
    · simpa [Nat.digits_ne_nil_iff_ne_zero] using hv
    · rw [valueFrom_map, foldl_reverse_digits]
      intro d hd
      exact hchar d (Nat.digits_lt_base hbase (List.mem_reverse.1 hd))

end Numeral
