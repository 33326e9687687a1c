import Mathlib.Data.List.Basic
import Mathlib.Tactic

set_option autoImplicit false

/-! # Strings of C

A pointer into an array is the list of the elements from there on: `none` stands for a function that
reads an element that is not there. A string is the list of its characters, and an array that holds
it ends in NUL. -/

namespace CString

/-! ## ASCII case -/

/-- `tolower`, in the C locale. -/
def toLower (c : UInt8) : UInt8 := if 65 ≤ c ∧ c ≤ 90 then c + 32 else c

/-- `toupper`, in the C locale. -/
def toUpper (c : UInt8) : UInt8 := if 97 ≤ c ∧ c ≤ 122 then c - 32 else c

/-- It does not matter to which case characters are folded. -/
theorem toUpper_eq_iff (x y : UInt8) : toUpper x = toUpper y ↔ toLower x = toLower y := by
  have hfold : ∀ n < 256, toLower (toUpper (UInt8.ofNat n)) = toLower (UInt8.ofNat n) ∧
      toUpper (toLower (UInt8.ofNat n)) = toUpper (UInt8.ofNat n) := by decide +kernel
  have hbyte : ∀ z : UInt8, toLower (toUpper z) = toLower z ∧ toUpper (toLower z) = toUpper z := by
    intro z
    have hz := hfold z.toNat z.toNat_lt
    rwa [UInt8.ofNat_toNat] at hz
  constructor
  · intro h
    rw [← (hbyte x).1, h, (hbyte y).1]
  · intro h
    rw [← (hbyte x).2, h, (hbyte y).2]

/-- Equality of strings up to ASCII case. -/
def EqFold (a b : List UInt8) : Prop := a.map toLower = b.map toLower

instance (a b : List UInt8) : Decidable (EqFold a b) := inferInstanceAs (Decidable (_ = _))

/-- Only NUL is folded to NUL. -/
theorem toLower_eq_zero {c : UInt8} : toLower c = 0 ↔ c = 0 := by
  rw [toLower]
  split_ifs with h
  · have h65 := UInt8.le_iff_toNat_le.1 h.1
    have h90 := UInt8.le_iff_toNat_le.1 h.2
    change 65 ≤ c.toNat at h65
    change c.toNat ≤ 90 at h90
    simp only [← UInt8.toNat_inj, UInt8.toNat_add]
    show (c.toNat + 32) % 256 = 0 ↔ c.toNat = 0
    omega
  · rfl

/-- A character that is folded to the same one as a NUL is a NUL. -/
theorem eq_zero_iff_of_toLower {x y : UInt8} (h : toLower x = toLower y) : x = 0 ↔ y = 0 := by
  rw [← toLower_eq_zero, h, toLower_eq_zero]

/-- A character that is no letter is the only one that is folded to it. -/
theorem toLower_eq_dot {c : UInt8} : toLower c = 46 ↔ c = 46 := by
  rw [toLower]
  split_ifs with h
  · have h65 := UInt8.le_iff_toNat_le.1 h.1
    have h90 := UInt8.le_iff_toNat_le.1 h.2
    change 65 ≤ c.toNat at h65
    change c.toNat ≤ 90 at h90
    simp only [← UInt8.toNat_inj, UInt8.toNat_add]
    show (c.toNat + 32) % 256 = 46 ↔ c.toNat = 46
    omega
  · rfl

namespace EqFold

variable {a b c a' b' : List UInt8} {x y : UInt8}

theorem refl (a : List UInt8) : EqFold a a := rfl

theorem symm (h : EqFold a b) : EqFold b a := Eq.symm h

theorem length_eq (h : EqFold a b) : a.length = b.length := by
  simpa using congrArg List.length h

theorem cons_iff : EqFold (x :: a) (y :: b) ↔ toLower x = toLower y ∧ EqFold a b := by
  rw [EqFold, EqFold, List.map_cons, List.map_cons, List.cons.injEq]

theorem append (h : EqFold a b) (h' : EqFold a' b') : EqFold (a ++ a') (b ++ b') := by
  rw [EqFold, List.map_append, List.map_append, h, h']

theorem nil_iff : EqFold a [] ↔ a = [] := by
  rw [EqFold, List.map_nil, List.map_eq_nil_iff]

/-- A string is split where one that is equal to it is. -/
theorem split (h : EqFold (a ++ x :: b) c) :
    ∃ a' y b', c = a' ++ y :: b' ∧ EqFold a a' ∧ toLower x = toLower y ∧ EqFold b b' := by
  rw [EqFold, List.map_append, List.map_cons] at h
  obtain ⟨a', t, rfl, ha, ht⟩ := List.map_eq_append_iff.1 h.symm
  obtain ⟨y, b', rfl, hy, hb⟩ := List.map_eq_cons_iff.1 ht
  exact ⟨a', y, b', rfl, ha.symm, hy.symm, hb.symm⟩

/-- Folding keeps every character that only it is folded to. -/
theorem mem_iff {z : UInt8} (hz : ∀ w, toLower w = z ↔ w = z) (h : EqFold a b) :
    z ∈ a ↔ z ∈ b := by
  have hmem : ∀ l : List UInt8, z ∈ l ↔ z ∈ l.map toLower := fun l => by
    simp only [List.mem_map]
    exact ⟨fun hl => ⟨z, hl, (hz z).2 rfl⟩, fun ⟨w, hw, heq⟩ => (hz w).1 heq ▸ hw⟩
  rw [hmem a, hmem b, h]

end EqFold

/-! ## Comparing strings -/

/-- `strncasecmp`: at most `n` characters, up to the first difference or NUL. -/
def strncasecmp : ℕ → List UInt8 → List UInt8 → Option ℤ
  | 0, _, _ => some 0
  | _ + 1, [], _ => none
  | _ + 1, _ :: _, [] => none
  | n + 1, x :: s1, y :: s2 =>
      if toLower x ≠ toLower y then some ((toLower x).toNat - (toLower y).toNat)
      else if x = 0 then some 0
      else strncasecmp n s1 s2

section Compare

variable {a b a' b' : List UInt8}

/-- Strings that are equal up to case, whatever follows them. -/
theorem strncasecmp_eqFold (h : EqFold a b) (hnul : 0 ∉ a) :
    strncasecmp a.length (a ++ a') (b ++ b') = some 0 := by
  induction a generalizing b with
  | nil => rfl
  | cons x a ih =>
      cases b with
      | nil => cases h
      | cons y b =>
          obtain ⟨hxy, hab⟩ := EqFold.cons_iff.1 h
          rw [List.length_cons, List.cons_append, List.cons_append, strncasecmp,
            if_neg (not_not.2 hxy), if_neg (fun hx : x = 0 => hnul (hx ▸ List.mem_cons_self))]
          exact ih hab (fun hmem => hnul (List.mem_cons_of_mem _ hmem))

/-- What follows the characters that are compared does not matter. -/
theorem strncasecmp_append (a' : List UInt8) :
    strncasecmp a.length (a ++ a') b = strncasecmp a.length a b := by
  induction a generalizing b with
  | nil => rfl
  | cons x a ih =>
      cases b with
      | nil => rfl
      | cons y b => rw [List.length_cons, List.cons_append, strncasecmp, strncasecmp, ih]

/-- Comparing with a string that ends in NUL reads nothing behind it. The characters are found equal
if the string begins with them, and also if it ends where there is a NUL among them. -/
theorem strncasecmp_string (hb : 0 ∉ b) : ∃ res, strncasecmp a.length a (b ++ [0]) = some res ∧
    (res = 0 ↔ (∃ pre rest, b = pre ++ rest ∧ EqFold a pre) ∨
      ∃ pre rest, a = pre ++ 0 :: rest ∧ EqFold pre b) := by
  induction a generalizing b with
  | nil => exact ⟨0, rfl, iff_of_true rfl (.inl ⟨[], b, rfl, rfl⟩)⟩
  | cons x a ih =>
      cases b with
      | nil =>
          by_cases hx : x = 0
          · subst hx
            exact ⟨0, rfl, iff_of_true rfl (.inr ⟨[], a, rfl, rfl⟩)⟩
          · have hlow : toLower x ≠ toLower 0 := fun h => hx (toLower_eq_zero.1 h)
            refine ⟨_, by rw [List.length_cons, List.nil_append, strncasecmp, if_pos hlow], ?_⟩
            refine iff_of_false (fun h => hlow (UInt8.toNat_inj.1 (by omega))) ?_
            rintro (⟨pre, rest, heq, hfold⟩ | ⟨pre, rest, heq, hfold⟩)
            · obtain ⟨rfl, -⟩ := List.append_eq_nil_iff.1 heq.symm
              cases hfold
            · obtain rfl := EqFold.nil_iff.1 hfold
              exact hx (List.cons.inj heq).1
      | cons y b =>
          have hy : y ≠ 0 := fun h => hb (h ▸ List.mem_cons_self)
          by_cases hlow : toLower x = toLower y
          · have hx : x ≠ 0 := fun h => hy ((eq_zero_iff_of_toLower hlow).1 h)
            obtain ⟨res, hres, hiff⟩ := ih (fun hmem => hb (List.mem_cons_of_mem _ hmem))
            refine ⟨res, ?_, hiff.trans (or_congr ?_ ?_)⟩
            · rw [List.length_cons, List.cons_append, strncasecmp, if_neg (not_not.2 hlow),
                if_neg hx, hres]
            · constructor
              · rintro ⟨pre, rest, rfl, hfold⟩
                exact ⟨y :: pre, rest, rfl, EqFold.cons_iff.2 ⟨hlow, hfold⟩⟩
              · rintro ⟨pre, rest, heq, hfold⟩
                cases pre with
                | nil => cases hfold
                | cons z pre =>
                    obtain ⟨rfl, htail⟩ := List.cons.inj heq
                    exact ⟨pre, rest, htail, (EqFold.cons_iff.1 hfold).2⟩
            · constructor
              · rintro ⟨pre, rest, rfl, hfold⟩
                exact ⟨x :: pre, rest, rfl, EqFold.cons_iff.2 ⟨hlow, hfold⟩⟩
              · rintro ⟨pre, rest, heq, hfold⟩
                cases pre with
                | nil => cases hfold
                | cons z pre =>
                    obtain ⟨rfl, htail⟩ := List.cons.inj heq
                    exact ⟨pre, rest, htail, (EqFold.cons_iff.1 hfold).2⟩
          · refine ⟨_, by rw [List.length_cons, List.cons_append, strncasecmp, if_pos hlow], ?_⟩
            refine iff_of_false (fun h => hlow (UInt8.toNat_inj.1 (by omega))) ?_
            rintro (⟨pre, rest, heq, hfold⟩ | ⟨pre, rest, heq, hfold⟩)
            · cases pre with
              | nil => cases hfold
              | cons z pre =>
                  obtain ⟨rfl, -⟩ := List.cons.inj heq
                  exact hlow (EqFold.cons_iff.1 hfold).1
            · cases pre with
              | nil => cases hfold
              | cons z pre =>
                  obtain ⟨rfl, -⟩ := List.cons.inj heq
                  exact hlow (EqFold.cons_iff.1 hfold).1

end Compare

/-! ## Pieces of a message -/

section Pieces

variable {α : Type*} {message bytes bytes' : List α} {pos : ℕ} {x : α}

/-- `bytes` stands at `pos` in `message`. -/
def At (message : List α) (pos : ℕ) (bytes : List α) : Prop := bytes <+: message.drop pos

theorem At.take (h : At message pos bytes) :
    (message.drop pos).take bytes.length = bytes := List.prefix_iff_eq_take.1 h |>.symm

theorem At.head (h : At message pos (x :: bytes)) : message[pos]? = some x := by
  have := List.IsPrefix.getElem h (by simp : 0 < (x :: bytes).length)
  have hlt : 0 < (message.drop pos).length := lt_of_lt_of_le (by simp) h.length_le
  rw [← Nat.add_zero pos, ← List.getElem?_drop, List.getElem?_eq_getElem hlt, ← this]
  rfl

theorem at_append : At message pos (bytes ++ bytes') ↔
    At message pos bytes ∧ At message (pos + bytes.length) bytes' := by
  rw [At, At, At, ← List.drop_drop]
  constructor
  · rintro ⟨t, ht⟩
    rw [← ht, List.append_assoc]
    exact ⟨⟨_, rfl⟩, by rw [List.drop_left]; exact ⟨_, rfl⟩⟩
  · rintro ⟨⟨t, ht⟩, ⟨t', ht'⟩⟩
    rw [← ht, List.drop_left] at ht'
    rw [← ht, ← ht', ← List.append_assoc]
    exact ⟨_, rfl⟩

theorem at_cons : At message pos (x :: bytes) ↔ message[pos]? = some x ∧
    At message (pos + 1) bytes := by
  rw [← List.singleton_append, at_append]
  refine and_congr_left fun _ => ⟨At.head, fun hx => ?_⟩
  obtain ⟨hlt, hget⟩ := List.getElem?_eq_some_iff.1 hx
  rw [At, List.drop_eq_getElem_cons hlt, hget]
  exact ⟨_, rfl⟩

end Pieces

end CString
