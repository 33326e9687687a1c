import CycloneTcp.Common.AddrText
import Mathlib.Data.List.GetD

set_option autoImplicit false

/-! # From text to an IPv6 address

`ipv6StringToAddr` keeps four variables in one loop: the word that comes next (`i`), the position of
the `"::"` (`j`), the characters that are left and the value of the current group. The grammar is
stated for itself below the translation, and the loop is compared with it in two phases, in front of
the `"::"` and behind it. The words of an address are written as their values: `htons` on the way in
and `ntohs` on the way out cancel. -/

namespace Ipv6Text

open Numeral

/-! ## The parser -/

theorem hexBase_pos : 0 < 16 := by decide

/-- Groups of hexadecimal digits with `':'` between them. -/
def groupFormat : Format UInt8 where
  base := 16
  digit := hexDigit
  sep := fun c => c == 58
  max := 0xFFFF
  base_pos := hexBase_pos
  digit_sep := fun c h => by rw [eq_of_beq h]; rfl

/-- `w[7 - k] = w[i - 1 - k]`, `n` times and with increasing `k`. -/
def moveLoop (i : ℕ) : ℕ → ℕ → Output UInt16 → Output UInt16
  | 0, _, addr => addr
  | n + 1, k, addr => moveLoop i n (k + 1) (addr.store (7 - k) (addr.cells (i - 1 - k)))

/-- The part of the address that follows the `"::"` is moved to the end, and zeros are written in its
place. -/
def expand (i j : ℕ) (addr : Output UInt16) : Output UInt16 :=
  (moveLoop i (i - j) 0 addr).storeAll j (List.replicate (8 - i) 0)

/-- The loop over the characters from `str` on. `value` and `j` are `none` where the code has −1. -/
def ipv6StringToAddrLoop : List UInt8 → ℕ → Option ℕ → Option ℕ → Output UInt16 →
    Option (ErrorCode × Output UInt16)
  | [], _, _, _, _ => none
  | c :: str, i, j, value, addr =>
      match hexDigit c with
      | some d =>
          if 16 * value.getD 0 + d ≤ 0xFFFF then
            ipv6StringToAddrLoop str i j (some (16 * value.getD 0 + d)) addr
          else some (.invalidSyntax, addr)
      | none =>
          if c = 58 then
            match str with
            -- `strncmp` reads the next character
            | [] => none
            | c' :: str' =>
                if c' = 58 then
                  match j, value with
                  | some _, _ => some (.invalidSyntax, addr)
                  | none, some v =>
                      ipv6StringToAddrLoop str' (i + 1) (some (i + 1)) none
                        (addr.store i (UInt16.ofNat v))
                  | none, none => ipv6StringToAddrLoop str' i (some i) none addr
                else if i < 8 then
                  match value with
                  | none => some (.invalidSyntax, addr)
                  | some v =>
                      ipv6StringToAddrLoop (c' :: str') (i + 1) j none (addr.store i (UInt16.ofNat v))
                else some (.invalidSyntax, addr)
          else if c = 0 then
            match j, value with
            | none, none => some (.invalidSyntax, addr)
            | none, some v =>
                if i = 7 then some (.noError, addr.store i (UInt16.ofNat v))
                else some (.invalidSyntax, addr)
            | some j, none =>
                if i < 7 then some (.noError, expand i j addr) else some (.invalidSyntax, addr)
            | some j, some v =>
                if i < 7 then
                  some (.noError, expand (i + 1) j (addr.store i (UInt16.ofNat v)))
                else some (.invalidSyntax, addr)
          else some (.invalidSyntax, addr)

/-- `ipv6StringToAddr`. -/
def ipv6StringToAddr (str : List UInt8) (ipAddr : Output UInt16) :
    Option (ErrorCode × Output UInt16) :=
  ipv6StringToAddrLoop str 0 none none ipAddr

/-! ## One character -/

section Step

variable {c : UInt8} {s : List UInt8} {i : ℕ} {j value : Option ℕ} {addr : Output UInt16}

theorem loop_digit {d : ℕ} (h : hexDigit c = some d) :
    ipv6StringToAddrLoop (c :: s) i j value addr =
      if 16 * value.getD 0 + d ≤ 0xFFFF then
        ipv6StringToAddrLoop s i j (some (16 * value.getD 0 + d)) addr
      else some (.invalidSyntax, addr) := by
  conv_lhs => unfold ipv6StringToAddrLoop
  simp only [h]

theorem loop_colons :
    ipv6StringToAddrLoop (58 :: 58 :: s) i none value addr =
      ipv6StringToAddrLoop s (i + value.toList.length) (some (i + value.toList.length)) none
        (addr.storeAll i (value.toList.map UInt16.ofNat)) := by
  cases value <;> rfl

theorem loop_colons_again {k : ℕ} :
    ipv6StringToAddrLoop (58 :: 58 :: s) i (some k) value addr = some (.invalidSyntax, addr) := by
  cases value <;> rfl

/-- What follows a character of a string: another character of it, or the NUL. -/
theorem head_string (rest : List UInt8) (h : s.head? ≠ some 58) :
    ∃ x t, s ++ 0 :: rest = x :: t ∧ x ≠ 58 := by
  cases s with
  | nil => exact ⟨0, rest, rfl, by decide⟩
  | cons x s => exact ⟨x, s ++ 0 :: rest, rfl, fun hx => h (congrArg some hx)⟩

theorem loop_colon {rest : List UInt8} {v : ℕ} (h : s.head? ≠ some 58) (hi : i < 8) :
    ipv6StringToAddrLoop (58 :: (s ++ 0 :: rest)) i j (some v) addr =
      ipv6StringToAddrLoop (s ++ 0 :: rest) (i + 1) j none (addr.store i (UInt16.ofNat v)) := by
  obtain ⟨x, t, heq, hx⟩ := head_string rest h
  rw [heq]
  conv_lhs => unfold ipv6StringToAddrLoop
  simp only [show hexDigit 58 = none from rfl, if_true, if_neg hx, if_pos hi]

theorem loop_colon_fail {rest : List UInt8} (h : s.head? ≠ some 58) (hfail : value = none ∨ 8 ≤ i) :
    ipv6StringToAddrLoop (58 :: (s ++ 0 :: rest)) i j value addr = some (.invalidSyntax, addr) := by
  obtain ⟨x, t, heq, hx⟩ := head_string rest h
  rw [heq]
  conv_lhs => unfold ipv6StringToAddrLoop
  simp only [show hexDigit 58 = none from rfl, if_true, if_neg hx]
  rcases hfail with rfl | hi
  · rw [ite_self]
  · rw [if_neg (Nat.not_lt.2 hi)]

theorem loop_other (hdigit : hexDigit c = none) (hcolon : c ≠ 58) (hnul : c ≠ 0) :
    ipv6StringToAddrLoop (c :: s) i j value addr = some (.invalidSyntax, addr) := by
  unfold ipv6StringToAddrLoop
  simp only [hdigit, if_neg hcolon, if_neg hnul]

/-- The end of a string without `"::"`. -/
theorem loop_end {rest : List UInt8} {v : ℕ} :
    ipv6StringToAddrLoop (0 :: rest) i none (some v) addr =
      if i = 7 then some (.noError, addr.store i (UInt16.ofNat v))
      else some (.invalidSyntax, addr) := by
  unfold ipv6StringToAddrLoop
  rfl

theorem loop_end_none {rest : List UInt8} :
    ipv6StringToAddrLoop (0 :: rest) i none none addr = some (.invalidSyntax, addr) := by
  unfold ipv6StringToAddrLoop
  rfl

/-- The end of a string with `"::"`. -/
theorem loop_end_expand {rest : List UInt8} {k : ℕ} :
    ipv6StringToAddrLoop (0 :: rest) i (some k) value addr =
      if i < 7 then
        some (.noError, expand (i + value.toList.length) k
          (addr.storeAll i (value.toList.map UInt16.ofNat)))
      else some (.invalidSyntax, addr) := by
  cases value <;> unfold ipv6StringToAddrLoop <;> rfl

end Step

/-! ## The grammar -/

/-- Groups, or nothing. -/
def OptGroups (s : List UInt8) (ws : List ℕ) : Prop := s = [] ∧ ws = [] ∨ groupFormat.Groups s ws

/-- The text form of the address with the words `ws`: eight groups, or at most seven of them around
one `"::"` that stands for the others. -/
inductive Text : List UInt8 → List ℕ → Prop
  | full {s : List UInt8} {ws : List ℕ} : groupFormat.Groups s ws → ws.length = 8 → Text s ws
  | short {a b : List UInt8} {va vb : List ℕ} :
      OptGroups a va → OptGroups b vb → va.length + vb.length ≤ 7 →
      Text (a ++ 58 :: 58 :: b) (va ++ (List.replicate (8 - (va.length + vb.length)) 0 ++ vb))

/-! ## Reading up to the `"::"` and behind it -/

/-- The groups in front of the `"::"`, and what follows it; all groups if there is none. -/
def frontFrom (p : Option ℕ) : List UInt8 → Option (List ℕ × Option (List UInt8))
  | [] => p.map fun v => ([v], none)
  | c :: s =>
      match hexDigit c with
      | some d =>
          if 16 * p.getD 0 + d ≤ 0xFFFF then frontFrom (some (16 * p.getD 0 + d)) s else none
      | none =>
          if c = 58 then
            if s.head? = some 58 then some (p.toList, some s.tail)
            else p.bind fun v => (frontFrom none s).map fun r => (v :: r.1, r.2)
          else none

/-- The groups behind the `"::"`, and whether the text ends in one: it may also end in a `':'`. -/
def tailFrom (p : Option ℕ) : List UInt8 → Option (List ℕ × Bool)
  | [] => some (p.toList, p.isSome)
  | c :: s =>
      match hexDigit c with
      | some d =>
          if 16 * p.getD 0 + d ≤ 0xFFFF then tailFrom (some (16 * p.getD 0 + d)) s else none
      | none =>
          if c = 58 then p.bind fun v => (tailFrom none s).map fun r => (v :: r.1, r.2) else none

section Readers

variable {s b : List UInt8} {p : Option ℕ} {vs : List ℕ}

theorem groupsFrom_nil : groupFormat.groupsFrom p [] = p.map fun v => [v] := rfl

theorem groupsFrom_digit {c : UInt8} {d : ℕ} (h : hexDigit c = some d) :
    groupFormat.groupsFrom p (c :: s) = if 16 * p.getD 0 + d ≤ 0xFFFF then
      groupFormat.groupsFrom (some (16 * p.getD 0 + d)) s else none := by
  rw [Format.groupsFrom, show groupFormat.digit c = some d from h]
  rfl

theorem groupsFrom_colon :
    groupFormat.groupsFrom p (58 :: s) = p.bind fun v => (groupFormat.groupsFrom none s).map (v :: ·) :=
  Format.groupsFrom_sep rfl

theorem groupsFrom_other {c : UInt8} (h : hexDigit c = none) (hc : c ≠ 58) :
    groupFormat.groupsFrom p (c :: s) = none := by
  rw [Format.groupsFrom, show groupFormat.digit c = none from h]
  exact if_neg (by simpa [groupFormat] using hc)

theorem frontFrom_digit {c : UInt8} {d : ℕ} (h : hexDigit c = some d) :
    frontFrom p (c :: s) = if 16 * p.getD 0 + d ≤ 0xFFFF then
      frontFrom (some (16 * p.getD 0 + d)) s else none := by
  rw [frontFrom, h]

theorem frontFrom_colons : frontFrom p (58 :: 58 :: s) = some (p.toList, some s) := rfl

theorem frontFrom_colon (h : s.head? ≠ some 58) :
    frontFrom p (58 :: s) = p.bind fun v => (frontFrom none s).map fun r => (v :: r.1, r.2) := by
  rw [frontFrom, show hexDigit 58 = none from rfl]
  simp only [if_true, if_neg h]

theorem frontFrom_other {c : UInt8} (h : hexDigit c = none) (hc : c ≠ 58) :
    frontFrom p (c :: s) = none := by
  rw [frontFrom, h]
  exact if_neg hc

theorem tailFrom_digit {c : UInt8} {d : ℕ} (h : hexDigit c = some d) :
    tailFrom p (c :: s) = if 16 * p.getD 0 + d ≤ 0xFFFF then
      tailFrom (some (16 * p.getD 0 + d)) s else none := by
  rw [tailFrom, h]

theorem tailFrom_colon :
    tailFrom p (58 :: s) = p.bind fun v => (tailFrom none s).map fun r => (v :: r.1, r.2) := rfl

theorem tailFrom_other {c : UInt8} (h : hexDigit c = none) (hc : c ≠ 58) :
    tailFrom p (c :: s) = none := by
  rw [tailFrom, h]
  exact if_neg hc

/-- Without a `"::"`, what is in front of it is the text. -/
theorem frontFrom_none : frontFrom p s = some (vs, none) ↔ groupFormat.groupsFrom p s = some vs := by
  induction s generalizing p vs with
  | nil => cases p <;> simp [frontFrom, groupsFrom_nil]
  | cons c s ih =>
      cases hd : hexDigit c with
      | some d =>
          rw [frontFrom_digit hd, groupsFrom_digit hd]
          split_ifs
          · exact ih
          · exact iff_of_false nofun nofun
      | none =>
          by_cases hc : c = 58
          · subst hc
            by_cases hhead : s.head? = some 58
            · obtain ⟨s', rfl⟩ := List.head?_eq_some_iff.1 hhead
              rw [frontFrom_colons, groupsFrom_colon, groupsFrom_colon]
              refine iff_of_false (fun h => ?_) (by cases p <;> exact nofun)
              cases (Prod.mk.inj (Option.some.inj h)).2
            · rw [frontFrom_colon hhead, groupsFrom_colon]
              cases p with
              | none => exact iff_of_false nofun nofun
              | some v =>
                  simp only [Option.bind_some, Option.map_eq_some_iff]
                  constructor
                  · rintro ⟨⟨ws, tail⟩, hws, heq⟩
                    obtain ⟨rfl, rfl⟩ := Prod.mk.inj heq
                    exact ⟨ws, ih.1 hws, rfl⟩
                  · rintro ⟨ws, hws, rfl⟩
                    exact ⟨(ws, none), ih.2 hws, rfl⟩
          · rw [frontFrom_other hd hc, groupsFrom_other hd hc]
            exact iff_of_false nofun nofun

/-- A list of groups begins with a digit. -/
theorem head_of_groupsFrom (h : groupFormat.groupsFrom none s = some vs) (t : List UInt8) :
    (s ++ t).head? ≠ some 58 := by
  cases s with
  | nil => cases h
  | cons c s =>
      intro hc
      obtain rfl : c = 58 := Option.some.inj hc
      rw [groupsFrom_colon] at h
      cases h

theorem frontFrom_complete {a : List UInt8} (h : groupFormat.groupsFrom p a = some vs) :
    frontFrom p (a ++ 58 :: 58 :: b) = some (vs, some b) := by
  induction a generalizing p vs with
  | nil =>
      obtain ⟨v, rfl, rfl⟩ := Option.map_eq_some_iff.1 h
      rfl
  | cons c a ih =>
      rw [List.cons_append]
      cases hd : hexDigit c with
      | some d =>
          rw [groupsFrom_digit hd] at h
          split_ifs at h with hmax
          rw [frontFrom_digit hd, if_pos hmax, ih h]
      | none =>
          by_cases hc : c = 58
          · subst hc
            rw [groupsFrom_colon] at h
            obtain ⟨v, rfl, h⟩ := Option.bind_eq_some_iff.1 h
            obtain ⟨ws, hws, rfl⟩ := Option.map_eq_some_iff.1 h
            rw [frontFrom_colon (head_of_groupsFrom hws _), Option.bind_some, ih hws]
            rfl
          · rw [groupsFrom_other hd hc] at h
            cases h

theorem frontFrom_sound (h : frontFrom p s = some (vs, some b)) : ∃ a, s = a ++ 58 :: 58 :: b ∧
    (groupFormat.groupsFrom p a = some vs ∨ p = none ∧ a = [] ∧ vs = []) := by
  induction s generalizing p vs with
  | nil =>
      obtain ⟨v, -, heq⟩ := Option.map_eq_some_iff.1 h
      cases (Prod.mk.inj heq).2
  | cons c s ih =>
      cases hd : hexDigit c with
      | some d =>
          rw [frontFrom_digit hd] at h
          split_ifs at h with hmax
          obtain ⟨a, rfl, ha⟩ := ih h
          refine ⟨c :: a, rfl, .inl ?_⟩
          rw [groupsFrom_digit hd, if_pos hmax]
          exact ha.resolve_right nofun
      | none =>
          by_cases hc : c = 58
          · subst hc
            by_cases hhead : s.head? = some 58
            · obtain ⟨s', rfl⟩ := List.head?_eq_some_iff.1 hhead
              rw [frontFrom_colons] at h
              obtain ⟨rfl, heq⟩ := Prod.mk.inj (Option.some.inj h)
              refine ⟨[], by rw [Option.some.inj heq, List.nil_append], ?_⟩
              cases p with
              | none => exact .inr ⟨rfl, rfl, rfl⟩
              | some v => exact .inl rfl
            · rw [frontFrom_colon hhead] at h
              obtain ⟨v, rfl, h⟩ := Option.bind_eq_some_iff.1 h
              obtain ⟨⟨ws, tail⟩, hws, heq⟩ := Option.map_eq_some_iff.1 h
              obtain ⟨rfl, rfl⟩ := Prod.mk.inj heq
              obtain ⟨a, rfl, ha⟩ := ih hws
              refine ⟨58 :: a, rfl, .inl ?_⟩
              rcases ha with ha | ⟨-, rfl, -⟩
              · rw [groupsFrom_colon, ha]
                rfl
              · exact absurd rfl hhead
          · rw [frontFrom_other hd hc] at h
            cases h

/-- What is in front of the `"::"`. -/
theorem frontFrom_some :
    frontFrom none s = some (vs, some b) ↔ ∃ a, s = a ++ 58 :: 58 :: b ∧ OptGroups a vs := by
  constructor
  · intro h
    obtain ⟨a, rfl, ha⟩ := frontFrom_sound h
    exact ⟨a, rfl, ha.symm.imp (fun hnil => hnil.2) Format.groupsFrom_iff.1⟩
  · rintro ⟨a, rfl, ⟨rfl, rfl⟩ | ha⟩
    · rfl
    · exact frontFrom_complete (Format.groupsFrom_iff.2 ha)

/-- Behind the `"::"` the text may end in a group. -/
theorem tailFrom_true : tailFrom p s = some (vs, true) ↔ groupFormat.groupsFrom p s = some vs := by
  induction s generalizing p vs with
  | nil => cases p <;> simp [tailFrom, groupsFrom_nil]
  | cons c s ih =>
      cases hd : hexDigit c with
      | some d =>
          rw [tailFrom_digit hd, groupsFrom_digit hd]
          split_ifs
          · exact ih
          · exact iff_of_false nofun nofun
      | none =>
          by_cases hc : c = 58
          · subst hc
            rw [tailFrom_colon, groupsFrom_colon]
            cases p with
            | none => exact iff_of_false nofun nofun
            | some v =>
                simp only [Option.bind_some, Option.map_eq_some_iff]
                constructor
                · rintro ⟨⟨ws, ended⟩, hws, heq⟩
                  obtain ⟨rfl, rfl⟩ := Prod.mk.inj heq
                  exact ⟨ws, ih.1 hws, rfl⟩
                · rintro ⟨ws, hws, rfl⟩
                  exact ⟨(ws, true), ih.2 hws, rfl⟩
          · rw [tailFrom_other hd hc, groupsFrom_other hd hc]
            exact iff_of_false nofun nofun

/-- A `':'` behind the last group. -/
theorem tailFrom_colon_end {a : List UInt8} (h : groupFormat.groupsFrom p a = some vs) :
    tailFrom p (a ++ [58]) = some (vs, false) := by
  induction a generalizing p vs with
  | nil =>
      obtain ⟨v, rfl, rfl⟩ := Option.map_eq_some_iff.1 h
      rfl
  | cons c a ih =>
      rw [List.cons_append]
      cases hd : hexDigit c with
      | some d =>
          rw [groupsFrom_digit hd] at h
          split_ifs at h with hmax
          rw [tailFrom_digit hd, if_pos hmax, ih h]
      | none =>
          by_cases hc : c = 58
          · subst hc
            rw [groupsFrom_colon] at h
            obtain ⟨v, rfl, h⟩ := Option.bind_eq_some_iff.1 h
            obtain ⟨ws, hws, rfl⟩ := Option.map_eq_some_iff.1 h
            rw [tailFrom_colon, Option.bind_some, ih hws]
            rfl
          · rw [groupsFrom_other hd hc] at h
            cases h

theorem tailFrom_false (h : tailFrom p s = some (vs, false)) :
    p = none ∧ s = [] ∧ vs = [] ∨ ∃ a, s = a ++ [58] ∧ groupFormat.groupsFrom p a = some vs := by
  induction s generalizing p vs with
  | nil =>
      cases p with
      | none => exact .inl ⟨rfl, rfl, ((Prod.mk.inj (Option.some.inj h)).1).symm⟩
      | some v => cases (Prod.mk.inj (Option.some.inj h)).2
  | cons c s ih =>
      right
      cases hd : hexDigit c with
      | some d =>
          rw [tailFrom_digit hd] at h
          split_ifs at h with hmax
          obtain ⟨hp, -⟩ | ⟨a, rfl, ha⟩ := ih h
          · cases hp
          · exact ⟨c :: a, rfl, by rw [groupsFrom_digit hd, if_pos hmax, ha]⟩
      | none =>
          by_cases hc : c = 58
          · subst hc
            rw [tailFrom_colon] at h
            obtain ⟨v, rfl, h⟩ := Option.bind_eq_some_iff.1 h
            obtain ⟨⟨ws, ended⟩, hws, heq⟩ := Option.map_eq_some_iff.1 h
            obtain ⟨rfl, rfl⟩ := Prod.mk.inj heq
            obtain ⟨-, rfl, rfl⟩ | ⟨a, rfl, ha⟩ := ih hws
            · exact ⟨[], rfl, rfl⟩
            · exact ⟨58 :: a, rfl, by rw [groupsFrom_colon, ha]; rfl⟩
          · rw [tailFrom_other hd hc] at h
            cases h

end Readers

/-! ## Moving the groups behind the `"::"` -/

theorem moveLoop_cells {i n k : ℕ} (hi : i ≤ 7) (hn : n + k ≤ i) (addr : Output UInt16) (m : ℕ) :
    (moveLoop i n k addr).cells m =
      if 8 - k - n ≤ m ∧ m < 8 - k then addr.cells (m - (8 - i)) else addr.cells m := by
  induction n generalizing k addr with
  | zero => rw [moveLoop, if_neg (by omega)]
  | succ n ih =>
      rw [moveLoop, ih (by omega), Output.store]
      -- the word that is read lies in front of the words that have been written
      split_ifs with h h' h'
      · exact Function.update_of_ne (by omega) _ _
      · omega
      · obtain rfl : m = 7 - k := by omega
        refine (Function.update_self _ _ _).trans (congrArg addr.cells ?_)
        omega
      · exact Function.update_of_ne (by omega) _ _

theorem moveLoop_stored {i n k x : ℕ} {addr : Output UInt16}
    (h : x ∈ (moveLoop i n k addr).stored) : x ∈ addr.stored ∨ x < 8 := by
  induction n generalizing k addr with
  | zero => exact .inl h
  | succ n ih =>
      rcases ih h with h | h
      · rcases List.mem_append.1 h with h | h
        · exact .inl h
        · exact .inr (by rw [List.mem_singleton.1 h]; omega)
      · exact .inr h

theorem expand_stored {i j x : ℕ} {addr : Output UInt16} (hj : j ≤ i)
    (h : x ∈ (expand i j addr).stored) : x ∈ addr.stored ∨ x < 8 := by
  rcases Output.mem_stored_storeAll.1 h with h | ⟨hlo, h⟩
  · exact moveLoop_stored h
  · rw [List.length_replicate] at h
    right
    omega

theorem subset_moveLoop {i n k x : ℕ} {addr : Output UInt16} (h : x ∈ addr.stored) :
    x ∈ (moveLoop i n k addr).stored := by
  induction n generalizing k addr with
  | zero => exact h
  | succ n ih => exact ih (List.mem_append_left _ h)

theorem subset_expand {i j x : ℕ} {addr : Output UInt16} (h : x ∈ addr.stored) :
    x ∈ (expand i j addr).stored :=
  Output.mem_stored_storeAll.2 (.inl (subset_moveLoop h))

/-- The groups behind the `"::"` end up at the end of the address. -/
theorem expand_read (xs ys : List UInt16) (addr : Output UInt16) (h : xs.length + ys.length ≤ 7) :
    (expand (xs.length + ys.length) xs.length (addr.storeAll 0 (xs ++ ys))).cells.read 0 8 =
      xs ++ (List.replicate (8 - (xs.length + ys.length)) 0 ++ ys) := by
  apply List.ext_getElem
  · simp only [Memory.length_read, List.length_append, List.length_replicate]
    omega
  · intro m hm _
    rw [Memory.length_read] at hm
    have hfront : ∀ k, k < xs.length + ys.length →
        (addr.storeAll 0 (xs ++ ys)).cells k = (xs ++ ys).getD k 0 := by
      intro k hk
      have hk' : k < (xs ++ ys).length := by rwa [List.length_append]
      rw [Output.storeAll_cells, List.getD_eq_getElem _ _ hk']
      simpa using Memory.write_add addr.cells 0 (xs ++ ys) hk'
    rw [Memory.getElem_read, Nat.zero_add, expand, Output.storeAll_cells]
    rcases Nat.lt_or_ge m xs.length with hlt | hge
    · rw [Memory.write_of_lt _ _ hlt, moveLoop_cells h (by omega), if_neg (by omega),
        hfront m (by omega), List.getElem_append_left hlt, List.getD_append _ _ _ _ hlt,
        List.getD_eq_getElem _ _ hlt]
    · rcases Nat.lt_or_ge m (8 - ys.length) with hlt' | hge'
      · obtain ⟨k, rfl⟩ : ∃ k, m = xs.length + k := ⟨m - xs.length, by omega⟩
        rw [Memory.write_add _ _ _ (by rw [List.length_replicate]; omega), List.getElem_replicate,
          List.getElem_append_right (by omega),
          List.getElem_append_left (by rw [List.length_replicate]; omega), List.getElem_replicate]
      · rw [Memory.write_of_ge _ _ (by rw [List.length_replicate]; omega), moveLoop_cells h (by omega),
          if_pos (by omega), hfront _ (by omega), List.getElem_append_right hge,
          List.getElem_append_right (by rw [List.length_replicate]; omega),
          List.getD_append_right _ _ _ _ (by omega), List.getD_eq_getElem _ _ (by omega)]
        congr 1
        rw [List.length_replicate]
        omega

/-! ## The loop behind the `"::"` -/

section Loop

variable {i j : ℕ} {addr : Output UInt16} {result : ErrorCode × Output UInt16}

/-- What the loop does behind the `"::"`, by what there is to read. -/
structure TailParsed (tail : Option (List ℕ × Bool)) (i j : ℕ) (addr : Output UInt16)
    (result : ErrorCode × Output UInt16) : Prop where
  noError_iff : result.1 = .noError ↔
    ∃ vs ended, tail = some (vs, ended) ∧ i + vs.length < 7 + ended.toNat
  stored : ∀ vs ended, tail = some (vs, ended) → i + vs.length < 7 + ended.toNat →
    result.2 = expand (i + vs.length) j (addr.storeAll i (vs.map UInt16.ofNat))
  bounds : ∀ k ∈ result.2.stored, k ∈ addr.stored ∨ k < 8
  kept : ∀ k ∈ addr.stored, k ∈ result.2.stored

theorem TailParsed.fail {tail : Option (List ℕ × Bool)}
    (h : ∀ vs ended, tail = some (vs, ended) → ¬ i + vs.length < 7 + ended.toNat) :
    TailParsed tail i j addr (.invalidSyntax, addr) where
  noError_iff := iff_of_false nofun fun ⟨vs, ended, hvs, hlen⟩ => h vs ended hvs hlen
  stored := fun vs ended hvs hlen => absurd hlen (h vs ended hvs)
  bounds := fun _ hk => .inl hk
  kept := fun _ hk => hk

theorem TailParsed.colon {tail : Option (List ℕ × Bool)} {v : ℕ} (hi : i < 8)
    (h : TailParsed tail (i + 1) j (addr.store i (UInt16.ofNat v)) result) :
    TailParsed (tail.map fun r => (v :: r.1, r.2)) i j addr result := by
  refine ⟨?_, ?_, ?_, fun k hk => h.kept k (List.mem_append_left _ hk)⟩
  · rw [h.noError_iff]
    constructor
    · rintro ⟨vs, ended, rfl, hlen⟩
      exact ⟨v :: vs, ended, rfl, by rw [List.length_cons]; omega⟩
    · rintro ⟨_, ended, hvs, hlen⟩
      obtain ⟨⟨vs, ended'⟩, rfl, heq⟩ := Option.map_eq_some_iff.1 hvs
      obtain ⟨rfl, rfl⟩ := Prod.mk.inj heq
      simp only [List.length_cons] at hlen
      exact ⟨vs, ended', rfl, by omega⟩
  · intro _ ended hvs hlen
    obtain ⟨⟨vs, ended'⟩, rfl, heq⟩ := Option.map_eq_some_iff.1 hvs
    obtain ⟨rfl, rfl⟩ := Prod.mk.inj heq
    simp only [List.length_cons] at hlen ⊢
    rw [h.stored vs ended' rfl (by omega), List.map_cons, Output.storeAll]
    congr 1
    omega
  · intro k hk
    rcases h.bounds k hk with hk | hk
    · rcases List.mem_append.1 hk with hk | hk
      · exact .inl hk
      · exact .inr (by rwa [List.mem_singleton.1 hk])
    · exact .inr hk

/-- The loop behind the `"::"`, from any of its states. -/
theorem loop_tail (s rest : List UInt8) (hs : 0 ∉ s) (i : ℕ) (hj : j ≤ i) (value : Option ℕ)
    (addr : Output UInt16) : ∃ result,
      ipv6StringToAddrLoop (s ++ 0 :: rest) i (some j) value addr = some result ∧
      TailParsed (tailFrom value s) i j addr result := by
  induction s generalizing i value addr with
  | nil =>
      rw [List.nil_append, loop_end_expand]
      split_ifs with hi
      · have hlen : value.toList.length = value.isSome.toNat := by cases value <;> rfl
        refine ⟨_, rfl, ?_, ?_, ?_, fun k hk => ?_⟩
        · exact iff_of_true rfl ⟨_, _, rfl, by omega⟩
        · intro vs ended hvs _
          obtain ⟨rfl, rfl⟩ := Prod.mk.inj (Option.some.inj hvs)
          rfl
        · intro k hk
          rcases expand_stored (by omega) hk with hk | hk
          · rcases Output.mem_stored_storeAll.1 hk with hk | ⟨-, hk⟩
            · exact .inl hk
            · rw [List.length_map, hlen] at hk
              have := Bool.toNat_le value.isSome
              exact .inr (by omega)
          · exact .inr hk
        · exact subset_expand (Output.mem_stored_storeAll.2 (.inl hk))
      · refine ⟨_, rfl, .fail fun vs ended hvs => ?_⟩
        obtain ⟨rfl, rfl⟩ := Prod.mk.inj (Option.some.inj hvs)
        cases value <;> simp <;> omega
  | cons c s ih =>
      have hs' : 0 ∉ s := fun h => hs (List.mem_cons_of_mem c h)
      rw [List.cons_append]
      cases hd : hexDigit c with
      | some d =>
          rw [loop_digit hd, tailFrom_digit hd]
          split_ifs
          · exact ih hs' i hj _ addr
          · exact ⟨_, rfl, .fail nofun⟩
      | none =>
          by_cases hc : c = 58
          · subst hc
            rw [tailFrom_colon]
            by_cases hhead : s.head? = some 58
            · obtain ⟨s, rfl⟩ := List.head?_eq_some_iff.1 hhead
              rw [List.cons_append, loop_colons_again, tailFrom_colon]
              exact ⟨_, rfl, .fail (by cases value <;> exact nofun)⟩
            · cases value with
              | none =>
                  rw [loop_colon_fail hhead (.inl rfl)]
                  exact ⟨_, rfl, .fail nofun⟩
              | some v =>
                  by_cases hi : i < 8
                  · rw [loop_colon hhead hi]
                    obtain ⟨result, hresult, hp⟩ := ih hs' (i + 1) (by omega) none
                      (addr.store i (UInt16.ofNat v))
                    exact ⟨result, hresult, hp.colon hi⟩
                  · rw [loop_colon_fail hhead (.inr (Nat.not_lt.1 hi))]
                    refine ⟨_, rfl, .fail fun vs ended hvs hlen => ?_⟩
                    have := Bool.toNat_le ended
                    omega
          · rw [loop_other hd hc (fun h => hs (h ▸ List.mem_cons_self)), tailFrom_other hd hc]
            exact ⟨_, rfl, .fail nofun⟩

/-! ## The loop in front of the `"::"` -/

/-- What the loop does in front of the `"::"`, by what there is to read. The store that may lie behind
the address is the one of the ninth group. -/
structure FrontParsed (front : Option (List ℕ × Option (List UInt8))) (i : ℕ) (addr : Output UInt16)
    (result : ErrorCode × Output UInt16) : Prop where
  noError_iff : result.1 = .noError ↔
    (∃ vs, front = some (vs, none) ∧ i + vs.length = 8) ∨
    ∃ vs b ws ended, front = some (vs, some b) ∧ tailFrom none b = some (ws, ended) ∧
      i + vs.length + ws.length < 7 + ended.toNat
  full : ∀ vs, front = some (vs, none) → i + vs.length = 8 →
    result.2 = addr.storeAll i (vs.map UInt16.ofNat)
  short : ∀ vs b ws ended, front = some (vs, some b) → tailFrom none b = some (ws, ended) →
    i + vs.length + ws.length < 7 + ended.toNat → result.2 =
      expand (i + vs.length + ws.length) (i + vs.length)
        (addr.storeAll i ((vs ++ ws).map UInt16.ofNat))
  bounds : ∀ k ∈ result.2.stored, k ∈ addr.stored ∨ k < 8 ∨
    ∃ vs b, front = some (vs, some b) ∧ i + vs.length = 9
  overrun : ∀ vs b, front = some (vs, some b) → i + vs.length = 9 → 8 ∈ result.2.stored

theorem FrontParsed.fail {front : Option (List ℕ × Option (List UInt8))}
    (hfull : ∀ vs, front = some (vs, none) → i + vs.length ≠ 8)
    (hshort : ∀ vs b, front = some (vs, some b) → 9 < i + vs.length) :
    FrontParsed front i addr (.invalidSyntax, addr) where
  noError_iff := by
    refine iff_of_false nofun ?_
    rintro (⟨vs, hvs, hlen⟩ | ⟨vs, b, ws, ended, hvs, -, hlen⟩)
    · exact hfull vs hvs hlen
    · have := hshort vs b hvs
      have := Bool.toNat_le ended
      omega
  full := fun vs hvs hlen => absurd hlen (hfull vs hvs)
  short := fun vs b ws ended hvs _ hlen => by
    have := hshort vs b hvs
    have := Bool.toNat_le ended
    omega
  bounds := fun _ hk => .inl hk
  overrun := fun vs b hvs hlen => absurd (hshort vs b hvs) (by omega)

theorem FrontParsed.colon {front : Option (List ℕ × Option (List UInt8))} {v : ℕ} (hi : i < 8)
    (h : FrontParsed front (i + 1) (addr.store i (UInt16.ofNat v)) result) :
    FrontParsed (front.map fun r => (v :: r.1, r.2)) i addr result := by
  have hcons : ∀ vs next, front.map (fun r => (v :: r.1, r.2)) = some (vs, next) →
      ∃ ws, vs = v :: ws ∧ front = some (ws, next) := by
    intro vs next hvs
    obtain ⟨⟨ws, next'⟩, rfl, heq⟩ := Option.map_eq_some_iff.1 hvs
    obtain ⟨rfl, rfl⟩ := Prod.mk.inj heq
    exact ⟨ws, rfl, rfl⟩
  have hlength : ∀ ws : List ℕ, i + (v :: ws).length = i + 1 + ws.length := fun ws => by
    rw [List.length_cons]
    omega
  refine ⟨?_, ?_, ?_, ?_, ?_⟩
  · rw [h.noError_iff]
    constructor
    · rintro (⟨vs, rfl, hlen⟩ | ⟨vs, b, ws, ended, rfl, hws, hlen⟩)
      · exact .inl ⟨v :: vs, rfl, by rw [hlength, hlen]⟩
      · exact .inr ⟨v :: vs, b, ws, ended, rfl, hws, by rw [hlength]; exact hlen⟩
    · rintro (⟨_, hvs, hlen⟩ | ⟨_, b, ws, ended, hvs, hws, hlen⟩)
      · obtain ⟨vs, rfl, hfront⟩ := hcons _ _ hvs
        exact .inl ⟨vs, hfront, by rwa [hlength] at hlen⟩
      · obtain ⟨vs, rfl, hfront⟩ := hcons _ _ hvs
        exact .inr ⟨vs, b, ws, ended, hfront, hws, by rwa [hlength] at hlen⟩
  · intro _ hvs hlen
    obtain ⟨vs, rfl, hfront⟩ := hcons _ _ hvs
    exact h.full vs hfront (by rwa [hlength] at hlen)
  · intro _ b ws ended hvs hws hlen
    obtain ⟨vs, rfl, hfront⟩ := hcons _ _ hvs
    rw [hlength] at hlen ⊢
    exact h.short vs b ws ended hfront hws hlen
  · intro k hk
    rcases h.bounds k hk with hk | hk | ⟨vs, b, hfront, hlen⟩
    · rcases List.mem_append.1 hk with hk | hk
      · exact .inl hk
      · exact .inr (.inl (by rwa [List.mem_singleton.1 hk]))
    · exact .inr (.inl hk)
    · exact .inr (.inr ⟨v :: vs, b, by rw [hfront]; rfl, by rw [hlength, hlen]⟩)
  · intro _ b hvs hlen
    obtain ⟨vs, rfl, hfront⟩ := hcons _ _ hvs
    exact h.overrun vs b hfront (by rwa [hlength] at hlen)

/-- At the `"::"`, at most nine groups have been stored. -/
theorem TailParsed.front {b : List UInt8} {vs : List ℕ} (hi : i ≤ 8) (hone : vs.length ≤ 1)
    (h : TailParsed (tailFrom none b) (i + vs.length) (i + vs.length)
      (addr.storeAll i (vs.map UInt16.ofNat)) result) :
    FrontParsed (some (vs, some b)) i addr result := by
  refine ⟨?_, nofun, ?_, ?_, ?_⟩
  · rw [h.noError_iff]
    constructor
    · rintro ⟨ws, ended, hws, hlen⟩
      exact .inr ⟨vs, b, ws, ended, rfl, hws, hlen⟩
    · rintro (⟨_, hfront, -⟩ | ⟨_, _, ws, ended, hfront, hws, hlen⟩)
      · cases (Prod.mk.inj (Option.some.inj hfront)).2
      · obtain ⟨rfl, heq⟩ := Prod.mk.inj (Option.some.inj hfront)
        obtain rfl := Option.some.inj heq
        exact ⟨ws, ended, hws, hlen⟩
  · intro _ _ ws ended hfront hws hlen
    obtain ⟨rfl, heq⟩ := Prod.mk.inj (Option.some.inj hfront)
    obtain rfl := Option.some.inj heq
    rw [h.stored ws ended hws hlen, List.map_append, Output.storeAll_append, List.length_map]
  · intro k hk
    rcases h.bounds k hk with hk | hk
    · rcases Output.mem_stored_storeAll.1 hk with hk | ⟨-, hk⟩
      · exact .inl hk
      · rw [List.length_map] at hk
        by_cases hnine : i + vs.length = 9
        · exact .inr (.inr ⟨vs, b, rfl, hnine⟩)
        · exact .inr (.inl (by omega))
    · exact .inr (.inl hk)
  · intro _ _ hfront hlen
    obtain ⟨rfl, -⟩ := Prod.mk.inj (Option.some.inj hfront)
    refine h.kept 8 (Output.mem_stored_storeAll.2 (.inr ⟨hi, ?_⟩))
    rw [List.length_map, hlen]
    decide

/-- The loop in front of the `"::"`, from any of its states. -/
theorem loop_front (s rest : List UInt8) (hs : 0 ∉ s) (i : ℕ) (hi : i ≤ 8) (value : Option ℕ)
    (addr : Output UInt16) : ∃ result,
      ipv6StringToAddrLoop (s ++ 0 :: rest) i none value addr = some result ∧
      FrontParsed (frontFrom value s) i addr result := by
  induction s generalizing i value addr with
  | nil =>
      rw [List.nil_append]
      cases value with
      | none => exact ⟨_, loop_end_none, .fail nofun nofun⟩
      | some v =>
          rw [loop_end]
          split_ifs with hlast
          · refine ⟨_, rfl, ?_, ?_, nofun, ?_, nofun⟩
            · exact iff_of_true rfl (.inl ⟨[v], rfl, by rw [hlast, List.length_singleton]⟩)
            · intro vs hvs _
              obtain ⟨rfl, -⟩ := Prod.mk.inj (Option.some.inj hvs)
              rfl
            · intro k hk
              rcases List.mem_append.1 hk with hk | hk
              · exact .inl hk
              · exact .inr (.inl (by rw [List.mem_singleton.1 hk]; omega))
          · refine ⟨_, rfl, .fail (fun vs hvs hlen => ?_) nofun⟩
            obtain ⟨rfl, -⟩ := Prod.mk.inj (Option.some.inj hvs)
            rw [List.length_singleton] at hlen
            omega
  | cons c s ih =>
      have hs' : 0 ∉ s := fun h => hs (List.mem_cons_of_mem c h)
      rw [List.cons_append]
      cases hd : hexDigit c with
      | some d =>
          rw [loop_digit hd, frontFrom_digit hd]
          split_ifs
          · exact ih hs' i hi _ addr
          · exact ⟨_, rfl, .fail nofun nofun⟩
      | none =>
          by_cases hc : c = 58
          · subst hc
            by_cases hhead : s.head? = some 58
            · obtain ⟨s, rfl⟩ := List.head?_eq_some_iff.1 hhead
              have hone : value.toList.length ≤ 1 := by cases value <;> simp
              rw [List.cons_append, loop_colons, frontFrom_colons]
              obtain ⟨result, hresult, hp⟩ := loop_tail s rest
                (fun h => hs' (List.mem_cons_of_mem _ h)) (i + value.toList.length) (le_refl _) none
                (addr.storeAll i (value.toList.map UInt16.ofNat))
              exact ⟨result, hresult, hp.front hi hone⟩
            · rw [frontFrom_colon hhead]
              cases value with
              | none =>
                  rw [loop_colon_fail hhead (.inl rfl)]
                  exact ⟨_, rfl, .fail nofun nofun⟩
              | some v =>
                  by_cases hlt : i < 8
                  · rw [loop_colon hhead hlt]
                    obtain ⟨result, hresult, hp⟩ := ih hs' (i + 1) hlt none
                      (addr.store i (UInt16.ofNat v))
                    exact ⟨result, hresult, hp.colon hlt⟩
                  · rw [loop_colon_fail hhead (.inr (Nat.not_lt.1 hlt)), Option.bind_some]
                    refine ⟨_, rfl, .fail (fun vs hvs hlen => ?_) fun vs b hvs => ?_⟩
                    · obtain ⟨⟨ws, next⟩, -, heq⟩ := Option.map_eq_some_iff.1 hvs
                      obtain ⟨rfl, rfl⟩ := Prod.mk.inj heq
                      rw [List.length_cons] at hlen
                      omega
                    · obtain ⟨⟨ws, next⟩, hws, heq⟩ := Option.map_eq_some_iff.1 hvs
                      obtain ⟨rfl, rfl⟩ := Prod.mk.inj heq
                      -- there is a group between the separator and the colons
                      obtain ⟨a, rfl, ⟨rfl, -⟩ | ha⟩ := frontFrom_some.1 hws
                      · exact absurd rfl hhead
                      · have := List.length_pos_of_ne_nil ha.ne_nil
                        simp only [List.length_cons]
                        omega
          · rw [loop_other hd hc (fun h => hs (h ▸ List.mem_cons_self)), frontFrom_other hd hc]
            exact ⟨_, rfl, .fail nofun nofun⟩

end Loop

/-! ## The strings for which parser and grammar differ -/

/-- Seven groups and `"::"`, which stands for the eighth: in the grammar, but not accepted. -/
def SevenThenColons (s : List UInt8) : Prop :=
  ∃ a va, s = a ++ [58, 58] ∧ groupFormat.Groups a va ∧ va.length = 7

/-- A `':'` behind the last group of an abbreviated address: accepted, but not in the grammar. -/
def TrailingColon (s : List UInt8) : Prop :=
  ∃ a b va vb, s = a ++ 58 :: 58 :: (b ++ [58]) ∧ OptGroups a va ∧ groupFormat.Groups b vb ∧
    va.length + vb.length ≤ 6

/-- Nine groups and `"::"`: the ninth one is stored behind the address. -/
def NineThenColons (s : List UInt8) : Prop :=
  ∃ a b va, s = a ++ 58 :: 58 :: b ∧ groupFormat.Groups a va ∧ va.length = 9

/-- `ipv6StringToAddr` accepts the string if and only if it is in the grammar, stores the address that
it denotes, and stores to nothing but the eight words. -/
def AcceptsExactly (s : List UInt8) : Prop :=
  ∀ (rest : List UInt8) (cells : Memory UInt16), ∃ error addr,
    ipv6StringToAddr (s ++ 0 :: rest) (.init cells) = some (error, addr) ∧
    (error = .noError ↔ ∃ ws, Text s ws) ∧
    (∀ ws, Text s ws → addr.cells.read 0 8 = ws.map UInt16.ofNat) ∧
    (∀ k ∈ addr.stored, k < 8)

section Strings

variable {s b : List UInt8} {vb ws : List ℕ} {cells : Memory UInt16}
  {result : ErrorCode × Output UInt16}

theorem ipv6StringToAddr_parsed (hs : 0 ∉ s) (rest : List UInt8) (cells : Memory UInt16) :
    ∃ result, ipv6StringToAddr (s ++ 0 :: rest) (.init cells) = some result ∧
      FrontParsed (frontFrom none s) 0 (.init cells) result :=
  loop_front s rest hs 0 (Nat.zero_le 8) none (.init cells)

theorem OptGroups.tail (h : OptGroups b vb) : ∃ ended, tailFrom none b = some (vb, ended) ∧
    (ended = false → b = [] ∧ vb = []) := by
  rcases h with ⟨rfl, rfl⟩ | h
  · exact ⟨false, rfl, fun _ => ⟨rfl, rfl⟩⟩
  · exact ⟨true, tailFrom_true.2 (Format.groupsFrom_iff.2 h), nofun⟩

/-- A text of the grammar is read, unless its `"::"` stands for the last group. -/
theorem text_accepted (hp : FrontParsed (frontFrom none s) 0 (.init cells) result) (h : Text s ws)
    (hseven : ¬ SevenThenColons s) :
    result.1 = .noError ∧ result.2.cells.read 0 8 = ws.map UInt16.ofNat := by
  cases h with
  | full hgroups hlen =>
      have hfront := frontFrom_none.2 (Format.groupsFrom_iff.2 hgroups)
      refine ⟨hp.noError_iff.2 (.inl ⟨ws, hfront, by rw [hlen]⟩), ?_⟩
      rw [hp.full ws hfront (by rw [hlen]), Output.storeAll_cells]
      exact Memory.read_write_of_length _ _ (by rw [List.length_map, hlen])
  | @short a b va vb ha hb hlen =>
      have hfront := (frontFrom_some (b := b)).2 ⟨a, rfl, ha⟩
      obtain ⟨ended, htail, hended⟩ := hb.tail
      have hbound : 0 + va.length + vb.length < 7 + ended.toNat := by
        cases ended with
        | true => rw [Nat.zero_add]; exact Nat.lt_succ_of_le hlen
        | false =>
            obtain ⟨rfl, rfl⟩ := hended rfl
            refine Nat.lt_of_le_of_ne (by simpa using hlen) fun hva => hseven ⟨a, va, rfl, ?_, ?_⟩
            · refine ha.resolve_left fun hnil => ?_
              rw [hnil.2] at hva
              cases hva
            · simpa using hva
      refine ⟨hp.noError_iff.2 (.inr ⟨va, b, vb, ended, hfront, htail, hbound⟩), ?_⟩
      rw [hp.short va b vb ended hfront htail hbound, Nat.zero_add, List.map_append]
      have hread := expand_read (va.map UInt16.ofNat) (vb.map UInt16.ofNat) (.init cells)
        (by rw [List.length_map, List.length_map]; exact hlen)
      rw [List.length_map, List.length_map] at hread
      rw [hread, List.map_append, List.map_append, List.map_replicate]
      rfl

/-- What is read is a text of the grammar, or has a `':'` too many. -/
theorem accepted_text (hp : FrontParsed (frontFrom none s) 0 (.init cells) result)
    (h : result.1 = .noError) : (∃ ws, Text s ws) ∨ TrailingColon s := by
  rcases hp.noError_iff.1 h with ⟨vs, hfront, hlen⟩ | ⟨va, b, vb, ended, hfront, htail, hlen⟩
  · refine .inl ⟨vs, .full (Format.groupsFrom_iff.1 (frontFrom_none.1 hfront)) ?_⟩
    rwa [Nat.zero_add] at hlen
  · obtain ⟨a, rfl, ha⟩ := frontFrom_some.1 hfront
    rw [Nat.zero_add] at hlen
    cases ended with
    | true =>
        have hb := Format.groupsFrom_iff.1 (tailFrom_true.1 htail)
        exact .inl ⟨_, .short ha (.inr hb) (Nat.le_of_lt_succ hlen)⟩
    | false =>
        rcases tailFrom_false htail with ⟨-, rfl, rfl⟩ | ⟨b', rfl, hb⟩
        · exact .inl ⟨_, .short ha (.inl ⟨rfl, rfl⟩) (Nat.le_of_lt hlen)⟩
        · exact .inr ⟨a, b', va, vb, rfl, ha, Format.groupsFrom_iff.1 hb, Nat.le_of_lt_succ hlen⟩

theorem TrailingColon.not_text (h : TrailingColon s) : ¬ Text s ws := by
  obtain ⟨a, b, va, vb, heq, ha, hb, -⟩ := h
  have hfront := frontFrom_some.2 ⟨a, heq, ha⟩
  have htail := tailFrom_colon_end (Format.groupsFrom_iff.2 hb)
  intro htext
  cases htext with
  | full hgroups _ =>
      rw [frontFrom_none.2 (Format.groupsFrom_iff.2 hgroups)] at hfront
      cases (Prod.mk.inj (Option.some.inj hfront)).2
  | @short a' b' va' vb' ha' hb' _ =>
      rw [frontFrom_some.2 ⟨a', rfl, ha'⟩] at hfront
      obtain rfl := Option.some.inj (Prod.mk.inj (Option.some.inj hfront)).2
      obtain ⟨ended, htail', hended⟩ := hb'.tail
      rw [htail] at htail'
      obtain ⟨-, rfl⟩ := Prod.mk.inj (Option.some.inj htail')
      cases (List.append_eq_nil_iff.1 (hended rfl).1).2

theorem TrailingColon.accepted (h : TrailingColon s)
    (hp : FrontParsed (frontFrom none s) 0 (.init cells) result) : result.1 = .noError := by
  obtain ⟨a, b, va, vb, heq, ha, hb, hlen⟩ := h
  refine hp.noError_iff.2 (.inr ⟨va, b ++ [58], vb, false, frontFrom_some.2 ⟨a, heq, ha⟩,
    tailFrom_colon_end (Format.groupsFrom_iff.2 hb), ?_⟩)
  rw [Nat.zero_add]
  exact Nat.lt_succ_of_le hlen

theorem SevenThenColons.text (h : SevenThenColons s) : ∃ ws, Text s ws := by
  obtain ⟨a, va, rfl, ha, hlen⟩ := h
  exact ⟨_, .short (.inr ha) (.inl ⟨rfl, rfl⟩) (Nat.le_of_eq hlen)⟩

theorem SevenThenColons.refused (h : SevenThenColons s)
    (hp : FrontParsed (frontFrom none s) 0 (.init cells) result) : result.1 ≠ .noError := by
  obtain ⟨a, va, heq, ha, hlen⟩ := h
  have hfront := frontFrom_some.2 ⟨a, heq, .inr ha⟩
  intro hok
  rcases hp.noError_iff.1 hok with ⟨vs, hvs, -⟩ | ⟨vs, b, ws, ended, hvs, htail, hbound⟩
  · rw [hfront] at hvs
    cases (Prod.mk.inj (Option.some.inj hvs)).2
  · rw [hfront] at hvs
    obtain ⟨rfl, hb⟩ := Prod.mk.inj (Option.some.inj hvs)
    obtain rfl := Option.some.inj hb
    obtain ⟨rfl, rfl⟩ := Prod.mk.inj (Option.some.inj htail)
    rw [hlen] at hbound
    exact absurd hbound (by decide)

theorem NineThenColons.overrun (h : NineThenColons s)
    (hp : FrontParsed (frontFrom none s) 0 (.init cells) result) : 8 ∈ result.2.stored := by
  obtain ⟨a, b, va, heq, ha, hlen⟩ := h
  exact hp.overrun va b (frontFrom_some.2 ⟨a, heq, .inr ha⟩) (by rw [hlen])

/-- Nothing else is stored behind the address. -/
theorem FrontParsed.stored_lt (hp : FrontParsed (frontFrom none s) 0 (.init cells) result)
    (hnine : ¬ NineThenColons s) : ∀ k ∈ result.2.stored, k < 8 := by
  intro k hk
  rcases hp.bounds k hk with hk | hk | ⟨va, b, hfront, hlen⟩
  · exact absurd hk List.not_mem_nil
  · exact hk
  · obtain ⟨a, rfl, ha⟩ := frontFrom_some.1 hfront
    rw [Nat.zero_add] at hlen
    refine absurd ⟨a, b, va, rfl, ha.resolve_left fun hnil => ?_, hlen⟩ hnine
    rw [hnil.2] at hlen
    cases hlen

theorem not_acceptsExactly (hs : 0 ∉ s)
    (h : SevenThenColons s ∨ TrailingColon s ∨ NineThenColons s) : ¬ AcceptsExactly s := by
  intro hexact
  obtain ⟨error, addr, hresult, hiff, -, hbounds⟩ := hexact [] fun _ => 0
  obtain ⟨_, hresult', hp⟩ := ipv6StringToAddr_parsed hs [] fun _ => 0
  obtain rfl := Option.some.inj (hresult.symm.trans hresult')
  rcases h with hseven | htrail | hnine
  · exact hseven.refused hp (hiff.2 hseven.text)
  · obtain ⟨ws, hws⟩ := hiff.1 (htrail.accepted hp)
    exact htrail.not_text hws
  · exact absurd (hbounds 8 (hnine.overrun hp)) (by decide)

/-- The strings for which the parser does what the grammar says. -/
theorem acceptsExactly_iff (hs : 0 ∉ s) :
    AcceptsExactly s ↔ ¬ SevenThenColons s ∧ ¬ TrailingColon s ∧ ¬ NineThenColons s := by
  constructor
  · intro h
    exact ⟨fun hseven => not_acceptsExactly hs (.inl hseven) h,
      fun htrail => not_acceptsExactly hs (.inr (.inl htrail)) h,
      fun hnine => not_acceptsExactly hs (.inr (.inr hnine)) h⟩
  · rintro ⟨hseven, htrail, hnine⟩ rest cells
    obtain ⟨⟨error, addr⟩, hresult, hp⟩ := ipv6StringToAddr_parsed hs rest cells
    refine ⟨error, addr, hresult, ⟨fun hok => ?_, fun ⟨ws, hws⟩ => ?_⟩, fun ws hws => ?_,
      hp.stored_lt hnine⟩
    · exact (accepted_text hp hok).resolve_right htrail
    · exact (text_accepted hp hws hseven).1
    · exact (text_accepted hp hws hseven).2

/-- The same for `"::1"`. -/
theorem acceptsExactly_loopback : 0 ∉ [58, 58, 49] ∧ (AcceptsExactly [58, 58, 49] ↔
    ¬ SevenThenColons [58, 58, 49] ∧ ¬ TrailingColon [58, 58, 49] ∧ ¬ NineThenColons [58, 58, 49]) :=
  ⟨by decide, acceptsExactly_iff (by decide)⟩

end Strings

/-- `"1:1:1:1:1:1:1::"` is refused, `"1::1:"` is accepted, and for `"1:1:1:1:1:1:1:1:1::"` a word is
stored behind the address. -/
theorem acceptsExactly_counterexample :
    ¬ AcceptsExactly [49, 58, 49, 58, 49, 58, 49, 58, 49, 58, 49, 58, 49, 58, 58] ∧
    ¬ AcceptsExactly [49, 58, 58, 49, 58] ∧
    ¬ AcceptsExactly
      [49, 58, 49, 58, 49, 58, 49, 58, 49, 58, 49, 58, 49, 58, 49, 58, 49, 58, 58] := by
  refine ⟨not_acceptsExactly (by decide) (.inl ?_), not_acceptsExactly (by decide) (.inr (.inl ?_)),
    not_acceptsExactly (by decide) (.inr (.inr ?_))⟩
  · exact ⟨[49, 58, 49, 58, 49, 58, 49, 58, 49, 58, 49, 58, 49], _, rfl,
      Format.groupsFrom_iff.1 rfl, rfl⟩
  · exact ⟨[49], [49], _, _, rfl, .inr (Format.groupsFrom_iff.1 rfl), Format.groupsFrom_iff.1 rfl,
      by decide⟩
  · exact ⟨[49, 58, 49, 58, 49, 58, 49, 58, 49, 58, 49, 58, 49, 58, 49, 58, 49], [], _, rfl,
      Format.groupsFrom_iff.1 rfl, rfl⟩

end Ipv6Text
