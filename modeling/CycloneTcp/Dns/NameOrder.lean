import CycloneTcp.Dns.NameWalk
import Mathlib.Data.List.Lex
import Mathlib.Order.Lattice

set_option autoImplicit false

/-! # The order of encoded names

`dnsCompareEncodedName` goes through two names in lockstep. Written out in full, names are ordered
as the lists of their labels, and a label by its characters up to a NUL and by its length.
Compression pointers cost levels that both names share, and a pointer in front of the zero octet
counts as remaining data. -/

namespace Dns

open CString

/-! ## Labels -/

/-- The comparison of two labels. -/
def labelCompare (a b : List UInt8) : ℤ :=
  match strncasecmp (min a.length b.length) a b with
  | none => 0
  | some res =>
      if res ≠ 0 then res
      else if a.length < b.length then -1
      else if b.length < a.length then 1
      else 0

/-- What the order of a label depends on. -/
def labelKey : List UInt8 → List ℕ
  | [] => []
  | c :: label => if c = 0 then [0, label.length] else (toLower c).toNat :: labelKey label

section Labels

variable {a b : List UInt8} {x y : UInt8}

/-- Nothing behind the shorter label is read. -/
theorem strncasecmp_min (a b : List UInt8) :
    ∃ res, strncasecmp (min a.length b.length) a b = some res := by
  induction a generalizing b with
  | nil => exact ⟨0, by rw [List.length_nil, Nat.zero_min, strncasecmp]⟩
  | cons x a ih =>
      cases b with
      | nil => exact ⟨0, by rw [List.length_nil, Nat.min_zero, strncasecmp]⟩
      | cons y b =>
          rw [List.length_cons, List.length_cons, Nat.succ_min_succ, strncasecmp]
          split
          · exact ⟨_, rfl⟩
          · split
            · exact ⟨0, rfl⟩
            · exact ih b

theorem labelCompare_nil_nil : labelCompare [] [] = 0 := rfl

theorem labelCompare_nil_cons : labelCompare [] (y :: b) = -1 := by
  simp [labelCompare, strncasecmp]

theorem labelCompare_cons_nil : labelCompare (x :: a) [] = 1 := by
  simp [labelCompare, strncasecmp]

/-- Different characters. -/
theorem labelCompare_of_ne (h : toLower x ≠ toLower y) :
    labelCompare (x :: a) (y :: b) = (toLower x).toNat - (toLower y).toNat := by
  have hne : ((toLower x).toNat : ℤ) - (toLower y).toNat ≠ 0 := fun h0 =>
    h (UInt8.toNat_inj.1 (by omega))
  rw [labelCompare, List.length_cons, List.length_cons, Nat.succ_min_succ, strncasecmp, if_pos h]
  exact if_pos hne

/-- A common NUL. -/
theorem labelCompare_nul : labelCompare (0 :: a) (0 :: b) =
    if a.length < b.length then -1 else if b.length < a.length then 1 else 0 := by
  rw [labelCompare, List.length_cons, List.length_cons, Nat.succ_min_succ, strncasecmp,
    if_neg (not_not.2 rfl), if_pos rfl]
  simp only [Nat.add_lt_add_iff_right]
  rfl

theorem labelCompare_cons (h : toLower x = toLower y) (hx : x ≠ 0) :
    labelCompare (x :: a) (y :: b) = labelCompare a b := by
  rw [labelCompare, List.length_cons, List.length_cons, Nat.succ_min_succ, strncasecmp,
    if_neg (not_not.2 h), if_neg hx, labelCompare]
  simp only [Nat.add_lt_add_iff_right]

theorem labelKey_cons_of_ne (hx : x ≠ 0) : labelKey (x :: a) = (toLower x).toNat :: labelKey a :=
  if_neg hx

theorem labelKey_nul : labelKey (0 :: a) = [0, a.length] := if_pos rfl

/-- The first character counts first. -/
theorem labelKey_cons (x : UInt8) (a : List UInt8) :
    ∃ rest, labelKey (x :: a) = (toLower x).toNat :: rest := by
  by_cases hx : x = 0
  · subst hx
    exact ⟨[a.length], labelKey_nul⟩
  · exact ⟨_, labelKey_cons_of_ne hx⟩

theorem nulKey_lt {m n : ℕ} : [0, m] < [0, n] ↔ m < n := by
  simp [List.cons_lt_cons_iff]

/-- **Labels are ordered by their keys.** -/
theorem labelCompare_key (a b : List UInt8) :
    (labelCompare a b < 0 ↔ labelKey a < labelKey b) ∧
      (labelCompare a b = 0 ↔ labelKey a = labelKey b) := by
  induction a generalizing b with
  | nil =>
      cases b with
      | nil => simp [labelCompare_nil_nil]
      | cons y b =>
          obtain ⟨rest, hrest⟩ := labelKey_cons y b
          rw [labelCompare_nil_cons, hrest]
          simp [labelKey]
  | cons x a ih =>
      cases b with
      | nil =>
          obtain ⟨rest, hrest⟩ := labelKey_cons x a
          rw [labelCompare_cons_nil, hrest]
          simp [labelKey]
      | cons y b =>
          by_cases hlow : toLower x = toLower y
          · by_cases hx : x = 0
            · have hy : y = 0 := (eq_zero_iff_of_toLower hlow).1 hx
              subst hx hy
              rw [labelCompare_nul, labelKey_nul, labelKey_nul, nulKey_lt]
              rcases lt_trichotomy a.length b.length with h | h | h
              · simp [h, h.ne]
              · simp [h]
              · simp [h, h.ne', h.not_gt]
            · have hy : y ≠ 0 := fun hy => hx ((eq_zero_iff_of_toLower hlow).2 hy)
              obtain ⟨hlt, hzero⟩ := ih b
              rw [labelCompare_cons hlow hx, labelKey_cons_of_ne hx, labelKey_cons_of_ne hy, hlow, hlt,
                hzero, List.cons_lt_cons_iff, List.cons.injEq]
              simp
          · obtain ⟨resta, ha⟩ := labelKey_cons x a
            obtain ⟨restb, hb⟩ := labelKey_cons y b
            have hne : (toLower x).toNat ≠ (toLower y).toNat := fun h => hlow (UInt8.toNat_inj.1 h)
            rw [labelCompare_of_ne hlow, ha, hb, List.cons_lt_cons_iff, List.cons.injEq]
            simp only [hne, false_and, or_false, iff_false]
            omega

theorem labelCompare_swap (a b : List UInt8) : labelCompare b a = -labelCompare a b := by
  induction a generalizing b with
  | nil =>
      cases b with
      | nil => rfl
      | cons y b => rw [labelCompare_cons_nil, labelCompare_nil_cons]; rfl
  | cons x a ih =>
      cases b with
      | nil => rw [labelCompare_cons_nil, labelCompare_nil_cons]
      | cons y b =>
          by_cases hlow : toLower x = toLower y
          · by_cases hx : x = 0
            · have hy : y = 0 := (eq_zero_iff_of_toLower hlow).1 hx
              subst hx hy
              rw [labelCompare_nul, labelCompare_nul]
              split_ifs <;> omega
            · have hy : y ≠ 0 := fun hy => hx ((eq_zero_iff_of_toLower hlow).2 hy)
              rw [labelCompare_cons hlow hx, labelCompare_cons hlow.symm hy, ih]
          · rw [labelCompare_of_ne hlow, labelCompare_of_ne (Ne.symm hlow)]
            omega

theorem labelKey_of_eqFold (h : EqFold a b) : labelKey a = labelKey b := by
  induction a generalizing b with
  | nil => rw [EqFold.nil_iff.1 h.symm]
  | cons x a ih =>
      cases b with
      | nil => cases h
      | cons y b =>
          obtain ⟨hlow, htail⟩ := EqFold.cons_iff.1 h
          by_cases hx : x = 0
          · have hy : y = 0 := (eq_zero_iff_of_toLower hlow).1 hx
            subst hx hy
            rw [labelKey_nul, labelKey_nul, htail.length_eq]
          · have hy : y ≠ 0 := fun hy => hx ((eq_zero_iff_of_toLower hlow).2 hy)
            rw [labelKey_cons_of_ne hx, labelKey_cons_of_ne hy, hlow, ih htail]

end Labels

/-! ## Names in full -/

/-- The comparison of two names in full. -/
def nameCompare : List (List UInt8) → List (List UInt8) → ℤ
  | [], [] => 0
  | [], _ :: _ => -1
  | _ :: _, [] => 1
  | a :: s, b :: t => if labelCompare a b ≠ 0 then labelCompare a b else nameCompare s t

/-- What the order of a name depends on. -/
def nameKey (ls : List (List UInt8)) : List (List ℕ) := ls.map labelKey

section Names

variable {s t : List (List UInt8)}

/-- **Names in full are ordered by their keys.** -/
theorem nameCompare_key (s t : List (List UInt8)) :
    (nameCompare s t < 0 ↔ nameKey s < nameKey t) ∧
      (nameCompare s t = 0 ↔ nameKey s = nameKey t) := by
  induction s generalizing t with
  | nil => cases t <;> simp [nameCompare, nameKey]
  | cons a s ih =>
      cases t with
      | nil => simp [nameCompare, nameKey]
      | cons b t =>
          obtain ⟨hlt, hzero⟩ := ih t
          obtain ⟨hlt', hzero'⟩ := labelCompare_key a b
          rw [nameCompare, nameKey, nameKey, List.map_cons, List.map_cons, List.cons_lt_cons_iff,
            List.cons.injEq, ← nameKey, ← nameKey, ← hlt, ← hzero, ← hlt', ← hzero']
          by_cases h : labelCompare a b = 0
          · simp [h]
          · simp [h]

theorem nameCompare_swap (s t : List (List UInt8)) : nameCompare t s = -nameCompare s t := by
  induction s generalizing t with
  | nil => cases t <;> rfl
  | cons a s ih =>
      cases t with
      | nil => rfl
      | cons b t =>
          rw [nameCompare, nameCompare, labelCompare_swap a b, ih]
          by_cases h : labelCompare a b = 0
          · simp [h]
          · simp [h]

theorem nameKey_of_eqFold (h : List.Forall₂ EqFold s t) : nameKey s = nameKey t := by
  induction h with
  | nil => rfl
  | cons hab _ ih => rw [nameKey, nameKey, List.map_cons, List.map_cons, labelKey_of_eqFold hab,
      ← nameKey, ih, nameKey]

end Names

/-! ## Names in lockstep -/

/-- How often a level is spent on compression pointers, of one name or of both, before two names
have been compared. -/
def rounds : List Step → List Step → ℕ
  | [], _ => 0
  | _ :: _, [] => 0
  | .label a :: s, .label b :: t => if labelCompare a b ≠ 0 then 0 else rounds s t
  | .hop :: s, .hop :: t => rounds s t + 1
  | .hop :: s, .label b :: t => rounds s (.label b :: t) + 1
  | .label a :: s, .hop :: t => rounds (.label a :: s) t + 1
termination_by s t => s.length + t.length

/-- The comparison of two names in lockstep. -/
def stepCompare : List Step → List Step → ℤ
  | [], [] => 0
  | [], _ :: _ => -1
  | _ :: _, [] => 1
  | .label a :: s, .label b :: t => if labelCompare a b ≠ 0 then labelCompare a b else stepCompare s t
  | .hop :: s, .hop :: t => stepCompare s t
  | .hop :: s, .label b :: t => stepCompare s (.label b :: t)
  | .label a :: s, .hop :: t => stepCompare (.label a :: s) t
termination_by s t => s.length + t.length

/-- When all labels have been compared, one name is at its zero octet and the other one at a pointer
to it. -/
def Uneven : List Step → List Step → Prop
  | [], t => t ≠ [] ∧ labelsOf t = []
  | step :: s, [] => labelsOf (step :: s) = []
  | .label a :: s, .label b :: t => labelCompare a b = 0 ∧ Uneven s t
  | .hop :: s, .hop :: t => Uneven s t
  | .hop :: s, .label b :: t => Uneven s (.label b :: t)
  | .label a :: s, .hop :: t => Uneven (.label a :: s) t
termination_by s t => s.length + t.length

section Lockstep

variable {s t : List Step}

/-- Names that end evenly are compared as the names in full are. -/
theorem stepCompare_of_not_uneven (h : ¬ Uneven s t) :
    stepCompare s t = nameCompare (labelsOf s) (labelsOf t) := by
  induction s, t using rounds.induct with
  | case1 t =>
      cases t with
      | nil => rw [stepCompare]; rfl
      | cons step t =>
          rw [Uneven] at h
          obtain ⟨l, ls, hls⟩ := List.exists_cons_of_ne_nil
            fun hnil => h ⟨List.cons_ne_nil _ _, hnil⟩
          rw [stepCompare, hls]
          rfl
  | case2 step s =>
      rw [Uneven] at h
      obtain ⟨l, ls, hls⟩ := List.exists_cons_of_ne_nil h
      rw [stepCompare, hls]
      rfl
  | case3 a s b t hne => rw [stepCompare, if_pos hne, labelsOf, labelsOf, nameCompare, if_pos hne]
  | case4 a s b t heq ih =>
      have hzero := not_not.1 heq
      rw [stepCompare, if_neg heq, labelsOf, labelsOf, nameCompare, if_neg heq]
      exact ih fun huneven => h (by rw [Uneven]; exact ⟨hzero, huneven⟩)
  | case5 s t ih =>
      rw [stepCompare]
      exact ih fun huneven => h (by rw [Uneven]; exact huneven)
  | case6 s b t ih =>
      rw [stepCompare]
      exact ih fun huneven => h (by rw [Uneven]; exact huneven)
  | case7 a s t ih =>
      rw [stepCompare]
      exact ih fun huneven => h (by rw [Uneven]; exact huneven)

/-- Names that end unevenly are found different where the names in full are found equal. -/
theorem stepCompare_of_uneven (h : Uneven s t) :
    stepCompare s t ≠ 0 ∧ nameCompare (labelsOf s) (labelsOf t) = 0 := by
  induction s, t using rounds.induct with
  | case1 t =>
      rw [Uneven] at h
      cases t with
      | nil => exact absurd rfl h.1
      | cons step t =>
          rw [stepCompare, h.2]
          exact ⟨by decide, rfl⟩
  | case2 step s =>
      rw [Uneven] at h
      rw [stepCompare, h]
      exact ⟨by decide, rfl⟩
  | case3 a s b t hne =>
      rw [Uneven] at h
      exact absurd h.1 hne
  | case4 a s b t heq ih =>
      rw [Uneven] at h
      rw [stepCompare, if_neg heq, labelsOf, labelsOf, nameCompare, if_neg heq]
      exact ih h.2
  | case5 s t ih =>
      rw [Uneven] at h
      rw [stepCompare]
      exact ih h
  | case6 s b t ih =>
      rw [Uneven] at h
      rw [stepCompare]
      exact ih h
  | case7 a s t ih =>
      rw [Uneven] at h
      rw [stepCompare]
      exact ih h

theorem rounds_nil (s : List Step) : rounds s [] = 0 := by
  cases s <;> rw [rounds]

/-- Both sides share the levels. -/
theorem rounds_comm (s t : List Step) : rounds t s = rounds s t := by
  induction s, t using rounds.induct with
  | case1 t => rw [rounds_nil, rounds]
  | case2 step s => rw [rounds, rounds]
  | case3 a s b t hne =>
      have hne' : labelCompare b a ≠ 0 := by rw [labelCompare_swap a b]; omega
      rw [rounds, rounds, if_pos hne, if_pos hne']
  | case4 a s b t heq ih =>
      have heq' : ¬ labelCompare b a ≠ 0 := by rw [labelCompare_swap a b]; omega
      rw [rounds, rounds, if_neg heq, if_neg heq', ih]
  | case5 s t ih => rw [rounds, rounds, ih]
  | case6 s b t ih => rw [rounds, rounds, ih]
  | case7 a s t ih => rw [rounds, rounds, ih]

end Lockstep

/-! ## The code -/

section Code

variable {message1 message2 : List UInt8} {next : ℕ → ℕ → Option ℤ} {pos1 pos2 q1 q2 : ℕ}
  {n1 n2 : UInt8} {message : List UInt8} {pos : ℕ} {l : List UInt8} {s t : List Step}

theorem Encoded.root_inv (h : Encoded message pos []) : message[pos]? = some 0 := by
  cases h with
  | root h => exact h

theorem Encoded.label_inv (h : Encoded message pos (.label l :: s)) :
    ∃ n, message[pos]? = some n ∧ n ≠ 0 ∧ ¬ DNS_COMPRESSION_TAG ≤ n ∧
      pos + 1 + n.toNat ≤ message.length ∧ l = (message.drop (pos + 1)).take n.toNat ∧
        Encoded message (pos + 1 + n.toNat) s := by
  cases h with
  | label hn hpos hmax hin hrest =>
      exact ⟨_, hn, fun h0 => by simp [h0] at hpos, not_tag_of_le hmax, hin, rfl, hrest⟩

theorem Encoded.hop_inv (h : Encoded message pos (.hop :: s)) :
    ∃ n low, message[pos]? = some n ∧ DNS_COMPRESSION_TAG ≤ n ∧ message[pos + 1]? = some low ∧
      Encoded message (pointer n low) s := by
  cases h with
  | hop hn htag hlow hrest => exact ⟨_, _, hn, htag, hlow, hrest⟩

/-- The byte in front of a name that goes on. -/
theorem Encoded.cons_inv {step : Step} (h : Encoded message pos (step :: s)) :
    ∃ n, message[pos]? = some n ∧ n ≠ 0 := by
  cases step with
  | label l =>
      obtain ⟨n, hn, hzero, -⟩ := h.label_inv
      exact ⟨n, hn, hzero⟩
  | hop =>
      obtain ⟨n, low, hn, htag, -⟩ := h.hop_inv
      exact ⟨n, hn, tag_ne_zero htag⟩

/-- There is one way through a well-formed name. -/
theorem Encoded.unique (h : Encoded message pos s) (h' : Encoded message pos t) : s = t := by
  induction h generalizing t with
  | root hzero =>
      cases h' with
      | root _ => rfl
      | label hn hpos _ _ _ =>
          obtain rfl := Option.some.inj (hzero.symm.trans hn)
          exact absurd hpos (by decide)
      | hop hn htag _ _ =>
          obtain rfl := Option.some.inj (hzero.symm.trans hn)
          exact absurd htag (by decide)
  | label hn hpos hmax hin hrest ih =>
      cases h' with
      | root hzero =>
          obtain rfl := Option.some.inj (hzero.symm.trans hn)
          exact absurd hpos (by decide)
      | label hn' _ _ _ hrest' =>
          obtain rfl := Option.some.inj (hn.symm.trans hn')
          rw [ih hrest']
      | hop hn' htag _ _ =>
          obtain rfl := Option.some.inj (hn.symm.trans hn')
          exact absurd htag (not_tag_of_le hmax)
  | hop hn htag hlow hrest ih =>
      cases h' with
      | root hzero =>
          obtain rfl := Option.some.inj (hzero.symm.trans hn)
          exact absurd htag (by decide)
      | label hn' _ hmax' _ _ =>
          obtain rfl := Option.some.inj (hn.symm.trans hn')
          exact absurd htag (not_tag_of_le hmax')
      | hop hn' _ hlow' hrest' =>
          obtain rfl := Option.some.inj (hn.symm.trans hn')
          obtain rfl := Option.some.inj (hlow.symm.trans hlow')
          rw [ih hrest']

theorem compareEncodedLoop_unfold (hn1 : message1[pos1]? = some n1)
    (hn2 : message2[pos2]? = some n2) : compareEncodedLoop message1 message2 next pos1 pos2 =
      if n1 = 0 ∨ n2 = 0 then
        if n1 < n2 then some (-1) else if n1 > n2 then some 1 else some 0
      else if DNS_COMPRESSION_TAG ≤ n1 ∨ DNS_COMPRESSION_TAG ≤ n2 then
        if DNS_COMPRESSION_TAG ≤ n1 ∧ message1.length ≤ pos1 + 1 then some (-2)
        else if DNS_COMPRESSION_TAG ≤ n2 ∧ message2.length ≤ pos2 + 1 then some (-2)
        else
          let pointer1 :=
            if DNS_COMPRESSION_TAG ≤ n1 then (message1[pos1 + 1]?).map (pointer n1) else some pos1
          let pointer2 :=
            if DNS_COMPRESSION_TAG ≤ n2 then (message2[pos2 + 1]?).map (pointer n2) else some pos2
          match pointer1, pointer2 with
          | some pointer1, some pointer2 => next pointer1 pointer2
          | _, _ => none
      else if message1.length < pos1 + 1 + n1.toNat ∨ message2.length < pos2 + 1 + n2.toNat then
        some (-2)
      else
        match strncasecmp (min n1.toNat n2.toNat) (message1.drop (pos1 + 1))
          (message2.drop (pos2 + 1)) with
        | none => none
        | some res =>
            if res ≠ 0 then some res
            else if n1 < n2 then some (-1)
            else if n1 > n2 then some 1
            else
              compareEncodedLoop message1 message2 next (pos1 + 1 + n1.toNat)
                (pos2 + 1 + n2.toNat) := by
  rewrite [compareEncodedLoop, dif_pos ⟨lt_of_getElem? hn1, lt_of_getElem? hn2⟩, hn1, hn2]
  rfl

/-- Where a name goes on when a pointer has been met. -/
def Follows (message : List UInt8) (pos : ℕ) (n : UInt8) (q : ℕ) : Prop :=
  (if DNS_COMPRESSION_TAG ≤ n then (message[pos + 1]?).map (pointer n) else some pos) = some q

theorem Follows.inside {n : UInt8} {q : ℕ} (h : Follows message pos n q) :
    ¬ (DNS_COMPRESSION_TAG ≤ n ∧ message.length ≤ pos + 1) := by
  rintro ⟨htag, hlen⟩
  rw [Follows, if_pos htag, List.getElem?_eq_none hlen] at h
  cases h

theorem follows_hop {n low : UInt8} (htag : DNS_COMPRESSION_TAG ≤ n)
    (hlow : message[pos + 1]? = some low) : Follows message pos n (pointer n low) := by
  rw [Follows, if_pos htag, hlow, Option.map_some]

theorem follows_label {n : UInt8} (htag : ¬ DNS_COMPRESSION_TAG ≤ n) : Follows message pos n pos :=
  if_neg htag

theorem compareEncodedLoop_hop (hn1 : message1[pos1]? = some n1) (hn2 : message2[pos2]? = some n2)
    (hzero : ¬ (n1 = 0 ∨ n2 = 0)) (htag : DNS_COMPRESSION_TAG ≤ n1 ∨ DNS_COMPRESSION_TAG ≤ n2)
    (hq1 : Follows message1 pos1 n1 q1) (hq2 : Follows message2 pos2 n2 q2) :
    compareEncodedLoop message1 message2 next pos1 pos2 = next q1 q2 := by
  have h1 := hq1.inside
  have h2 := hq2.inside
  rw [Follows] at hq1 hq2
  rw [compareEncodedLoop_unfold hn1 hn2, if_neg hzero, if_pos htag, if_neg h1, if_neg h2]
  simp only [hq1, hq2]

/-- Only the characters that are compared matter. -/
theorem strncasecmp_take {a b : List UInt8} {k n n' : ℕ} (h : k ≤ n) (h' : k ≤ n') :
    strncasecmp k (a.take n) (b.take n') = strncasecmp k a b := by
  induction k generalizing a b n n' with
  | zero => rw [strncasecmp, strncasecmp]
  | succ k ih =>
      obtain ⟨n, rfl⟩ := Nat.exists_eq_add_of_le' (Nat.one_le_of_lt h)
      obtain ⟨n', rfl⟩ := Nat.exists_eq_add_of_le' (Nat.one_le_of_lt h')
      cases a with
      | nil => rfl
      | cons x a =>
          cases b with
          | nil => rfl
          | cons y b =>
              rw [List.take_succ_cons, List.take_succ_cons, strncasecmp, strncasecmp,
                ih (Nat.le_of_succ_le_succ h) (Nat.le_of_succ_le_succ h')]

theorem compareEncodedLoop_label (hn1 : message1[pos1]? = some n1)
    (hn2 : message2[pos2]? = some n2) (hzero : ¬ (n1 = 0 ∨ n2 = 0))
    (htag : ¬ (DNS_COMPRESSION_TAG ≤ n1 ∨ DNS_COMPRESSION_TAG ≤ n2))
    (hin1 : pos1 + 1 + n1.toNat ≤ message1.length) (hin2 : pos2 + 1 + n2.toNat ≤ message2.length) :
    compareEncodedLoop message1 message2 next pos1 pos2 =
      if labelCompare ((message1.drop (pos1 + 1)).take n1.toNat)
          ((message2.drop (pos2 + 1)).take n2.toNat) ≠ 0 then
        some (labelCompare ((message1.drop (pos1 + 1)).take n1.toNat)
          ((message2.drop (pos2 + 1)).take n2.toNat))
      else
        compareEncodedLoop message1 message2 next (pos1 + 1 + n1.toNat) (pos2 + 1 + n2.toNat) := by
  have hlen1 := length_piece hin1
  have hlen2 := length_piece hin2
  have hcmp := strncasecmp_take (a := message1.drop (pos1 + 1)) (b := message2.drop (pos2 + 1))
    (Nat.min_le_left n1.toNat n2.toNat) (Nat.min_le_right n1.toNat n2.toNat)
  have hout : ¬ (message1.length < pos1 + 1 + n1.toNat ∨ message2.length < pos2 + 1 + n2.toNat) := by
    omega
  rw [compareEncodedLoop_unfold hn1 hn2, if_neg hzero, if_neg htag, if_neg hout, ← hcmp]
  generalize (message1.drop (pos1 + 1)).take n1.toNat = l1 at hlen1
  generalize (message2.drop (pos2 + 1)).take n2.toNat = l2 at hlen2
  obtain ⟨res, hres⟩ := strncasecmp_min l1 l2
  have hlabel : labelCompare l1 l2 = if res ≠ 0 then res
      else if n1.toNat < n2.toNat then -1 else if n2.toNat < n1.toNat then 1 else 0 := by
    rw [labelCompare, hres, hlen1, hlen2]
  rw [hlen1, hlen2] at hres
  rw [hres]
  dsimp only
  by_cases hres0 : res = 0
  · subst hres0
    rw [if_neg (not_not.2 rfl)] at hlabel
    rw [if_neg (not_not.2 rfl), hlabel]
    simp only [gt_iff_lt, UInt8.lt_iff_toNat_lt]
    rcases lt_trichotomy n1.toNat n2.toNat with h | h | h
    · simp [h]
    · simp [h]
    · simp [h, h.not_gt]
  · rw [if_pos hres0] at hlabel
    rw [if_pos hres0, hlabel, if_pos hres0]

/-- A level is spent. -/
theorem compareEncodedName_of_loop {r : ℕ} {v : ℤ} (h : ∀ k,
      compareEncodedLoop message1 message2 (compareEncodedName message1 message2 k) q1 q2 =
        some (if k < r then -2 else v)) (k : ℕ) :
    compareEncodedName message1 message2 k q1 q2 = some (if k < r + 1 then -2 else v) := by
  cases k with
  | zero => rw [compareEncodedName, if_pos (Nat.succ_pos r)]
  | succ k =>
      rw [compareEncodedName, h]
      simp only [Nat.add_lt_add_iff_right]

theorem compareEncodedLoop_eq (h1 : Encoded message1 pos1 s) (h2 : Encoded message2 pos2 t) (k : ℕ) :
    compareEncodedLoop message1 message2 (compareEncodedName message1 message2 k) pos1 pos2 =
      some (if k < rounds s t then -2 else stepCompare s t) := by
  induction s, t using rounds.induct generalizing k pos1 pos2 with
  | case1 t =>
      have hn1 := h1.root_inv
      rw [rounds, if_neg (Nat.not_lt_zero _)]
      cases t with
      | nil =>
          rw [compareEncodedLoop_unfold hn1 h2.root_inv, if_pos (.inl rfl), stepCompare]
          rfl
      | cons step t =>
          obtain ⟨n2, hn2, hzero⟩ := h2.cons_inv
          have hlt : (0 : UInt8) < n2 := UInt8.lt_iff_toNat_lt.2 (one_le_toNat hzero)
          rw [compareEncodedLoop_unfold hn1 hn2, if_pos (.inl rfl), if_pos hlt, stepCompare]
  | case2 step s =>
      have hn2 := h2.root_inv
      obtain ⟨n1, hn1, hzero⟩ := h1.cons_inv
      have hlt : (0 : UInt8) < n1 := UInt8.lt_iff_toNat_lt.2 (one_le_toNat hzero)
      have hnot : ¬ n1 < 0 := fun h => Nat.not_lt_zero _ (UInt8.lt_iff_toNat_lt.1 h)
      rw [rounds, if_neg (Nat.not_lt_zero _), compareEncodedLoop_unfold hn1 hn2, if_pos (.inr rfl),
        if_neg hnot, if_pos hlt, stepCompare]
  | case3 a s b t hne =>
      obtain ⟨n1, hn1, hz1, ht1, hin1, rfl, -⟩ := h1.label_inv
      obtain ⟨n2, hn2, hz2, ht2, hin2, rfl, -⟩ := h2.label_inv
      rw [compareEncodedLoop_label hn1 hn2 (not_or.2 ⟨hz1, hz2⟩) (not_or.2 ⟨ht1, ht2⟩) hin1 hin2,
        if_pos hne, rounds, if_pos hne, if_neg (Nat.not_lt_zero _), stepCompare, if_pos hne]
  | case4 a s b t heq ih =>
      obtain ⟨n1, hn1, hz1, ht1, hin1, rfl, hrest1⟩ := h1.label_inv
      obtain ⟨n2, hn2, hz2, ht2, hin2, rfl, hrest2⟩ := h2.label_inv
      rw [compareEncodedLoop_label hn1 hn2 (not_or.2 ⟨hz1, hz2⟩) (not_or.2 ⟨ht1, ht2⟩) hin1 hin2,
        if_neg heq, rounds, if_neg heq, stepCompare, if_neg heq]
      exact ih hrest1 hrest2 k
  | case5 s t ih =>
      obtain ⟨n1, low1, hn1, ht1, hlow1, hrest1⟩ := h1.hop_inv
      obtain ⟨n2, low2, hn2, ht2, hlow2, hrest2⟩ := h2.hop_inv
      rw [compareEncodedLoop_hop hn1 hn2 (not_or.2 ⟨tag_ne_zero ht1, tag_ne_zero ht2⟩) (.inl ht1)
        (follows_hop ht1 hlow1) (follows_hop ht2 hlow2), rounds, stepCompare]
      exact compareEncodedName_of_loop (ih hrest1 hrest2) k
  | case6 s b t ih =>
      obtain ⟨n1, low1, hn1, ht1, hlow1, hrest1⟩ := h1.hop_inv
      obtain ⟨n2, hn2, hz2, ht2, -⟩ := h2.label_inv
      rw [compareEncodedLoop_hop hn1 hn2 (not_or.2 ⟨tag_ne_zero ht1, hz2⟩) (.inl ht1)
        (follows_hop ht1 hlow1) (follows_label ht2), rounds, stepCompare]
      exact compareEncodedName_of_loop (ih hrest1 h2) k
  | case7 a s t ih =>
      obtain ⟨n1, hn1, hz1, ht1, -⟩ := h1.label_inv
      obtain ⟨n2, low2, hn2, ht2, hlow2, hrest2⟩ := h2.hop_inv
      rw [compareEncodedLoop_hop hn1 hn2 (not_or.2 ⟨hz1, tag_ne_zero ht2⟩) (.inr ht2)
        (follows_label ht1) (follows_hop ht2 hlow2), rounds, stepCompare]
      exact compareEncodedName_of_loop (ih h1 hrest2) k

/-- **The comparison of two well-formed names.** -/
theorem dnsCompareEncodedName_eq (h1 : Encoded message1 pos1 s) (h2 : Encoded message2 pos2 t) :
    dnsCompareEncodedName message1 pos1 message2 pos2 0 =
      some (if DNS_NAME_MAX_RECURSION - 1 < rounds s t then -2 else stepCompare s t) :=
  compareEncodedLoop_eq h1 h2 (DNS_NAME_MAX_RECURSION - 1)

end Code

/-! ## Names written out in full -/

section Full

variable {ls s t : List (List UInt8)}

/-- The encoding of labels of the right lengths is well formed, wherever it stands. -/
theorem encoded_encoding (hok : ∀ l ∈ ls, LabelOk l) (front : List UInt8) :
    Encoded (front ++ encoding ls) front.length (ls.map .label) := by
  induction ls generalizing front with
  | nil =>
      refine .root ?_
      rw [List.getElem?_append_right le_rfl, Nat.sub_self]
      rfl
  | cons label ls ih =>
      obtain ⟨hmin, hmax⟩ := hok label List.mem_cons_self
      have hbyte : (UInt8.ofNat label.length).toNat = label.length := by
        rw [UInt8.toNat_ofNat']
        exact Nat.mod_eq_of_lt (lt_of_le_of_lt hmax (by decide))
      have hrest := ih (fun l hl => hok l (List.mem_cons_of_mem _ hl)) (front ++ labelBytes label)
      have heq : front ++ labelBytes label ++ encoding ls = front ++ encoding (label :: ls) := by
        rw [encoding_cons, List.append_assoc]
      rw [heq, List.length_append, labelBytes_length] at hrest
      have hdrop : (front ++ encoding (label :: ls)).drop (front.length + 1) =
          label ++ encoding ls := by
        rw [encoding_cons, ← List.drop_drop, List.drop_left]
        rfl
      have hpiece : ((front ++ encoding (label :: ls)).drop (front.length + 1)).take
          (UInt8.ofNat label.length).toNat = label := by
        rw [hdrop, hbyte, List.take_left]
      have hlabel : Encoded (front ++ encoding (label :: ls)) front.length
          (.label (((front ++ encoding (label :: ls)).drop (front.length + 1)).take
            (UInt8.ofNat label.length).toNat) :: ls.map .label) := by
        refine .label ?_ (by omega) (by omega) ?_ ?_
        · rw [List.getElem?_append_right le_rfl, Nat.sub_self, encoding_cons]
          rfl
        · rw [hbyte, encoding_cons, List.length_append, List.length_append, labelBytes_length]
          omega
        · have hpos : front.length + 1 + label.length = front.length + (label.length + 1) := by
            omega
          rw [hbyte, hpos]
          exact hrest
      rw [hpiece] at hlabel
      exact hlabel

theorem labelsOf_map (ls : List (List UInt8)) : labelsOf (ls.map .label) = ls := by
  induction ls with
  | nil => rfl
  | cons label ls ih => rw [List.map_cons, labelsOf, ih]

theorem rounds_full (s t : List (List UInt8)) : rounds (s.map .label) (t.map .label) = 0 := by
  induction s generalizing t with
  | nil => rw [List.map_nil, rounds]
  | cons a s ih =>
      cases t with
      | nil => exact rounds_nil _
      | cons b t =>
          rw [List.map_cons, List.map_cons, rounds, ih]
          exact ite_self 0

theorem not_uneven_full (s t : List (List UInt8)) :
    ¬ Uneven (s.map .label) (t.map .label) := by
  induction s generalizing t with
  | nil =>
      rw [List.map_nil, Uneven]
      rintro ⟨hne, hnil⟩
      rw [labelsOf_map] at hnil
      exact hne (hnil ▸ rfl)
  | cons a s ih =>
      cases t with
      | nil =>
          rw [List.map_cons, List.map_nil, Uneven]
          exact List.cons_ne_nil _ _
      | cons b t =>
          rw [List.map_cons, List.map_cons, Uneven]
          exact fun h => ih t h.2

/-- Names in full are compared label by label. -/
theorem dnsCompareEncodedName_full (hs : ∀ l ∈ s, LabelOk l) (ht : ∀ l ∈ t, LabelOk l) :
    dnsCompareEncodedName (encoding s) 0 (encoding t) 0 0 = some (nameCompare s t) := by
  have h1 := encoded_encoding hs []
  have h2 := encoded_encoding ht []
  rw [List.nil_append] at h1 h2
  have heq := dnsCompareEncodedName_eq h1 h2
  rwa [rounds_full, if_neg (Nat.not_lt_zero _), stepCompare_of_not_uneven (not_uneven_full s t),
    labelsOf_map, labelsOf_map] at heq

end Full

/-! ## A consistent order -/

/-- The comparison of two encoded names, each given by a message and a position. -/
def compareEncoded (x y : List UInt8 × ℕ) : Option ℤ := dnsCompareEncodedName x.1 x.2 y.1 y.2 0

/-- The first name precedes the second one. -/
def Precedes (x y : List UInt8 × ℕ) : Prop := ∃ r < 0, compareEncoded x y = some r

/-- On these names, the comparison answers as for the names in full, 0 for equal names only, the
other way round when they are swapped, and `Precedes` is transitive. -/
structure ConsistentOn (names : Set (List UInt8 × ℕ)) : Prop where
  independent : ∀ x ∈ names, ∀ y ∈ names, ∀ s t, NameAt x.1 x.2 s → NameAt y.1 y.2 t →
    compareEncoded x y = compareEncoded (encoding s, 0) (encoding t, 0)
  eq_zero_iff : ∀ x ∈ names, ∀ y ∈ names, ∀ s t, NameAt x.1 x.2 s → NameAt y.1 y.2 t →
    (compareEncoded x y = some 0 ↔ List.Forall₂ EqFold s t)
  swap : ∀ x ∈ names, ∀ y ∈ names, ∃ r r', compareEncoded x y = some r ∧
    compareEncoded y x = some r' ∧ r'.sign = -r.sign
  trans : ∀ x ∈ names, ∀ y ∈ names, ∀ z ∈ names, Precedes x y → Precedes y z → Precedes x z

/-- The way through a well-formed name. -/
def Reads (x : List UInt8 × ℕ) (steps : List Step) : Prop :=
  Encoded x.1 x.2 steps ∧ hops steps ≤ DNS_NAME_MAX_RECURSION - 1

/-- Two names that are compared right: the levels suffice for the pointers of both, they end evenly,
and no two labels of one length differ behind a common NUL only. -/
def Comparable (x y : List UInt8 × ℕ) : Prop := ∀ s t, Reads x s → Reads y t →
  rounds s t ≤ DNS_NAME_MAX_RECURSION - 1 ∧ ¬ Uneven s t ∧
    (nameKey (labelsOf s) = nameKey (labelsOf t) → List.Forall₂ EqFold (labelsOf s) (labelsOf t))

section Consistent

variable {x y : List UInt8 × ℕ} {s t : List Step}

theorem Reads.nameAt (h : Reads x s) : NameAt x.1 x.2 (labelsOf s) := ⟨s, h.1, h.2, rfl⟩

theorem compareEncoded_eq (hx : Reads x s) (hy : Reads y t) : compareEncoded x y =
    some (if DNS_NAME_MAX_RECURSION - 1 < rounds s t then -2 else stepCompare s t) :=
  dnsCompareEncodedName_eq hx.1 hy.1

/-- Names that are comparable are compared label by label. -/
theorem Comparable.compareEncoded (h : Comparable x y) (hx : Reads x s) (hy : Reads y t) :
    compareEncoded x y = some (nameCompare (labelsOf s) (labelsOf t)) := by
  obtain ⟨hrounds, heven, -⟩ := h s t hx hy
  rw [compareEncoded_eq hx hy, if_neg (Nat.not_lt.2 hrounds), stepCompare_of_not_uneven heven]

/-- Each name has one way through it, so it suffices to look at these two. -/
theorem comparable_of_reads (hx : Reads x s) (hy : Reads y t)
    (hrounds : rounds s t ≤ DNS_NAME_MAX_RECURSION - 1) (heven : ¬ Uneven s t)
    (hkey : nameKey (labelsOf s) = nameKey (labelsOf t) →
      List.Forall₂ EqFold (labelsOf s) (labelsOf t)) : Comparable x y := by
  intro s' t' hs' ht'
  obtain rfl := hs'.1.unique hx.1
  obtain rfl := ht'.1.unique hy.1
  exact ⟨hrounds, heven, hkey⟩

theorem compareEncoded_full (hx : Encoded x.1 x.2 s) (hy : Encoded y.1 y.2 t) :
    Dns.compareEncoded (encoding (labelsOf s), 0) (encoding (labelsOf t), 0) =
      some (nameCompare (labelsOf s) (labelsOf t)) :=
  dnsCompareEncodedName_full hx.labelOk hy.labelOk

end Consistent

/-- `dnsCompareEncodedName` orders a set of well-formed names consistently if and only if any two of
them can be compared within the levels, end evenly, and have no labels that differ behind a common
NUL only. -/
theorem dnsCompareEncodedName_consistent_iff (names : Set (List UInt8 × ℕ))
    (hnames : ∀ x ∈ names, ∃ ls, NameAt x.1 x.2 ls) :
    ConsistentOn names ↔ ∀ x ∈ names, ∀ y ∈ names, Comparable x y := by
  constructor
  · intro h x hx y hy s t hs ht
    have hval := compareEncoded_eq hs ht
    have hrounds : rounds s t ≤ DNS_NAME_MAX_RECURSION - 1 := by
      by_contra hgt
      have hgt' := Nat.not_le.1 hgt
      have hval' := compareEncoded_eq ht hs
      rw [if_pos hgt'] at hval
      rw [rounds_comm s t, if_pos hgt'] at hval'
      obtain ⟨r, r', hr, hr', hsign⟩ := h.swap x hx y hy
      obtain rfl := Option.some.inj (hval.symm.trans hr)
      obtain rfl := Option.some.inj (hval'.symm.trans hr')
      exact absurd hsign (by decide)
    rw [if_neg (Nat.not_lt.2 hrounds)] at hval
    have heven : ¬ Uneven s t := by
      intro huneven
      obtain ⟨hne, hzero⟩ := stepCompare_of_uneven huneven
      have hfull := h.independent x hx y hy _ _ hs.nameAt ht.nameAt
      rw [hval, compareEncoded_full hs.1 ht.1, hzero] at hfull
      exact hne (Option.some.inj hfull)
    refine ⟨hrounds, heven, fun hkey => ?_⟩
    rw [stepCompare_of_not_uneven heven, ((nameCompare_key _ _).2).2 hkey] at hval
    exact (h.eq_zero_iff x hx y hy _ _ hs.nameAt ht.nameAt).1 hval
  · intro h
    refine ⟨?_, ?_, ?_, ?_⟩
    · rintro x hx y hy _ _ ⟨s, hs, hhs, rfl⟩ ⟨t, ht, hht, rfl⟩
      rw [(h x hx y hy).compareEncoded ⟨hs, hhs⟩ ⟨ht, hht⟩, compareEncoded_full hs ht]
    · rintro x hx y hy _ _ ⟨s, hs, hhs, rfl⟩ ⟨t, ht, hht, rfl⟩
      rw [(h x hx y hy).compareEncoded ⟨hs, hhs⟩ ⟨ht, hht⟩, Option.some.injEq,
        (nameCompare_key _ _).2]
      exact ⟨(h x hx y hy s t ⟨hs, hhs⟩ ⟨ht, hht⟩).2.2, nameKey_of_eqFold⟩
    · intro x hx y hy
      obtain ⟨_, s, hs, hhs, rfl⟩ := hnames x hx
      obtain ⟨_, t, ht, hht, rfl⟩ := hnames y hy
      refine ⟨_, _, (h x hx y hy).compareEncoded ⟨hs, hhs⟩ ⟨ht, hht⟩,
        (h y hy x hx).compareEncoded ⟨ht, hht⟩ ⟨hs, hhs⟩, ?_⟩
      rw [nameCompare_swap, Int.sign_neg]
    · rintro x hx y hy z hz ⟨r, hr, hxy⟩ ⟨r', hr', hyz⟩
      obtain ⟨_, s, hs, hhs, rfl⟩ := hnames x hx
      obtain ⟨_, t, ht, hht, rfl⟩ := hnames y hy
      obtain ⟨_, u, hu, hhu, rfl⟩ := hnames z hz
      have hval := (h x hx y hy).compareEncoded ⟨hs, hhs⟩ ⟨ht, hht⟩
      have hval' := (h y hy z hz).compareEncoded ⟨ht, hht⟩ ⟨hu, hhu⟩
      obtain rfl := Option.some.inj (hval.symm.trans hxy)
      obtain rfl := Option.some.inj (hval'.symm.trans hyz)
      refine ⟨_, ?_, (h x hx z hz).compareEncoded ⟨hs, hhs⟩ ⟨hu, hhu⟩⟩
      rw [(nameCompare_key _ _).1] at hr hr' ⊢
      exact lt_trans hr hr'

/-- A message with the names `a` and `b.a`, the second one with a pointer to the first. -/
def twoNames : List UInt8 := [1, 97, 0, 1, 98, 0xC0, 0]

theorem twoNames_a : Reads (twoNames, 0) [.label [97]] :=
  ⟨.label (n := 1) rfl (by decide) (by decide) (by decide) (.root rfl), by decide⟩

theorem twoNames_ba : Reads (twoNames, 3) [.label [98], .hop, .label [97]] :=
  ⟨.label (n := 1) rfl (by decide) (by decide) (by decide)
    (.hop (n := 0xC0) rfl (by decide) (rfl : twoNames[6]? = some 0) twoNames_a.1), by decide⟩

/-- The two names are compared right. -/
theorem dnsCompareEncodedName_consistent_two : ConsistentOn {(twoNames, 0), (twoNames, 3)} := by
  refine (dnsCompareEncodedName_consistent_iff _ ?_).2 ?_
  · rintro x (rfl | rfl)
    · exact ⟨_, twoNames_a.nameAt⟩
    · exact ⟨_, twoNames_ba.nameAt⟩
  · have ha : labelCompare [97] [97] = 0 := by decide
    have hb : labelCompare [98] [98] = 0 := by decide
    have hab : labelCompare [97] [98] ≠ 0 := by decide
    have hba : labelCompare [98] [97] ≠ 0 := by decide
    rintro x (rfl | rfl) y (rfl | rfl)
    · exact comparable_of_reads twoNames_a twoNames_a (by simp [rounds, ha])
        (by simp [Uneven, ha]) fun _ => .cons rfl .nil
    · exact comparable_of_reads twoNames_a twoNames_ba (by simp [rounds, hab])
        (by simp [Uneven, hab]) fun hkey => absurd hkey (by decide)
    · exact comparable_of_reads twoNames_ba twoNames_a (by simp [rounds, hba])
        (by simp [Uneven, hba]) fun hkey => absurd hkey (by decide)
    · exact comparable_of_reads twoNames_ba twoNames_ba
        (by simp [rounds, hb, ha, DNS_NAME_MAX_RECURSION]) (by simp [Uneven, hb, ha])
        fun _ => .cons rfl (.cons rfl .nil)

/-- The root and a pointer to the root are found different. -/
theorem dnsCompareEncodedName_root : ¬ ∀ names : Set (List UInt8 × ℕ),
    (∀ x ∈ names, ∃ ls, NameAt x.1 x.2 ls) → ConsistentOn names := by
  intro h
  have hroot : Reads ([0], 0) [] := ⟨.root rfl, Nat.zero_le _⟩
  have hhop : Reads ([0xC0, 2, 0], 0) [.hop] :=
    ⟨.hop (n := 0xC0) rfl (by decide) (rfl : [0xC0, 2, (0 : UInt8)][1]? = some 2) (.root rfl),
      by decide⟩
  have hnames := h {([0], 0), ([0xC0, 2, 0], 0)} fun x hx => by
    rcases hx with rfl | rfl
    · exact ⟨_, hroot.nameAt⟩
    · exact ⟨_, hhop.nameAt⟩
  have hzero := (hnames.eq_zero_iff _ (.inl rfl) _ (.inr rfl) _ _ hroot.nameAt hhop.nameAt).2 .nil
  rw [compareEncoded_eq hroot hhop, rounds, if_neg (Nat.not_lt_zero _), stepCompare] at hzero
  exact absurd (Option.some.inj hzero) (by decide)

end Dns
