import CycloneTcp.Dns.NameRoundTrip
import CycloneTcp.Dns.NameWalk

set_option autoImplicit false

/-! # Comparing an encoded name with a string

`dnsCompareName` compares the labels that it reads with the string one after the other. What it
answers depends on these labels and on what stands behind the last one. -/

namespace Dns

open CString

/-! ## Strings -/

/-- The label sequence of a string. The root has no label, and a dot at the end adds none. -/
def nameLabels (name : List UInt8) : List (List UInt8) :=
  if (labels name).getLast? = some [] then (labels name).dropLast else labels name

section NameLabels

variable {label rest : List UInt8}

theorem nameLabels_nil : nameLabels [] = [] := by decide

theorem nameLabels_last (h : separator ∉ label) (hne : label ≠ []) : nameLabels label = [label] := by
  rw [nameLabels, labels_last h, List.getLast?_singleton, if_neg fun h => hne (Option.some.inj h)]

theorem nameLabels_cons (h : separator ∉ label) :
    nameLabels (label ++ separator :: rest) = label :: nameLabels rest := by
  have hne := labels_ne_nil rest
  rw [nameLabels, nameLabels, labels_cons h, List.getLast?_cons_of_ne_nil hne]
  split
  · exact List.dropLast_cons_of_ne_nil hne
  · rfl

/-- No label has a separator in it. -/
theorem separator_notMem_nameLabels (name : List UInt8) : ∀ l ∈ nameLabels name, separator ∉ l := by
  induction name using text_induction with
  | last label h =>
      intro l hl
      rw [nameLabels, labels_last h] at hl
      split at hl
      · exact absurd hl List.not_mem_nil
      · exact List.mem_singleton.1 hl ▸ h
  | cons label rest h ih =>
      rw [nameLabels_cons h]
      exact List.forall_mem_cons.2 ⟨h, ih⟩

end NameLabels

/-- What is left of a name behind the given labels, if it begins with them. -/
def behind : List (List UInt8) → List UInt8 → Option (List UInt8)
  | [], name => some name
  | label :: ls, name =>
      if EqFold label (name.take label.length) then
        match name.drop label.length with
        | [] => behind ls []
        | c :: rest => if c = separator then behind ls rest else none
      else none

/-- Behind some of the labels, the next one has a NUL where the name ends. -/
def NulAtEnd (ls : List (List UInt8)) (name : List UInt8) : Prop :=
  ∃ before label after left, ls = before ++ label :: after ∧ behind before name = some left ∧
    ∃ pre rest, label = pre ++ 0 :: rest ∧ EqFold pre left

/-! ## The loop on labels -/

/-- `dnsCompareName`, on the labels of a message. -/
def compareLabels : List (List UInt8) → NameEnd → List UInt8 → Option ℤ
  | [], .root, name =>
      match name with
      | [] => none
      | c :: _ => if c ≠ 0 then some (-1) else some 0
  | [], .cut, _ => some 0
  | [], .malformed, _ => some (-2)
  | label :: ls, e, name =>
      match strncasecmp label.length label name with
      | none => none
      | some res =>
          if res ≠ 0 then some res
          else
            match name.drop label.length with
            | [] => none
            | c :: rest =>
                if c ≠ 0 ∧ c ≠ separator then some (-1)
                else compareLabels ls e (if c = separator then rest else c :: rest)

section Compare

variable {message : List UInt8} {pos : ℕ} {name : List UInt8}

theorem compareLoop_eq {next : ℕ → List UInt8 → Option ℤ} {read : ℕ → List (List UInt8) × NameEnd}
    (hnext : ∀ p name, next p name = compareLabels (read p).1 (read p).2 name) (pos : ℕ)
    (name : List UInt8) : compareLoop message next pos name =
      compareLabels (readLoop message read pos).1 (readLoop message read pos).2 name := by
  induction hm : message.length - pos using Nat.strong_induction_on generalizing pos name with
  | _ m ih =>
      subst hm
      unfold compareLoop
      rcases loop_cases message pos with hpos | hroot | ⟨n, hn, htag, hlow⟩ |
        ⟨n, low, hn, htag, hlow⟩ | ⟨n, hn, hzero, htag, hlong⟩ | ⟨n, hn, hzero, htag, hin⟩
      · rw [dif_neg (Nat.not_lt.2 hpos), readLoop_of_ge hpos]
        rfl
      · rw [dif_pos (lt_of_getElem? hroot), readLoop_root hroot, hroot]
        rfl
      · rw [dif_pos (lt_of_getElem? hn), readLoop_cut hn htag hlow, hn]
        dsimp only
        rw [if_neg (tag_ne_zero htag), if_pos htag, if_pos (List.getElem?_eq_none_iff.1 hlow)]
        rfl
      · rw [dif_pos (lt_of_getElem? hn), readLoop_hop hn htag hlow, hn]
        dsimp only
        rw [if_neg (tag_ne_zero htag), if_pos htag, if_neg (Nat.not_le.2 (lt_of_getElem? hlow)), hlow]
        exact hnext _ _
      · rw [dif_pos (lt_of_getElem? hn), readLoop_long hn hzero htag hlong, hn]
        dsimp only
        rw [if_neg hzero, if_neg htag, if_pos hlong]
        rfl
      · have hlt := lt_of_getElem? hn
        have hlen := length_piece hin
        have hcmp : strncasecmp n.toNat (message.drop (pos + 1)) name =
            strncasecmp n.toNat ((message.drop (pos + 1)).take n.toNat) name := by
          have := strncasecmp_append (a := (message.drop (pos + 1)).take n.toNat) (b := name)
            ((message.drop (pos + 1)).drop n.toNat)
          rwa [List.take_append_drop, hlen] at this
        rw [dif_pos hlt, readLoop_label hn hzero htag hin, hn]
        dsimp only
        rw [if_neg hzero, if_neg htag, if_neg (Nat.not_lt.2 hin), compareLabels, hlen, hcmp]
        cases strncasecmp n.toNat ((message.drop (pos + 1)).take n.toNat) name with
        | none => rfl
        | some res =>
            dsimp only
            split
            · rfl
            · cases name.drop n.toNat with
              | nil => rfl
              | cons c rest =>
                  dsimp only
                  split
                  · rfl
                  · exact ih _ (by omega) _ _ rfl

theorem compareName_eq (k pos : ℕ) (name : List UInt8) : compareName message k pos name =
    compareLabels (readName message k pos).1 (readName message k pos).2 name := by
  induction k generalizing pos name with
  | zero => rfl
  | succ k ih => exact compareLoop_eq ih pos name

end Compare

/-! ## What it answers -/

section Answer

variable {label pre rest text : List UInt8} {ls : List (List UInt8)} {e : NameEnd}

theorem behind_cons_append (h : EqFold label pre) : behind (label :: ls) (pre ++ rest) =
    match rest with
    | [] => behind ls []
    | c :: rest => if c = separator then behind ls rest else none := by
  rw [behind, h.length_eq, List.take_left, List.drop_left, if_pos h]

/-- A name that begins with a label. -/
theorem split_of_eqFold_take (h : EqFold label (text.take label.length)) :
    ∃ pre rest, text = pre ++ rest ∧ EqFold label pre :=
  ⟨_, _, (List.take_append_drop _ _).symm, h⟩

/-- A name that does not begin with the first label. -/
theorem behind_eq_none (h : ¬ ∃ pre rest, text = pre ++ rest ∧ EqFold label pre) :
    behind (label :: ls) text = none := by
  rw [behind, if_neg fun hfold => h (split_of_eqFold_take hfold)]

theorem nulAtEnd_nil (text : List UInt8) : ¬ NulAtEnd [] text := by
  rintro ⟨before, label, after, left, heq, -⟩
  exact List.cons_ne_nil _ _ (List.append_eq_nil_iff.1 heq.symm).2

/-- In the first label, or behind it. -/
theorem nulAtEnd_cons : NulAtEnd (label :: ls) text ↔
    (∃ pre rest, label = pre ++ 0 :: rest ∧ EqFold pre text) ∨
      ∃ left, behind [label] text = some left ∧ NulAtEnd ls left := by
  constructor
  · rintro ⟨before, l, after, left, heq, hbehind, hnul⟩
    cases before with
    | nil =>
        obtain ⟨rfl, -⟩ := List.cons.inj heq
        cases hbehind
        exact .inl hnul
    | cons l' before =>
        obtain ⟨rfl, heq'⟩ := List.cons.inj heq
        refine .inr ?_
        rw [behind] at hbehind ⊢
        split at hbehind
        · rename_i hfold
          rw [if_pos hfold]
          split at hbehind
          · exact ⟨[], rfl, before, l, after, left, heq', hbehind, hnul⟩
          · split at hbehind
            · rename_i c rest _ hc
              exact ⟨rest, if_pos hc, before, l, after, left, heq', hbehind, hnul⟩
            · cases hbehind
        · cases hbehind
  · rintro (hnul | ⟨mid, hmid, before, l, after, left, rfl, hbehind, hnul⟩)
    · exact ⟨[], label, ls, text, rfl, rfl, hnul⟩
    · refine ⟨label :: before, l, after, left, rfl, ?_, hnul⟩
      rw [behind] at hmid ⊢
      split at hmid
      · rename_i hfold
        rw [if_pos hfold]
        split at hmid
        · cases hmid
          exact hbehind
        · split at hmid
          · rename_i c rest _ hc
            cases hmid
            exact (if_pos hc).trans hbehind
          · cases hmid
      · cases hmid

/-- **The answer to a string.** The comparison reads behind the terminator if a label has a NUL
where the name ends, and it answers 0 if the name begins with the labels and nothing of it is left
at the zero octet. -/
theorem compareLabels_text (ls : List (List UInt8)) (e : NameEnd) (hnul : 0 ∉ text) :
    (compareLabels ls e (text ++ [0]) = none ↔ NulAtEnd ls text) ∧
      (compareLabels ls e (text ++ [0]) = some 0 ↔
        ∃ left, behind ls text = some left ∧ (e = .root ∧ left = [] ∨ e = .cut)) := by
  induction ls generalizing text with
  | nil =>
      have hnone := nulAtEnd_nil text
      cases e with
      | root =>
          cases text with
          | nil => simp [compareLabels, behind, hnone]
          | cons c text =>
              have hc : c ≠ 0 := fun h => hnul (h ▸ List.mem_cons_self)
              simp [compareLabels, behind, hnone, hc]
      | cut => simp [compareLabels, behind, hnone]
      | malformed => simp [compareLabels, behind, hnone]
  | cons label ls ih =>
      obtain ⟨res, hres, hzero⟩ := strncasecmp_string (a := label) hnul
      rw [compareLabels, hres, nulAtEnd_cons]
      dsimp only
      by_cases hpre : ∃ pre rest, text = pre ++ rest ∧ EqFold label pre
      · obtain ⟨pre, rest, rfl, hfold⟩ := hpre
        have hlabel : 0 ∉ label := fun h => hnul (List.mem_append_left _
          ((hfold.mem_iff fun w => toLower_eq_zero).1 h))
        have hno : ¬ ∃ p r, label = p ++ 0 :: r ∧ EqFold p (pre ++ rest) := by
          rintro ⟨p, r, rfl, -⟩
          exact hlabel (List.mem_append_right _ List.mem_cons_self)
        rw [or_iff_right hno, if_neg (not_not.2 (hzero.2 (.inl ⟨pre, rest, rfl, hfold⟩))),
          behind_cons_append hfold,
          behind_cons_append hfold, hfold.length_eq, List.append_assoc, List.drop_left]
        have hrest : 0 ∉ rest := fun h => hnul (List.mem_append_right _ h)
        cases rest with
        | nil =>
            obtain ⟨hnone, hsome⟩ := ih hrest
            simp only [List.nil_append, behind] at hnone hsome ⊢
            simp [hnone, hsome, show (0 : UInt8) ≠ separator by decide]
        | cons c rest =>
            have htail : 0 ∉ rest := fun h => hrest (List.mem_cons_of_mem _ h)
            obtain ⟨hnone, hsome⟩ := ih htail
            have hc : c ≠ 0 := fun h => hrest (h ▸ List.mem_cons_self)
            by_cases hsep : c = separator
            · subst hsep
              simp [hnone, hsome, behind]
            · simp [hc, hsep]
      · by_cases hnulIn : ∃ pre rest, label = pre ++ 0 :: rest ∧ EqFold pre text
        · obtain ⟨pre, rest, rfl, hfold⟩ := hnulIn
          rw [if_neg (not_not.2 (hzero.2 (.inr ⟨pre, rest, rfl, hfold⟩)))]
          have hdrop : (text ++ [0]).drop (pre ++ 0 :: rest).length = [] :=
            List.drop_eq_nil_of_le (by simp [hfold.length_eq])
          rw [hdrop, behind_eq_none hpre, behind_eq_none hpre]
          exact ⟨iff_of_true rfl (.inl ⟨pre, rest, rfl, hfold⟩), by simp⟩
        · have hne : res ≠ 0 := fun h => (hzero.1 h).elim hpre hnulIn
          rw [if_pos hne, or_iff_right hnulIn, behind_eq_none hpre, behind_eq_none hpre]
          simp [hne]

end Answer

/-! ## What it should answer -/

section Labels

variable {text : List UInt8} {ls : List (List UInt8)}

/-- A name begins with its own labels, and nothing is left. -/
theorem behind_nameLabels (hne : ∀ l ∈ ls, l ≠ [])
    (h : List.Forall₂ EqFold ls (nameLabels text)) : behind ls text = some [] := by
  induction text using text_induction generalizing ls with
  | last label hsep =>
      by_cases hlabel : label = []
      · subst hlabel
        rw [nameLabels_nil] at h
        cases h
        rfl
      · rw [nameLabels_last hsep hlabel] at h
        cases h with
        | cons hfold hnil =>
            cases hnil
            have := @behind_cons_append _ _ [] [] hfold
            rwa [List.append_nil] at this
  | cons label rest hsep ih =>
      rw [nameLabels_cons hsep] at h
      cases h with
      | cons hfold htail =>
          rw [behind_cons_append hfold]
          exact ih (fun l hl => hne l (List.mem_cons_of_mem _ hl)) htail

/-- Labels without separators that make up a name are its labels. -/
theorem nameLabels_of_behind (hne : ∀ l ∈ ls, l ≠ []) (hsep : ∀ l ∈ ls, separator ∉ l)
    (h : behind ls text = some []) : List.Forall₂ EqFold ls (nameLabels text) := by
  induction ls generalizing text with
  | nil =>
      cases h
      rw [nameLabels_nil]
      exact .nil
  | cons label ls ih =>
      have htail := fun (text : List UInt8) => @ih text
        (fun l hl => hne l (List.mem_cons_of_mem _ hl))
        (fun l hl => hsep l (List.mem_cons_of_mem _ hl))
      by_cases hfold : EqFold label (text.take label.length)
      swap
      · rw [behind, if_neg hfold] at h
        cases h
      obtain ⟨pre, rest, rfl, hpre⟩ := split_of_eqFold_take hfold
      have hpresep : separator ∉ pre := fun hmem => hsep label List.mem_cons_self
        ((hpre.mem_iff fun w => toLower_eq_dot).2 hmem)
      have hprene : pre ≠ [] := by
        rintro rfl
        exact hne label List.mem_cons_self (EqFold.nil_iff.1 hpre)
      rw [behind_cons_append hpre] at h
      cases rest with
      | nil =>
          have hnil := htail [] h
          rw [nameLabels_nil] at hnil
          cases hnil
          rw [List.append_nil, nameLabels_last hpresep hprene]
          exact .cons hpre .nil
      | cons c rest =>
          dsimp only at h
          split at h
          · rename_i hc
            subst hc
            rw [nameLabels_cons hpresep]
            exact .cons hpre (htail rest h)
          · cases h

end Labels

/-- The labels of a message, and how they end, as the comparison reads them. -/
def comparedLabels (message : List UInt8) (pos : ℕ) : List (List UInt8) × NameEnd :=
  readName message DNS_NAME_MAX_RECURSION pos

/-- The comparison answers 0 exactly for a well-formed name with the labels of `name`, and reads
nothing outside the message and nothing behind the terminator. -/
def ComparesName (message : List UInt8) (pos : ℕ) (name : List UInt8) : Prop :=
  dnsCompareName message pos (name ++ [0]) 0 ≠ none ∧
    (dnsCompareName message pos (name ++ [0]) 0 = some 0 ↔
      ∃ ls, NameAt message pos ls ∧ List.Forall₂ EqFold ls (nameLabels name))

/-- The name begins with the labels that are read, and the message ends in the middle of a
compression pointer behind them. -/
def CutBehind (message : List UInt8) (pos : ℕ) (name : List UInt8) : Prop :=
  (comparedLabels message pos).2 = .cut ∧ behind (comparedLabels message pos).1 name ≠ none

/-- The name is made up of the labels that are read, one of which is too long or has a dot in it. -/
def BadLabel (message : List UInt8) (pos : ℕ) (name : List UInt8) : Prop :=
  (comparedLabels message pos).2 = .root ∧ behind (comparedLabels message pos).1 name = some [] ∧
    ∃ l ∈ (comparedLabels message pos).1, ¬ LabelOk l ∨ separator ∈ l

section Main

variable {message : List UInt8} {pos : ℕ} {name : List UInt8}

/-- The well-formed names with the labels of `name`, as they are read. -/
theorem nameAt_nameLabels : (∃ ls, NameAt message pos ls ∧ List.Forall₂ EqFold ls (nameLabels name)) ↔
    (comparedLabels message pos).2 = .root ∧ (∀ l ∈ (comparedLabels message pos).1, LabelOk l) ∧
      List.Forall₂ EqFold (comparedLabels message pos).1 (nameLabels name) := by
  constructor
  · rintro ⟨ls, hname, hlabels⟩
    obtain ⟨hread, hok⟩ := nameAt_iff.1 hname
    rw [comparedLabels, hread]
    exact ⟨rfl, hok, hlabels⟩
  · rintro ⟨hend, hok, hlabels⟩
    exact ⟨_, nameAt_iff.2 ⟨Prod.ext rfl hend, hok⟩, hlabels⟩

theorem dnsCompareName_eq (message : List UInt8) (pos : ℕ) (name : List UInt8) :
    dnsCompareName message pos name 0 =
      compareLabels (comparedLabels message pos).1 (comparedLabels message pos).2 name :=
  compareName_eq DNS_NAME_MAX_RECURSION pos name

theorem labelOk_ne_nil {l : List UInt8} (h : LabelOk l) : l ≠ [] := by
  rintro rfl
  exact absurd h.1 (by decide)

/-- `dnsCompareName` tells equal names if and only if the message does not end in the middle of a
compression pointer where the name begins with the labels in front, no label has a NUL where the
name ends, and the name is not made up of labels of which one is too long or has a dot in it. -/
theorem dnsCompareName_iff (message : List UInt8) (pos : ℕ) (hnul : 0 ∉ name) :
    ComparesName message pos name ↔ ¬ CutBehind message pos name ∧
      ¬ NulAtEnd (comparedLabels message pos).1 name ∧ ¬ BadLabel message pos name := by
  obtain ⟨hnone, hzero⟩ := compareLabels_text (comparedLabels message pos).1
    (comparedLabels message pos).2 hnul
  rw [ComparesName, dnsCompareName_eq, nameAt_nameLabels, hzero, Ne, hnone, CutBehind, BadLabel]
  generalize comparedLabels message pos = read
  obtain ⟨ls, e⟩ := read
  dsimp only
  constructor
  · rintro ⟨hread, hiff⟩
    refine ⟨?_, hread, ?_⟩
    · rintro ⟨rfl, hbehind⟩
      obtain ⟨left, hleft⟩ := Option.ne_none_iff_exists'.1 hbehind
      cases (hiff.1 ⟨left, hleft, .inr rfl⟩).1
    · rintro ⟨rfl, hbehind, l, hl, hbad⟩
      obtain ⟨-, hok, hlabels⟩ := hiff.1 ⟨[], hbehind, .inl ⟨rfl, rfl⟩⟩
      rcases hbad with hbad | hdot
      · exact hbad (hok l hl)
      · obtain ⟨i, hi, rfl⟩ := List.getElem_of_mem hl
        have hi' : i < (nameLabels name).length := hlabels.length_eq ▸ hi
        have hfold := hlabels.get hi hi'
        exact separator_notMem_nameLabels name _ (List.getElem_mem hi')
          ((EqFold.mem_iff (fun w => toLower_eq_dot) hfold).1 hdot)
  · rintro ⟨hcut, hread, hbad⟩
    refine ⟨hread, ?_, ?_⟩
    · rintro ⟨left, hleft, ⟨rfl, rfl⟩ | rfl⟩
      · have hgood : ∀ l ∈ ls, LabelOk l ∧ separator ∉ l := fun l hl => by
          by_contra hno
          exact hbad ⟨rfl, hleft, l, hl, not_and_or.1 hno |>.imp_right not_not.1⟩
        exact ⟨rfl, fun l hl => (hgood l hl).1,
          nameLabels_of_behind (fun l hl => labelOk_ne_nil (hgood l hl).1)
            (fun l hl => (hgood l hl).2) hleft⟩
      · exact absurd ⟨rfl, by rw [hleft]; exact Option.some_ne_none _⟩ hcut
    · rintro ⟨rfl, hok, hlabels⟩
      exact ⟨[], behind_nameLabels (fun l hl => labelOk_ne_nil (hok l hl)) hlabels,
        .inl ⟨rfl, rfl⟩⟩

/-- The name `a`, and a message with a label `a`. -/
theorem dnsCompareName_a : ComparesName [1, 97, 0] 0 [97] ↔ ¬ CutBehind [1, 97, 0] 0 [97] ∧
    ¬ NulAtEnd (comparedLabels [1, 97, 0] 0).1 [97] ∧ ¬ BadLabel [1, 97, 0] 0 [97] :=
  dnsCompareName_iff [1, 97, 0] 0 (by decide)

/-- A message that is cut off in a compression pointer compares as equal with any name. -/
theorem dnsCompareName_cut :
    ¬ ∀ (message : List UInt8) (pos : ℕ) (name : List UInt8), 0 ∉ name →
      ComparesName message pos name := by
  intro h
  have hread : comparedLabels [0xC0] 0 = ([], .cut) := readLoop_cut rfl (by decide) rfl
  have hzero : dnsCompareName [0xC0] 0 ([97] ++ [0]) 0 = some 0 := by
    rw [dnsCompareName_eq, hread]
    rfl
  have hname := nameAt_nameLabels.1 ((h [0xC0] 0 [97] (by decide)).2.1 hzero)
  rw [hread] at hname
  cases hname.1

end Main

end Dns
