import CycloneTcp.Lib.CString

set_option autoImplicit false

/-! # NetBIOS names

A NetBIOS name has 15 characters, padded with spaces, and a suffix; each is sent as two letters. The
encoder stops at 15 characters. The comparison takes everything behind the end of the string for
padding if it begins with a space, and runs on if there is a NUL. -/

namespace Nbns

open CString

/-! ## The functions -/

/-- `' '`. -/
def space : UInt8 := 32

def NBNS_ENCODE_H (c : UInt8) : UInt8 := (65 : UInt8) + ((c >>> 4) &&& 0x0F)

def NBNS_ENCODE_L (c : UInt8) : UInt8 := (65 : UInt8) + (c &&& 0x0F)

/-- The two letters of a character. -/
def encodeChar (c : UInt8) : List UInt8 := [NBNS_ENCODE_H c, NBNS_ENCODE_L c]

/-- The two loops of `nbnsEncodeName`: characters, then spaces. -/
def encodeLoop : ℕ → List UInt8 → List UInt8
  | 0, _ => []
  | k + 1, [] => encodeChar space ++ encodeLoop k []
  | k + 1, c :: src => encodeChar (toUpper c) ++ encodeLoop k src

/-- Encode a NetBIOS name: what is written to `dest`. -/
def nbnsEncodeName (src : List UInt8) : List UInt8 :=
  32 :: (encodeLoop 15 src ++ encodeChar 0 ++ [0])

/-- From `'A'` to `'P'`. -/
def IsLetter (b : UInt8) : Prop := 65 ≤ b ∧ b ≤ 80

instance (b : UInt8) : Decidable (IsLetter b) := inferInstanceAs (Decidable (_ ∧ _))

/-- Combine nibbles to restore the original ASCII character. -/
def decodeChar (h l : UInt8) : UInt8 := ((h - 65) <<< 4) ||| (l - 65)

/-- The first loop of `nbnsParseName`, with `k` characters left: the characters left and the rest of
the message at the first space, and what has been written. `none` inside stands for an invalid
character. -/
def parseChars : ℕ → List UInt8 → Option (List UInt8) →
    Option (Option (ℕ × List UInt8) × Option (List UInt8))
  | 0, src, dest => some (some (0, src), dest)
  | k + 1, h :: l :: src, dest =>
      if ¬ IsLetter h ∨ ¬ IsLetter l then some (none, dest)
      else if decodeChar h l = space then some (some (k + 1, h :: l :: src), dest)
      else parseChars k src (dest.map (· ++ [decodeChar h l]))
  | _ + 1, _, _ => none

/-- Skip padding characters. -/
def skipPadding : ℕ → List UInt8 → Option (Option (List UInt8))
  | 0, src => some (some src)
  | k + 1, h :: l :: src =>
      if ¬ IsLetter h ∨ ¬ IsLetter l then some none else skipPadding k src
  | _ + 1, _ => none

/-- Decode a NetBIOS name. The position behind the name is returned, 0 if it is malformed. -/
def nbnsParseName (message : List UInt8) (pos : ℕ) (dest : Option (List UInt8)) :
    Option (ℕ × Option (List UInt8)) :=
  if message.length ≤ pos + 34 then some (0, dest)
  else
    match message.drop pos with
    | [] => none
    | n :: src =>
        if n ≠ 32 then some (0, dest)
        else
          match parseChars 15 src dest with
          | none => none
          | some (none, dest) => some (0, dest)
          | some (some (k, src), dest) =>
              match skipPadding (k + 1) src with
              | none => none
              | some none => some (0, dest)
              | some (some []) => none
              | some (some (n :: rest)) =>
                  if n ≠ 0 then some (0, dest)
                  -- the position of what follows
                  else some (message.length - rest.length, dest.map (· ++ [0]))

/-- The first loop of `nbnsCompareName`. `name` is an array of characters that ends in NUL; `none`
inside stands for names that differ. -/
def compareChars : ℕ → List UInt8 → List UInt8 → Option (Option (ℕ × List UInt8))
  | 0, src, _ => some (some (0, src))
  | k + 1, h :: l :: src, name =>
      if ¬ IsLetter h ∨ ¬ IsLetter l then some none
      else
        match name with
        | [] => none
        | x :: name =>
            if decodeChar h l = space ∧ x = 0 then some (some (k + 1, h :: l :: src))
            else if toUpper (decodeChar h l) ≠ toUpper x then some none
            else compareChars k src name
  | _ + 1, _, _ => none

/-- The end of `nbnsCompareName`: the padding, the suffix and the next label. -/
def compareEnd (k : ℕ) (src : List UInt8) : Option Bool :=
  match skipPadding (k + 1) src with
  | none => none
  | some none => some false
  | some (some []) => none
  | some (some (n :: _)) => some (n = 0)

/-- The characters and what follows them. -/
def compareFrom (k : ℕ) (src name : List UInt8) : Option Bool :=
  match compareChars k src name with
  | none => none
  | some none => some false
  | some (some (k, src)) => compareEnd k src

/-- Compare NetBIOS names. -/
def nbnsCompareName (message : List UInt8) (pos : ℕ) (name : List UInt8) : Option Bool :=
  if message.length ≤ pos + 34 then some false
  else
    match message.drop pos with
    | [] => none
    | n :: src => if n ≠ 32 then some false else compareFrom 15 src name

/-! ## Letters and characters -/

theorem forall_octet {P : UInt8 → Prop} (h : ∀ n < 256, P (UInt8.ofNat n)) (c : UInt8) : P c := by
  have hc := h c.toNat c.toNat_lt
  rwa [UInt8.ofNat_toNat] at hc

theorem encodeChar_letters (c : UInt8) : IsLetter (NBNS_ENCODE_H c) ∧ IsLetter (NBNS_ENCODE_L c) :=
  forall_octet (P := fun c => IsLetter (NBNS_ENCODE_H c) ∧ IsLetter (NBNS_ENCODE_L c))
    (by decide +kernel) c

@[simp] theorem decodeChar_encode (c : UInt8) :
    decodeChar (NBNS_ENCODE_H c) (NBNS_ENCODE_L c) = c :=
  forall_octet (P := fun c => decodeChar (NBNS_ENCODE_H c) (NBNS_ENCODE_L c) = c)
    (by decide +kernel) c

theorem toUpper_eq_space (c : UInt8) : toUpper c = space ↔ c = space :=
  forall_octet (P := fun c => toUpper c = space ↔ c = space) (by decide +kernel) c

theorem toUpper_eq_zero (c : UInt8) : toUpper c = toUpper 0 ↔ c = 0 :=
  forall_octet (P := fun c => toUpper c = toUpper 0 ↔ c = 0) (by decide +kernel) c

/-! ## Encoding and parsing -/

section Parse

variable {src tail : List UInt8}

theorem skipPadding_encode (k : ℕ) (tail : List UInt8) :
    skipPadding (k + 1) (encodeLoop k [] ++ (encodeChar 0 ++ tail)) = some (some tail) := by
  have hstep : ∀ (n : ℕ) (c : UInt8) (src : List UInt8),
      skipPadding (n + 1) (encodeChar c ++ src) = skipPadding n src := by
    intro n c src
    obtain ⟨hh, hl⟩ := encodeChar_letters c
    show (if _ then _ else _) = _
    rw [if_neg (not_or.2 ⟨not_not.2 hh, not_not.2 hl⟩)]
    rfl
  induction k with
  | zero =>
      rw [encodeLoop, List.nil_append, hstep, skipPadding]
  | succ k ih =>
      rw [encodeLoop, List.append_assoc, hstep, ih]

/-- The characters of a name without spaces are read up to the padding. -/
theorem parseChars_encode {s : List UInt8} (hs : space ∉ s) {k : ℕ} (hk : s.length ≤ k)
    (dest : Option (List UInt8)) :
    parseChars k (encodeLoop k s ++ (encodeChar 0 ++ tail)) dest =
      some (some (k - s.length, encodeLoop (k - s.length) [] ++ (encodeChar 0 ++ tail)),
        dest.map (· ++ s.map toUpper)) := by
  have hstep : ∀ (n : ℕ) (c : UInt8) (src : List UInt8) (dest : Option (List UInt8)),
      parseChars (n + 1) (encodeChar c ++ src) dest =
        if c = space then some (some (n + 1, encodeChar c ++ src), dest)
        else parseChars n src (dest.map (· ++ [c])) := by
    intro n c src dest
    obtain ⟨hh, hl⟩ := encodeChar_letters c
    show (if _ then _ else _) = _
    rw [if_neg (not_or.2 ⟨not_not.2 hh, not_not.2 hl⟩), decodeChar_encode]
    rfl
  induction s generalizing k dest with
  | nil =>
      have hdest : dest.map (· ++ List.map toUpper []) = dest := by
        cases dest <;> simp
      rw [hdest]
      cases k with
      | zero => rfl
      | succ k =>
          rw [encodeLoop, List.append_assoc, hstep, if_pos rfl, List.length_nil, Nat.sub_zero,
            encodeLoop, List.append_assoc]
  | cons c s ih =>
      obtain ⟨k, rfl⟩ := Nat.exists_eq_add_of_le' (Nat.lt_of_lt_of_le (Nat.succ_pos _) hk)
      have hc : toUpper c ≠ space := fun h =>
        hs (((toUpper_eq_space c).1 h) ▸ List.mem_cons_self ..)
      rw [encodeLoop, List.append_assoc, hstep, if_neg hc,
        ih (fun hmem => hs (List.mem_cons_of_mem _ hmem)) (Nat.le_of_succ_le_succ hk),
        List.length_cons, Nat.succ_sub_succ]
      cases dest <;> simp

theorem encodeLoop_length (k : ℕ) (s : List UInt8) : (encodeLoop k s).length = 2 * k := by
  induction k generalizing s with
  | zero => rfl
  | succ k ih =>
      cases s with
      | nil =>
          rw [encodeLoop, List.length_append, ih]
          show 2 + 2 * k = _
          omega
      | cons c s =>
          rw [encodeLoop, List.length_append, ih]
          show 2 + 2 * k = _
          omega

theorem nbnsEncodeName_length (s : List UInt8) : (nbnsEncodeName s).length = 34 := by
  rw [nbnsEncodeName, List.length_cons, List.length_append, List.length_append, encodeLoop_length]
  rfl

/-- A name without spaces, of at most 15 characters, is decoded in upper case. -/
theorem nbnsParseName_encode {s message : List UInt8} {pos : ℕ} (hs : space ∉ s)
    (hlen : s.length ≤ 15) (hpos : pos + 34 < message.length)
    (hat : At message pos (nbnsEncodeName s)) (dest : Option (List UInt8)) :
    nbnsParseName message pos dest =
      some (pos + 34, dest.map (· ++ (s.map toUpper ++ [0]))) := by
  obtain ⟨rest, hrest⟩ := hat
  have hcount := congrArg List.length hrest
  rw [List.length_append, nbnsEncodeName_length, List.length_drop] at hcount
  have hsplit : message.drop pos = 32 :: (encodeLoop 15 s ++ (encodeChar 0 ++ (0 :: rest))) := by
    rw [← hrest, nbnsEncodeName]
    simp only [List.cons_append, List.append_assoc, List.nil_append]
  rw [nbnsParseName, if_neg (Nat.not_le_of_lt hpos), hsplit]
  simp only [ne_eq, not_true_eq_false, if_false, parseChars_encode hs hlen, skipPadding_encode,
    Option.map_map]
  congr 2
  · omega
  · congr 1
    funext d
    simp

end Parse

/-! ## Comparing -/

/-- The characters of a list of letters. -/
def chars : List UInt8 → List UInt8
  | h :: l :: ls => decodeChar h l :: chars ls
  | _ => []

/-- All of them are letters from A to P. -/
def Letters (ls : List UInt8) : Prop := ∀ b ∈ ls, IsLetter b

instance (ls : List UInt8) : Decidable (Letters ls) :=
  inferInstanceAs (Decidable (∀ b ∈ ls, IsLetter b))

/-- A string, truncated or padded with spaces to `k` characters. -/
def padTo (k : ℕ) (t : List UInt8) : List UInt8 := t.take k ++ List.replicate (k - t.length) space

/-- `k` characters and the suffix are well formed, up to the length `z` of the next label, and the
characters are those of the string. -/
def Agrees (k : ℕ) (ls : List UInt8) (z : UInt8) (t : List UInt8) : Prop :=
  Letters ls ∧ z = 0 ∧ EqFold ((chars ls).take k) (padTo k t)

instance (k : ℕ) (ls : List UInt8) (z : UInt8) (t : List UInt8) : Decidable (Agrees k ls z t) :=
  inferInstanceAs (Decidable (_ ∧ _ ∧ _))

/-- The comparison goes wrong: the name begins with the string, which is shorter, and goes on with
a space that is not followed by spaces only, or with a NUL where something well formed follows. -/
def Strays (k : ℕ) (ls : List UInt8) (z : UInt8) (t : List UInt8) : Prop :=
  t.length < k ∧ Letters (ls.take (2 * (t.length + 1))) ∧ EqFold ((chars ls).take t.length) t ∧
    (((chars ls)[t.length]? = some space ∧ Letters ls ∧ z = 0 ∧
        ((chars ls).take k).drop t.length ≠ List.replicate (k - t.length) space) ∨
      ((chars ls)[t.length]? = some 0 ∧
        if t.length + 1 = k then Letters ls ∧ z = 0
        else Letters (ls.take (2 * (t.length + 2)))))

section Compare

variable {k : ℕ} {h l z x : UInt8} {ls t rest src name : List UInt8}

theorem letters_cons : Letters (h :: l :: ls) ↔ (IsLetter h ∧ IsLetter l) ∧ Letters ls := by
  simp only [Letters, List.forall_mem_cons, and_assoc]

/-- Two letters stand for each character. -/
theorem exists_letters {n : ℕ} (hls : ls.length = 2 * (n + 1)) :
    ∃ h l ls', ls = h :: l :: ls' ∧ ls'.length = 2 * n := by
  obtain ⟨h, tail, rfl⟩ := List.exists_cons_of_length_pos (l := ls) (by omega)
  rw [List.length_cons] at hls
  obtain ⟨l, ls', rfl⟩ := List.exists_cons_of_length_pos (l := tail) (by omega)
  rw [List.length_cons] at hls
  exact ⟨h, l, ls', rfl, by omega⟩

theorem skipPadding_eq (n : ℕ) (hls : ls.length = 2 * n) (tail : List UInt8) :
    skipPadding n (ls ++ tail) = some (if Letters ls then some tail else none) := by
  induction n generalizing ls with
  | zero =>
      obtain rfl := List.length_eq_zero_iff.1 hls
      rw [skipPadding, if_pos (by simp [Letters])]
      rfl
  | succ n ih =>
      obtain ⟨h, l, ls, rfl, hls'⟩ := exists_letters hls
      show (if _ then _ else _) = _
      simp only [letters_cons]
      by_cases hletter : IsLetter h ∧ IsLetter l
      · rw [if_neg (by rw [not_or, not_not, not_not]; exact hletter)]
        simp only [hletter, true_and]
        exact ih hls'
      · rw [if_pos (by rw [← not_and_or]; exact hletter), if_neg fun hall => hletter hall.1]

theorem compareEnd_eq (hls : ls.length = 2 * (k + 1)) :
    compareEnd k (ls ++ z :: rest) = some (decide (Letters ls ∧ z = 0)) := by
  rw [compareEnd, skipPadding_eq _ hls]
  by_cases hletters : Letters ls
  · rw [if_pos hletters]
    simp only [hletters, true_and]
  · rw [if_neg hletters]
    simp only [hletters, false_and, decide_false]

theorem compareFrom_zero : compareFrom 0 src name = compareEnd 0 src := rfl

/-- One character of the message. -/
theorem compareChars_step (k : ℕ) (h l : UInt8) (src name : List UInt8) :
    compareChars (k + 1) (h :: l :: src) name =
      if IsLetter h ∧ IsLetter l then
        match name with
        | [] => none
        | x :: name =>
            if decodeChar h l = space ∧ x = 0 then some (some (k + 1, h :: l :: src))
            else if toUpper (decodeChar h l) ≠ toUpper x then some none
            else compareChars k src name
      else some none := by
  rw [compareChars.eq_def]
  by_cases hletter : IsLetter h ∧ IsLetter l
  · rw [if_pos hletter]
    exact if_neg (by rw [not_or, not_not, not_not]; exact hletter)
  · rw [if_neg hletter]
    exact if_pos (by rw [← not_and_or]; exact hletter)

theorem compareFrom_invalid (hletter : ¬ (IsLetter h ∧ IsLetter l)) :
    compareFrom (k + 1) (h :: l :: src) name = some false := by
  rw [compareFrom, compareChars_step, if_neg hletter]

theorem compareFrom_end (hletter : IsLetter h ∧ IsLetter l) :
    compareFrom (k + 1) (h :: l :: src) [] = none := by
  rw [compareFrom, compareChars_step, if_pos hletter]

theorem compareFrom_cons (hletter : IsLetter h ∧ IsLetter l) :
    compareFrom (k + 1) (h :: l :: src) (x :: name) =
      if decodeChar h l = space ∧ x = 0 then compareEnd (k + 1) (h :: l :: src)
      else if toUpper (decodeChar h l) ≠ toUpper x then some false
      else compareFrom k src name := by
  rw [compareFrom, compareChars_step, if_pos hletter]
  simp only
  split_ifs <;> rfl

/-- Only spaces are equal to spaces up to case. -/
theorem eqFold_replicate (n : ℕ) (cs : List UInt8) :
    EqFold cs (List.replicate n space) ↔ cs = List.replicate n space := by
  have hspace : ∀ c : UInt8, toLower c = toLower space ↔ c = space :=
    forall_octet (P := fun c => toLower c = toLower space ↔ c = space) (by decide +kernel)
  induction n generalizing cs with
  | zero => exact EqFold.nil_iff
  | succ n ih =>
      cases cs with
      | nil => exact iff_of_false (fun h => absurd h.length_eq (by simp)) (by simp)
      | cons c cs =>
          rw [List.replicate_succ, EqFold.cons_iff, hspace, List.cons.injEq]
          exact and_congr_right fun _ => ih cs

/-- A string that has ended agrees with spaces only. -/
theorem agrees_nil :
    Agrees (k + 1) (h :: l :: ls) z [] ↔
      (Letters (h :: l :: ls) ∧ z = 0) ∧
        (chars (h :: l :: ls)).take (k + 1) = List.replicate (k + 1) space := by
  rw [Agrees, padTo, List.take_nil, List.nil_append, List.length_nil, Nat.sub_zero,
    eqFold_replicate, and_assoc]

/-- A character of the string has to be there. -/
theorem agrees_cons : Agrees (k + 1) (h :: l :: ls) z (x :: t) ↔
    (IsLetter h ∧ IsLetter l) ∧ toLower (decodeChar h l) = toLower x ∧ Agrees k ls z t := by
  rw [Agrees, Agrees, letters_cons, chars, List.take_succ_cons, padTo, List.take_succ_cons,
    List.length_cons, Nat.succ_sub_succ, List.cons_append, EqFold.cons_iff, padTo]
  tauto

theorem strays_cons : Strays (k + 1) (h :: l :: ls) z (x :: t) ↔
    (IsLetter h ∧ IsLetter l) ∧ toLower (decodeChar h l) = toLower x ∧ Strays k ls z t := by
  have htwo : ∀ n, 2 * (n + 1 + 1) = 2 * (n + 1) + 2 := fun n => by omega
  have htake : ∀ n, (h :: l :: ls).take (2 * (n + 1 + 1)) = h :: l :: ls.take (2 * (n + 1)) := by
    intro n
    rw [htwo]
    rfl
  rw [Strays, Strays, List.length_cons, htake, letters_cons, chars, List.take_succ_cons,
    EqFold.cons_iff, List.getElem?_cons_succ, letters_cons, List.take_succ_cons,
    List.drop_succ_cons, Nat.succ_sub_succ, htake, letters_cons, Nat.add_lt_add_iff_right]
  simp only [Nat.add_right_cancel_iff]
  by_cases hlast : t.length + 1 = k
  · simp only [if_pos hlast]
    tauto
  · simp only [if_neg hlast]
    tauto

/-- Behind the end of the string. -/
theorem strays_nil : Strays (k + 1) (h :: l :: ls) z [] ↔
    (IsLetter h ∧ IsLetter l) ∧
      ((decodeChar h l = space ∧ (Letters (h :: l :: ls) ∧ z = 0) ∧
          (chars (h :: l :: ls)).take (k + 1) ≠ List.replicate (k + 1) space) ∨
        (decodeChar h l = 0 ∧
          if k = 0 then Letters (h :: l :: ls) ∧ z = 0
          else Letters ((h :: l :: ls).take 4))) := by
  have hempty : Letters [] := by simp [Letters]
  have htake : (h :: l :: ls).take (2 * (0 + 1)) = [h, l] := by
    cases ls <;> rfl
  have hfirst : (chars (h :: l :: ls))[0]? = some (decodeChar h l) := rfl
  have hlast : 0 + 1 = k + 1 ↔ k = 0 := by omega
  rw [Strays, List.length_nil, htake, letters_cons, hfirst, List.drop_zero, Nat.sub_zero]
  simp only [Nat.succ_pos, true_and, hempty, and_true, List.take_zero, EqFold.refl,
    Option.some.injEq, hlast, and_assoc]

/-- The comparison answers the question whether the names agree, unless it goes wrong. -/
theorem compareFrom_iff (hls : ls.length = 2 * (k + 1)) (ht : 0 ∉ t) :
    compareFrom k (ls ++ z :: rest) (t ++ [0]) = some (decide (Agrees k ls z t)) ↔
      ¬ Strays k ls z t := by
  induction t generalizing k ls with
  | nil =>
      cases k with
      | zero =>
          have hagrees : Agrees 0 ls z [] ↔ Letters ls ∧ z = 0 := by
            simp [Agrees, padTo, EqFold]
          rw [compareFrom_zero, compareEnd_eq hls]
          simp only [hagrees, true_iff]
          exact fun hstrays => absurd hstrays.1 (Nat.not_lt_zero _)
      | succ k =>
          obtain ⟨h, l, ls, rfl, hls'⟩ := exists_letters hls
          have hfirst : decodeChar h l ≠ space →
              (chars (h :: l :: ls)).take (k + 1) ≠ List.replicate (k + 1) space := by
            intro hne hsame
            exact hne (List.cons.inj hsame).1
          rw [strays_nil]
          simp only [agrees_nil]
          by_cases hletter : IsLetter h ∧ IsLetter l
          case neg =>
            rw [List.cons_append, List.cons_append, compareFrom_invalid hletter]
            simp only [letters_cons, hletter, false_and, decide_false, not_false_eq_true]
          case pos =>
            rw [List.nil_append, List.cons_append, List.cons_append, compareFrom_cons hletter]
            by_cases hspace : decodeChar h l = space
            · -- the padding is taken on trust
              rw [if_pos ⟨hspace, rfl⟩, ← List.cons_append, ← List.cons_append,
                compareEnd_eq hls]
              have hne : decodeChar h l ≠ 0 := hspace ▸ (by decide)
              simp only [hletter, hspace, true_and, Option.some.injEq, decide_eq_decide,
                and_self]
              tauto
            rw [if_neg fun hend => hspace hend.1]
            simp only [hfirst hspace, hspace, and_false, decide_false, hletter, true_and,
              false_and, false_or, and_self]
            by_cases hnul : decodeChar h l = 0
            · -- a NUL is equal to the end of the string, and the string is left
              rw [if_neg (not_not.2 (congrArg toUpper hnul))]
              simp only [hnul, true_and]
              cases k with
              | zero =>
                  rw [compareFrom_zero, compareEnd_eq hls', if_pos rfl, letters_cons]
                  simp only [hletter, true_and, Option.some.injEq, decide_eq_false_iff_not,
                    and_self]
              | succ k =>
                  obtain ⟨h', l', ls, rfl, -⟩ := exists_letters hls'
                  have htake : (h :: l :: h' :: l' :: ls).take 4 = [h, l, h', l'] := by
                    cases ls <;> rfl
                  rw [if_neg (Nat.succ_ne_zero k), htake, letters_cons, letters_cons]
                  by_cases hletter' : IsLetter h' ∧ IsLetter l'
                  · rw [List.cons_append, List.cons_append, compareFrom_end hletter']
                    simp [hletter, hletter', Letters]
                  · rw [List.cons_append, List.cons_append, compareFrom_invalid hletter']
                    simp only [hletter', false_and, and_false, not_false_eq_true]
            · rw [if_pos fun hup => hnul ((toUpper_eq_zero _).1 hup)]
              simp only [hnul, false_and, not_false_eq_true]
  | cons x t ih =>
      cases k with
      | zero =>
          have hagrees : Agrees 0 ls z (x :: t) ↔ Letters ls ∧ z = 0 := by
            simp [Agrees, padTo, EqFold]
          rw [compareFrom_zero, compareEnd_eq hls]
          simp only [hagrees, true_iff]
          exact fun hstrays => absurd hstrays.1 (Nat.not_lt_zero _)
      | succ k =>
          obtain ⟨h, l, ls, rfl, hls'⟩ := exists_letters hls
          have hx : x ≠ 0 := fun hx => ht (hx ▸ List.mem_cons_self ..)
          rw [strays_cons]
          simp only [agrees_cons]
          by_cases hletter : IsLetter h ∧ IsLetter l
          · rw [List.cons_append, List.cons_append, List.cons_append,
              compareFrom_cons hletter, if_neg fun hend => hx hend.2]
            by_cases hfold : toLower (decodeChar h l) = toLower x
            · rw [if_neg (not_not.2 ((toUpper_eq_iff _ _).2 hfold))]
              simp only [hletter, hfold, true_and]
              exact ih hls'
                (fun hmem => ht (List.mem_cons_of_mem _ hmem))
            · rw [if_pos (fun hup => hfold ((toUpper_eq_iff _ _).1 hup))]
              simp only [hfold, false_and, and_false, decide_false, not_false_eq_true]
          · rw [List.cons_append, List.cons_append, compareFrom_invalid hletter]
            simp only [hletter, false_and, decide_false, not_false_eq_true]

/-- The letters of the name at a position. -/
def lettersAt (message : List UInt8) (pos : ℕ) : List UInt8 := (message.drop (pos + 1)).take 32

/-- The name at a position is well formed, and its first 15 characters are those of the string. -/
def Encodes (message : List UInt8) (pos : ℕ) (t : List UInt8) : Prop :=
  pos + 34 < message.length ∧ message[pos]? = some 32 ∧
    Agrees 15 (lettersAt message pos) (message.getD (pos + 33) 0) t

instance (message : List UInt8) (pos : ℕ) (t : List UInt8) : Decidable (Encodes message pos t) :=
  inferInstanceAs (Decidable (_ ∧ _ ∧ _))

/-- The name at a position makes the comparison go wrong. -/
def GoesWrong (message : List UInt8) (pos : ℕ) (t : List UInt8) : Prop :=
  pos + 34 < message.length ∧ message[pos]? = some 32 ∧
    Strays 15 (lettersAt message pos) (message.getD (pos + 33) 0) t

theorem nbnsCompareName_iff (message : List UInt8) (pos : ℕ) (ht : 0 ∉ t) :
    nbnsCompareName message pos (t ++ [0]) = some (decide (Encodes message pos t)) ↔
      ¬ GoesWrong message pos t := by
  rw [nbnsCompareName]
  by_cases hlong : pos + 34 < message.length
  case neg =>
    have hencodes : ¬ Encodes message pos t := fun h => hlong h.1
    have hwrong : ¬ GoesWrong message pos t := fun h => hlong h.1
    rw [if_pos (Nat.le_of_not_lt hlong)]
    simp only [hencodes, hwrong, decide_false, not_false_eq_true]
  case pos =>
    have hdrop := List.drop_eq_getElem_cons (show pos < message.length by omega)
    have hget : message[pos]? = some message[pos] := List.getElem?_eq_getElem (by omega)
    rw [if_neg (Nat.not_le_of_lt hlong), hdrop]
    by_cases hn : message[pos] = 32
    case neg =>
      have hne : message[pos]? ≠ some 32 := by
        rw [hget]
        exact fun h => hn (Option.some.inj h)
      have hencodes : ¬ Encodes message pos t := fun h => hne h.2.1
      have hwrong : ¬ GoesWrong message pos t := fun h => hne h.2.1
      simp only [if_pos hn, hencodes, hwrong, decide_false, not_false_eq_true]
    case pos =>
      rw [hn] at hget
      have hencodes : Encodes message pos t ↔
          Agrees 15 (lettersAt message pos) (message.getD (pos + 33) 0) t :=
        ⟨fun h => h.2.2, fun h => ⟨hlong, hget, h⟩⟩
      have hwrong : GoesWrong message pos t ↔
          Strays 15 (lettersAt message pos) (message.getD (pos + 33) 0) t :=
        ⟨fun h => h.2.2, fun h => ⟨hlong, hget, h⟩⟩
      have hlast : pos + 1 + 32 < message.length := by omega
      have hsplit : message.drop (pos + 1) = lettersAt message pos ++
          message.getD (pos + 33) 0 :: message.drop (pos + 34) := by
        have hz : message.drop (pos + 1 + 32) =
            message.getD (pos + 33) 0 :: message.drop (pos + 34) := by
          rw [List.drop_eq_getElem_cons hlast, List.getD_eq_getElem?_getD,
            List.getElem?_eq_getElem hlast, Option.getD_some]
        have htake := List.take_append_drop 32 (message.drop (pos + 1))
        rw [List.drop_drop, hz] at htake
        exact htake.symm
      have hletters : (lettersAt message pos).length = 2 * (15 + 1) := by
        rw [lettersAt, List.length_take, List.length_drop]
        omega
      simp only [hencodes, hwrong, if_neg (not_not.2 hn)]
      rw [hsplit]
      exact compareFrom_iff hletters ht

end Compare

/-- **NetBIOS names.** A name without spaces of at most 15 characters is decoded as it was encoded,
in upper case. The comparison stays inside the message and inside the string, and finds out whether
the name is that of the string, if and only if the name does not make it go wrong. -/
theorem nbnsName_codec (message : List UInt8) (pos : ℕ) :
    (∀ (s : List UInt8) (dest : Option (List UInt8)), space ∉ s → s.length ≤ 15 →
      pos + 34 < message.length → At message pos (nbnsEncodeName s) →
      nbnsParseName message pos dest =
        some (pos + 34, dest.map (· ++ (s.map toUpper ++ [0])))) ∧
    ∀ t : List UInt8, 0 ∉ t →
      (nbnsCompareName message pos (t ++ [0]) = some (decide (Encodes message pos t)) ↔
        ¬ GoesWrong message pos t) :=
  ⟨fun _ dest hs hlen hpos hat => nbnsParseName_encode hs hlen hpos hat dest,
    fun _ ht => nbnsCompareName_iff message pos ht⟩

/-- The name `"pc"`. -/
theorem nbnsName_codec_pc :
    nbnsParseName (nbnsEncodeName [112, 99] ++ [0]) 0 (some []) = some (34, some [80, 67, 0]) ∧
      (nbnsCompareName (nbnsEncodeName [112, 99] ++ [0]) 0 ([80, 99] ++ [0]) =
        some (decide (Encodes (nbnsEncodeName [112, 99] ++ [0]) 0 [80, 99])) ↔
        ¬ GoesWrong (nbnsEncodeName [112, 99] ++ [0]) 0 [80, 99]) :=
  ⟨(nbnsName_codec _ 0).1 [112, 99] (some []) (by decide) (by decide) (by decide)
      (List.prefix_append _ _),
    (nbnsName_codec _ 0).2 [80, 99] (by decide)⟩

/-- The name `"A X"` is taken for `"A"`. -/
theorem nbnsCompareName_embedded_space : ¬ ∀ (message : List UInt8) (pos : ℕ) (t : List UInt8),
    0 ∉ t → nbnsCompareName message pos (t ++ [0]) = some (decide (Encodes message pos t)) := by
  intro h
  have hname := h (nbnsEncodeName [65, 32, 88] ++ [0]) 0 [65] (by decide)
  revert hname
  decide +kernel

/-- Behind a NUL the comparison with `"A"` leaves the string. -/
example : nbnsCompareName (nbnsEncodeName [65, 0, 88] ++ [0]) 0 [65, 0] = none := by
  decide +kernel

end Nbns
