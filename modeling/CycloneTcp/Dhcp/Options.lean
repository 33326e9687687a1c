import CycloneTcp.Dhcp.Common
import CycloneTcp.Lib.Region

/-! # The options of a DHCP message

`dhcpAddOption` appends to the options field of a message under construction, and `dhcpGetOption`
searches the options field of a message received. Both walk from option to option, but the writer
takes every option but the end option to have a length, and the reader knows the pad option, which
has none. What is found after an option has been appended is settled where both walks get to the
same end option. -/

set_option autoImplicit false

namespace Dhcp

/-! ## The functions -/

/-- The first loop of `dhcpAddOption`: the position of the end option. Reading outside the buffer
gives `none`. -/
def endOption (options : List UInt8) (n : ℕ) : Option ℕ :=
  if _h : n < options.length then
    match options[n]? with
    | none => none
    | some code =>
        if code = DHCP_OPT_END then some n
        else
          match options[n + 1]? with
          | none => none
          | some length => endOption options (n + 2 + length.toNat)
  else none
termination_by options.length - n

/-- `dhcpAddOption`, on the buffer from `message->options` on. Writing outside it gives `none`. -/
def dhcpAddOption (options : List UInt8) (optionCode : UInt8) (optionValue : List UInt8) :
    Option (List UInt8) :=
  match endOption options 0 with
  | none => none
  | some n =>
      -- sanity check
      if optionValue.length ≤ 255 then
        if n + 2 + optionValue.length < options.length then
          some (splice options n
            (optionCode :: UInt8.ofNat optionValue.length :: optionValue ++ [DHCP_OPT_END]))
        else none
      else some options

/-- A list of options is appended, one after the other. -/
def dhcpAddOptions (options : List UInt8) : List (UInt8 × List UInt8) → Option (List UInt8)
  | [] => some options
  | (code, value) :: xs =>
      match dhcpAddOption options code value with
      | none => none
      | some options => dhcpAddOptions options xs

/-- The loop of `dhcpGetOption`: the position of the option. Reading outside the options field gives
`none`. -/
def getOptionLoop (options : List UInt8) (optionCode : UInt8) (i : ℕ) : Option (Option ℕ) :=
  if _h : i < options.length then
    match options[i]? with
    | none => none
    | some code =>
        if code = DHCP_OPT_PAD then getOptionLoop options optionCode (i + 1)
        else if code = DHCP_OPT_END then some none
        else if options.length ≤ i + 1 then some none
        else
          match options[i + 1]? with
          | none => none
          | some length =>
              if options.length ≤ i + 1 + length.toNat then some none
              else if code = optionCode then some (some i)
              else getOptionLoop options optionCode (i + 1 + length.toNat + 1)
  else some none
termination_by options.length - i

/-- `dhcpGetOption` on the bytes of a message: the position of the option in the options field. -/
def dhcpGetOptionAt (message : List UInt8) (optionCode : UInt8) : Option (Option ℕ) :=
  if message.length < headerSize then some none
  else getOptionLoop (message.drop headerSize) optionCode 0

/-! ## Walks -/

/-- The bytes of an option. -/
def optionBytes (x : UInt8 × List UInt8) : List UInt8 := x.1 :: UInt8.ofNat x.2.length :: x.2

/-- An option with a code other than that of the pad and the end option, short enough. -/
def OptionOk (x : UInt8 × List UInt8) : Prop :=
  x.1 ≠ DHCP_OPT_PAD ∧ x.1 ≠ DHCP_OPT_END ∧ x.2.length ≤ 255

/-- The walk from option to option gets from one position to another; `pads` tells whether it knows
the pad option. -/
inductive Reaches (pads : Bool) (options : List UInt8) : ℕ → ℕ → Prop where
  | refl (i : ℕ) : Reaches pads options i i
  | pad {i p : ℕ} (hpads : pads = true) (hcode : options[i]? = some DHCP_OPT_PAD)
      (hrest : Reaches pads options (i + 1) p) : Reaches pads options i p
  | skip {i p : ℕ} {code length : UInt8} (hcode : options[i]? = some code)
      (hpad : pads = true → code ≠ DHCP_OPT_PAD) (hend : code ≠ DHCP_OPT_END)
      (hlength : options[i + 1]? = some length)
      (hrest : Reaches pads options (i + 2 + length.toNat) p) : Reaches pads options i p

section Walk

variable {pads : Bool} {options options' : List UInt8} {i p : ℕ}

theorem Reaches.le (h : Reaches pads options i p) : i ≤ p := by
  induction h with
  | refl => exact Nat.le_refl _
  | pad => omega
  | skip => omega

/-- The walk depends on what is in front of its end only. -/
theorem Reaches.congr (h : Reaches pads options i p) (htake : options'.take p = options.take p) :
    Reaches pads options' i p := by
  have hget : ∀ j < p, options'[j]? = options[j]? := by
    intro j hj
    rw [← List.getElem?_take_of_lt hj, htake, List.getElem?_take_of_lt hj]
  induction h with
  | refl => exact .refl _
  | pad hpads hcode hrest ih =>
      have := hrest.le
      exact .pad hpads ((hget _ (by omega)).trans hcode) (ih htake hget)
  | skip hcode hpad hend hlength hrest ih =>
      have := hrest.le
      exact .skip ((hget _ (by omega)).trans hcode) hpad hend ((hget _ (by omega)).trans hlength)
        (ih htake hget)

theorem Reaches.trans {q : ℕ} (h : Reaches pads options i p) (h' : Reaches pads options p q) :
    Reaches pads options i q := by
  induction h with
  | refl => exact h'
  | pad hpads hcode _ ih => exact .pad hpads hcode (ih h')
  | skip hcode hpad hend hlength _ ih => exact .skip hcode hpad hend hlength (ih h')

/-- The writer gets to the end option that its walk reaches. -/
theorem endOption_of_reaches (h : Reaches false options i p)
    (hend : options[p]? = some DHCP_OPT_END) : endOption options i = some p := by
  induction h with
  | refl i =>
      have hlt := (List.getElem?_eq_some_iff.1 hend).1
      rw [endOption, dif_pos hlt, hend]
      simp
  | pad hpads => cases hpads
  | @skip i p code length hcode hpad hne hlength hrest ih =>
      have hlt := (List.getElem?_eq_some_iff.1 hcode).1
      rw [endOption, dif_pos hlt, hcode]
      simp only [if_neg hne, hlength]
      exact ih hend

theorem getOptionLoop_pad (hcode : options[i]? = some DHCP_OPT_PAD) (optionCode : UInt8) :
    getOptionLoop options optionCode i = getOptionLoop options optionCode (i + 1) := by
  rw [getOptionLoop, dif_pos (List.getElem?_eq_some_iff.1 hcode).1, hcode]
  rfl

theorem getOptionLoop_end (hcode : options[i]? = some DHCP_OPT_END) (optionCode : UInt8) :
    getOptionLoop options optionCode i = some none := by
  rw [getOptionLoop, dif_pos (List.getElem?_eq_some_iff.1 hcode).1, hcode]
  rfl

/-- An option that lies inside the field is the one that is searched, or is passed over. -/
theorem getOptionLoop_skip {code length : UInt8} (hcode : options[i]? = some code)
    (hpad : code ≠ DHCP_OPT_PAD) (hend : code ≠ DHCP_OPT_END)
    (hlength : options[i + 1]? = some length) (hfit : i + 2 + length.toNat ≤ options.length)
    (optionCode : UInt8) : getOptionLoop options optionCode i =
      if code = optionCode then some (some i)
      else getOptionLoop options optionCode (i + 2 + length.toNat) := by
  have hnext : i + 1 + length.toNat + 1 = i + 2 + length.toNat := by omega
  rw [getOptionLoop, dif_pos (List.getElem?_eq_some_iff.1 hcode).1, hcode]
  simp only [if_neg hpad, if_neg hend, if_neg (show ¬ options.length ≤ i + 1 by omega), hlength,
    if_neg (show ¬ options.length ≤ i + 1 + length.toNat by omega), hnext]

/-- The reader finds an option in front of a position on its walk, or goes on from there. -/
theorem getOptionLoop_of_reaches (h : Reaches true options i p) (hp : p ≤ options.length)
    (optionCode : UInt8) : getOptionLoop options optionCode i =
      match getOptionLoop (options.take p) optionCode i with
      | some (some j) => some (some j)
      | _ => getOptionLoop options optionCode p := by
  induction h with
  | refl i =>
      have hnone : getOptionLoop (options.take i) optionCode i = some none := by
        rw [getOptionLoop, dif_neg (by rw [List.length_take]; omega)]
      rw [hnone]
  | @pad i p _ hcode hrest ih =>
      have := hrest.le
      have htake : (options.take p)[i]? = some DHCP_OPT_PAD := by
        rw [List.getElem?_take_of_lt (by omega), hcode]
      rw [getOptionLoop_pad hcode, getOptionLoop_pad htake, ih hp]
  | @skip i p code length hcode hpad hend hlength hrest ih =>
      have := hrest.le
      have hcode' : (options.take p)[i]? = some code := by
        rw [List.getElem?_take_of_lt (by omega), hcode]
      have hlength' : (options.take p)[i + 1]? = some length := by
        rw [List.getElem?_take_of_lt (by omega), hlength]
      rw [getOptionLoop_skip hcode (hpad rfl) hend hlength (by omega),
        getOptionLoop_skip hcode' (hpad rfl) hend hlength' (by rw [List.length_take]; omega), ih hp]
      split <;> rfl

end Walk

/-! ## Options that have been appended -/

section Append

variable {options : List UInt8} {p : ℕ}

/-- The bytes of a list of options. -/
def optionsBytes (xs : List (UInt8 × List UInt8)) : List UInt8 := xs.flatMap optionBytes

theorem optionBytes_length (x : UInt8 × List UInt8) : (optionBytes x).length = 2 + x.2.length := by
  rw [optionBytes, List.length_cons, List.length_cons]
  omega

/-- Where an option stands, both walks pass over it. -/
theorem reaches_option (pads : Bool) {x : UInt8 × List UInt8} (hx : OptionOk x) {rest : List UInt8}
    (h : options.drop p = optionBytes x ++ rest) :
    Reaches pads options p (p + (optionBytes x).length) := by
  have hget : ∀ j, options[p + j]? = (optionBytes x ++ rest)[j]? := by
    intro j
    rw [← h, List.getElem?_drop]
  have hlen : (UInt8.ofNat x.2.length).toNat = x.2.length := by
    rw [UInt8.toNat_ofNat']
    exact Nat.mod_eq_of_lt (Nat.lt_succ_of_le hx.2.2)
  refine .skip (hget 0) (fun _ => hx.1) hx.2.1 (hget 1) ?_
  rw [hlen, optionBytes_length, Nat.add_assoc]
  exact .refl _

/-- The position of the first option with a code, in a list of options that starts at `p`. -/
def firstAt (optionCode : UInt8) : ℕ → List (UInt8 × List UInt8) → Option ℕ
  | _, [] => none
  | p, x :: xs =>
      if x.1 = optionCode then some p else firstAt optionCode (p + (optionBytes x).length) xs

/-- The reader finds the first option of the list with the code, as long as they are in the field
completely. -/
theorem getOptionLoop_options {xs : List (UInt8 × List UInt8)} (hxs : ∀ x ∈ xs, OptionOk x)
    {rest : List UInt8} (h : options.drop p = optionsBytes xs ++ rest)
    (hrest : rest.head? = some DHCP_OPT_END ∨ rest = []) (optionCode : UInt8) :
    getOptionLoop options optionCode p = some (firstAt optionCode p xs) := by
  induction xs generalizing p with
  | nil =>
      rw [show optionsBytes [] ++ rest = rest from rfl] at h
      rcases hrest with hend | hnil
      · refine getOptionLoop_end ?_ optionCode
        rw [← List.head?_drop, h, hend]
      · have hge : options.length ≤ p := List.drop_eq_nil_iff.1 (h.trans hnil)
        rw [getOptionLoop, dif_neg (Nat.not_lt_of_le hge), firstAt]
  | cons x xs ih =>
      have hx := hxs x (List.mem_cons_self ..)
      have hget : ∀ j, options[p + j]? = (optionBytes x ++ (optionsBytes xs ++ rest))[j]? := by
        intro j
        rw [← List.append_assoc, ← List.getElem?_drop, h]
        rfl
      have hnext : options.drop (p + (optionBytes x).length) = optionsBytes xs ++ rest := by
        rw [← List.drop_drop, h, show optionsBytes (x :: xs) ++ rest
          = optionBytes x ++ (optionsBytes xs ++ rest) from List.append_assoc .., List.drop_left]
      have hlen : (UInt8.ofNat x.2.length).toNat = x.2.length := by
        rw [UInt8.toNat_ofNat']
        exact Nat.mod_eq_of_lt (Nat.lt_succ_of_le hx.2.2)
      have hfit : p + 2 + x.2.length ≤ options.length := by
        have hle := congrArg List.length h
        rw [List.length_drop, show optionsBytes (x :: xs) = optionBytes x ++ optionsBytes xs from rfl,
          List.length_append, List.length_append, optionBytes_length] at hle
        omega
      have hskip := getOptionLoop_skip (hget 0) hx.1 hx.2.1 (hget 1) (by rw [hlen]; exact hfit)
        optionCode
      rw [hlen] at hskip
      refine hskip.trans ?_
      rw [firstAt]
      split
      · rfl
      · rw [optionBytes_length, ← Nat.add_assoc] at hnext ⊢
        exact ih (fun y hy => hxs y (List.mem_cons_of_mem _ hy)) hnext

/-- What is found is the first option with that code. -/
theorem firstAt_eq {xs : List (UInt8 × List UInt8)} {rest : List UInt8}
    (h : options.drop p = optionsBytes xs ++ rest) (optionCode : UInt8) :
    match xs.lookup optionCode with
    | none => firstAt optionCode p xs = none
    | some value => ∃ i, firstAt optionCode p xs = some i ∧
        optionBytes (optionCode, value) <+: options.drop i := by
  induction xs generalizing p with
  | nil => rfl
  | cons x xs ih =>
      have hcons : optionsBytes (x :: xs) ++ rest = optionBytes x ++ (optionsBytes xs ++ rest) :=
        List.append_assoc ..
      rw [hcons] at h
      obtain ⟨code, value⟩ := x
      rw [List.lookup_cons, firstAt]
      by_cases hcode : code = optionCode
      · subst hcode
        simp only [beq_self_eq_true, if_true]
        exact ⟨p, rfl, _, h.symm⟩
      · rw [if_neg hcode, show (optionCode == code) = false from
          beq_eq_false_iff_ne.2 (Ne.symm hcode)]
        exact ih (by rw [← List.drop_drop, h, List.drop_left])

/-- One option more, behind the options that are there. -/
theorem dhcpAddOption_eq (hwrite : Reaches false options 0 p)
    (hend : options[p]? = some DHCP_OPT_END) {x : UInt8 × List UInt8} (hx : OptionOk x)
    (hroom : p + (optionBytes x).length < options.length) :
    dhcpAddOption options x.1 x.2 =
      some (splice options p (optionBytes x ++ [DHCP_OPT_END])) := by
  rw [optionBytes_length] at hroom
  rw [dhcpAddOption, endOption_of_reaches hwrite hend]
  simp only [if_pos hx.2.2, if_pos (show p + 2 + x.2.length < options.length by omega)]
  rfl

/-- The end option is overwritten by what is appended next. -/
theorem splice_extend {ys zs : List UInt8} {e : UInt8} (hp : p + ys.length < options.length)
    (hzs : zs ≠ []) : splice (splice options p (ys ++ [e])) (p + ys.length) zs =
      splice options p (ys ++ zs) := by
  have hfront : (options.take p ++ ys).length = p + ys.length := by
    rw [List.length_append, List.length_take]
    omega
  have hpos := List.length_pos_iff.2 hzs
  have hone : splice options p (ys ++ [e])
      = (options.take p ++ ys) ++ ([e] ++ options.drop (p + ys.length + 1)) := by
    simp only [splice, List.length_append, List.length_singleton, List.append_assoc, Nat.add_assoc]
  have htake : (splice options p (ys ++ [e])).take (p + ys.length) = options.take p ++ ys := by
    rw [hone, ← hfront, List.take_left]
  have hdrop : (splice options p (ys ++ [e])).drop (p + ys.length + zs.length)
      = options.drop (p + (ys ++ zs).length) := by
    obtain ⟨n, hn⟩ := Nat.exists_eq_succ_of_ne_zero hpos.ne'
    rw [hone, ← List.drop_drop, ← hfront, List.drop_left, hn, List.singleton_append,
      List.drop_succ_cons, List.drop_drop, hfront, List.length_append, hn]
    congr 1
    omega
  rw [splice, htake, hdrop, splice, List.append_assoc (options.take p) ys zs]

/-- A list of options more. -/
theorem dhcpAddOptions_eq (hwrite : Reaches false options 0 p)
    (hend : options[p]? = some DHCP_OPT_END) {xs : List (UInt8 × List UInt8)}
    (hxs : ∀ x ∈ xs, OptionOk x) (hroom : p + (optionsBytes xs).length < options.length) :
    dhcpAddOptions options xs = some (splice options p (optionsBytes xs ++ [DHCP_OPT_END])) := by
  induction xs generalizing options p with
  | nil =>
      obtain ⟨hlt, hget⟩ := List.getElem?_eq_some_iff.1 hend
      have hsame : splice options p [DHCP_OPT_END] = options := by
        rw [splice, ← hget, List.append_assoc, List.singleton_append, List.length_singleton,
          List.getElem_cons_drop, List.take_append_drop]
      rw [dhcpAddOptions]
      exact congrArg some hsame.symm
  | cons x xs ih =>
      have hx := hxs x (List.mem_cons_self ..)
      have hcons : optionsBytes (x :: xs) = optionBytes x ++ optionsBytes xs := rfl
      rw [hcons, List.length_append] at hroom
      have hlt : p + (optionBytes x).length < options.length := by omega
      set next := splice options p (optionBytes x ++ [DHCP_OPT_END]) with hnext
      have hlength : next.length = options.length :=
        length_splice (by rw [List.length_append, List.length_singleton]; omega)
      have hp : p ≤ options.length := by omega
      have htake : next.take p = options.take p := take_splice hp _
      have hdrop : next.drop p = optionBytes x ++ ([DHCP_OPT_END] ++
          options.drop (p + (optionBytes x ++ [DHCP_OPT_END]).length)) := by
        rw [hnext, drop_splice hp, List.append_assoc]
      have hwrite' := (hwrite.congr htake).trans (reaches_option false hx hdrop)
      have hend' : next[p + (optionBytes x).length]? = some DHCP_OPT_END := by
        rw [← List.getElem?_drop, hdrop, List.getElem?_append_right (Nat.le_refl _), Nat.sub_self]
        rfl
      rw [dhcpAddOptions, dhcpAddOption_eq hwrite hend hx hlt]
      show dhcpAddOptions next xs = _
      rw [ih hwrite' hend' (fun y hy => hxs y (List.mem_cons_of_mem _ hy)) (by omega), hnext,
        splice_extend hlt (by simp), hcons, List.append_assoc]

end Append

/-! ## Round trip -/

/-- The reader ends, stays in the message, and an option that it returns lies inside the message. -/
theorem getOptionLoop_inside (options : List UInt8) (optionCode : UInt8) (i : ℕ) :
    ∃ found, getOptionLoop options optionCode i = some found ∧ ∀ j ∈ found,
      ∃ length : UInt8, options[j]? = some optionCode ∧ options[j + 1]? = some length ∧
        j + 2 + length.toNat ≤ options.length := by
  fun_induction getOptionLoop options optionCode i with
  | case1 i hi hnone => exact absurd (List.getElem?_eq_none_iff.1 hnone) (Nat.not_le_of_lt hi)
  | case2 i hi hpad ih => exact ih
  | case3 | case4 => exact ⟨none, rfl, by simp⟩
  | case5 i hi code hcode hpad hend hlen hnone =>
      exact absurd (List.getElem?_eq_none_iff.1 hnone) hlen
  | case6 => exact ⟨none, rfl, by simp⟩
  | case7 i hi hlen length hlength hfit hcode =>
      refine ⟨some i, rfl, fun j hj => ?_⟩
      obtain rfl := Option.mem_some.1 hj
      exact ⟨length, hcode, hlength, by omega⟩
  | case8 i hi code hcode hpad hend hlen length hlength hfit hne ih => exact ih
  | case9 => exact ⟨none, rfl, by simp⟩

/-- The value of the option at a position of the options field. -/
def valueAt (options : List UInt8) (i : ℕ) : List UInt8 :=
  (options.drop (i + 2)).take (options.getD (i + 1) 0).toNat

theorem getOptionFrom_drop (optionCode : UInt8) (skip : ℕ) (field : List UInt8) :
    getOptionFrom optionCode skip field = getOptionFrom optionCode 0 (field.drop skip) := by
  induction skip generalizing field with
  | zero => rfl
  | succ skip ih =>
      cases field with
      | nil => rw [List.drop_nil, getOptionFrom, getOptionFrom]
      | cons b field => rw [getOptionFrom, ih, List.drop_succ_cons]

/-- One round of the loop that skips bytes one by one. -/
theorem getOptionFrom_cons (optionCode code : UInt8) (rest : List UInt8) :
    getOptionFrom optionCode 0 (code :: rest) =
      if code = DHCP_OPT_PAD then getOptionFrom optionCode 0 rest
      else if code = DHCP_OPT_END then none
      else match rest with
        | [] => none
        | length :: value =>
            if value.length < length.toNat then none
            else if code = optionCode then some (value.take length.toNat)
            else getOptionFrom optionCode (1 + length.toNat) (length :: value) :=
  getOptionFrom.eq_def optionCode 0 (code :: rest)

/-- The value that the client works with is that of the option which is found. -/
theorem getOptionFrom_eq (options : List UInt8) (optionCode : UInt8) (i : ℕ) :
    ∃ found, getOptionLoop options optionCode i = some found ∧
      getOptionFrom optionCode 0 (options.drop i) = found.map (valueAt options) := by
  have hdrop : ∀ {j : ℕ} {b : UInt8}, options[j]? = some b →
      options.drop j = b :: options.drop (j + 1) := by
    intro j b hj
    obtain ⟨hlt, rfl⟩ := List.getElem?_eq_some_iff.1 hj
    exact List.drop_eq_getElem_cons hlt
  fun_induction getOptionLoop options optionCode i with
  | case1 i hi hnone => exact absurd (List.getElem?_eq_none_iff.1 hnone) (Nat.not_le_of_lt hi)
  | case2 i hi hpad ih =>
      rw [hdrop hpad, getOptionFrom_cons, if_pos rfl]
      exact ih
  | case3 i hi hend =>
      refine ⟨none, rfl, ?_⟩
      rw [hdrop hend, getOptionFrom_cons]
      rfl
  | case4 i hi code hcode hpad hend hlen =>
      refine ⟨none, rfl, ?_⟩
      rw [hdrop hcode, getOptionFrom_cons, if_neg hpad, if_neg hend, List.drop_eq_nil_of_le hlen]
      rfl
  | case5 i hi code hcode hpad hend hlen hnone =>
      exact absurd (List.getElem?_eq_none_iff.1 hnone) hlen
  | case6 i hi code hcode hpad hend hlen length hlength hfit =>
      refine ⟨none, rfl, ?_⟩
      rw [hdrop hcode, getOptionFrom_cons, if_neg hpad, if_neg hend, hdrop hlength]
      simp only
      rw [if_pos (by rw [List.length_drop]; omega)]
      rfl
  | case7 i hi hlen length hlength hfit hcode hpad hend =>
      refine ⟨some i, rfl, ?_⟩
      rw [hdrop hcode, getOptionFrom_cons, if_neg hpad, if_neg hend, hdrop hlength]
      simp only
      rw [if_neg (by rw [List.length_drop]; omega), if_pos trivial, Option.map_some, valueAt,
        List.getD_eq_getElem?_getD, hlength]
      rfl
  | case8 i hi code hcode hpad hend hlen length hlength hfit hne ih =>
      rw [hdrop hcode, getOptionFrom_cons, if_neg hpad, if_neg hend, hdrop hlength]
      simp only
      rw [if_neg (by rw [List.length_drop]; omega), if_neg hne, getOptionFrom_drop,
        ← hdrop hlength, List.drop_drop]
      have hnext : i + 1 + (1 + length.toNat) = i + 1 + length.toNat + 1 := by omega
      rw [hnext]
      exact ih
  | case9 i hi =>
      refine ⟨none, rfl, ?_⟩
      rw [List.drop_eq_nil_of_le (Nat.le_of_not_lt hi), getOptionFrom]
      rfl

theorem dhcpGetOptionAt_field {fixed : List UInt8} (hfixed : fixed.length = headerSize)
    (field : List UInt8) (optionCode : UInt8) :
    dhcpGetOptionAt (fixed ++ field) optionCode = getOptionLoop field optionCode 0 := by
  rw [dhcpGetOptionAt, if_neg (by rw [List.length_append]; omega), List.drop_left' hfixed]

theorem dhcpGetOption_eq (message : DhcpMessage) (fixed : List UInt8)
    (hfixed : fixed.length = headerSize) (optionCode : UInt8) :
    ∃ found, dhcpGetOptionAt (fixed ++ message.options) optionCode = some found ∧
      dhcpGetOption message optionCode = found.map (valueAt message.options) := by
  rw [dhcpGetOptionAt_field hfixed]
  exact getOptionFrom_eq message.options optionCode 0

/-- **Round trip of options.** Where the walks of the writer and of the reader get to the same end
option, a list of options is appended behind the options that are there, which stay as they are. In
a message of any length that takes in all of them, the reader finds what it found before, or else
the first option of the list with the code, and nothing if there is none. In any message it returns
only an option inside. -/
theorem dhcpOptions_roundTrip :
    (∀ (options : List UInt8) (p : ℕ) (xs : List (UInt8 × List UInt8)),
      Reaches true options 0 p → Reaches false options 0 p → options[p]? = some DHCP_OPT_END →
      (∀ x ∈ xs, OptionOk x) → p + (optionsBytes xs).length < options.length →
      ∃ options', dhcpAddOptions options xs = some options' ∧
        options'.length = options.length ∧ options'.take p = options.take p ∧
        ∀ length, p + (optionsBytes xs).length ≤ length → length ≤ options.length →
        ∀ fixed : List UInt8, fixed.length = headerSize → ∀ optionCode,
          (∀ i, dhcpGetOptionAt (fixed ++ options) optionCode = some (some i) →
            dhcpGetOptionAt (fixed ++ options'.take length) optionCode = some (some i)) ∧
          (dhcpGetOptionAt (fixed ++ options) optionCode = some none →
            match xs.lookup optionCode with
            | none => dhcpGetOptionAt (fixed ++ options'.take length) optionCode = some none
            | some value => ∃ i,
                dhcpGetOptionAt (fixed ++ options'.take length) optionCode = some (some i) ∧
                optionBytes (optionCode, value) <+: options'.drop i)) ∧
    ∀ (message : List UInt8) (optionCode : UInt8), ∃ found,
      dhcpGetOptionAt message optionCode = some found ∧ ∀ i ∈ found, ∃ length : UInt8,
        message[headerSize + i]? = some optionCode ∧
        message[headerSize + i + 1]? = some length ∧
        headerSize + i + 2 + length.toNat ≤ message.length := by
  constructor
  · intro options p xs hread hwrite hend hxs hroom
    have hp := (List.getElem?_eq_some_iff.1 hend).1.le
    set options' := splice options p (optionsBytes xs ++ [DHCP_OPT_END]) with hoptions'
    have hlength' : options'.length = options.length :=
      length_splice (by rw [List.length_append, List.length_singleton]; omega)
    have htake' : options'.take p = options.take p := take_splice hp _
    have hdrop' : options'.drop p = optionsBytes xs ++ ([DHCP_OPT_END] ++
        options.drop (p + (optionsBytes xs ++ [DHCP_OPT_END]).length)) := by
      rw [hoptions', drop_splice hp, List.append_assoc]
    refine ⟨options', dhcpAddOptions_eq hwrite hend hxs hroom, hlength', htake', ?_⟩
    intro length hlo hhi fixed hfixed optionCode
    rw [dhcpGetOptionAt_field hfixed, dhcpGetOptionAt_field hfixed]
    -- the field of the message that is searched, in front of `p` and from there on
    have hfield : (options'.take length).take p = options.take p := by
      rw [List.take_take, Nat.min_eq_left (by omega), htake']
    have hrest : ∃ rest, (options'.take length).drop p = optionsBytes xs ++ rest ∧
        (rest.head? = some DHCP_OPT_END ∨ rest = []) := by
      rw [List.drop_take, hdrop', List.take_append, List.take_of_length_le (by omega)]
      refine ⟨_, rfl, ?_⟩
      cases hn : length - p - (optionsBytes xs).length with
      | zero => exact Or.inr rfl
      | succ n => exact Or.inl rfl
    obtain ⟨rest, hdrop, hhead⟩ := hrest
    have hbefore := getOptionLoop_of_reaches hread hp optionCode
    have hafter := getOptionLoop_of_reaches (hread.congr hfield)
      (by rw [List.length_take]; omega) optionCode
    rw [hfield, getOptionLoop_options hxs hdrop hhead] at hafter
    rw [getOptionLoop_end hend] at hbefore
    have hfirst := firstAt_eq hdrop' optionCode
    constructor
    · intro i hi
      rw [hbefore] at hi
      split at hi
      case h_1 j hj =>
        cases hi
        rw [hafter, hj]
      case h_2 => cases hi
    · intro hnone
      rw [hbefore] at hnone
      have hafter' : getOptionLoop (options'.take length) optionCode 0
          = some (firstAt optionCode p xs) := by
        split at hnone
        case h_1 => cases hnone
        case h_2 hno =>
          rw [hafter]
          split
          case h_1 j hj => exact absurd hj (hno j)
          case h_2 => rfl
      rw [hafter']
      split at hfirst
      case h_1 => exact congrArg some hfirst
      case h_2 =>
        obtain ⟨i, hi, hprefix⟩ := hfirst
        exact ⟨i, congrArg some hi, hprefix⟩
  · intro message optionCode
    unfold dhcpGetOptionAt
    split
    case isTrue => exact ⟨none, rfl, by simp⟩
    case isFalse hlong =>
      obtain ⟨found, hfound, hinside⟩ := getOptionLoop_inside (message.drop headerSize) optionCode 0
      refine ⟨found, hfound, fun i hi => ?_⟩
      obtain ⟨length, hcode, hlength, hfit⟩ := hinside i hi
      rw [List.getElem?_drop] at hcode hlength
      rw [List.length_drop] at hfit
      exact ⟨length, hcode, by rw [Nat.add_assoc]; exact hlength, by omega⟩

/-- An options field with a message type, and room behind it. -/
def offerOptions : List UInt8 := [53, 1, 2, 255, 0, 0, 0, 0, 0, 0]

/-- Two options with the same code are appended, and the message ends with the second one. -/
theorem dhcpOptions_roundTrip_twice :
    ∃ options', dhcpAddOptions offerOptions [(80, []), (80, [7])] = some options' ∧
      options'.length = 10 ∧ options'.take 3 = [53, 1, 2] ∧
      ∀ length, 8 ≤ length → length ≤ 10 → ∀ fixed : List UInt8, fixed.length = headerSize →
        ∀ optionCode,
          (∀ i, dhcpGetOptionAt (fixed ++ offerOptions) optionCode = some (some i) →
            dhcpGetOptionAt (fixed ++ options'.take length) optionCode = some (some i)) ∧
          (dhcpGetOptionAt (fixed ++ offerOptions) optionCode = some none →
            match List.lookup optionCode [((80 : UInt8), ([] : List UInt8)), (80, [7])] with
            | none => dhcpGetOptionAt (fixed ++ options'.take length) optionCode = some none
            | some value => ∃ i,
                dhcpGetOptionAt (fixed ++ options'.take length) optionCode = some (some i) ∧
                optionBytes (optionCode, value) <+: options'.drop i) := by
  have hwalk : ∀ pads, Reaches pads offerOptions 0 3 := fun pads =>
    .skip rfl (fun _ => by decide) (by decide) rfl (.refl 3)
  refine dhcpOptions_roundTrip.1 offerOptions 3 [(80, []), (80, [7])] (hwalk true) (hwalk false) rfl
    ?_ (by decide)
  intro x hx
  rcases List.mem_pair.1 hx with rfl | rfl <;> exact ⟨by decide, by decide, by decide⟩

/-- An option that is there already comes before one that is appended, and is found although it has
not been appended. -/
theorem dhcpOptions_shadowed :
    ¬ ∀ (options : List UInt8) (p : ℕ) (xs : List (UInt8 × List UInt8)),
      Reaches true options 0 p → options[p]? = some DHCP_OPT_END → (∀ x ∈ xs, OptionOk x) →
      p + (optionsBytes xs).length < options.length →
      ∃ options', dhcpAddOptions options xs = some options' ∧
        options'.take p = options.take p ∧
        ∀ length, p + (optionsBytes xs).length < length → length ≤ options.length →
        ∀ fixed : List UInt8, fixed.length = headerSize → ∀ optionCode,
          match xs.lookup optionCode with
          | none => dhcpGetOptionAt (fixed ++ options'.take length) optionCode = some none
          | some value => ∃ i,
              dhcpGetOptionAt (fixed ++ options'.take length) optionCode = some (some i) ∧
              optionBytes (optionCode, value) <+: options'.drop i := by
  intro h
  obtain ⟨options', hadd, -, hget⟩ := h offerOptions 3 []
    (.skip rfl (fun _ => by decide) (by decide) rfl (.refl 3)) rfl (by simp) (by decide)
  obtain rfl : offerOptions = options' := Option.some.inj hadd
  have hnone := hget 4 (by decide) (by decide) (List.replicate headerSize 0)
    (List.length_replicate ..) 53
  have hfound := getOptionLoop_skip (show (offerOptions.take 4)[0]? = some 53 from rfl)
    (by decide) (by decide) rfl (by decide) 53
  rw [List.lookup_nil, dhcpGetOptionAt_field (List.length_replicate ..), hfound] at hnone
  exact absurd hnone (by decide)

/-- The writer walks past the end option behind a pad option. -/
example : dhcpAddOption [0, 255, 0, 0, 0, 0] 53 [1] = none := by
  simp [dhcpAddOption, endOption, DHCP_OPT_END]

end Dhcp
