import CycloneTcp.Dns.NameParse

set_option autoImplicit false

/-! # Encoding names and reading them back

The encoder takes labels of 1 to 63 characters, and so does the comparer. The decoder refuses a
label of 63 characters. -/

namespace Dns

open CString

/-! ## Labels -/

section Labels

variable {label rest text : List UInt8}

theorem labels_last (h : separator ∉ label) : labels label = [label] := List.splitOn_eq_singleton h

theorem labels_cons (h : separator ∉ label) :
    labels (label ++ separator :: rest) = label :: labels rest :=
  List.splitOn_append_cons_self_of_not_mem h rest

/-- A text is one label, or a label in front of a separator and a text. -/
theorem text_cases (text : List UInt8) : separator ∉ text ∨
    ∃ label rest, separator ∉ label ∧ text = label ++ separator :: rest := by
  by_cases h : separator ∈ text
  · obtain ⟨label, rest, htext, hlabel⟩ := List.eq_append_cons_of_mem h
    exact .inr ⟨label, rest, hlabel, htext⟩
  · exact .inl h

/-- Induction over the labels of a text. -/
theorem text_induction {P : List UInt8 → Prop} (last : ∀ label, separator ∉ label → P label)
    (cons : ∀ label rest, separator ∉ label → P rest → P (label ++ separator :: rest))
    (text : List UInt8) : P text := by
  induction hn : text.length using Nat.strong_induction_on generalizing text with
  | _ n ih =>
      subst hn
      rcases text_cases text with h | ⟨label, rest, h, rfl⟩
      · exact last text h
      · exact cons label rest h (ih rest.length (by simp; omega) rest rfl)

theorem labels_ne_nil (text : List UInt8) : labels text ≠ [] := List.splitOn_ne_nil _ _

end Labels

/-! ## The encoder -/

section Encode

variable {mem : Memory UInt8} {dest : Option ℕ} {label rest : List UInt8} {i length : ℕ}

theorem store_store (mem : Memory UInt8) (dest : Option ℕ) (k : ℕ) (a b : List UInt8) :
    store (store mem dest k a) dest (k + a.length) b = store mem dest k (a ++ b) := by
  cases dest with
  | none => rfl
  | some dest =>
      show (mem.write (dest + k) a).write (dest + (k + a.length)) b = _
      rw [← Nat.add_assoc, Memory.write_write_append]
      rfl

theorem store_map (mem : Memory UInt8) (dest : Option ℕ) (k : ℕ) (a : List UInt8) :
    store mem (dest.map (· + k)) 0 a = store mem dest k a := by cases dest <;> rfl

/-- The length of a label is stored last. -/
theorem store_labelBytes (mem : Memory UInt8) (dest : Option ℕ) (label : List UInt8) :
    store (store mem dest 1 label) dest 0 [UInt8.ofNat label.length] =
      store mem dest 0 (labelBytes label) := by
  cases dest with
  | none => rfl
  | some dest =>
      show (mem.write (dest + 1) label).write dest [_] = mem.write dest (_ :: label)
      funext a
      rcases lt_trichotomy a dest with h | rfl | h
      · rw [Memory.write_of_lt _ _ h, Memory.write_of_lt _ _ (by omega), Memory.write_of_lt _ _ h]
      · exact (Memory.write_add _ a [_] (k := 0) (Nat.zero_lt_succ _)).trans
          (Memory.write_add _ a (_ :: label) (k := 0) (Nat.zero_lt_succ _)).symm
      · rw [Memory.write_of_ge _ _ (by simpa using h), Memory.write_cons]
        by_cases hle : dest + 1 + label.length ≤ a
        · rw [Memory.write_of_ge _ _ hle, Memory.write_of_ge _ _ hle,
            Function.update_of_ne (by omega)]
        · obtain ⟨k, rfl⟩ : ∃ k, a = dest + 1 + k := ⟨a - (dest + 1), by omega⟩
          rw [Memory.write_add _ _ _ (by omega), Memory.write_add _ _ _ (by omega)]

/-- The characters of a label are copied one by one. -/
theorem encodeLoop_label (mem : Memory UInt8) (dest : Option ℕ) (rest : List UInt8) (length : ℕ)
    (hsep : separator ∉ label) (hi : i ≤ label.length) :
    encodeLoop (store mem dest 1 (label.take i)) (label ++ rest) dest i length =
      encodeLoop (store mem dest 1 label) (label ++ rest) dest label.length length := by
  induction hk : label.length - i generalizing i with
  | zero =>
      obtain rfl : i = label.length := by omega
      rw [List.take_length]
  | succ k ih =>
      have hlt : i < label.length := by omega
      have hlen : i < (label ++ rest).length := by rw [List.length_append]; omega
      have hget : (label ++ rest)[i] = label[i] := List.getElem_append_left hlt
      have hne : label[i] ≠ separator := fun h => hsep (h ▸ List.getElem_mem hlt)
      have hstore : store (store mem dest 1 (label.take i)) dest (i + 1) [label[i]] =
          store mem dest 1 (label.take (i + 1)) := by
        have := store_store mem dest 1 (label.take i) [label[i]]
        rwa [List.length_take_of_le hi, Nat.add_comm 1 i, ← List.take_succ_eq_append_getElem hlt]
          at this
      rw [encodeLoop, dif_pos hlen]
      simp only [hget]
      rw [if_neg hne, hstore]
      exact ih hlt (by omega)

/-- The check of a label, as the encoder makes it. -/
theorem LabelOk.lengths (h : LabelOk label) :
    ¬ (label.length < 1 ∨ DNS_LABEL_MAX_SIZE < label.length) := by
  obtain ⟨h1, h63⟩ := h
  omega

theorem not_labelOk (h : ¬ LabelOk label) : label.length < 1 ∨ DNS_LABEL_MAX_SIZE < label.length := by
  have hnot : ¬ (1 ≤ label.length ∧ label.length ≤ DNS_LABEL_MAX_SIZE) := h
  omega

/-- A label that is followed by a separator. -/
theorem encodeLoop_separator (hsep : separator ∉ label) :
    encodeLoop mem (label ++ separator :: rest) dest 0 length =
      if LabelOk label then
        encodeLoop (store mem dest 0 (labelBytes label)) rest (dest.map (· + (label.length + 1))) 0
          (length + (label.length + 1))
      else (0, store mem dest 1 label) := by
  have hstart := encodeLoop_label mem dest (separator :: rest) length hsep (Nat.zero_le _)
  have hnil : store mem dest 1 (label.take 0) = mem := by cases dest <;> simp [store]
  rw [hnil] at hstart
  have hlt : label.length < (label ++ separator :: rest).length := by simp
  have hget : (label ++ separator :: rest)[label.length] = separator := by simp
  have hdrop : (label ++ separator :: rest).drop (label.length + 1) = rest := by simp
  rw [hstart, encodeLoop, dif_pos hlt, if_pos hget, hdrop, store_labelBytes]
  by_cases hok : LabelOk label
  · rw [if_pos hok, if_neg hok.lengths]
  · rw [if_neg hok, if_pos (not_labelOk hok)]

/-- The last label. -/
theorem encodeLoop_last (hsep : separator ∉ label) :
    encodeLoop mem label dest 0 length =
      if LabelOk label then
        (length + (label.length + 2), store mem dest 0 (encoding [label]))
      else (0, store mem dest 1 label) := by
  have hstart := encodeLoop_label mem dest [] length hsep (Nat.zero_le _)
  have hnil : store mem dest 1 (label.take 0) = mem := by cases dest <;> simp [store]
  have hend : store (store mem dest 0 (labelBytes label)) dest (label.length + 1) [0] =
      store mem dest 0 (encoding [label]) := by
    have := store_store mem dest 0 (labelBytes label) [0]
    rw [labelBytes_length, Nat.zero_add] at this
    rw [this, encoding, List.flatMap_singleton]
  rw [hnil, List.append_nil] at hstart
  rw [hstart, encodeLoop, dif_neg (lt_irrefl _), store_labelBytes, hend]
  by_cases hok : LabelOk label
  · rw [if_pos hok, if_neg hok.lengths]
  · rw [if_neg hok, if_pos (not_labelOk hok)]

/-- **The encoder takes the names whose labels have 1 to 63 characters.** -/
theorem encodeLoop_of_labelOk {text : List UInt8} (h : ∀ l ∈ labels text, LabelOk l) :
    encodeLoop mem text dest 0 length = (length + (encoding (labels text)).length,
      store mem dest 0 (encoding (labels text))) := by
  induction text using text_induction generalizing mem dest length with
  | last label hsep =>
      rw [labels_last hsep] at h ⊢
      rw [encodeLoop_last hsep, if_pos (h label List.mem_cons_self)]
      simp [encoding, labelBytes_length]
  | cons label rest hsep ih =>
      rw [labels_cons hsep] at h ⊢
      rw [encodeLoop_separator hsep, if_pos (h label List.mem_cons_self),
        ih fun l hl => h l (List.mem_cons_of_mem _ hl), encoding_cons, store_map]
      have := store_store mem dest 0 (labelBytes label) (encoding (labels rest))
      rw [labelBytes_length, Nat.zero_add] at this
      rw [this, List.length_append, labelBytes_length, Nat.add_assoc]

theorem encodeLoop_of_not_labelOk {text : List UInt8} (h : ¬ ∀ l ∈ labels text, LabelOk l) :
    (encodeLoop mem text dest 0 length).1 = 0 := by
  induction text using text_induction generalizing mem dest length with
  | last label hsep =>
      rw [labels_last hsep] at h
      rw [encodeLoop_last hsep, if_neg fun hok => h (by simpa using hok)]
  | cons label rest hsep ih =>
      rw [labels_cons hsep] at h
      rw [encodeLoop_separator hsep]
      split_ifs with hok
      · refine ih fun hrest => h fun l hl => ?_
        rcases List.mem_cons.1 hl with rfl | hl
        · exact hok
        · exact hrest l hl
      · rfl

end Encode

/-! ## Reading an encoding -/

section Read

variable {message label rest : List UInt8} {pos : ℕ} {c : UInt8}

theorem LabelOk.toNat_length (h : LabelOk label) :
    (UInt8.ofNat label.length).toNat = label.length := by
  have h63 : label.length ≤ 63 := h.2
  rw [UInt8.toNat_ofNat', Nat.mod_eq_of_lt (by omega)]

theorem LabelOk.ne_zero (h : LabelOk label) : UInt8.ofNat label.length ≠ 0 := by
  intro heq
  have := h.toNat_length
  rw [heq] at this
  have hpos : 1 ≤ label.length := h.1
  rw [← this] at hpos
  exact absurd hpos (by decide)

theorem LabelOk.not_tag (h : LabelOk label) :
    ¬ DNS_COMPRESSION_TAG ≤ UInt8.ofNat label.length := by
  rw [UInt8.le_iff_toNat_le, h.toNat_length]
  show ¬ 192 ≤ label.length
  have h63 : label.length ≤ 63 := h.2
  omega

/-- What stands in the message where a label is encoded. -/
theorem at_label (h : At message pos (labelBytes label ++ c :: rest)) :
    message[pos]? = some (UInt8.ofNat label.length) ∧
      (message.drop (pos + 1)).take label.length = label ∧
      message[pos + 1 + label.length]? = some c ∧
      At message (pos + 1 + label.length) (c :: rest) := by
  obtain ⟨hhead, htail⟩ := at_cons.1 h
  obtain ⟨hlabel, hrest⟩ := at_append.1 htail
  exact ⟨hhead, hlabel.take, hrest.head, hrest⟩

section Parse

variable {next : ℕ → Option (List UInt8) → Option (ℕ × Option (List UInt8))}
  {dest : Option (List UInt8)}

theorem parseLoop_end (h : At message pos (0 :: rest)) :
    parseLoop message next pos dest = some (pos + 1, dest.map (· ++ [0])) := by
  have hget := h.head
  rw [parseLoop, dif_pos (lt_of_getElem? hget), hget]
  exact if_pos rfl

/-- The decoder goes over a label of 1 to 62 characters. -/
theorem parseLoop_label (h : At message pos (labelBytes label ++ c :: rest)) (hok : LabelOk label)
    (hlt : label.length < DNS_LABEL_MAX_SIZE) : parseLoop message next pos dest =
      parseLoop message next (pos + 1 + label.length)
        (dest.map (· ++ (label ++ if c ≠ 0 then [separator] else []))) := by
  obtain ⟨hget, hlabel, hc, -⟩ := at_label h
  have hmore := lt_of_getElem? hc
  conv_lhs => rw [parseLoop, dif_pos (lt_of_getElem? hget), hget]
  dsimp only
  rw [if_neg hok.ne_zero, if_neg hok.not_tag, hok.toNat_length, if_pos hlt,
    if_neg (Nat.not_lt.2 hmore.le)]
  cases dest with
  | none => rfl
  | some dest =>
      rw [readBytes_of_le hmore.le, hlabel]
      dsimp only
      rw [if_pos hmore, hc]
      dsimp only
      rw [List.append_assoc]
      rfl

/-- The decoder refuses a label of 63 characters. -/
theorem parseLoop_long (h : At message pos (labelBytes label ++ c :: rest)) (hok : LabelOk label)
    (hlen : label.length = DNS_LABEL_MAX_SIZE) :
    parseLoop message next pos dest = some (0, dest.map (· ++ [0])) := by
  obtain ⟨hget, -, -, -⟩ := at_label h
  rw [parseLoop, dif_pos (lt_of_getElem? hget), hget]
  dsimp only
  rw [if_neg hok.ne_zero, if_neg hok.not_tag, hok.toNat_length, if_neg (by omega)]

/-- Behind the encoding of the last label stands NUL, behind another one the length of a label. -/
theorem encoding_head {ls : List (List UInt8)} (h : ∀ l ∈ ls, LabelOk l) :
    ∃ c rest, encoding ls = c :: rest ∧ (c = 0 ↔ ls = []) := by
  cases ls with
  | nil => exact ⟨0, [], rfl, iff_of_true rfl rfl⟩
  | cons label ls =>
      rw [encoding_cons]
      exact ⟨_, _, rfl, iff_of_false (h label List.mem_cons_self).ne_zero (List.cons_ne_nil _ _)⟩

/-- The decoder writes the text that was encoded. -/
theorem parseLoop_encoding {text : List UInt8} (hok : ∀ l ∈ labels text, LabelOk l)
    (hlt : ∀ l ∈ labels text, l.length ≠ DNS_LABEL_MAX_SIZE)
    (h : At message pos (encoding (labels text))) : parseLoop message next pos dest =
      some (pos + (encoding (labels text)).length, dest.map (· ++ (text ++ [0]))) := by
  induction text using text_induction generalizing pos dest with
  | last label hsep =>
      rw [labels_last hsep] at hok hlt h ⊢
      have hlabel := hok label List.mem_cons_self
      rw [encoding_cons, encoding_nil] at h ⊢
      rw [parseLoop_label h hlabel (lt_of_le_of_ne hlabel.2 (hlt label List.mem_cons_self)),
        parseLoop_end (at_label h).2.2.2, if_neg (not_not.2 rfl), List.append_nil,
        List.length_append, labelBytes_length]
      cases dest with
      | none => exact congrArg (fun p => some (p, none)) (by simp; omega)
      | some dest =>
          simp only [Option.map_some, List.append_assoc, List.length_singleton]
          exact congrArg (fun p => some (p, some (dest ++ (label ++ [0])))) (by omega)
  | cons label text hsep ih =>
      rw [labels_cons hsep] at hok hlt h ⊢
      have hlabel := hok label List.mem_cons_self
      have hrest : ∀ l ∈ labels text, LabelOk l := fun l hl => hok l (List.mem_cons_of_mem _ hl)
      obtain ⟨c, bytes, hbytes, hc⟩ := encoding_head hrest
      have hc0 : c ≠ 0 := fun h0 => labels_ne_nil text (hc.1 h0)
      rw [encoding_cons] at h ⊢
      have hat := (at_append.1 h).2
      rw [labelBytes_length, ← Nat.add_assoc, Nat.add_right_comm] at hat
      rw [hbytes] at h
      rw [parseLoop_label h hlabel (lt_of_le_of_ne hlabel.2 (hlt label List.mem_cons_self)),
        if_pos hc0, ih hrest (fun l hl => hlt l (List.mem_cons_of_mem _ hl)) hat,
        List.length_append, labelBytes_length]
      cases dest with
      | none => exact congrArg (fun p => some (p, none)) (by omega)
      | some dest =>
          simp only [Option.map_some, List.append_assoc, List.singleton_append]
          exact congrArg (fun p => some (p, some _)) (by omega)

/-- The decoder refuses a name with a label of 63 characters. -/
theorem parseLoop_encoding_long {ls : List (List UInt8)} (hok : ∀ l ∈ ls, LabelOk l)
    (hlong : ∃ l ∈ ls, l.length = DNS_LABEL_MAX_SIZE) (h : At message pos (encoding ls)) :
    ∃ out, parseLoop message next pos dest = some (0, out) := by
  induction ls generalizing pos dest with
  | nil =>
      obtain ⟨l, hl, -⟩ := hlong
      cases hl
  | cons label ls ih =>
      have hlabel := hok label List.mem_cons_self
      have hrest : ∀ l ∈ ls, LabelOk l := fun l hl => hok l (List.mem_cons_of_mem _ hl)
      obtain ⟨c, bytes, hbytes, -⟩ := encoding_head hrest
      rw [encoding_cons] at h
      have hat := (at_append.1 h).2
      rw [labelBytes_length, ← Nat.add_assoc, Nat.add_right_comm] at hat
      rw [hbytes] at h
      by_cases h63 : label.length = DNS_LABEL_MAX_SIZE
      · exact ⟨_, parseLoop_long h hlabel h63⟩
      · rw [parseLoop_label h hlabel (lt_of_le_of_ne hlabel.2 h63)]
        refine ih hrest ?_ hat
        obtain ⟨l, hl, hlen⟩ := hlong
        rcases List.mem_cons.1 hl with rfl | hl
        · exact absurd hlen h63
        · exact ⟨l, hl, hlen⟩

end Parse

section Compare

variable {next : ℕ → List UInt8 → Option ℤ} {name more : List UInt8} {d : UInt8}

theorem compareLoop_end (h : At message pos (0 :: rest)) :
    compareLoop message next pos (d :: more) = if d ≠ 0 then some (-1) else some 0 := by
  have hget := h.head
  rw [compareLoop, dif_pos (lt_of_getElem? hget), hget]
  exact if_pos rfl

/-- The comparer goes over a label that the name has, up to case. -/
theorem compareLoop_label (h : At message pos (labelBytes label ++ c :: rest)) (hok : LabelOk label)
    (hfold : EqFold label name) (hnul : 0 ∉ label) :
    compareLoop message next pos (name ++ d :: more) =
      if d ≠ 0 ∧ d ≠ separator then some (-1)
      else compareLoop message next (pos + 1 + label.length)
        (if d = separator then more else d :: more) := by
  obtain ⟨hget, -, hc, -⟩ := at_label h
  have hmore := lt_of_getElem? hc
  obtain ⟨tail, htail⟩ := (at_append.1 (at_cons.1 h).2).1
  have hdrop : (name ++ d :: more).drop label.length = d :: more := by
    rw [hfold.length_eq, List.drop_left]
  conv_lhs => rw [compareLoop.eq_def, dif_pos (lt_of_getElem? hget), hget]
  dsimp only
  rw [if_neg hok.ne_zero, if_neg hok.not_tag, hok.toNat_length, if_neg (Nat.not_lt.2 hmore.le),
    ← htail, strncasecmp_eqFold hfold hnul]
  dsimp only
  rw [if_neg (not_not.2 rfl), hdrop]

/-- The comparer finds the text that was encoded, in upper and lower case. -/
theorem compareLoop_encoding {text : List UInt8} (hok : ∀ l ∈ labels text, LabelOk l)
    (hfold : EqFold text name) (hnul : 0 ∉ text) (h : At message pos (encoding (labels text))) :
    compareLoop message next pos (name ++ [0]) = some 0 := by
  induction text using text_induction generalizing pos name with
  | last label hsep =>
      rw [labels_last hsep] at hok h
      rw [encoding_cons, encoding_nil] at h
      rw [compareLoop_label h (hok label List.mem_cons_self) hfold hnul, if_neg (by decide),
        if_neg (by decide), compareLoop_end (at_label h).2.2.2, if_neg (by decide)]
  | cons label text hsep ih =>
      rw [labels_cons hsep] at hok h
      have hrest : ∀ l ∈ labels text, LabelOk l := fun l hl => hok l (List.mem_cons_of_mem _ hl)
      obtain ⟨c, bytes, hbytes, -⟩ := encoding_head hrest
      obtain ⟨l, d, name, rfl, hl, hd, hname⟩ := hfold.split
      obtain rfl : d = separator := toLower_eq_dot.1 hd.symm
      rw [encoding_cons] at h
      have hat := (at_append.1 h).2
      rw [labelBytes_length, ← Nat.add_assoc, Nat.add_right_comm] at hat
      rw [hbytes] at h
      rw [List.append_assoc, List.cons_append, compareLoop_label h (hok label List.mem_cons_self) hl
        fun hmem => hnul (List.mem_append_left _ hmem), if_neg (by decide), if_pos rfl]
      exact ih hrest hname (fun hmem => hnul (List.mem_append_right _ (List.mem_cons_of_mem _ hmem)))
        hat

end Compare

end Read

/-! ## The round trip -/

/-- What encoding a name is for: the encoding has the length returned, whether it is stored or not,
and wherever it stands in a message, the name is read back from it and compares as equal. -/
structure RoundTrip (s : List UInt8) : Prop where
  measured : ∀ mem dest, (dnsEncodeName mem s (some dest)).1 = (dnsEncodeName mem s none).1
  confined : ∀ mem dest a, (dnsEncodeName mem s (some dest)).1 ≠ 0 →
    (a < dest ∨ dest + (dnsEncodeName mem s none).1 ≤ a) →
    (dnsEncodeName mem s (some dest)).2 a = mem a
  determined : ∀ mem mem' dest dest', (dnsEncodeName mem s (some dest)).1 ≠ 0 →
    (dnsEncodeName mem s (some dest)).2.read dest (dnsEncodeName mem s none).1 =
      (dnsEncodeName mem' s (some dest')).2.read dest' (dnsEncodeName mem' s none).1
  rejects : ∀ mem dest, (∃ l ∈ labels s, l = [] ∨ DNS_LABEL_MAX_SIZE < l.length) →
    (dnsEncodeName mem s dest).1 = 0
  decodes : ∀ mem dest n message pos out, (dnsEncodeName mem s (some dest)).1 = n → n ≠ 0 →
    At message pos ((dnsEncodeName mem s (some dest)).2.read dest n) →
    dnsParseName message pos out 0 = some (pos + n, out.map (· ++ (s ++ [0])))
  compares : ∀ mem dest n message pos name, (dnsEncodeName mem s (some dest)).1 = n → n ≠ 0 →
    At message pos ((dnsEncodeName mem s (some dest)).2.read dest n) → EqFold s name →
    dnsCompareName message pos (name ++ [0]) 0 = some 0

section RoundTrip

variable {s : List UInt8}

theorem dnsEncodeName_of_labelOk (mem : Memory UInt8) (dest : Option ℕ)
    (h : ∀ l ∈ labels s, LabelOk l) : dnsEncodeName mem s dest =
      ((encoding (labels s)).length, store mem dest 0 (encoding (labels s))) := by
  rw [dnsEncodeName, encodeLoop_of_labelOk h, Nat.zero_add]

theorem encoding_length_ne_zero (ls : List (List UInt8)) : (encoding ls).length ≠ 0 := by
  rw [encoding, List.length_append, List.length_singleton]
  omega

/-- The encoding that has been stored. -/
theorem dnsEncodeName_read (mem : Memory UInt8) (dest : ℕ) (h : ∀ l ∈ labels s, LabelOk l) :
    (dnsEncodeName mem s (some dest)).2.read dest (encoding (labels s)).length =
      encoding (labels s) := by
  rw [dnsEncodeName_of_labelOk mem (some dest) h]
  exact Memory.read_write_self mem dest _

theorem not_labelOk_iff : (∃ l ∈ labels s, l = [] ∨ DNS_LABEL_MAX_SIZE < l.length) ↔
    ¬ ∀ l ∈ labels s, LabelOk l := by
  push Not
  refine exists_congr fun l => and_congr_right fun _ => ?_
  constructor
  · rintro (rfl | hlt) hok
    · exact absurd hok.1 (by decide)
    · exact absurd hok.2 (Nat.not_le.2 hlt)
  · intro h
    rcases not_labelOk h with h | h
    · exact .inl (List.length_eq_zero_iff.1 (by omega))
    · exact .inr h

theorem roundTrip_of_not_labelOk (h : ¬ ∀ l ∈ labels s, LabelOk l) : RoundTrip s := by
  have hzero : ∀ mem dest, (dnsEncodeName mem s dest).1 = 0 := fun mem dest =>
    encodeLoop_of_not_labelOk h
  constructor
  · intro mem dest
    rw [hzero, hzero]
  · exact fun mem dest a hn => absurd (hzero _ _) hn
  · exact fun mem mem' dest dest' hn => absurd (hzero _ _) hn
  · exact fun mem dest _ => hzero mem dest
  · exact fun mem dest n message pos out hn h0 => absurd (hn.symm.trans (hzero _ _)) h0
  · exact fun mem dest n message pos name hn h0 => absurd (hn.symm.trans (hzero _ _)) h0

theorem roundTrip_of_labelOk (hs : 0 ∉ s) (h : ∀ l ∈ labels s, LabelOk l)
    (hlt : ∀ l ∈ labels s, l.length ≠ DNS_LABEL_MAX_SIZE) : RoundTrip s := by
  have heq : ∀ mem dest, (dnsEncodeName mem s dest).1 = (encoding (labels s)).length :=
    fun mem dest => by rw [dnsEncodeName_of_labelOk mem dest h]
  constructor
  · intro mem dest
    rw [heq, heq]
  · intro mem dest a _ ha
    rw [heq] at ha
    rw [dnsEncodeName_of_labelOk mem (some dest) h]
    rcases ha with ha | ha
    · exact Memory.write_of_lt _ _ ha
    · exact Memory.write_of_ge _ _ ha
  · intro mem mem' dest dest' _
    rw [heq, heq, dnsEncodeName_read mem dest h, dnsEncodeName_read mem' dest' h]
  · exact fun mem dest hex => absurd h (not_labelOk_iff.1 hex)
  · intro mem dest n message pos out hn _ hat
    obtain rfl := (heq mem (some dest)).symm.trans hn
    rw [dnsEncodeName_read mem dest h] at hat
    exact parseLoop_encoding h hlt hat
  · intro mem dest n message pos name hn _ hat hfold
    obtain rfl := (heq mem (some dest)).symm.trans hn
    rw [dnsEncodeName_read mem dest h] at hat
    exact compareLoop_encoding h hfold hs hat

/-- A label of 63 characters is encoded, but cannot be read back. -/
theorem not_roundTrip_of_long (h : ∀ l ∈ labels s, LabelOk l)
    (hlong : ∃ l ∈ labels s, l.length = DNS_LABEL_MAX_SIZE) : ¬ RoundTrip s := by
  intro hround
  have hread := dnsEncodeName_read (fun _ => 0) 0 h
  have hlen : (dnsEncodeName (fun _ => 0) s (some 0)).1 = (encoding (labels s)).length := by
    rw [dnsEncodeName_of_labelOk _ _ h]
  have hat : At (encoding (labels s)) 0 (encoding (labels s)) := List.prefix_refl _
  have hparse := hround.decodes _ 0 _ (encoding (labels s)) 0 none hlen
    (encoding_length_ne_zero _) (by rwa [hread])
  obtain ⟨out, hfail⟩ : ∃ out, parseLoop (encoding (labels s))
      (parseName (encoding (labels s)) 3) 0 none = some (0, out) := parseLoop_encoding_long h hlong hat
  have hsame : dnsParseName (encoding (labels s)) 0 none 0 = some (0, out) := hfail
  rw [hsame, Nat.zero_add] at hparse
  exact encoding_length_ne_zero (labels s) (Prod.mk.inj (Option.some.inj hparse)).1.symm

/-- **A name survives the round trip unless it may be encoded and has a label of 63 characters.** -/
theorem dnsEncodeName_roundTrip_iff (hs : 0 ∉ s) : RoundTrip s ↔
    ((∀ l ∈ labels s, LabelOk l) → ∀ l ∈ labels s, l.length ≠ DNS_LABEL_MAX_SIZE) := by
  constructor
  · intro hround h l hl hlen
    exact not_roundTrip_of_long h ⟨l, hl, hlen⟩ hround
  · intro h
    by_cases hok : ∀ l ∈ labels s, LabelOk l
    · exact roundTrip_of_labelOk hs hok (h hok)
    · exact roundTrip_of_not_labelOk hok

end RoundTrip

/-- The name "a.bc". -/
theorem roundTrip_short : RoundTrip [97, 46, 98, 99] :=
  (dnsEncodeName_roundTrip_iff (by decide)).2 fun _ => by decide

/-- A label of 63 times 'a'. -/
theorem not_roundTrip_63 : ¬ RoundTrip (List.replicate 63 97) := by
  have hlabels : labels (List.replicate 63 97) = [List.replicate 63 97] :=
    labels_last fun h => absurd (List.eq_of_mem_replicate h) (by decide)
  refine not_roundTrip_of_long ?_ ⟨_, by rw [hlabels]; exact List.mem_cons_self, rfl⟩
  rw [hlabels]
  intro l hl
  obtain rfl := List.mem_singleton.1 hl
  exact ⟨by decide, by decide⟩

end Dns
