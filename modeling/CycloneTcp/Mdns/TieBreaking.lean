import CycloneTcp.Mdns.RecordOrder

set_option autoImplicit false

/-! # Tie-breaking

Two hosts that probe for one name compare their records, each host its own with that of the other
one, so that the comparison has to be a consistent order. It is one on records without names in
their data. -/

namespace Mdns

open CString Dns

/-! ## Records in full -/

section Full

variable {message : List UInt8} {pos : ℕ} {s : List Step} {x : List UInt8 × ℕ}
  {c d : Content} {names : List (List (List UInt8))}

theorem getElem?_of_append {b : UInt8} (h : message[pos]? = some b) (rest : List UInt8) :
    (message ++ rest)[pos]? = some b := by
  rw [List.getElem?_append_left (lt_of_getElem? h), h]

/-- What follows the message does not matter. -/
theorem encoded_append (h : Encoded message pos s) (rest : List UInt8) :
    Encoded (message ++ rest) pos s := by
  induction h with
  | root h => exact .root (getElem?_of_append h rest)
  | @label pos n s hn hpos hmax hin hrest ih =>
      have hpiece : ((message ++ rest).drop (pos + 1)).take n.toNat =
          (message.drop (pos + 1)).take n.toNat := by
        rw [List.drop_append_of_le_length (by omega), List.take_append_of_le_length]
        rw [List.length_drop]
        omega
      rw [← hpiece]
      refine .label (getElem?_of_append hn rest) hpos hmax ?_ ih
      rw [List.length_append]
      omega
  | hop hn htag hlow hrest ih =>
      exact .hop (getElem?_of_append hn rest) htag (getElem?_of_append hlow rest) ih

theorem inPlace_map (ls : List (List UInt8)) : inPlace (ls.map .label) = (encoding ls).length := by
  induction ls with
  | nil => rfl
  | cons l ls ih =>
      rw [List.map_cons, inPlace, ih, encoding_cons, List.length_append, labelBytes_length]

theorem hops_map (ls : List (List UInt8)) : hops (ls.map .label) = 0 := by
  induction ls with
  | nil => rfl
  | cons l ls ih => rw [List.map_cons, hops, ih]

/-- Names in full, one behind the other. -/
theorem namesAt_encodings (hok : ∀ ls ∈ names, ∀ l ∈ ls, LabelOk l) (front rest : List UInt8) :
    NamesAt (front ++ names.flatMap encoding ++ rest) front.length (names.map (·.map .label))
      (front.length + (names.flatMap encoding).length) := by
  induction names generalizing front with
  | nil => exact .nil
  | cons ls names ih =>
      have hfirst := encoded_append (encoded_encoding (hok ls List.mem_cons_self) front)
        (names.flatMap encoding ++ rest)
      have hlater := ih (fun t ht => hok t (List.mem_cons_of_mem _ ht)) (front ++ encoding ls)
      have heq : front ++ (ls :: names).flatMap encoding ++ rest =
          front ++ encoding ls ++ (names.flatMap encoding ++ rest) := by
        simp only [List.flatMap_cons, List.append_assoc]
      have hlen : front.length + ((ls :: names).flatMap encoding).length =
          (front ++ encoding ls).length + (names.flatMap encoding).length := by
        simp only [List.flatMap_cons, List.length_append, Nat.add_assoc]
      rw [heq, hlen, List.map_cons]
      refine .cons ⟨hfirst, by rw [hops_map]; exact Nat.zero_le _⟩ ?_
      rw [inPlace_map, ← List.length_append]
      rwa [List.append_assoc (front ++ encoding ls)] at hlater

theorem namesAt_labelOk {stop : ℕ} {names : List (List Step)} (h : NamesAt message pos names stop) :
    ∀ ls ∈ names.map labelsOf, ∀ l ∈ ls, LabelOk l := by
  induction h with
  | nil => exact fun ls hls => absurd hls List.not_mem_nil
  | cons hs _ ih =>
      intro ls hls
      rcases List.mem_cons.1 hls with rfl | hmem
      · exact hs.1.labelOk
      · exact ih ls hmem

theorem read16_full {i : ℕ} {v : UInt16} (hhi : c.header[i]? = some (Memory.hi8 v))
    (hlo : c.header[i + 1]? = some (Memory.lo8 v)) : read16 c.full.1 i = some v := by
  rw [read16, Content.full, getElem?_of_append hhi, getElem?_of_append hlo]
  exact congrArg some (Memory.be16_hi8_lo8 v)

theorem readBytes_append (front piece rest : List UInt8) :
    readBytes (front ++ piece ++ rest) front.length piece.length = some piece := by
  rw [readBytes_of_le, List.append_assoc, List.drop_left, List.take_left]
  rw [List.length_append, List.length_append]
  omega

theorem readBytes_length {n : ℕ} {piece : List UInt8} (h : readBytes message pos n = some piece) :
    piece.length = n := by
  rw [readBytes] at h
  split at h
  next hle => rw [← Option.some.inj h, length_piece hle]
  next => cases h

theorem namesAt_unique {stop stop' : ℕ} {names names' : List (List Step)}
    (h : NamesAt message pos names stop) (h' : NamesAt message pos names' stop')
    (hlen : names.length = names'.length) : names = names' ∧ stop = stop' := by
  induction h generalizing names' with
  | nil =>
      cases h' with
      | nil => exact ⟨rfl, rfl⟩
      | cons _ _ => cases hlen
  | cons hs _ ih =>
      cases h' with
      | nil => cases hlen
      | cons hs' hrest' =>
          obtain rfl := encoded_unique hs.1 hs'.1
          obtain ⟨rfl, rfl⟩ := ih hrest' (Nat.succ.inj hlen)
          exact ⟨rfl, rfl⟩

/-- A record says one thing. -/
theorem content_unique (h : HasContent x c) (h' : HasContent x d) : c = d := by
  obtain ⟨v, hv, hclass⟩ := h.rclass
  obtain ⟨v', hv', hclass'⟩ := h'.rclass
  obtain rfl := Option.some.inj (hv.symm.trans hv')
  have htype := Option.some.inj (h.rtype.symm.trans h'.rtype)
  obtain ⟨n, names, stop, hn, -, hfront, hnames, heq, htail, hstop⟩ := h.rdata
  obtain ⟨n', names', stop', hn', -, hfront', hnames', heq', htail', hstop'⟩ := h'.rdata
  obtain rfl := Option.some.inj (hn.symm.trans hn')
  rw [← htype] at hfront' hnames'
  have hcount : names.length = names'.length := by
    have hc := h.count
    have hd := h'.count
    rw [← heq, List.length_map] at hc
    rw [← heq', List.length_map, ← htype] at hd
    exact hc.trans hd.symm
  obtain ⟨rfl, rfl⟩ := namesAt_unique hnames hnames' hcount
  have hlen : c.tail.length = d.tail.length := by omega
  rw [hlen] at htail
  obtain ⟨rclass, rtype, front, names, tail⟩ := c
  obtain ⟨rclass', rtype', front', names', tail'⟩ := d
  simp only at hclass hclass' htype hfront hfront' heq heq' htail htail'
  rw [Content.mk.injEq]
  exact ⟨hclass.trans hclass'.symm, htype, Option.some.inj (hfront.symm.trans hfront'),
    heq.symm.trans heq', Option.some.inj (htail.symm.trans htail')⟩

/-- The record in full says the same. -/
theorem hasContent_full (h : HasContent x c) : HasContent c.full c := by
  obtain ⟨v, -, hv⟩ := h.rclass
  obtain ⟨rdlength, names, stop, -, -, hfront, hnames, heq, -, -⟩ := h.rdata
  have hok := namesAt_labelOk hnames
  rw [heq] at hok
  have hsize : (UInt16.ofNat c.rdata.length).toNat = c.rdata.length := by
    rw [UInt16.toNat_ofNat']
    exact Nat.mod_eq_of_lt h.size
  have hfrontlen := readBytes_length hfront
  have hmessage : c.full.1 = c.header ++ c.front ++ c.names.flatMap encoding ++ c.tail := by
    simp only [Content.full, Content.rdata, List.append_assoc]
  have hheader : c.header.length = 13 + dnsResourceRecordSize := rfl
  have hdata : c.rdata.length =
      c.front.length + (c.names.flatMap encoding).length + c.tail.length := by
    rw [Content.rdata, List.length_append, List.length_append]
  refine ⟨⟨c.rclass, read16_full rfl rfl, ?_⟩, read16_full rfl rfl, ?_, h.count, h.tail, h.size⟩
  · rw [hv, UInt16.and_assoc, UInt16.and_self]
  refine ⟨UInt16.ofNat c.rdata.length, c.names.map (·.map .label),
    (c.header ++ c.front).length + (c.names.flatMap encoding).length, read16_full rfl rfl,
    ?_, ?_, ?_, ?_, ?_, ?_⟩
  · rw [hsize, Content.full, List.length_append, hheader]
  · have hread := readBytes_append c.header c.front (c.names.flatMap encoding ++ c.tail)
    rw [← List.append_assoc, ← hmessage, hfrontlen] at hread
    exact hread
  · have hat := namesAt_encodings hok (c.header ++ c.front) c.tail
    rw [← hmessage] at hat
    rw [← hfrontlen, show c.full.2 + dnsResourceRecordSize + c.front.length =
      (c.header ++ c.front).length by rw [List.length_append, hheader]; rfl]
    exact hat
  · rw [List.map_map]
    exact List.map_id'' labelsOf_map _
  · have hread := readBytes_append (c.header ++ c.front ++ c.names.flatMap encoding) c.tail []
    rw [List.append_nil, ← hmessage, List.length_append] at hread
    exact hread
  · have hpos : c.full.2 = 13 := rfl
    rw [hsize, hdata, List.length_append, hheader, hpos]
    omega

theorem rawData_full (h : HasContent x c) : rawData c.full = c.rdata := by
  have hsize : (UInt16.ofNat c.rdata.length).toNat = c.rdata.length := by
    rw [UInt16.toNat_ofNat']
    exact Nat.mod_eq_of_lt h.size
  have hlen : read16 c.full.1 (c.full.2 + 8) = some (UInt16.ofNat c.rdata.length) :=
    read16_full rfl rfl
  have hdrop : c.full.1.drop (c.full.2 + dnsResourceRecordSize) = c.rdata := by
    change (c.header ++ c.rdata).drop c.header.length = c.rdata
    exact List.drop_left
  rw [rawData, hlen, hdrop, Option.getD_some, hsize, List.take_length]

/-- The first name in full. -/
theorem reads_full (h : HasContent x c) (hname : Decompressed c.rtype) :
    Reads (dataOf c.full) ((c.names.headD []).map .label) := by
  obtain ⟨s, rest, hs, hnames⟩ := h.first hname
  obtain ⟨-, -, -, -, -, hfront, -⟩ := h.rdata
  have hnil : c.front = [] := List.eq_nil_of_length_eq_zero <|
    (readBytes_length hfront).trans (frontSize_of_decompressed hname)
  have hmessage : c.full.1 =
      c.header ++ encoding (labelsOf s) ++ (rest.flatMap encoding ++ c.tail) := by
    simp only [Content.full, Content.rdata, hnil, hnames, List.flatMap_cons, List.nil_append,
      List.append_assoc]
  have hread := encoded_append (encoded_encoding hs.1.labelOk c.header)
    (rest.flatMap encoding ++ c.tail)
  rw [← hmessage] at hread
  refine ⟨?_, ?_⟩
  · rw [hnames]
    exact hread
  · rw [hops_map]
    exact Nat.zero_le _

end Full

/-! ## The order of records in full -/

section Order

variable {x y : List UInt8 × ℕ} {c d : Content} {s t : List Step}

theorem nameCompare_orders (s t : List (List UInt8)) :
    Orders (nameCompare s t) (nameKey s) (nameKey t) :=
  .of_lt_eq (nameCompare_key s t).1 (nameCompare_key s t).2

theorem Content.dataKey_name (h : Decompressed c.rtype) : c.dataKey = nameKey (c.names.headD []) :=
  if_pos h

theorem Content.dataKey_raw (h : ¬ Decompressed c.rtype) : c.dataKey = [bytesKey c.rdata] :=
  if_neg h

/-- **Records in full are ordered by their keys.** -/
theorem compareRecord_full (hx : HasContent x c) (hy : HasContent y d) :
    ∃ r, compareRecord c.full d.full = some r ∧ Orders r c.key d.key := by
  have hc := hasContent_full hx
  have hd := hasContent_full hy
  refine compareRecord_orders hc hd fun hclass htype => ?_
  by_cases hname : Decompressed c.rtype
  · have hname' : Decompressed d.rtype := htype ▸ hname
    rw [compareRecord_alike hc hd hclass htype, if_pos hname,
      compareEncoded_eq (reads_full hx hname) (reads_full hy hname'), rounds_full,
      if_neg (Nat.not_lt_zero _), stepCompare_of_not_uneven (not_uneven_full _ _), labelsOf_map,
      labelsOf_map, Content.dataKey_name hname, Content.dataKey_name hname']
    exact ⟨_, rfl, nameCompare_orders _ _⟩
  · obtain ⟨r, hr, horders⟩ := compareRecord_raw hc hd hclass htype hname
    rw [rawData_full hx, rawData_full hy] at horders
    rw [Content.dataKey_raw hname, Content.dataKey_raw (htype ▸ hname)]
    exact ⟨r, hr, Orders.singleton_iff.2 horders⟩

end Order

/-! ## A consistent order -/

/-- The first record precedes the second one: its host yields, and the host of the second one wins.
-/
def Precedes (x y : List UInt8 × ℕ) : Prop := ∃ r < 0, compareRecord x y = some r

/-- On these records, the sign of the comparison is the one for the records in full, 0 for equal
records only, and flips when they are swapped, `Precedes` is transitive, and of two hosts with
different data exactly one yields. -/
structure ConsistentOn (records : Set (List UInt8 × ℕ)) : Prop where
  independent : ∀ x ∈ records, ∀ y ∈ records, ∀ c d, HasContent x c → HasContent y d →
    (compareRecord x y).map Int.sign = (compareRecord c.full d.full).map Int.sign
  eq_zero_iff : ∀ x ∈ records, ∀ y ∈ records, ∀ c d, HasContent x c → HasContent y d →
    (compareRecord x y = some 0 ↔ c.Agree d)
  swap : ∀ x ∈ records, ∀ y ∈ records, ∃ r r', compareRecord x y = some r ∧
    compareRecord y x = some r' ∧ r'.sign = -r.sign
  trans : ∀ x ∈ records, ∀ y ∈ records, ∀ z ∈ records, Precedes x y → Precedes y z → Precedes x z
  tieBreak : ∀ x ∈ records, ∀ y ∈ records, ∀ c d, HasContent x c → HasContent y d → ¬ c.Agree d →
    (Precedes x y ↔ ¬ Precedes y x)

/-- Two records of one class and type that are compared right. If their data are compared as names,
the first names are compared right, and records that agree in these agree in everything. Otherwise
the bytes as they stand in the messages are ordered as they are without compression, and no names
differ in case only. -/
def Comparable (x y : List UInt8 × ℕ) : Prop := ∀ c d, HasContent x c → HasContent y d →
  c.rclass = d.rclass → c.rtype = d.rtype →
    if Decompressed c.rtype then
      Dns.Comparable (dataOf x) (dataOf y) ∧
        (List.Forall₂ EqFold (c.names.headD []) (d.names.headD []) → c.Agree d)
    else
      (bytesKey (rawData x) < bytesKey (rawData y) ↔ bytesKey c.rdata < bytesKey d.rdata) ∧
        (rawData x = rawData y ↔ c.rdata = d.rdata) ∧ (c.Agree d → c.rdata = d.rdata)

section Consistent

variable {records : Set (List UInt8 × ℕ)} {x y p q : List UInt8 × ℕ} {c d : Content} {r r' : ℤ}
  {s t : List Step}

theorem key_eq_iff : c.key = d.key ↔
    c.rclass = d.rclass ∧ c.rtype = d.rtype ∧ c.dataKey = d.dataKey := by
  simp only [Content.key, List.cons.injEq, and_true, UInt16.toNat_inj]

theorem orders_key_iff (hclass : c.rclass = d.rclass) (htype : c.rtype = d.rtype) :
    Orders r c.key d.key ↔ Orders r c.dataKey d.dataKey := by
  rw [Content.key, Content.key, hclass, htype, Orders.cons_iff, Orders.cons_iff]

theorem Content.Agree.of_rdata (hc : HasContent x c) (hd : HasContent y d)
    (hclass : c.rclass = d.rclass) (htype : c.rtype = d.rtype) (h : c.rdata = d.rdata) :
    c.Agree d := by
  have hfull : c.full = d.full := by
    rw [Content.full, Content.full, Content.header, Content.header, hclass, htype, h]
  have hcd := hasContent_full hd
  rw [← hfull] at hcd
  obtain rfl := content_unique (hasContent_full hc) hcd
  have hrefl : ∀ ls : List (List UInt8), List.Forall₂ EqFold ls ls := fun ls =>
    List.forall₂_same.2 fun l _ => EqFold.refl l
  exact ⟨rfl, rfl, rfl, List.forall₂_same.2 fun ls _ => hrefl ls, rfl⟩

theorem Content.Agree.head (h : c.Agree d) :
    List.Forall₂ EqFold (c.names.headD []) (d.names.headD []) := by
  have hnames := h.names
  cases hc : c.names with
  | nil =>
      rw [hc, List.forall₂_nil_left_iff] at hnames
      rw [hnames]
      exact .nil
  | cons ls names =>
      rw [hc] at hnames
      obtain ⟨ls', names', hls, -, hd⟩ := List.forall₂_cons_left_iff.1 hnames
      rw [hd]
      exact hls

/-- Names whose comparison follows the names in full both ways. -/
theorem comparable_of_orders (hs : Reads p s) (ht : Reads q t) (hr : compareEncoded p q = some r)
    (hr' : compareEncoded q p = some r')
    (h : Orders r (nameKey (labelsOf s)) (nameKey (labelsOf t)))
    (h' : Orders r' (nameKey (labelsOf t)) (nameKey (labelsOf s)))
    (hfold : nameKey (labelsOf s) = nameKey (labelsOf t) →
      List.Forall₂ EqFold (labelsOf s) (labelsOf t)) :
    rounds s t ≤ DNS_NAME_MAX_RECURSION - 1 ∧ ¬ Uneven s t ∧
      (nameKey (labelsOf s) = nameKey (labelsOf t) →
        List.Forall₂ EqFold (labelsOf s) (labelsOf t)) := by
  rw [compareEncoded_eq hs ht] at hr
  rw [compareEncoded_eq ht hs, rounds_comm s t] at hr'
  have hrounds : rounds s t ≤ DNS_NAME_MAX_RECURSION - 1 := by
    by_contra hgt
    rw [if_pos (Nat.not_le.1 hgt)] at hr hr'
    obtain rfl := Option.some.inj hr
    obtain rfl := Option.some.inj hr'
    exact lt_asymm (h.1.1 (by decide)) (h'.1.1 (by decide))
  refine ⟨hrounds, fun huneven => ?_, hfold⟩
  rw [if_neg (Nat.not_lt.2 hrounds)] at hr
  obtain rfl := Option.some.inj hr
  obtain ⟨hne, hzero⟩ := stepCompare_of_uneven huneven
  exact hne (h.eq_zero_iff.2 ((nameCompare_orders _ _).eq_zero_iff.1 hzero))

theorem ConsistentOn.orders (h : ConsistentOn records) (hx : x ∈ records) (hy : y ∈ records)
    (hc : HasContent x c) (hd : HasContent y d) :
    ∃ r, compareRecord x y = some r ∧ Orders r c.key d.key := by
  obtain ⟨r0, hr0, horders⟩ := compareRecord_full hc hd
  have hsign := h.independent x hx y hy c d hc hd
  rw [hr0, Option.map_some, Option.map_eq_some_iff] at hsign
  obtain ⟨r, hr, hsign⟩ := hsign
  exact ⟨r, hr, horders.of_sign_eq hsign⟩

theorem ConsistentOn.key_eq (h : ConsistentOn records) (hx : x ∈ records) (hy : y ∈ records)
    (hc : HasContent x c) (hd : HasContent y d) : c.key = d.key ↔ c.Agree d := by
  obtain ⟨r, hr, horders⟩ := h.orders hx hy hc hd
  rw [← h.eq_zero_iff x hx y hy c d hc hd, hr, Option.some.injEq, horders.eq_zero_iff]

/-- Records that are comparable are ordered by their keys. -/
theorem Comparable.orders (h : Comparable x y) (hc : HasContent x c) (hd : HasContent y d) :
    ∃ r, compareRecord x y = some r ∧ Orders r c.key d.key := by
  refine compareRecord_orders hc hd fun hclass htype => ?_
  have hdata := h c d hc hd hclass htype
  by_cases hname : Decompressed c.rtype
  · obtain ⟨s, rest, hs, hsnames⟩ := hc.first hname
    obtain ⟨t, rest', ht, htnames⟩ := hd.first (htype ▸ hname)
    rw [if_pos hname] at hdata
    rw [compareRecord_alike hc hd hclass htype, if_pos hname, Content.dataKey_name hname,
      Content.dataKey_name (htype ▸ hname), hsnames, htnames]
    exact ⟨_, hdata.1.compareEncoded hs ht, nameCompare_orders _ _⟩
  · rw [if_neg hname] at hdata
    obtain ⟨r, hr, horders⟩ := compareRecord_raw hc hd hclass htype hname
    refine ⟨r, hr, ?_⟩
    rw [Content.dataKey_raw hname, Content.dataKey_raw (htype ▸ hname), Orders.singleton_iff]
    refine .of_lt_eq (horders.1.trans hdata.1) ?_
    rw [horders.eq_zero_iff, bytesKey_inj, bytesKey_inj]
    exact hdata.2.1

theorem Comparable.key_eq (h : Comparable x y) (hc : HasContent x c) (hd : HasContent y d) :
    c.key = d.key ↔ c.Agree d := by
  rw [key_eq_iff]
  constructor
  · rintro ⟨hclass, htype, hkey⟩
    have hdata := h c d hc hd hclass htype
    by_cases hname : Decompressed c.rtype
    · obtain ⟨s, rest, hs, hsnames⟩ := hc.first hname
      obtain ⟨t, rest', ht, htnames⟩ := hd.first (htype ▸ hname)
      rw [if_pos hname, hsnames, htnames] at hdata
      rw [Content.dataKey_name hname, Content.dataKey_name (htype ▸ hname), hsnames, htnames]
        at hkey
      exact hdata.2 ((hdata.1 s t hs ht).2.2 hkey)
    · rw [Content.dataKey_raw hname, Content.dataKey_raw (htype ▸ hname), List.cons.injEq,
        bytesKey_inj] at hkey
      exact .of_rdata hc hd hclass htype hkey.1
  · intro hagree
    refine ⟨hagree.rclass, hagree.rtype, ?_⟩
    have hdata := h c d hc hd hagree.rclass hagree.rtype
    by_cases hname : Decompressed c.rtype
    · rw [Content.dataKey_name hname, Content.dataKey_name (hagree.rtype ▸ hname)]
      exact nameKey_of_eqFold hagree.head
    · rw [if_neg hname] at hdata
      rw [Content.dataKey_raw hname, Content.dataKey_raw (hagree.rtype ▸ hname), hdata.2.2 hagree]

theorem Comparable.precedes_iff (h : Comparable x y) (hc : HasContent x c) (hd : HasContent y d) :
    Precedes x y ↔ c.key < d.key := by
  obtain ⟨r, hr, horders⟩ := h.orders hc hd
  rw [← horders.1]
  constructor
  · rintro ⟨r', hneg, hr'⟩
    obtain rfl := Option.some.inj (hr.symm.trans hr')
    exact hneg
  · exact fun hneg => ⟨r, hneg, hr⟩

/-- The condition is enough. -/
theorem consistentOn_of_comparable (hrecords : ∀ x ∈ records, ∃ c, HasContent x c)
    (h : ∀ x ∈ records, ∀ y ∈ records, Comparable x y) : ConsistentOn records := by
  refine ⟨?_, ?_, ?_, ?_, ?_⟩
  · intro x hx y hy c d hc hd
    obtain ⟨r, hr, horders⟩ := (h x hx y hy).orders hc hd
    obtain ⟨r', hr', horders'⟩ := compareRecord_full hc hd
    rw [hr, hr', Option.map_some, Option.map_some, horders.sign_eq horders']
  · intro x hx y hy c d hc hd
    obtain ⟨r, hr, horders⟩ := (h x hx y hy).orders hc hd
    rw [hr, Option.some.injEq, horders.eq_zero_iff, (h x hx y hy).key_eq hc hd]
  · intro x hx y hy
    obtain ⟨c, hc⟩ := hrecords x hx
    obtain ⟨d, hd⟩ := hrecords y hy
    obtain ⟨r, hr, horders⟩ := (h x hx y hy).orders hc hd
    obtain ⟨r', hr', horders'⟩ := (h y hy x hx).orders hd hc
    refine ⟨r, r', hr, hr', ?_⟩
    rw [horders'.sign_eq horders.neg, Int.sign_neg]
  · intro x hx y hy z hz hxy hyz
    obtain ⟨c, hc⟩ := hrecords x hx
    obtain ⟨d, hd⟩ := hrecords y hy
    obtain ⟨e, he⟩ := hrecords z hz
    rw [(h x hx y hy).precedes_iff hc hd] at hxy
    rw [(h y hy z hz).precedes_iff hd he] at hyz
    rw [(h x hx z hz).precedes_iff hc he]
    exact lt_trans hxy hyz
  · intro x hx y hy c d hc hd hne
    have hkey : c.key ≠ d.key := fun heq => hne (((h x hx y hy).key_eq hc hd).1 heq)
    rw [(h x hx y hy).precedes_iff hc hd, (h y hy x hx).precedes_iff hd hc, not_lt]
    exact ⟨le_of_lt, fun hle => lt_of_le_of_ne hle hkey⟩

/-- The condition is necessary where data are compared as names. -/
theorem ConsistentOn.comparable_names (h : ConsistentOn records) (hx : x ∈ records)
    (hy : y ∈ records) (hc : HasContent x c) (hd : HasContent y d) (hclass : c.rclass = d.rclass)
    (htype : c.rtype = d.rtype) (hname : Decompressed c.rtype) :
    Dns.Comparable (dataOf x) (dataOf y) ∧
      (List.Forall₂ EqFold (c.names.headD []) (d.names.headD []) → c.Agree d) := by
  obtain ⟨r, hr, horders⟩ := h.orders hx hy hc hd
  obtain ⟨r', hr', horders'⟩ := h.orders hy hx hd hc
  have hkey := h.key_eq hx hy hc hd
  have hname' : Decompressed d.rtype := htype ▸ hname
  obtain ⟨s, rest, hs, hsnames⟩ := hc.first hname
  obtain ⟨t, rest', ht, htnames⟩ := hd.first hname'
  rw [compareRecord_alike hc hd hclass htype, if_pos hname] at hr
  rw [compareRecord_alike hd hc hclass.symm htype.symm, if_pos hname'] at hr'
  rw [orders_key_iff hclass htype, Content.dataKey_name hname, Content.dataKey_name hname']
    at horders
  rw [orders_key_iff hclass.symm htype.symm, Content.dataKey_name hname',
    Content.dataKey_name hname] at horders'
  rw [key_eq_iff, and_iff_right hclass, and_iff_right htype, Content.dataKey_name hname,
    Content.dataKey_name hname'] at hkey
  refine ⟨fun s' t' hs' ht' => ?_, fun hfold => hkey.1 (nameKey_of_eqFold hfold)⟩
  obtain rfl := encoded_unique hs.1 hs'.1
  obtain rfl := encoded_unique ht.1 ht'.1
  rw [hsnames, htnames] at horders horders' hkey
  refine comparable_of_orders hs ht hr hr' horders horders' fun heq => ?_
  have hfold := (hkey.1 heq).head
  rwa [hsnames, htnames] at hfold

/-- The condition is necessary where raw data are compared. -/
theorem ConsistentOn.comparable_raw (h : ConsistentOn records) (hx : x ∈ records)
    (hy : y ∈ records) (hc : HasContent x c) (hd : HasContent y d) (hclass : c.rclass = d.rclass)
    (htype : c.rtype = d.rtype) (hname : ¬ Decompressed c.rtype) :
    (bytesKey (rawData x) < bytesKey (rawData y) ↔ bytesKey c.rdata < bytesKey d.rdata) ∧
      (rawData x = rawData y ↔ c.rdata = d.rdata) ∧ (c.Agree d → c.rdata = d.rdata) := by
  obtain ⟨r, hr, horders⟩ := h.orders hx hy hc hd
  obtain ⟨r', hr', hraw⟩ := compareRecord_raw hc hd hclass htype hname
  obtain rfl := Option.some.inj (hr.symm.trans hr')
  have hkey := h.key_eq hx hy hc hd
  have hname' : ¬ Decompressed d.rtype := htype ▸ hname
  rw [orders_key_iff hclass htype, Content.dataKey_raw hname, Content.dataKey_raw hname',
    Orders.singleton_iff] at horders
  rw [key_eq_iff, and_iff_right hclass, and_iff_right htype, Content.dataKey_raw hname,
    Content.dataKey_raw hname', List.cons.injEq, and_iff_left rfl, bytesKey_inj] at hkey
  refine ⟨hraw.1.symm.trans horders.1, ?_, hkey.2⟩
  rw [← bytesKey_inj, ← hraw.eq_zero_iff, horders.eq_zero_iff, bytesKey_inj]

theorem nameless {rtype : UInt16} (h : nameCount rtype = 0) :
    ¬ Decompressed rtype ∧ frontSize rtype = 0 := by
  refine ⟨fun hname => (nameCount_of_decompressed hname).ne' h, ?_⟩
  rw [frontSize]
  split_ifs with hmx hsrv
  · rw [hmx] at h
    exact absurd h (by decide)
  · rw [hsrv] at h
    exact absurd h (by decide)
  · rfl

/-- Data without names stand in the message as they are. -/
theorem HasContent.rawData_nameless (h : HasContent x c) (hcount : nameCount c.rtype = 0) :
    rawData x = c.rdata := by
  obtain ⟨n, names, stop, hn, hin, hfront, hnames, heq, htail, hstop⟩ := h.rdata
  have hnil : c.names = [] := List.eq_nil_of_length_eq_zero (h.count.trans hcount)
  have hfrontnil : c.front = [] := List.eq_nil_of_length_eq_zero <|
    (readBytes_length hfront).trans (nameless hcount).2
  rw [hnil, List.map_eq_nil_iff] at heq
  rw [heq, (nameless hcount).2] at hnames
  cases hnames with
  | nil =>
      have hlen : c.tail.length = n.toNat := by omega
      rw [hlen, Nat.add_zero, readBytes_of_le hin] at htail
      rw [rawData, hn, Option.getD_some, Content.rdata, hnil, hfrontnil, ← Option.some.inj htail]
      rfl

/-- Records without names in their data are always compared right. -/
theorem comparable_of_nameless (hx : HasContent x c) (hy : HasContent y d)
    (hcount : nameCount c.rtype = 0) : Comparable x y := by
  intro c' d' hc hd hclass htype
  obtain rfl := content_unique hc hx
  obtain rfl := content_unique hd hy
  have hrdata := hc.rawData_nameless hcount
  have hrdata' := hd.rawData_nameless (htype ▸ hcount)
  rw [if_neg (nameless hcount).1, hrdata, hrdata']
  refine ⟨Iff.rfl, Iff.rfl, fun hagree => ?_⟩
  have hnil : c'.names = [] := List.eq_nil_of_length_eq_zero (hc.count.trans hcount)
  have hnil' : d'.names = [] := List.eq_nil_of_length_eq_zero (hd.count.trans (htype ▸ hcount))
  rw [Content.rdata, Content.rdata, hagree.front, hagree.tail, hnil, hnil']

end Consistent

/-- `mdnsCompareRecord` orders a set of well-formed records consistently if and only if any two of
them that are of one class and type are compared right. -/
theorem mdnsCompareRecord_consistent_iff (records : Set (List UInt8 × ℕ))
    (hrecords : ∀ x ∈ records, ∃ c, HasContent x c) :
    ConsistentOn records ↔ ∀ x ∈ records, ∀ y ∈ records, Comparable x y := by
  constructor
  · intro h x hx y hy c d hc hd hclass htype
    split
    next hname => exact h.comparable_names hx hy hc hd hclass htype hname
    next hname => exact h.comparable_raw hx hy hc hd hclass htype hname
  · exact consistentOn_of_comparable hrecords

/-- A SRV record for port 80 of the host `a`, whose name is also that of the owner of the record.
`target` is how the name is written. -/
def srvRecord (target : List UInt8) : List UInt8 × ℕ :=
  ([0, 0, 0x84, 0, 0, 0, 0, 1, 0, 0, 0, 0, 1, 97, 0, 0, 33, 0, 1, 0, 0, 0, 120, 0,
    6 + UInt8.ofNat target.length, 0, 0, 0, 0, 0, 80] ++ target, 15)

def srvContent : Content where
  rclass := 1
  rtype := DNS_RR_TYPE_SRV
  front := [0, 0, 0, 0, 0, 80]
  names := [[[97]]]
  tail := []

theorem srvRecord_full : HasContent (srvRecord [1, 97, 0]) srvContent := by
  have hname : Encoded (srvRecord [1, 97, 0]).1 31 [.label [97]] :=
    .label (n := 1) rfl (by decide) (by decide) (by decide) (.root rfl)
  exact ⟨⟨1, rfl, rfl⟩, rfl, ⟨9, [[.label [97]]], 34, rfl, by decide, rfl,
    .cons ⟨hname, by decide⟩ .nil, rfl, rfl, rfl⟩, rfl, by decide, by decide⟩

/-- The pointer leads to the name of the owner. -/
theorem srvRecord_compressed : HasContent (srvRecord [0xC0, 12]) srvContent := by
  have hname : Encoded (srvRecord [0xC0, 12]).1 31 [.hop, .label [97]] :=
    .hop (n := 0xC0) rfl (by decide) (rfl : (srvRecord [0xC0, 12]).1[32]? = some 12)
      (.label (n := 1) rfl (by decide) (by decide) (by decide) (.root rfl))
  exact ⟨⟨1, rfl, rfl⟩, rfl, ⟨8, [[.hop, .label [97]]], 33, rfl, by decide, rfl,
    .cons ⟨hname, by decide⟩ .nil, rfl, rfl, rfl⟩, rfl, by decide, by decide⟩

/-- Records of different types need no care. -/
theorem comparable_of_rtype_ne {x y : List UInt8 × ℕ} {c d : Content} (hx : HasContent x c)
    (hy : HasContent y d) (hne : c.rtype ≠ d.rtype) : Comparable x y := by
  intro c' d' hc hd _ htype
  obtain rfl := hc.unique hx
  obtain rfl := hd.unique hy
  exact absurd htype hne

/-- A record whose data are compared as bytes is comparable with itself. -/
theorem comparable_self {x : List UInt8 × ℕ} {c : Content} (hx : HasContent x c)
    (hraw : ¬ Decompressed c.rtype) : Comparable x x := by
  intro c' d' hc hd _ _
  obtain rfl := hc.unique hx
  obtain rfl := hd.unique hx
  rw [if_neg hraw]
  simp

/-- Records with one name each are comparable if the names are. -/
theorem comparable_of_names {x y : List UInt8 × ℕ} {c d : Content} (hx : HasContent x c)
    (hy : HasContent y d) (hname : Decompressed c.rtype)
    (hnames : Dns.Comparable (dataOf x) (dataOf y))
    (hagree : List.Forall₂ EqFold (c.names.headD []) (d.names.headD []) → c.Agree d) :
    Comparable x y := by
  intro c' d' hc hd _ _
  obtain rfl := hc.unique hx
  obtain rfl := hd.unique hy
  rw [if_pos hname]
  exact ⟨hnames, hagree⟩

/-- A PTR record; the name of its owner is `a`. -/
def ptrRecord (target : List UInt8) : List UInt8 × ℕ :=
  ([0, 0, 0x84, 0, 0, 0, 0, 1, 0, 0, 0, 0, 1, 97, 0, 0, 12, 0, 1, 0, 0, 0, 120, 0,
    UInt8.ofNat target.length] ++ target, 15)

def ptrContent (name : List (List UInt8)) : Content where
  rclass := 1
  rtype := DNS_RR_TYPE_PTR
  front := []
  names := [name]
  tail := []

theorem ptrRecord_b : Reads (dataOf (ptrRecord [1, 98, 0])) [.label [98]] :=
  ⟨.label (n := 1) rfl (by decide) (by decide) (by decide) (.root rfl), by decide⟩

/-- The pointer leads to the name of the owner. -/
theorem ptrRecord_a : Reads (dataOf (ptrRecord [0xC0, 12])) [.hop, .label [97]] :=
  ⟨.hop (n := 0xC0) rfl (by decide) (rfl : (ptrRecord [0xC0, 12]).1[26]? = some 12)
    (.label (n := 1) rfl (by decide) (by decide) (by decide) (.root rfl)), by decide⟩

theorem ptrContent_b : HasContent (ptrRecord [1, 98, 0]) (ptrContent [[98]]) :=
  ⟨⟨1, rfl, rfl⟩, rfl, ⟨3, [[.label [98]]], 28, rfl, by decide, rfl, .cons ptrRecord_b .nil, rfl,
    rfl, rfl⟩, rfl, by decide, by decide⟩

theorem ptrContent_a : HasContent (ptrRecord [0xC0, 12]) (ptrContent [[97]]) :=
  ⟨⟨1, rfl, rfl⟩, rfl, ⟨2, [[.hop, .label [97]]], 27, rfl, by decide, rfl, .cons ptrRecord_a .nil,
    rfl, rfl, rfl⟩, rfl, by decide, by decide⟩

/-- A SRV record and two PTR records, one of them compressed, are compared right. -/
theorem mdnsCompareRecord_consistent_three :
    ConsistentOn {srvRecord [1, 97, 0], ptrRecord [1, 98, 0], ptrRecord [0xC0, 12]} := by
  refine (mdnsCompareRecord_consistent_iff _ ?_).2 ?_
  · rintro x (rfl | rfl | rfl)
    · exact ⟨_, srvRecord_full⟩
    · exact ⟨_, ptrContent_b⟩
    · exact ⟨_, ptrContent_a⟩
  · have ha : labelCompare [97] [97] = 0 := by decide
    have hb : labelCompare [98] [98] = 0 := by decide
    have hab : labelCompare [97] [98] ≠ 0 := by decide
    have hba : labelCompare [98] [97] ≠ 0 := by decide
    rintro x (rfl | rfl | rfl) y (rfl | rfl | rfl)
    · exact comparable_self srvRecord_full (by decide)
    · exact comparable_of_rtype_ne srvRecord_full ptrContent_b (by decide)
    · exact comparable_of_rtype_ne srvRecord_full ptrContent_a (by decide)
    · exact comparable_of_rtype_ne ptrContent_b srvRecord_full (by decide)
    · exact comparable_of_names ptrContent_b ptrContent_b (by decide)
        (comparable_of_reads ptrRecord_b ptrRecord_b (by simp [rounds, hb]) (by simp [Uneven, hb])
          fun _ => .cons rfl .nil)
        fun _ => ⟨rfl, rfl, rfl, .cons (.cons rfl .nil) .nil, rfl⟩
    · exact comparable_of_names ptrContent_b ptrContent_a (by decide)
        (comparable_of_reads ptrRecord_b ptrRecord_a
          (by simp [rounds, hba, DNS_NAME_MAX_RECURSION]) (by simp [Uneven, hba])
          fun hkey => absurd hkey (by decide))
        fun hnames => absurd hnames (by decide)
    · exact comparable_of_rtype_ne ptrContent_a srvRecord_full (by decide)
    · exact comparable_of_names ptrContent_a ptrContent_b (by decide)
        (comparable_of_reads ptrRecord_a ptrRecord_b
          (by simp [rounds, hab, DNS_NAME_MAX_RECURSION]) (by simp [Uneven, hab])
          fun hkey => absurd hkey (by decide))
        fun hnames => absurd hnames (by decide)
    · exact comparable_of_names ptrContent_a ptrContent_a (by decide)
        (comparable_of_reads ptrRecord_a ptrRecord_a
          (by simp [rounds, ha, DNS_NAME_MAX_RECURSION]) (by simp [Uneven, ha])
          fun _ => .cons rfl .nil)
        fun _ => ⟨rfl, rfl, rfl, .cons (.cons rfl .nil) .nil, rfl⟩

/-- Two SRV records with the same target are found different if it is compressed in one of them. -/
theorem mdnsCompareRecord_compression : ¬ ∀ records : Set (List UInt8 × ℕ),
    (∀ x ∈ records, ∃ c, HasContent x c) → ConsistentOn records := by
  intro h
  have hrecords := h {srvRecord [1, 97, 0], srvRecord [0xC0, 12]} fun x hx => by
    rcases hx with rfl | rfl
    · exact ⟨_, srvRecord_full⟩
    · exact ⟨_, srvRecord_compressed⟩
  have hagree : srvContent.Agree srvContent :=
    ⟨rfl, rfl, rfl, .cons (.cons rfl .nil) .nil, rfl⟩
  have hzero := (hrecords.eq_zero_iff _ (.inl rfl) _ (.inr rfl) _ _ srvRecord_full
    srvRecord_compressed).2 hagree
  exact absurd hzero (by decide)

end Mdns
