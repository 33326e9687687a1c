import CycloneTcp.Dns.Client
import CycloneTcp.Dns.NameOrder

set_option autoImplicit false

/-! # The order of resource records

`mdnsCompareRecord` compares the classes of two records, their types and their data. The names of
NS, SOA, CNAME and PTR records are followed through the messages; the data of all other types are
compared as they stand there. A record is given by its message and its position. -/

namespace Mdns

open CString Dns

def MDNS_RCLASS_CACHE_FLUSH : UInt16 := 0x8000

def DNS_RR_TYPE_NS : UInt16 := 2

def DNS_RR_TYPE_CNAME : UInt16 := 5

def DNS_RR_TYPE_SOA : UInt16 := 6

def DNS_RR_TYPE_PTR : UInt16 := 12

def DNS_RR_TYPE_MINFO : UInt16 := 14

def DNS_RR_TYPE_MX : UInt16 := 15

def DNS_RR_TYPE_SRV : UInt16 := 33

def DNS_RR_TYPE_NSEC : UInt16 := 47

/-! ## The functions -/

/-- `memcmp`: the first two bytes that differ decide. -/
def memcmp : ℕ → List UInt8 → List UInt8 → Option ℤ
  | 0, _, _ => some 0
  | _ + 1, [], _ => none
  | _ + 1, _ :: _, [] => none
  | n + 1, x :: s1, y :: s2 => if x ≠ y then some ((x.toNat : ℤ) - y.toNat) else memcmp n s1 s2

/-- The types whose data are compared as names. -/
def Decompressed (rtype : UInt16) : Prop :=
  rtype = DNS_RR_TYPE_NS ∨ rtype = DNS_RR_TYPE_SOA ∨ rtype = DNS_RR_TYPE_CNAME ∨
    rtype = DNS_RR_TYPE_PTR

instance (rtype : UInt16) : Decidable (Decompressed rtype) := inferInstanceAs (Decidable (_ ∨ _))

/-- The comparison of raw data, `n1` and `n2` bytes. -/
def compareRaw (n1 n2 : ℕ) (rdata1 rdata2 : List UInt8) : Option ℤ :=
  if n1 < n2 then (memcmp n1 rdata1 rdata2).map fun res => if res = 0 then -1 else res
  else if n1 > n2 then (memcmp n2 rdata1 rdata2).map fun res => if res = 0 then 1 else res
  else memcmp n1 rdata1 rdata2

/-- Compare resource records. There is no result when a byte outside a message is read. -/
def mdnsCompareRecord (message1 : List UInt8) (record1 : ℕ) (message2 : List UInt8)
    (record2 : ℕ) : Option ℤ := do
  let rclass1 ← read16 message1 (record1 + 2)
  let rclass2 ← read16 message2 (record2 + 2)
  -- discard cache-flush bit
  let value1 := rclass1 &&& ~~~MDNS_RCLASS_CACHE_FLUSH
  let value2 := rclass2 &&& ~~~MDNS_RCLASS_CACHE_FLUSH
  if value1 < value2 then return -1
  if value1 > value2 then return 1
  let value1 ← read16 message1 record1
  let value2 ← read16 message2 record2
  if value1 < value2 then return -1
  if value1 > value2 then return 1
  if Decompressed value1 then
    dnsCompareEncodedName message1 (record1 + dnsResourceRecordSize) message2
      (record2 + dnsResourceRecordSize) 0
  else
    let n1 ← read16 message1 (record1 + 8)
    let n2 ← read16 message2 (record2 + 8)
    compareRaw n1.toNat n2.toNat (message1.drop (record1 + dnsResourceRecordSize))
      (message2.drop (record2 + dnsResourceRecordSize))

/-! ## What a record says -/

/-- The bytes in front of the first name. -/
def frontSize (rtype : UInt16) : ℕ :=
  if rtype = DNS_RR_TYPE_MX then 2 else if rtype = DNS_RR_TYPE_SRV then 6 else 0

/-- How many names the data of a type begin with, behind `frontSize` bytes. -/
def nameCount (rtype : UInt16) : ℕ :=
  if rtype = DNS_RR_TYPE_SOA ∨ rtype = DNS_RR_TYPE_MINFO then 2
  else if rtype = DNS_RR_TYPE_NS ∨ rtype = DNS_RR_TYPE_CNAME ∨ rtype = DNS_RR_TYPE_PTR ∨
    rtype = DNS_RR_TYPE_MX ∨ rtype = DNS_RR_TYPE_SRV ∨ rtype = DNS_RR_TYPE_NSEC then 1
  else 0

/-- What may follow the names: five numbers of 32 bits in a SOA record. -/
def TailOk (rtype : UInt16) (tail : List UInt8) : Prop :=
  nameCount rtype = 0 ∨ rtype = DNS_RR_TYPE_NSEC ∨
    tail.length = if rtype = DNS_RR_TYPE_SOA then 20 else 0

instance (rtype : UInt16) (tail : List UInt8) : Decidable (TailOk rtype tail) :=
  inferInstanceAs (Decidable (_ ∨ _))

/-- The class without the cache-flush bit, the type and the data without compression. -/
structure Content where
  rclass : UInt16
  rtype : UInt16
  front : List UInt8
  names : List (List (List UInt8))
  tail : List UInt8

namespace Content

/-- The data in full. -/
def rdata (c : Content) : List UInt8 := c.front ++ c.names.flatMap encoding ++ c.tail

/-- The same class, type and data, names up to ASCII case. -/
structure Agree (c d : Content) : Prop where
  rclass : c.rclass = d.rclass
  rtype : c.rtype = d.rtype
  front : c.front = d.front
  names : List.Forall₂ (List.Forall₂ EqFold) c.names d.names
  tail : c.tail = d.tail

/-- What stands in front of the data of the only answer in a response. Its owner is the root. -/
def header (c : Content) : List UInt8 :=
  [0, 0, 0x84, 0, 0, 0, 0, 1, 0, 0, 0, 0, 0, Memory.hi8 c.rtype, Memory.lo8 c.rtype,
    Memory.hi8 c.rclass, Memory.lo8 c.rclass, 0, 0, 0, 0,
    Memory.hi8 (UInt16.ofNat c.rdata.length), Memory.lo8 (UInt16.ofNat c.rdata.length)]

/-- The record without compression. -/
def full (c : Content) : List UInt8 × ℕ := (c.header ++ c.rdata, 13)

end Content

/-- The bytes of a name, up to the zero octet or the first compression pointer. -/
def inPlace : List Step → ℕ
  | [] => 1
  | .label chars :: steps => chars.length + 1 + inPlace steps
  | .hop :: _ => 2

/-- Names that stand one behind the other, from `pos` on up to `stop`. -/
inductive NamesAt (message : List UInt8) : ℕ → List (List Step) → ℕ → Prop
  | nil {pos : ℕ} : NamesAt message pos [] pos
  | cons {pos stop : ℕ} {steps : List Step} {names : List (List Step)}
      (h : Reads (message, pos) steps) (hrest : NamesAt message (pos + inPlace steps) names stop) :
      NamesAt message pos (steps :: names) stop

/-- A well-formed record, and what it says. -/
structure HasContent (x : List UInt8 × ℕ) (c : Content) : Prop where
  rclass : ∃ v, read16 x.1 (x.2 + 2) = some v ∧ c.rclass = v &&& ~~~MDNS_RCLASS_CACHE_FLUSH
  rtype : read16 x.1 x.2 = some c.rtype
  rdata : ∃ rdlength names stop, read16 x.1 (x.2 + 8) = some rdlength ∧
    x.2 + dnsResourceRecordSize + rdlength.toNat ≤ x.1.length ∧
    readBytes x.1 (x.2 + dnsResourceRecordSize) (frontSize c.rtype) = some c.front ∧
    NamesAt x.1 (x.2 + dnsResourceRecordSize + frontSize c.rtype) names stop ∧
    names.map labelsOf = c.names ∧ readBytes x.1 stop c.tail.length = some c.tail ∧
    stop + c.tail.length = x.2 + dnsResourceRecordSize + rdlength.toNat
  count : c.names.length = nameCount c.rtype
  tail : TailOk c.rtype c.tail
  size : c.rdata.length < 65536

theorem NamesAt.unique {message : List UInt8} {pos stop stop' : ℕ} {names names' : List (List Step)}
    (h : NamesAt message pos names stop) (h' : NamesAt message pos names' stop')
    (hlen : names.length = names'.length) : names = names' ∧ stop = stop' := by
  induction h generalizing names' with
  | nil =>
      cases h' with
      | nil => exact ⟨rfl, rfl⟩
      | cons _ _ => cases hlen
  | cons hname _ ih =>
      cases h' with
      | nil => cases hlen
      | cons hname' hrest' =>
          obtain rfl := hname.1.unique hname'.1
          obtain ⟨rfl, rfl⟩ := ih hrest' (Nat.succ.inj hlen)
          exact ⟨rfl, rfl⟩

/-- A well-formed record says one thing. -/
theorem HasContent.unique {x : List UInt8 × ℕ} {c d : Content} (hc : HasContent x c)
    (hd : HasContent x d) : c = d := by
  obtain ⟨v, hv, hclass⟩ := hc.rclass
  obtain ⟨v', hv', hclass'⟩ := hd.rclass
  obtain ⟨len, names, stop, hlen, -, hfront, hnames, hmap, htail, hend⟩ := hc.rdata
  obtain ⟨len', names', stop', hlen', -, hfront', hnames', hmap', htail', hend'⟩ := hd.rdata
  have htype : c.rtype = d.rtype := Option.some.inj (hc.rtype.symm.trans hd.rtype)
  have hcount : names.length = names'.length := by
    have hlength := congrArg List.length hmap
    have hlength' := congrArg List.length hmap'
    rw [List.length_map] at hlength hlength'
    rw [hlength, hlength', hc.count, hd.count, htype]
  rw [htype] at hfront hnames
  obtain ⟨rfl, rfl⟩ := hnames.unique hnames' hcount
  obtain rfl := Option.some.inj (hv.symm.trans hv')
  obtain rfl := Option.some.inj (hlen.symm.trans hlen')
  have htails : c.tail.length = d.tail.length := by omega
  rw [htails, htail'] at htail
  cases c
  cases d
  simp only at *
  rw [hclass, hclass', htype, Option.some.inj (hfront.symm.trans hfront'), ← hmap, hmap',
    Option.some.inj htail]

/-- The data as they stand in the message. -/
def rawData (x : List UInt8 × ℕ) : List UInt8 :=
  (x.1.drop (x.2 + dnsResourceRecordSize)).take ((read16 x.1 (x.2 + 8)).getD 0).toNat

/-! ## Comparisons that follow an order -/

/-- The result of a comparison tells how two keys are ordered. -/
def Orders {α : Type*} [LinearOrder α] (r : ℤ) (a b : α) : Prop := (r < 0 ↔ a < b) ∧ (0 < r ↔ b < a)

namespace Orders

variable {α : Type*} [LinearOrder α] {r r' : ℤ} {a b : α}

theorem of_lt_eq (hlt : r < 0 ↔ a < b) (heq : r = 0 ↔ a = b) : Orders r a b := by
  refine ⟨hlt, ?_⟩
  rcases lt_trichotomy a b with h | h | h
  · have hr := hlt.2 h
    simp [h.not_gt, hr.le]
  · have hr := heq.2 h
    simp [h, hr]
  · have hr : ¬ r < 0 := fun hr => h.not_gt (hlt.1 hr)
    have hr' : r ≠ 0 := fun hr => h.ne' (heq.1 hr)
    simp only [h, iff_true]
    omega

theorem eq_zero_iff (h : Orders r a b) : r = 0 ↔ a = b := by
  rw [le_antisymm_iff, ← not_lt, ← not_lt, h.1, h.2, not_lt, not_lt, le_antisymm_iff, and_comm]

theorem neg (h : Orders r a b) : Orders (-r) b a := by
  rw [Orders, Int.neg_neg_iff_pos, Int.neg_pos]
  exact ⟨h.2, h.1⟩

theorem sign_eq (h : Orders r a b) (h' : Orders r' a b) : r.sign = r'.sign := by
  rcases lt_trichotomy a b with hab | hab | hab
  · rw [Int.sign_eq_neg_one_of_neg (h.1.2 hab), Int.sign_eq_neg_one_of_neg (h'.1.2 hab)]
  · rw [h.eq_zero_iff.2 hab, h'.eq_zero_iff.2 hab]
  · rw [Int.sign_eq_one_of_pos (h.2.2 hab), Int.sign_eq_one_of_pos (h'.2.2 hab)]

theorem of_sign_eq (h : Orders r a b) (hsign : r'.sign = r.sign) : Orders r' a b := by
  rw [Orders, ← Int.sign_neg_iff, ← Int.sign_pos_iff, hsign, Int.sign_neg_iff, Int.sign_pos_iff]
  exact h

/-- Keys that begin alike. -/
theorem cons_iff {x : α} {s t : List α} : Orders r (x :: s) (x :: t) ↔ Orders r s t := by
  rw [Orders, Orders, List.cons_lt_cons_iff, List.cons_lt_cons_iff]
  simp

theorem cons_of_lt {x y : α} {s t : List α} (h : x < y) : Orders (-1) (x :: s) (y :: t) := by
  rw [Orders, List.cons_lt_cons_iff, List.cons_lt_cons_iff]
  simp [h, h.not_gt, h.ne']

theorem singleton_iff : Orders r [a] [b] ↔ Orders r a b := by
  rw [Orders, Orders, List.cons_lt_cons_iff, List.cons_lt_cons_iff]
  simp

end Orders

/-! ## Raw data -/

/-- Bytes are compared by their values. -/
def bytesKey (data : List UInt8) : List ℕ := data.map UInt8.toNat

section Raw

variable {n1 n2 : ℕ} {x y : UInt8} {a b : List UInt8}

theorem bytesKey_inj : bytesKey a = bytesKey b ↔ a = b :=
  (List.map_injective_iff.2 fun _ _ => UInt8.toNat_inj.1).eq_iff

/-- Different bytes. -/
theorem compareRaw_of_ne (h : x ≠ y) :
    compareRaw (n1 + 1) (n2 + 1) (x :: a) (y :: b) = some ((x.toNat : ℤ) - y.toNat) := by
  have hne : (x.toNat : ℤ) - y.toNat ≠ 0 := fun h0 => h (UInt8.toNat_inj.1 (by omega))
  simp only [compareRaw, memcmp, if_pos h, Option.map_some, if_neg hne, ite_self]

theorem compareRaw_cons :
    compareRaw (n1 + 1) (n2 + 1) (x :: a) (x :: b) = compareRaw n1 n2 a b := by
  simp only [compareRaw, memcmp, ne_eq, not_true_eq_false, if_false, gt_iff_lt,
    Nat.add_lt_add_iff_right]

/-- **Raw data are ordered by their bytes.** -/
theorem compareRaw_orders (ha : n1 ≤ a.length) (hb : n2 ≤ b.length) :
    ∃ r, compareRaw n1 n2 a b = some r ∧
      Orders r (bytesKey (a.take n1)) (bytesKey (b.take n2)) := by
  induction n1 generalizing n2 a b with
  | zero =>
      cases n2 with
      | zero => exact ⟨0, by simp [compareRaw, memcmp], by simp [Orders, bytesKey]⟩
      | succ n2 =>
          obtain ⟨y, b, rfl⟩ := List.exists_cons_of_length_pos (Nat.zero_lt_of_lt hb)
          exact ⟨-1, by simp [compareRaw, memcmp], by simp [Orders, bytesKey]⟩
  | succ n1 ih =>
      obtain ⟨x, a, rfl⟩ := List.exists_cons_of_length_pos (Nat.zero_lt_of_lt ha)
      cases n2 with
      | zero => exact ⟨1, by simp [compareRaw, memcmp], by simp [Orders, bytesKey]⟩
      | succ n2 =>
          obtain ⟨y, b, rfl⟩ := List.exists_cons_of_length_pos (Nat.zero_lt_of_lt hb)
          rw [List.take_succ_cons, List.take_succ_cons, bytesKey, bytesKey, List.map_cons,
            List.map_cons]
          by_cases hxy : x = y
          · subst hxy
            obtain ⟨r, hr, horders⟩ := ih (Nat.le_of_succ_le_succ ha) (Nat.le_of_succ_le_succ hb)
            exact ⟨r, compareRaw_cons.trans hr, Orders.cons_iff.2 horders⟩
          · have hne : x.toNat ≠ y.toNat := fun h => hxy (UInt8.toNat_inj.1 h)
            refine ⟨_, compareRaw_of_ne hxy, ?_⟩
            rw [Orders, List.cons_lt_cons_iff, List.cons_lt_cons_iff]
            simp only [hne, hne.symm, false_and, or_false]
            omega

end Raw

/-! ## Well-formed records -/

section Read

variable {message : List UInt8} {pos stop : ℕ} {s t : List Step} {x y : List UInt8 × ℕ}
  {c d : Content}

/-- A name is read in one way. -/
theorem encoded_unique (hs : Encoded message pos s) (ht : Encoded message pos t) : s = t := by
  induction hs generalizing t with
  | root h =>
      cases t with
      | nil => rfl
      | cons step t =>
          obtain ⟨n, hn, hzero⟩ := ht.cons_inv
          exact absurd (Option.some.inj (hn.symm.trans h)) hzero
  | @label pos n s hn hpos hmax hin hrest ih =>
      cases ht with
      | root h =>
          obtain rfl := Option.some.inj (hn.symm.trans h)
          exact absurd hpos (by decide)
      | label hn' _ _ _ hrest' =>
          obtain rfl := Option.some.inj (hn.symm.trans hn')
          rw [ih hrest']
      | hop hn' htag _ _ =>
          obtain rfl := Option.some.inj (hn.symm.trans hn')
          exact absurd htag (not_tag_of_le hmax)
  | @hop pos n low s hn htag hlow hrest ih =>
      cases ht with
      | root h =>
          obtain rfl := Option.some.inj (hn.symm.trans h)
          exact absurd htag (by decide)
      | label hn' _ hmax _ _ =>
          obtain rfl := Option.some.inj (hn.symm.trans hn')
          exact absurd htag (not_tag_of_le hmax)
      | hop hn' _ hlow' hrest' =>
          obtain rfl := Option.some.inj (hn.symm.trans hn')
          obtain rfl := Option.some.inj (hlow.symm.trans hlow')
          rw [ih hrest']

theorem frontSize_of_decompressed {rtype : UInt16} (h : Decompressed rtype) :
    frontSize rtype = 0 := by
  rcases h with rfl | rfl | rfl | rfl <;> rfl

theorem nameCount_of_decompressed {rtype : UInt16} (h : Decompressed rtype) :
    0 < nameCount rtype := by
  rcases h with rfl | rfl | rfl | rfl <;> decide

/-- The first name of a record that is compared by its name. -/
theorem HasContent.first (h : HasContent x c) (hname : Decompressed c.rtype) :
    ∃ s ls, Reads (x.1, x.2 + dnsResourceRecordSize) s ∧ c.names = labelsOf s :: ls := by
  obtain ⟨rdlength, names, stop, -, -, -, hnames, heq, -, -⟩ := h.rdata
  rw [frontSize_of_decompressed hname] at hnames
  cases hnames with
  | nil =>
      have hcount := nameCount_of_decompressed hname
      rw [← h.count, ← heq] at hcount
      exact absurd hcount (Nat.lt_irrefl 0)
  | cons hs _ => exact ⟨_, _, hs, heq.symm⟩

theorem HasContent.rawData_length (h : HasContent x c) : ∃ rdlength,
    read16 x.1 (x.2 + 8) = some rdlength ∧
    rdlength.toNat ≤ (x.1.drop (x.2 + dnsResourceRecordSize)).length ∧
    rawData x = (x.1.drop (x.2 + dnsResourceRecordSize)).take rdlength.toNat := by
  obtain ⟨rdlength, names, stop, hlen, hin, -⟩ := h.rdata
  refine ⟨rdlength, hlen, ?_, ?_⟩
  · rw [List.length_drop]
    omega
  · rw [rawData, hlen, Option.getD_some]

end Read

/-! ## The key of a record -/

/-- The comparison of two records, each given by a message and a position. -/
def compareRecord (x y : List UInt8 × ℕ) : Option ℤ := mdnsCompareRecord x.1 x.2 y.1 y.2

/-- The position of the data. -/
def dataOf (x : List UInt8 × ℕ) : List UInt8 × ℕ := (x.1, x.2 + dnsResourceRecordSize)

namespace Content

/-- What the order of the data depends on. The second name of a SOA record and its numbers are not
looked at. -/
def dataKey (c : Content) : List (List ℕ) :=
  if Decompressed c.rtype then nameKey (c.names.headD []) else [bytesKey c.rdata]

/-- What the order of a record depends on. -/
def key (c : Content) : List (List ℕ) := [c.rclass.toNat] :: [c.rtype.toNat] :: c.dataKey

end Content

section Key

variable {x y : List UInt8 × ℕ} {c d : Content} {a b : UInt16} {s t : List (List ℕ)}

theorem orders_of_lt (h : a < b) : Orders (-1) ([a.toNat] :: s) ([b.toNat] :: t) :=
  .cons_of_lt (List.cons_lt_cons_iff.2 (.inl (UInt16.lt_iff_toNat_lt.1 h)))

theorem orders_of_gt (h : b < a) : Orders 1 ([a.toNat] :: s) ([b.toNat] :: t) :=
  (orders_of_lt h).neg

theorem lt_eq_gt (a b : UInt16) : a < b ∨ a = b ∨ b < a := by
  simp only [UInt16.lt_iff_toNat_lt, ← UInt16.toNat_inj]
  exact lt_trichotomy _ _

/-- Records of one class and type are compared by their data. -/
theorem compareRecord_alike (hx : HasContent x c) (hy : HasContent y d)
    (hclass : c.rclass = d.rclass) (htype : c.rtype = d.rtype) : compareRecord x y =
      if Decompressed c.rtype then compareEncoded (dataOf x) (dataOf y)
      else compareRaw (rawData x).length (rawData y).length (x.1.drop (dataOf x).2)
        (y.1.drop (dataOf y).2) := by
  obtain ⟨v, hv, hcv⟩ := hx.rclass
  obtain ⟨w, hw, hdw⟩ := hy.rclass
  obtain ⟨m, hm, hmle, hmraw⟩ := hx.rawData_length
  obtain ⟨n, hn, hnle, hnraw⟩ := hy.rawData_length
  have hvw : v &&& ~~~MDNS_RCLASS_CACHE_FLUSH = w &&& ~~~MDNS_RCLASS_CACHE_FLUSH := by
    rw [← hcv, ← hdw, hclass]
  have hmlen : (rawData x).length = m.toNat := by rw [hmraw, List.length_take, Nat.min_eq_left hmle]
  have hnlen : (rawData y).length = n.toNat := by rw [hnraw, List.length_take, Nat.min_eq_left hnle]
  rw [compareRecord, mdnsCompareRecord, hv, hw, hx.rtype, hy.rtype, hm, hn, hmlen, hnlen, htype]
  simp only [Option.bind_eq_bind, Option.bind_some, hvw, gt_iff_lt, UInt16.lt_irrefl, if_false]
  rfl

/-- **The order of records.** -/
theorem compareRecord_orders (hx : HasContent x c) (hy : HasContent y d)
    (hdata : c.rclass = d.rclass → c.rtype = d.rtype →
      ∃ r, compareRecord x y = some r ∧ Orders r c.dataKey d.dataKey) :
    ∃ r, compareRecord x y = some r ∧ Orders r c.key d.key := by
  obtain ⟨v, hv, hcv⟩ := hx.rclass
  obtain ⟨w, hw, hdw⟩ := hy.rclass
  have hrec : compareRecord x y = mdnsCompareRecord x.1 x.2 y.1 y.2 := rfl
  rw [mdnsCompareRecord, hv, hw, hx.rtype, hy.rtype] at hrec
  simp only [Option.bind_eq_bind, Option.bind_some, ← hcv, ← hdw] at hrec
  rcases lt_eq_gt c.rclass d.rclass with hlt | hclass | hgt
  · rw [if_pos hlt] at hrec
    exact ⟨-1, hrec, orders_of_lt hlt⟩
  · rcases lt_eq_gt c.rtype d.rtype with hlt | htype | hgt
    · simp only [hclass, gt_iff_lt, UInt16.lt_irrefl, if_false, if_pos hlt] at hrec
      refine ⟨-1, hrec, ?_⟩
      rw [Content.key, Content.key, hclass, Orders.cons_iff]
      exact orders_of_lt hlt
    · obtain ⟨r, hr, horders⟩ := hdata hclass htype
      refine ⟨r, hr, ?_⟩
      rw [Content.key, Content.key, hclass, htype, Orders.cons_iff, Orders.cons_iff]
      exact horders
    · simp only [hclass, gt_iff_lt, UInt16.lt_irrefl, if_false, if_neg (UInt16.lt_asymm hgt),
        if_pos hgt] at hrec
      refine ⟨1, hrec, ?_⟩
      rw [Content.key, Content.key, hclass, Orders.cons_iff]
      exact orders_of_gt hgt
  · rw [if_neg (UInt16.lt_asymm hgt), if_pos hgt] at hrec
    exact ⟨1, hrec, orders_of_gt hgt⟩

/-- The comparison of raw data of one class and type. -/
theorem compareRecord_raw (hx : HasContent x c) (hy : HasContent y d)
    (hclass : c.rclass = d.rclass) (htype : c.rtype = d.rtype) (hraw : ¬ Decompressed c.rtype) :
    ∃ r, compareRecord x y = some r ∧ Orders r (bytesKey (rawData x)) (bytesKey (rawData y)) := by
  obtain ⟨m, -, hmle, hmraw⟩ := hx.rawData_length
  obtain ⟨n, -, hnle, hnraw⟩ := hy.rawData_length
  have hmlen : (rawData x).length = m.toNat := by rw [hmraw, List.length_take, Nat.min_eq_left hmle]
  have hnlen : (rawData y).length = n.toNat := by rw [hnraw, List.length_take, Nat.min_eq_left hnle]
  obtain ⟨r, hr, horders⟩ := compareRaw_orders hmle hnle
  rw [compareRecord_alike hx hy hclass htype, if_neg hraw, hmlen, hnlen]
  rw [← hmraw, ← hnraw] at horders
  exact ⟨r, hr, horders⟩

end Key

end Mdns
