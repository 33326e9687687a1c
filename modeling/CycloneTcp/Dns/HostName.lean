import CycloneTcp.Dns.NameRoundTrip
import CycloneTcp.Dns.ResolverRuns
import CycloneTcp.Ip.Ipv6Text

set_option autoImplicit false

/-! # Host names

`getHostByName` takes an address as it is and looks up any other string over DNS or NBNS. The string
is copied to the cache entry without a look at its length, and each query is made from the entry. A
label that cannot be encoded makes the DNS encoder return 0, which is taken for a length, and the
NBNS encoder cuts a name off behind 15 characters. -/

namespace Dns.Resolver

open CString
open Nbns (chars lettersAt Letters IsLetter space nbnsEncodeName encodeChar nbnsCompareName
  nbnsParseName)

def HOST_TYPE_IPV4 : UInt32 := 16

def HOST_TYPE_IPV6 : UInt32 := 32

def HOST_NAME_RESOLVER_DNS : UInt32 := 1

def HOST_NAME_RESOLVER_MDNS : UInt32 := 2

def HOST_NAME_RESOLVER_NBNS : UInt32 := 4

def DNS_OPCODE_QUERY : UInt16 := 0

def DNS_RCODE_NO_ERROR : UInt16 := 0

def NBNS_MAX_LIFETIME : UInt32 := 60000

/-- `sizeof(NbnsAddrEntry)`. -/
def nbnsAddrEntrySize : UInt16 := 6

/-! ## Addresses -/

/-- The address that a string is converted to. -/
inductive IpAddr
  | unspecified
  | ipv4 (ipv4Addr : Output UInt8)
  | ipv6 (ipv6Addr : Output UInt16)

/-- Nothing has been stored behind the address. -/
def IpAddr.Confined : IpAddr → Prop
  | .unspecified => True
  | .ipv4 addr => ∀ k ∈ addr.stored, k < 4
  | .ipv6 addr => ∀ k ∈ addr.stored, k < 8

instance (ipAddr : IpAddr) : Decidable ipAddr.Confined :=
  match ipAddr with
  | .unspecified => .isTrue trivial
  | .ipv4 addr => inferInstanceAs (Decidable (∀ k ∈ addr.stored, k < 4))
  | .ipv6 addr => inferInstanceAs (Decidable (∀ k ∈ addr.stored, k < 8))

/-- The octets of the address. -/
def IpAddr.octets : IpAddr → List UInt8
  | .unspecified => []
  | .ipv4 addr => addr.cells.read 0 4
  | .ipv6 addr => (addr.cells.read 0 8).flatMap htons

/-- Convert a string representation of an IP address to a binary IP address. -/
def ipStringToAddr (str : List UInt8) : Option (ErrorCode × IpAddr) :=
  if 58 ∈ str then
    match Ipv6Text.ipv6StringToAddr (str ++ [0]) (.init fun _ => 0) with
    | none => none
    | some (error, addr) => some (error, .ipv6 addr)
  else if 46 ∈ str then
    match ipv4StringToAddr (str ++ [0]) (.init fun _ => 0) with
    | none => none
    | some (error, addr) => some (error, .ipv4 addr)
  else some (.failure, .unspecified)

/-! ## The choice of a protocol -/

/-- The type of address asked for. -/
def hostType (flags : UInt32) : HostType :=
  if flags &&& HOST_TYPE_IPV4 ≠ 0 then .ipv4
  else if flags &&& HOST_TYPE_IPV6 ≠ 0 then .ipv6
  else .ipv4

/-- The protocol that a name is resolved with, without the mDNS client. -/
def hostProtocol (flags : UInt32) (name : List UInt8) : HostnameResolver :=
  if flags &&& HOST_NAME_RESOLVER_DNS ≠ 0 then .dns
  else if flags &&& HOST_NAME_RESOLVER_MDNS ≠ 0 then .mdns
  else if flags &&& HOST_NAME_RESOLVER_NBNS ≠ 0 then .nbns
  -- `".local"`
  else if name.length ≥ 6 ∧ EqFold (name.drop (name.length - 6)) [46, 108, 111, 99, 97, 108] then
    .dns
  else if name.length ≤ 15 ∧ separator ∉ name ∧ hostType flags = .ipv4 then .nbns
  else .dns

section Model

variable {I : Type*} [DecidableEq I]

/-- Resolve a host name into an IP address, up to where it begins to wait. There is no result when
something is written behind the address or the cache entry. -/
def getHostByName (env : Env I) (interface : I) (name : List UInt8) (flags : UInt32)
    (port id : UInt16) (s : System I) :
    Option (ErrorCode × Option (List UInt8) × System I × List (Query I)) :=
  match ipStringToAddr name with
  | none => none
  | some (error, ipAddr) =>
      if ¬ ipAddr.Confined then none
      else if error = .noError then some (.noError, some ipAddr.octets, s, [])
      else
        match hostProtocol flags name with
        | .dns => dnsResolve env interface name (hostType flags) port id s
        | .nbns => nbnsResolve env interface name s
        | _ => some (.invalidParameter, none, s, [])

/-! ## NBNS responses -/

/-- `nbnsProcessResponse`, for one entry. `outside` is the result of a comparison that reads behind
the name. -/
def nbnsRespondEntry (message : List UInt8) (id : UInt16) (addr : List UInt8) (ttl time : UInt32)
    (outside : Bool) (entry : CacheEntry I) : CacheEntry I :=
  if entry.state = .inProgress ∧ entry.protocol = .nbns ∧ entry.type = .ipv4 then
    if entry.id = id then
      if (nbnsCompareName message dnsHeaderSize entry.name).getD outside then
        { entry with
          ipAddr := addr
          timestamp := time
          timeout := min (ttl * 1000) NBNS_MAX_LIFETIME
          state := .resolved }
      else entry
    else entry
  else entry

/-- `nbnsProcessResponse`, up to the loop over the cache: the identifier, the TTL and the address, if
the message has an answer. -/
def nbnsAnswer (message : List UInt8) : Option (Option (UInt16 × UInt32 × List UInt8)) := do
  let qdcount ← read16 message 4
  let ancount ← read16 message 6
  if qdcount ≠ 0 ∧ ancount ≠ 1 then return none
  let (pos, _) ← nbnsParseName message dnsHeaderSize none
  if pos = 0 then return none
  if message.length < pos + dnsResourceRecordSize then return none
  let rdlength ← read16 message (pos + 8)
  if message.length < pos + dnsResourceRecordSize + rdlength.toNat then return none
  let rclass ← read16 message (pos + 2)
  if rclass ≠ DNS_RR_CLASS_IN then return none
  let rtype ← read16 message pos
  if rtype ≠ DNS_RR_TYPE_NB then return none
  if rdlength < nbnsAddrEntrySize then return none
  let id ← read16 message 0
  let ttl ← read32 message (pos + 4)
  -- the address stands behind the flags
  let addr ← readBytes message (pos + dnsResourceRecordSize + 2) 4
  return some (id, ttl, addr)

/-- Process NBNS response message. -/
def nbnsProcessResponse (message : List UInt8) (time : UInt32) (outside : Bool) (s : System I) :
    Option (System I) :=
  match nbnsAnswer message with
  | none => none
  | some none => some s
  | some (some (id, ttl, addr)) =>
      some { s with dnsCache := s.dnsCache.map (nbnsRespondEntry message id addr ttl time outside) }

/-- Process incoming NBNS message; `peer` is the type of its source address. A query is left to the
responder. -/
def nbnsProcessMessage (message : List UInt8) (peer : HostType) (time : UInt32) (outside : Bool)
    (s : System I) : Option (System I) :=
  if peer ≠ .ipv4 then some s
  else if message.length < dnsHeaderSize ∨ DNS_MESSAGE_MAX_SIZE < message.length then some s
  else
    match read16 message 2 with
    | none => none
    | some flags =>
        if (flags >>> 11) &&& 0x0F ≠ DNS_OPCODE_QUERY then some s
        else if flags &&& 0x0F ≠ DNS_RCODE_NO_ERROR then some s
        else if flags &&& 0x8000 = 0 then some s
        else nbnsProcessResponse message time outside s

/-! ## Events -/

inductive HostEvent (I : Type*)
  | getHostByName (env : Env I) (interface : I) (name : List UInt8) (flags : UInt32)
      (port id : UInt16)
  | dnsTick (env : Env I)
  | udpReceive (message : List UInt8) (interface : I) (destPort : UInt16) (time : UInt32)
      (outside : ℤ)
  | nbnsReceive (message : List UInt8) (peer : HostType) (time : UInt32) (outside : Bool)
  | dnsFlushCache (interface : I)

/-- One event. A call that writes something behind an object is left out. -/
def hostStep (s : System I) : HostEvent I → System I
  | .getHostByName env interface name flags port id =>
      match getHostByName env interface name flags port id s with
      | none => s
      | some (_, _, s, _) => s
  | .dnsTick env => (dnsTick env s).1
  | .udpReceive message interface destPort time outside =>
      (udpInvokeRxCallback message interface destPort time outside s).getD s
  | .nbnsReceive message peer time outside => (nbnsProcessMessage message peer time outside s).getD s
  | .dnsFlushCache interface => dnsFlushCache interface s

/-- The type of address that a cache entry is looked for with. -/
def lookupType (flags : UInt32) (name : List UInt8) : HostType :=
  if hostProtocol flags name = .nbns then .ipv4 else hostType flags

/-- The entry that a name is found in. -/
def hostEntry (interface : I) (name : List UInt8) (flags : UInt32) (s : System I) :
    Option (CacheEntry I) :=
  dnsFindEntry interface name (lookupType flags name) (hostProtocol flags name) s.dnsCache

/-- The entry of index `i` is taken for another name. -/
def Replaces (i : ℕ) (s : System I) : HostEvent I → Prop
  | .getHostByName env interface name flags _ _ =>
      hostEntry interface name flags s = none ∧ createIndex env.time s.dnsCache = i
  | _ => False

/-- Nothing is written behind an object. -/
def Confined (s : System I) : HostEvent I → Prop
  | .getHostByName env interface name flags port id =>
      getHostByName env interface name flags port id s ≠ none
  | _ => True

end Model

/-! ## Questions -/

/-- The labels of a name, each with its length in front, and what follows the name. `k` bounds the
number of lengths. -/
def readLabels : ℕ → List UInt8 → Option (List (List UInt8) × List UInt8)
  | k + 1, n :: rest =>
      if n = 0 then some ([], rest)
      else if DNS_LABEL_MAX_SIZE < n.toNat ∨ rest.length < n.toNat then none
      else
        match readLabels k (rest.drop n.toNat) with
        | none => none
        | some (ls, left) => some (rest.take n.toNat :: ls, left)
  | _, _ => none

/-- A name in DNS notation whose labels are those of `name`, a type and a class. -/
def IsDnsQuestion (name question : List UInt8) : Prop :=
  ∃ rest, readLabels question.length question = some (labels name, rest) ∧ rest.length = 4

/-- A NetBIOS name, padded with spaces, that is `name` up to case, a type and a class. -/
def IsNbnsQuestion (name question : List UInt8) : Prop :=
  question.length = 38 ∧ question[0]? = some 32 ∧ question[33]? = some 0 ∧
    Letters (lettersAt question 0) ∧
    EqFold ((chars (lettersAt question 0)).take 15)
      (name ++ List.replicate (15 - name.length) space)

def IsQuestion (protocol : HostnameResolver) (name question : List UInt8) : Prop :=
  match protocol with
  | .dns => IsDnsQuestion name question
  | .nbns => IsNbnsQuestion name question
  | _ => False

/-- A message that asks one question, which is for a name. -/
structure AsksFor (protocol : HostnameResolver) (name message : List UInt8) : Prop where
  fits : message.length ≤ DNS_MESSAGE_MAX_SIZE
  header : ∃ b0 b1 b2 b3, message.take dnsHeaderSize = [b0, b1, b2, b3, 0, 1, 0, 0, 0, 0, 0, 0]
  question : IsQuestion protocol name (message.drop dnsHeaderSize)

section Labels

variable {ls : List (List UInt8)} {label name text : List UInt8}

theorem length_lt_encoding (ls : List (List UInt8)) : ls.length < (encoding ls).length := by
  induction ls with
  | nil => exact Nat.one_pos
  | cons l ls ih =>
      rw [encoding_cons, List.length_append, labelBytes_length, List.length_cons]
      omega

/-- What has been encoded is read again. -/
theorem readLabels_encoding (h : ∀ l ∈ ls, LabelOk l) {k : ℕ} (hk : ls.length < k)
    (rest : List UInt8) : readLabels k (encoding ls ++ rest) = some (ls, rest) := by
  induction ls generalizing k with
  | nil =>
      obtain ⟨k, rfl⟩ := Nat.exists_eq_add_of_lt hk
      simp [readLabels, encoding_nil]
  | cons l ls ih =>
      obtain ⟨k, rfl⟩ := Nat.exists_eq_succ_of_ne_zero (Nat.ne_of_gt (Nat.zero_lt_of_lt hk))
      have hok := h l List.mem_cons_self
      have hlength := hok.toNat_length
      rw [encoding_cons, labelBytes, List.cons_append, List.cons_append, readLabels,
        if_neg hok.ne_zero, hlength, if_neg]
      · rw [List.append_assoc, List.drop_left, List.take_left,
          ih (fun d hd => h d (List.mem_cons_of_mem _ hd)) (Nat.lt_of_succ_lt_succ hk)]
      · rw [List.append_assoc, List.length_append]
        have := hok.2
        omega

theorem encoding_labels_length (text : List UInt8) :
    (encoding (labels text)).length = text.length + 2 := by
  induction text using text_induction with
  | last label h =>
      rw [labels_last h, encoding_cons, encoding_nil, List.length_append, labelBytes_length]
      rfl
  | cons label rest h ih =>
      rw [labels_cons h, encoding_cons, List.length_append, labelBytes_length, ih,
        List.length_append, List.length_cons]
      omega

theorem length_le_of_mem_labels (h : label ∈ labels text) : label.length ≤ text.length := by
  induction text using text_induction with
  | last l hsep =>
      rw [labels_last hsep, List.mem_singleton] at h
      rw [h]
  | cons l rest hsep ih =>
      rw [labels_cons hsep, List.mem_cons] at h
      rw [List.length_append, List.length_cons]
      rcases h with rfl | h
      · exact Nat.le_add_right _ _
      · have := ih h
        omega

/-- Folding does not change where a name is split. -/
theorem labels_map_toLower (text : List UInt8) :
    labels (text.map toLower) = (labels text).map (List.map toLower) := by
  have hdot : toLower separator = separator := rfl
  have hsep : ∀ l : List UInt8, separator ∉ l → separator ∉ l.map toLower := by
    intro l hl hmem
    obtain ⟨c, hc, heq⟩ := List.mem_map.1 hmem
    refine hl ?_
    rwa [toLower_eq_dot.1 heq] at hc
  induction text using text_induction with
  | last label h => rw [labels_last h, labels_last (hsep label h), List.map_singleton]
  | cons label rest h ih =>
      rw [labels_cons h, List.map_append, List.map_cons, hdot,
        labels_cons (hsep label h), ih, List.map_cons]

/-- No label is empty, whatever the case of the letters. -/
theorem nonempty_of_eqFold (h : EqFold text name) (hname : ∀ l ∈ labels name, l ≠ []) :
    ∀ l ∈ labels text, l ≠ [] := by
  rintro l hl rfl
  have hmem : [] ∈ (labels text).map (List.map toLower) := List.mem_map.2 ⟨[], hl, rfl⟩
  rw [← labels_map_toLower, h, labels_map_toLower] at hmem
  obtain ⟨l, hl, heq⟩ := List.mem_map.1 hmem
  exact hname l hl (List.map_eq_nil_iff.1 heq)

theorem labelOk_of_nonempty (hlength : name.length ≤ DNS_MAX_NAME_LEN)
    (hname : ∀ l ∈ labels name, l ≠ []) : ∀ l ∈ labels name, LabelOk l := by
  intro l hl
  exact ⟨List.length_pos_of_ne_nil (hname l hl), (length_le_of_mem_labels hl).trans hlength⟩

end Labels

section Letters

variable {s tail : List UInt8}

theorem encodeLoop_letters (k : ℕ) (s : List UInt8) : Letters (Nbns.encodeLoop k s) := by
  have hstep : ∀ (c : UInt8) (ls : List UInt8), Letters ls → Letters (encodeChar c ++ ls) :=
    fun c ls hls => Nbns.letters_cons.2 ⟨Nbns.encodeChar_letters c, hls⟩
  induction k generalizing s with
  | zero => exact nofun
  | succ k ih =>
      cases s with
      | nil => exact hstep space _ (ih [])
      | cons c s => exact hstep (toUpper c) _ (ih s)

/-- The characters that the encoder writes. -/
theorem chars_encodeLoop (k : ℕ) (s tail : List UInt8) : chars (Nbns.encodeLoop k s ++ tail) =
    (s.take k).map toUpper ++ List.replicate (k - s.length) space ++ chars tail := by
  have hstep : ∀ (c : UInt8) (ls : List UInt8), chars (encodeChar c ++ ls) = c :: chars ls := by
    intro c ls
    show Nbns.decodeChar _ _ :: chars ls = _
    rw [Nbns.decodeChar_encode]
  induction k generalizing s with
  | zero => simp [Nbns.encodeLoop]
  | succ k ih =>
      cases s with
      | nil =>
          rw [Nbns.encodeLoop, List.append_assoc, hstep, ih]
          simp [List.replicate_succ]
      | cons c s =>
          rw [Nbns.encodeLoop, List.append_assoc, hstep, ih]
          simp

theorem toLower_toUpper (c : UInt8) : toLower (toUpper c) = toLower c :=
  Nbns.forall_octet (P := fun c => toLower (toUpper c) = toLower c) (by decide +kernel) c

theorem eqFold_toUpper (s : List UInt8) : EqFold (s.map toUpper) s := by
  rw [EqFold, List.map_map]
  exact List.map_congr_left fun c _ => toLower_toUpper c

end Letters

/-! ## Queries -/

/-- The names that can be asked for over a protocol. -/
def Acceptable (protocol : HostnameResolver) (name : List UInt8) : Prop :=
  match protocol with
  | .dns => name.length ≤ DNS_MAX_NAME_LEN ∧ ∀ l ∈ labels name, l ≠ []
  | .nbns => name.length ≤ 15
  | _ => True

section Queries

variable {I : Type*} {e : CacheEntry I} {name : List UInt8}

theorem acceptable_of_eqFold {protocol : HostnameResolver} {text : List UInt8}
    (h : EqFold text name) (hname : Acceptable protocol name) : Acceptable protocol text := by
  cases protocol with
  | dns => exact ⟨h.length_eq.trans_le hname.1, nonempty_of_eqFold h hname.2⟩
  | nbns => exact h.length_eq.trans_le hname
  | any => trivial
  | mdns => trivial
  | llmnr => trivial

theorem encodedName_of_labelOk (h : ∀ l ∈ labels (str name), LabelOk l) :
    encodedName name = encoding (labels (str name)) := by
  have heq := dnsEncodeName_of_labelOk (fun _ => 0) (some 0) h
  have hread := dnsEncodeName_read (fun _ => 0) 0 h
  rw [heq] at hread
  rw [encodedName, heq]
  exact hread

/-- A name that cannot be encoded is left out. -/
theorem encodedName_of_not_labelOk (h : ¬ ∀ l ∈ labels (str name), LabelOk l) :
    encodedName name = [] := by
  have hzero : (dnsEncodeName (fun _ => 0) (str name) (some 0)).1 = 0 := encodeLoop_of_not_labelOk h
  rw [encodedName]
  dsimp only
  rw [hzero]
  rfl

theorem asksFor_of_question {protocol : HostnameResolver} {id : UInt16} {b2 b3 : UInt8}
    {question : List UInt8} (hlength : question.length ≤ 500)
    (h : IsQuestion protocol name question) :
    AsksFor protocol name (queryHeader id [b2, b3] ++ question) := by
  refine ⟨?_, ⟨_, _, _, _, rfl⟩, h⟩
  rw [List.length_append]
  show 12 + question.length ≤ 512
  omega

theorem dnsSendQuery_asks {env : Env I} {transport : ErrorCode} {q : Query I}
    (h : Acceptable .dns (str e.name)) (hq : q ∈ (dnsSendQuery env transport e).2) :
    AsksFor .dns (str e.name) q.message := by
  have hok := labelOk_of_nonempty h.1 h.2
  have hlength := encoding_labels_length (str e.name)
  have hbound : (str e.name).length ≤ 63 := h.1
  rw [dnsSendQuery] at hq
  by_cases htype : e.type = .any
  · rw [if_pos htype] at hq
    cases hq
  by_cases hserver : e.dnsServerNum ≥ DNS_SERVER_LIST_SIZE
  · rw [if_neg htype, if_pos hserver] at hq
    cases hq
  rw [if_neg htype, if_neg hserver] at hq
  cases hdest : env.dnsServerList e.interface e.type e.dnsServerNum with
  | none =>
      rw [hdest] at hq
      cases hq
  | some destIpAddr =>
      rw [hdest] at hq
      dsimp only at hq
      by_cases hsent : transport ≠ .noError
      · rw [if_pos hsent] at hq
        cases hq
      rw [if_neg hsent] at hq
      obtain rfl := List.mem_singleton.1 hq
      simp only [List.append_assoc, encodedName_of_labelOk hok]
      refine asksFor_of_question ?_ ⟨_, readLabels_encoding hok ?_ _, rfl⟩
      · rw [List.length_append, hlength]
        show _ + 4 ≤ _
        omega
      · rw [List.length_append]
        exact (length_lt_encoding _).trans_le (Nat.le_add_right _ _)

/-- The question of an NBNS query. -/
theorem isNbnsQuestion_encode (hname : name.length ≤ 15) {rest : List UInt8}
    (hrest : rest.length = 4) : IsNbnsQuestion name (nbnsEncodeName name ++ rest) := by
  have hletters : (Nbns.encodeLoop 15 name ++ encodeChar 0).length = 32 := by
    rw [List.length_append, Nbns.encodeLoop_length]
    rfl
  have hquestion : nbnsEncodeName name ++ rest =
      32 :: (Nbns.encodeLoop 15 name ++ encodeChar 0 ++ 0 :: rest) := by
    simp [nbnsEncodeName]
  have hat : lettersAt (nbnsEncodeName name ++ rest) 0 = Nbns.encodeLoop 15 name ++ encodeChar 0 := by
    rw [lettersAt, hquestion, Nat.zero_add, List.drop_succ_cons, List.drop_zero, ← hletters,
      List.take_left]
  refine ⟨?_, ?_, ?_, ?_, ?_⟩
  · rw [List.length_append, Nbns.nbnsEncodeName_length, hrest]
  · rw [hquestion]
    rfl
  · rw [hquestion, List.getElem?_cons_succ, List.getElem?_append_right (Nat.le_of_eq hletters),
      hletters]
    rfl
  · rw [hat]
    intro b hb
    rcases List.mem_append.1 hb with hb | hb
    · exact encodeLoop_letters 15 name b hb
    · exact (Nbns.letters_cons.2 ⟨Nbns.encodeChar_letters 0, List.forall_mem_nil _⟩ : Letters (encodeChar 0)) b hb
  · have hlength : ((name.take 15).map toUpper ++
        List.replicate (15 - name.length) space).length = 15 := by
      simp only [List.length_append, List.length_map, List.length_take, List.length_replicate]
      omega
    rw [hat, chars_encodeLoop, List.take_left' hlength, List.take_of_length_le hname]
    exact (eqFold_toUpper name).append (.refl _)

theorem nbnsSendQuery_asks {env : Env I} {transport : ErrorCode} {q : Query I}
    (h : Acceptable .nbns (str e.name)) (hq : q ∈ (nbnsSendQuery env transport e).2) :
    AsksFor .nbns (str e.name) q.message := by
  rw [nbnsSendQuery] at hq
  split_ifs at hq
  · cases hq
  obtain rfl := List.mem_singleton.1 hq
  simp only [List.append_assoc]
  refine asksFor_of_question ?_ (isNbnsQuestion_encode h rfl)
  rw [List.length_append, Nbns.nbnsEncodeName_length]
  exact (by decide : 34 + 4 ≤ 500)

/-- A query for an entry asks for the name of the entry. -/
theorem sendQuery_asks {env : Env I} {transport : ErrorCode} {q : Query I}
    (h : Acceptable e.protocol (str e.name)) (hq : q ∈ (sendQuery env transport e).2) :
    AsksFor e.protocol (str e.name) q.message := by
  rw [sendQuery] at hq
  cases hprotocol : e.protocol with
  | dns =>
      rw [hprotocol] at hq h
      exact dnsSendQuery_asks h hq
  | nbns =>
      rw [hprotocol] at hq h
      exact nbnsSendQuery_asks h hq
  | any =>
      rw [hprotocol] at hq
      cases hq
  | mdns =>
      rw [hprotocol] at hq
      cases hq
  | llmnr =>
      rw [hprotocol] at hq
      cases hq

end Queries

end Dns.Resolver
