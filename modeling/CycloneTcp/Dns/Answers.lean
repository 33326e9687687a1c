import CycloneTcp.Dns.HostQueries

set_option autoImplicit false

/-! # Where the addresses in the cache come from

A resolved entry has its address from a response to a query of its own. The DNS client looks for the
identifier, the port and the question, and takes the first address of the right type whoever owns it;
it does not look at the server that sent the response. The NBNS client looks at the owner. -/

namespace Dns.Resolver

open CString
open Nbns (nbnsParseName nbnsCompareName)

/-! ## Records -/

/-- The owner and the fields of the record that `k` others stand in front of, from the record at `pos`
on. -/
def recordAt (message : List UInt8) : ℕ → ℕ → Option (ℕ × ℕ)
  | k, pos =>
      match dnsParseName message pos none 0 with
      | none => none
      | some (record, _) =>
          if record = 0 then none
          else
            match k with
            | 0 => some (pos, record)
            | k + 1 =>
                match read16 message (record + 8) with
                | none => none
                | some rdlength =>
                    recordAt message k (record + dnsResourceRecordSize + rdlength.toNat)

/-- The type of the records that hold an address. -/
def addrRecordType (type : HostType) : UInt16 :=
  if type = .ipv4 then DNS_RR_TYPE_A else DNS_RR_TYPE_AAAA

/-- A record of the right type and length holds the address. -/
structure HoldsAddr (message : List UInt8) (type : HostType) (record : ℕ) (ipAddr : List UInt8) :
    Prop where
  rtype : read16 message record = some (addrRecordType type)
  rdlength : ∃ rdlength, read16 message (record + 8) = some rdlength ∧
    rdlength.toNat = type.addrSize
  rdata : readBytes message (record + dnsResourceRecordSize) type.addrSize = some ipAddr

/-- A DNS response to the query of an entry, with an address among the answers that it counts. -/
structure DnsAnswer (message : List UInt8) (destPort : UInt16) (outside : ℤ) (e : DnsCacheEntry)
    (ipAddr : List UInt8) : Prop where
  waits : e.state = .inProgress ∧ e.protocol = .dns ∧ e.port = destPort
  response : ∃ flags, message[2]? = some flags ∧ flags &&& 0x80 ≠ 0
  success : ∃ flags, message[3]? = some flags ∧ flags &&& 0x0F = 0
  id : read16 message 0 = some e.id
  qdcount : read16 message 4 = some 1
  answer : ∃ pos out ancount k owner record, dnsParseName message dnsHeaderSize none 0 = some (pos, out) ∧
    (dnsCompareName message dnsHeaderSize e.name 0).getD outside = 0 ∧
    read16 message pos = some (addrRecordType e.type) ∧
    read16 message (pos + 2) = some DNS_RR_CLASS_IN ∧
    read16 message 6 = some ancount ∧ k < ancount.toNat ∧
    recordAt message k (pos + dnsQuestionSize) = some (owner, record) ∧
    HoldsAddr message e.type record ipAddr

/-- An NBNS response to the query of an entry, with a record of that name behind the header. -/
structure NbnsAnswer (message : List UInt8) (outside : Bool) (e : DnsCacheEntry)
    (ipAddr : List UInt8) : Prop where
  waits : e.state = .inProgress ∧ e.protocol = .nbns
  response : ∃ flags, read16 message 2 = some flags ∧ flags &&& 0x8000 ≠ 0 ∧
    (flags >>> 11) &&& 0x0F = DNS_OPCODE_QUERY ∧ flags &&& 0x0F = DNS_RCODE_NO_ERROR
  id : read16 message 0 = some e.id
  owner : (nbnsCompareName message dnsHeaderSize e.name).getD outside
  record : ∃ pos out rdlength, nbnsParseName message dnsHeaderSize none = some (pos, out) ∧
    read16 message pos = some DNS_RR_TYPE_NB ∧ read16 message (pos + 2) = some DNS_RR_CLASS_IN ∧
    read16 message (pos + 8) = some rdlength ∧ nbnsAddrEntrySize ≤ rdlength ∧
    pos + dnsResourceRecordSize + rdlength.toNat ≤ message.length ∧
    readBytes message (pos + dnsResourceRecordSize + 2) 4 = some ipAddr

section Records

variable {message : List UInt8} {type : HostType}

/-- The walk ends with a record among those that are counted. -/
theorem answersLoop_recordAt {count pos record : ℕ} {positions : List ℕ}
    (h : answersLoop message type count pos = some (some record, positions)) :
    ∃ k owner, k < count ∧ recordAt message k pos = some (owner, record) ∧
      read16 message record = some (addrRecordType type) ∧ type ≠ .any ∧
      ∃ rdlength, read16 message (record + 8) = some rdlength ∧ rdlength.toNat = type.addrSize := by
  induction count generalizing pos positions with
  | zero => cases h
  | succ count ih =>
      rw [answersLoop] at h
      cases hparse : dnsParseName message pos none 0 with
      | none =>
          rw [hparse] at h
          cases h
      | some parsed =>
          obtain ⟨p, out⟩ := parsed
          rw [hparse] at h
          dsimp only at h
          by_cases hzero : p = 0
          · rw [if_pos hzero] at h
            cases h
          by_cases hshort : message.length < p + dnsResourceRecordSize
          · rw [if_neg hzero, if_pos hshort] at h
            cases h
          rw [if_neg hzero, if_neg hshort] at h
          cases hrtype : read16 message p with
          | none =>
              rw [hrtype] at h
              cases h
          | some rtype =>
              cases hrdlength : read16 message (p + 8) with
              | none =>
                  rw [hrtype, hrdlength] at h
                  cases h
              | some rdlength =>
                  rw [hrtype, hrdlength] at h
                  dsimp only at h
                  have hfirst : recordAt message 0 pos = some (pos, p) := by
                    rw [recordAt, hparse]
                    exact if_neg hzero
                  split_ifs at h with hdata hipv4 hipv6
                  · cases h
                  · cases h
                    obtain ⟨rfl, rfl, rfl⟩ := hipv4
                    exact ⟨0, pos, Nat.succ_pos _, hfirst, hrtype, by decide, 4, hrdlength, rfl⟩
                  · cases h
                    obtain ⟨rfl, rfl, rfl⟩ := hipv6
                    exact ⟨0, pos, Nat.succ_pos _, hfirst, hrtype, by decide, 16, hrdlength, rfl⟩
                  · split at h
                    · cases h
                    · rename_i hrest
                      cases h
                      obtain ⟨k, owner, hk, hrecord, hfound⟩ := ih hrest
                      refine ⟨k + 1, owner, Nat.succ_lt_succ hk, ?_, hfound⟩
                      rw [recordAt, hparse]
                      refine (if_neg hzero).trans ?_
                      dsimp only
                      rw [hrdlength]
                      exact hrecord

theorem ne_any_cases {type : HostType} (h : type ≠ .any) : type = .ipv4 ∨ type = .ipv6 := by
  cases type with
  | any => exact absurd rfl h
  | ipv4 => exact .inl rfl
  | ipv6 => exact .inr rfl

/-- A condition that would lead to another result does not hold. -/
theorem of_ite_eq {α : Type*} {c : Prop} [Decidable c] {x y z : α} (h : (if c then x else y) = z)
    (hne : x ≠ z) : ¬ c ∧ y = z := by
  by_cases hc : c
  · rw [if_pos hc] at h
    exact absurd h hne
  · exact ⟨hc, (if_neg hc).symm.trans h⟩

/-- An entry is resolved by an answer to its query. -/
theorem processEntry_answer {time : UInt32} {outside : ℤ} {destPort : UInt16}
    {entry next : DnsCacheEntry} (h : processEntry message time outside entry = some next)
    (hwaits : entry.state = .inProgress ∧ entry.protocol = .dns ∧ entry.port = destPort)
    (hresolved : next.state = .resolved)
    (hresponse : ∃ flags, message[2]? = some flags ∧ flags &&& 0x80 ≠ 0)
    (hqdcount : read16 message 4 = some 1) :
    DnsAnswer message destPort outside entry next.ipAddr := by
  have hne : some entry ≠ some next := fun heq => by
    rw [← Option.some.inj heq, hwaits.1] at hresolved
    cases hresolved
  have hdel : some (Dns.dnsDeleteEntry entry) ≠ some next := fun heq => by
    rw [← Option.some.inj heq] at hresolved
    cases hresolved
  simp only [processEntry, Option.bind_eq_bind, Option.pure_def] at h
  obtain ⟨id, hid, h⟩ := Option.bind_eq_some_iff.1 h
  obtain ⟨hsame, h⟩ := of_ite_eq h hne
  obtain ⟨⟨pos, out⟩, hparse, h⟩ := Option.bind_eq_some_iff.1 h
  obtain ⟨hpos, h⟩ := of_ite_eq h hne
  obtain ⟨hlength, h⟩ := of_ite_eq h hne
  obtain ⟨hname, h⟩ := of_ite_eq h hne
  obtain ⟨qtype, hqtype, h⟩ := Option.bind_eq_some_iff.1 h
  obtain ⟨qclass, hqclass, h⟩ := Option.bind_eq_some_iff.1 h
  obtain ⟨hclass, h⟩ := of_ite_eq h hne
  obtain ⟨hipv4, h⟩ := of_ite_eq h hne
  obtain ⟨hipv6, h⟩ := of_ite_eq h hne
  obtain ⟨flags, hflags, h⟩ := Option.bind_eq_some_iff.1 h
  obtain ⟨hrcode, h⟩ := of_ite_eq h hdel
  obtain ⟨ancount, hancount, h⟩ := Option.bind_eq_some_iff.1 h
  obtain ⟨⟨found, positions⟩, hloop, h⟩ := Option.bind_eq_some_iff.1 h
  cases found with
  | none => exact absurd h hne
  | some record =>
      obtain ⟨k, owner, hk, hrecord, hrtype, hany, hrdlength⟩ := answersLoop_recordAt hloop
      have hqtype' : qtype = addrRecordType entry.type := by
        rcases ne_any_cases hany with htype | htype
        · rw [addrRecordType, if_pos htype]
          exact not_not.1 fun hq => hipv4 ⟨htype, hq⟩
        · rw [addrRecordType, if_neg (by rw [htype]; nofun)]
          exact not_not.1 fun hq => hipv6 ⟨htype, hq⟩
      have hdata : readBytes message (record + dnsResourceRecordSize) entry.type.addrSize =
          some next.ipAddr := by
        simp only [storeAnswer] at h
        split at h
        · rename_i ipAddr ttl hread _
          cases h
          exact hread
        · cases h
      refine ⟨hwaits, hresponse, ⟨flags, hflags, not_not.1 hrcode⟩, ?_, hqdcount, pos, out, ancount, k,
        owner, record, hparse, not_not.1 hname, ?_, ?_, hancount, hk, hrecord, hrtype, hrdlength, hdata⟩
      · rw [hid, not_not.1 hsame]
      · rw [hqtype, hqtype']
      · rw [hqclass, not_not.1 hclass]

/-- The record that an NBNS response answers with. -/
theorem nbnsAnswer_record {id : UInt16} {ttl : UInt32} {addr : List UInt8}
    (h : nbnsAnswer message = some (some (id, ttl, addr))) : read16 message 0 = some id ∧
      ∃ pos out rdlength, nbnsParseName message dnsHeaderSize none = some (pos, out) ∧
        read16 message pos = some DNS_RR_TYPE_NB ∧
        read16 message (pos + 2) = some DNS_RR_CLASS_IN ∧
        read16 message (pos + 8) = some rdlength ∧ nbnsAddrEntrySize ≤ rdlength ∧
        pos + dnsResourceRecordSize + rdlength.toNat ≤ message.length ∧
        readBytes message (pos + dnsResourceRecordSize + 2) 4 = some addr := by
  have hne : some none ≠ some (some (id, ttl, addr)) := nofun
  simp only [nbnsAnswer, Option.bind_eq_bind, Option.pure_def] at h
  obtain ⟨qdcount, -, h⟩ := Option.bind_eq_some_iff.1 h
  obtain ⟨ancount, -, h⟩ := Option.bind_eq_some_iff.1 h
  obtain ⟨-, h⟩ := of_ite_eq h hne
  obtain ⟨⟨pos, out⟩, hparse, h⟩ := Option.bind_eq_some_iff.1 h
  obtain ⟨-, h⟩ := of_ite_eq h hne
  obtain ⟨-, h⟩ := of_ite_eq h hne
  obtain ⟨rdlength, hrdlength, h⟩ := Option.bind_eq_some_iff.1 h
  obtain ⟨hfits, h⟩ := of_ite_eq h hne
  obtain ⟨rclass, hrclass, h⟩ := Option.bind_eq_some_iff.1 h
  obtain ⟨hclass, h⟩ := of_ite_eq h hne
  obtain ⟨rtype, hrtype, h⟩ := Option.bind_eq_some_iff.1 h
  obtain ⟨htype, h⟩ := of_ite_eq h hne
  obtain ⟨hsize, h⟩ := of_ite_eq h hne
  obtain ⟨id', hid, h⟩ := Option.bind_eq_some_iff.1 h
  obtain ⟨ttl', -, h⟩ := Option.bind_eq_some_iff.1 h
  obtain ⟨addr', haddr, h⟩ := Option.bind_eq_some_iff.1 h
  cases h
  exact ⟨hid, pos, out, rdlength, hparse, not_not.1 htype ▸ hrtype, not_not.1 hclass ▸ hrclass,
    hrdlength, UInt16.not_lt.1 hsize, Nat.not_lt.1 hfits, haddr⟩

end Records

/-! ## Runs -/

section Runs

variable {I : Type*} [DecidableEq I] {e e' : CacheEntry I}

/-- The event is a response to the query of an entry, and has the address. -/
def Answers (event : HostEvent I) (e : CacheEntry I) (ipAddr : List UInt8) : Prop :=
  match event with
  | .udpReceive message _ destPort _ outside =>
      DnsAnswer message destPort outside e.toDnsCacheEntry ipAddr
  | .nbnsReceive message _ _ outside => NbnsAnswer message outside e.toDnsCacheEntry ipAddr
  | _ => False

omit [DecidableEq I] in
theorem Answered.answers {event : HostEvent I} (h : Answered event e e') :
    Answers event e e'.ipAddr := by
  cases event with
  | udpReceive message interface destPort time outside =>
      obtain ⟨hstate, hprotocol, hport, -, -, hqr, hone, next, hnext, hresolved, rfl⟩ := h
      exact processEntry_answer hnext ⟨hstate, hprotocol, hport⟩ hresolved hqr hone
  | nbnsReceive message peer time outside =>
      obtain ⟨-, -, -, hflags, hstate, hprotocol, -, ttl, addr, hanswer, hname, rfl⟩ := h
      obtain ⟨hid, hrecord⟩ := nbnsAnswer_record hanswer
      exact ⟨⟨hstate, hprotocol⟩, hflags, hid, hname, hrecord⟩
  | getHostByName env interface name flags port id => exact h.elim
  | dnsTick env => exact h.elim
  | dnsFlushCache interface => exact h.elim

/-- An entry that is resolved after an event was so before, or the event answers its query. -/
theorem hostStep_resolved {s : System I} {event : HostEvent I} {i : ℕ}
    (he : s.dnsCache[i]? = some e) (he' : (hostStep s event).dnsCache[i]? = some e')
    (hresolved : e'.state = .resolved) :
    e'.name = e.name ∧ e'.protocol = e.protocol ∧
      (e.state = .resolved ∧ e'.ipAddr = e.ipAddr ∨ Answers event e e'.ipAddr) := by
  obtain ⟨d, hd, houtcome⟩ := hostStep_outcome event he
  obtain rfl := Option.some.inj (he'.symm.trans hd)
  cases houtcome with
  | kept hname hprotocol hstate => exact ⟨hname, hprotocol, .inl (hstate hresolved)⟩
  | answered hname hprotocol hanswer => exact ⟨hname, hprotocol, .inr hanswer.answers⟩
  | replaced _ hstate => exact absurd hresolved hstate

/-- **Where the addresses come from.** In every run from an empty cache, an entry that is resolved has
its address from a response to a query that was in progress for its name. -/
theorem run_resolved (size : ℕ) (interface : I) (udpCallbackTable : List (UdpRxCallbackDesc I))
    (events : List (HostEvent I)) (i : ℕ) (hi : i ≤ size) :
    ∃ e, (run hostStep (start size interface udpCallbackTable) events).dnsCache[i]? = some e ∧
      (e.state = .resolved → ∃ before event after e₀, events = before ++ event :: after ∧
        (run hostStep (start size interface udpCallbackTable) before).dnsCache[i]? = some e₀ ∧
        e₀.name = e.name ∧ Answers event e₀ e.ipAddr) := by
  induction events using List.reverseRecOn with
  | nil =>
      refine ⟨_, List.getElem?_replicate_of_lt (Nat.lt_succ_of_le hi), nofun⟩
  | append_singleton events event ih =>
      obtain ⟨e, he, hfrom⟩ := ih
      obtain ⟨e', he', -⟩ := hostStep_outcome event he
      rw [run_append, run_cons, run_nil]
      refine ⟨e', he', fun hresolved => ?_⟩
      obtain ⟨hname, -, ⟨hstate, hsame⟩ | hanswer⟩ := hostStep_resolved he he' hresolved
      · obtain ⟨before, event', after, e₀, rfl, he₀, hname₀, hanswer⟩ := hfrom hstate
        refine ⟨before, event', after ++ [event], e₀, by simp, he₀, hname₀.trans hname.symm, ?_⟩
        rwa [hsame]
      · exact ⟨events, event, [], e, rfl, he, hname.symm, hanswer⟩

end Runs

/-! ## A response over NBNS -/

/-- The name `"pc"`, asked for over NBNS, and a response with the address 192.0.2.9. -/
def nbnsRun : List (HostEvent Unit) :=
  [.getHostByName (oneServer Unit) () [112, 99] 4 0 0,
    .nbnsReceive ([0, 0, 0x84, 0, 0, 0, 0, 1, 0, 0, 0, 0] ++ Nbns.nbnsEncodeName [112, 99] ++
      [0, 32, 0, 1, 0, 0, 0, 60, 0, 6, 0, 0, 192, 0, 2, 9]) .ipv4 5 false]

theorem run_resolved_pc : ∃ before event after e₀, nbnsRun = before ++ event :: after ∧
    (run hostStep (start 0 () []) before).dnsCache[0]? = some e₀ ∧
    e₀.name = [112, 99] ++ List.replicate 62 0 ∧ Answers event e₀ [192, 0, 2, 9] := by
  obtain ⟨e, he, hfrom⟩ := run_resolved 0 () [] nbnsRun 0 (Nat.le_refl 0)
  have hentry : (run hostStep (start 0 () []) nbnsRun).dnsCache[0]? = some
      { newEntry ([112, 99] ++ List.replicate 62 0) .ipv4 .nbns () 0 0 with
        state := .resolved, ipAddr := [192, 0, 2, 9], timestamp := 5, timeout := 60000
        maxTimeout := 1000, retransmitCount := 2 } := by
    decide +kernel
  obtain rfl := Option.some.inj (he.symm.trans hentry)
  exact hfrom rfl

/-! ## An answer for another name -/

/-- The owner is the name, or it is reached from the name through CNAME records. -/
inductive Reached (message : List UInt8) (first count : ℕ) (name : List UInt8) : ℕ → Prop
  | name {p : ℕ} : dnsCompareName message p name 0 = some 0 → Reached message first count name p
  | cname {k owner record p : ℕ} : k < count → recordAt message k first = some (owner, record) →
      Reached message first count name owner → read16 message record = some 5 →
      dnsCompareEncodedName message (record + dnsResourceRecordSize) message p 0 = some 0 →
      Reached message first count name p

/-- A response to a question about `"a"`, with an address of the root in a record of class
`rclass`. -/
def rootAnswer (rclass : UInt8) : List UInt8 :=
  [0, 7, 0x80, 0, 0, 1, 0, 1, 0, 0, 0, 0] ++ [1, 97, 0, 0, 1, 0, 1] ++
    [0, 0, 1, 0, rclass, 0, 0, 0, 60, 0, 4, 192, 0, 2, 9]

/-- The entry for `"a"`. -/
def aEntry : CacheEntry Unit :=
  { newEntry ([97] ++ 0 :: List.replicate 62 0) .ipv4 .dns () 50000 7 with
    state := .inProgress, timestamp := 0, timeout := DNS_CLIENT_INIT_TIMEOUT
    maxTimeout := DNS_CLIENT_MAX_TIMEOUT, retransmitCount := DNS_CLIENT_MAX_RETRIES - 1
    sentTo := [0] }

/-- The query for it is in progress. -/
def asked : System Unit :=
  { dnsCache := [aEntry]
    udpCallbackTable := [{ interface := some (), port := 50000
                           callback := some .dnsProcessResponse }] }

theorem run_asked : run hostStep (oneEntry ())
    [.getHostByName (oneServer Unit) () [97] 1 50000 7] = asked := rfl

section Answer

variable (c : UInt8)

theorem at_a : At (rootAnswer c) dnsHeaderSize (labelBytes [97] ++ [0]) :=
  ⟨(rootAnswer c).drop 15, rfl⟩

theorem labelOk_a : LabelOk [97] := ⟨by decide, by decide⟩

theorem dnsParseName_a : dnsParseName (rootAnswer c) dnsHeaderSize none 0 = some (15, none) := by
  rw [dnsParseName, DNS_NAME_MAX_RECURSION, parseName,
    parseLoop_label (at_a c) labelOk_a (by decide), parseLoop_end (at_label (at_a c)).2.2.2]
  rfl

/-- The question is for the name of the entry. -/
theorem rootAnswer_name : dnsCompareName (rootAnswer c) dnsHeaderSize aEntry.name 0 = some 0 := by
  have hname : aEntry.name = [97] ++ 0 :: List.replicate 62 0 := rfl
  rw [dnsCompareName, DNS_NAME_MAX_RECURSION, compareName, hname,
    compareLoop_label (at_a c) labelOk_a (.refl _) (by decide), if_neg (by decide),
    if_neg (by decide), compareLoop_end (at_label (at_a c)).2.2.2, if_neg (by decide)]

/-- The owner of the answer is not. -/
theorem dnsCompareName_owner : dnsCompareName (rootAnswer c) 19 aEntry.name 0 = some (-1) := by
  have hname : aEntry.name = 97 :: 0 :: List.replicate 62 0 := rfl
  rw [dnsCompareName, DNS_NAME_MAX_RECURSION, compareName, hname,
    compareLoop_end (⟨(rootAnswer c).drop 20, rfl⟩ : At (rootAnswer c) 19 [0]), if_pos (by decide)]

theorem rootAnswer_answers : answersLoop (rootAnswer c) .ipv4 1 19 = some (some 20, [19]) := by
  rw [answersLoop, dnsParseName_root rfl]
  rfl

/-- The entry takes the address. -/
theorem rootAnswer_processed : processEntry (rootAnswer c) 5 0 aEntry.toDnsCacheEntry =
    some { aEntry.toDnsCacheEntry with
      ipAddr := [192, 0, 2, 9], timestamp := 5, timeout := 60000, state := .resolved } := by
  rw [processEntry, dnsParseName_a, rootAnswer_name]
  exact (congrArg (fun found => Option.bind found _) (rootAnswer_answers c)).trans rfl

/-- What the response leaves behind. -/
def answered : System Unit :=
  { dnsCache := [{ aEntry with
      ipAddr := [192, 0, 2, 9], timestamp := 5, timeout := 60000, state := .resolved }]
    udpCallbackTable := [{ interface := some (), port := 50000, callback := none }] }

theorem rootAnswer_received : run hostStep (oneEntry ())
    ([.getHostByName (oneServer Unit) () [97] 1 50000 7] ++
      [.udpReceive (rootAnswer c) () 50000 5 0]) = answered := by
  have hentry : respondEntry (rootAnswer c) () 5 0 aEntry asked.udpCallbackTable =
      some (answered.dnsCache[0], answered.udpCallbackTable) := by
    rw [respondEntry, rootAnswer_processed]
    rfl
  have hloop : respondLoop (rootAnswer c) () 50000 5 0 asked.dnsCache asked.udpCallbackTable =
      some (answered.dnsCache, answered.udpCallbackTable) := by
    rw [show asked.dnsCache = [aEntry] from rfl, respondLoop, if_pos (by decide), hentry]
    rfl
  have hprocess : dnsProcessResponse (rootAnswer c) () 50000 5 0 asked = some answered := by
    have hlength : (rootAnswer c).length = 34 := rfl
    rw [dnsProcessResponse, hlength, if_neg (by decide), hloop]
    rfl
  have hinvoke : udpInvokeRxCallback (rootAnswer c) () 50000 5 0 asked = some answered := by
    show invokeLoop (rootAnswer c) () 50000 5 0 1 0 asked = some answered
    rw [invokeLoop, show asked.udpCallbackTable[0]? = some { interface := some (), port := 50000
                                                             callback := some _ } from rfl]
    dsimp only
    rw [if_pos (by decide), hprocess]
    rfl
  rw [run_append, run_asked, run_cons, run_nil, hostStep, hinvoke, Option.getD_some]

/-- There is one record, and it is no CNAME record. -/
theorem rootAnswer_records {k owner record : ℕ} (hk : k < (1 : UInt16).toNat)
    (h : recordAt (rootAnswer c) k (15 + dnsQuestionSize) = some (owner, record)) :
    owner = 19 ∧ record = 20 := by
  have hfirst : recordAt (rootAnswer c) 0 (15 + dnsQuestionSize) = some (19, 20) := by
    rw [recordAt, dnsParseName_root rfl]
    rfl
  obtain rfl : k = 0 := Nat.lt_one_iff.1 hk
  exact Prod.mk.inj (Option.some.inj (h.symm.trans hfirst))

end Answer

/-- A datagram with its source. The headers are handed on to the callback, but nothing there reads
the source. -/
structure Datagram where
  srcAddr : List UInt8
  srcPort : UInt16
  destPort : UInt16
  message : List UInt8

/-- The datagram resolves an entry that was in progress before. -/
structure Resolves (events : List (HostEvent Unit)) (d : Datagram) (e e' : CacheEntry Unit) :
    Prop where
  before : (run hostStep (oneEntry ()) events).dnsCache[0]? = some e
  inProgress : e.state = .inProgress
  after : ∃ time outside, (run hostStep (oneEntry ())
    (events ++ [.udpReceive d.message () d.destPort time outside])).dnsCache[0]? = some e'
  resolved : e'.state = .resolved

theorem rootAnswer_resolves (c : UInt8) (srcAddr : List UInt8) (srcPort : UInt16) :
    Resolves [.getHostByName (oneServer Unit) () [97] 1 50000 7]
      ⟨srcAddr, srcPort, 50000, rootAnswer c⟩ aEntry
      { aEntry with
        ipAddr := [192, 0, 2, 9], timestamp := 5, timeout := 60000, state := .resolved } := by
  refine ⟨by rw [run_asked]; rfl, rfl, ⟨5, 0, ?_⟩, rfl⟩
  rw [rootAnswer_received]
  rfl

/-- Among the records that the message counts, there is one as described; the description also
knows where the records begin and how many there are. -/
def HasRecord (message : List UInt8) (P : ℕ → ℕ → ℕ → ℕ → Prop) : Prop :=
  ∃ pos out ancount, dnsParseName message dnsHeaderSize none 0 = some (pos, out) ∧
    read16 message 6 = some ancount ∧ ∃ k owner record, k < UInt16.toNat ancount ∧
      recordAt message k (pos + dnsQuestionSize) = some (owner, record) ∧
      P (pos + dnsQuestionSize) ancount.toNat owner record

theorem HasRecord.rootAnswer {c : UInt8} {P : ℕ → ℕ → ℕ → ℕ → Prop}
    (h : HasRecord (rootAnswer c) P) : P (15 + dnsQuestionSize) 1 19 20 := by
  obtain ⟨pos, out, ancount, hparse, hancount, k, owner, record, hk, hrecord, hP⟩ := h
  obtain ⟨rfl, -⟩ := Prod.mk.inj (Option.some.inj (hparse.symm.trans (dnsParseName_a c)))
  obtain rfl : ancount = 1 := (Option.some.inj hancount).symm
  obtain ⟨rfl, rfl⟩ := rootAnswer_records c hk hrecord
  exact hP

/-- A server that the last query of the entry was sent to has this address. -/
def Queried (events : List (HostEvent Unit)) (e : CacheEntry Unit) (addr : List UInt8) : Prop :=
  ∃ env i, ((∃ interface name flags port id,
      .getHostByName env interface name flags port id ∈ events) ∨ .dnsTick env ∈ events) ∧
    e.sentTo.getLast? = some i ∧ env.dnsServerList e.interface e.type i = some addr

/-- An address of the root is taken for one of `"a"`, also if it is in a record of class 3, and
whatever the address is that the datagram comes from. -/
theorem run_resolved_root :
    (¬ ∀ events d e e', Resolves events d e e' → HasRecord d.message fun first count owner record =>
      Reached d.message first count e.name owner ∧ HoldsAddr d.message e.type record e'.ipAddr) ∧
    (¬ ∀ events d e e', Resolves events d e e' → HasRecord d.message fun _ _ _ record =>
      read16 d.message (record + 2) = some DNS_RR_CLASS_IN ∧
        HoldsAddr d.message e.type record e'.ipAddr) ∧
    ¬ ∀ events d e e', Resolves events d e e' →
      d.srcPort = DNS_PORT ∧ Queried events e d.srcAddr := by
  refine ⟨fun h => ?_, fun h => ?_, fun h => ?_⟩
  · obtain ⟨hreached, -⟩ := (h _ _ _ _ (rootAnswer_resolves 1 [192, 0, 2, 1] DNS_PORT)).rootAnswer
    cases hreached with
    | name hname => cases hname.symm.trans (dnsCompareName_owner 1)
    | cname hk hrecord _ htype _ =>
        -- there is one record, and it is no CNAME record
        obtain ⟨-, rfl⟩ := rootAnswer_records 1 hk hrecord
        cases htype
  · obtain ⟨hclass, -⟩ := (h _ _ _ _ (rootAnswer_resolves 3 [192, 0, 2, 1] DNS_PORT)).rootAnswer
    exact absurd hclass (by decide)
  · obtain ⟨-, env, i, henv, hlast, haddr⟩ :=
      h _ _ _ _ (rootAnswer_resolves 1 [198, 51, 100, 1] DNS_PORT)
    obtain rfl : env = oneServer Unit := by
      rcases henv with ⟨interface, name, flags, port, id, hmem⟩ | hmem
      · cases List.mem_singleton.1 hmem
        rfl
      · cases List.mem_singleton.1 hmem
    cases haddr

end Dns.Resolver
