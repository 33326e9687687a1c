import CycloneTcp.Common.Error
import CycloneTcp.Dns.NameParse
import CycloneTcp.Lib.Serial

set_option autoImplicit false

/-! # The DNS client

`dnsProcessResponse` looks for the cache entry a response belongs to, checks the question, and goes
through the answers for the first address. The system time is a 32-bit number of milliseconds. -/

namespace Dns

open CString

def DNS_MESSAGE_MAX_SIZE : ℕ := 512

def DNS_CLIENT_MAX_RETRIES : ℕ := 3

def DNS_CLIENT_INIT_TIMEOUT : UInt32 := 1000

def DNS_MIN_LIFETIME : UInt32 := 1000

def DNS_MAX_LIFETIME : UInt32 := 3600000

def DNS_RR_CLASS_IN : UInt16 := 1

def DNS_RR_TYPE_A : UInt16 := 1

def DNS_RR_TYPE_AAAA : UInt16 := 28

/-- `sizeof(DnsHeader)`. -/
def dnsHeaderSize : ℕ := 12

/-- `sizeof(DnsQuestion)`. -/
def dnsQuestionSize : ℕ := 4

/-- `sizeof(DnsResourceRecord)`. -/
def dnsResourceRecordSize : ℕ := 10

/-! ## The cache -/

/-- DNS cache entry states. -/
inductive DnsState where
  | none
  | inProgress
  | resolved
  | permanent
  deriving DecidableEq, Repr

inductive HostType where
  | any
  | ipv4
  | ipv6
  deriving DecidableEq, Repr

/-- `sizeof(Ipv4Addr)` and `sizeof(Ipv6Addr)`. -/
def HostType.addrSize : HostType → ℕ
  | .ipv4 => 4
  | _ => 16

inductive HostnameResolver where
  | any
  | dns
  | mdns
  | nbns
  | llmnr
  deriving DecidableEq, Repr

/-- DNS cache entry. The network interface is left out. -/
structure DnsCacheEntry where
  state : DnsState
  type : HostType
  protocol : HostnameResolver
  dnsServerNum : ℕ
  port : UInt16
  id : UInt16
  name : List UInt8
  ipAddr : List UInt8
  timestamp : UInt32
  timeout : UInt32
  maxTimeout : UInt32
  retransmitCount : ℕ
  deriving DecidableEq

/-- Delete the specified DNS cache entry. -/
def dnsDeleteEntry (entry : DnsCacheEntry) : DnsCacheEntry := { entry with state := .none }

/-- `timeCompare(t1, t2)`: the sign of the difference of two clock readings. -/
def timeCompare (t1 t2 : UInt32) : ℤ := Serial.cmp t1 t2

/-- `dnsTick`, for one entry. `sendQuery` is what sending a query for an entry returns: a query over
an unknown protocol fails. -/
def dnsTickEntry (sendQuery : DnsCacheEntry → ErrorCode) (time : UInt32) (entry : DnsCacheEntry) :
    DnsCacheEntry :=
  match entry.state with
  | .inProgress =>
      if timeCompare time (entry.timestamp + entry.timeout) ≥ 0 then
        if entry.retransmitCount > 0 then
          if sendQuery entry = .noError then
            { entry with
              timestamp := time
              timeout := min (entry.timeout * 2) entry.maxTimeout
              retransmitCount := entry.retransmitCount - 1 }
          else dnsDeleteEntry entry
        else if entry.protocol = .dns then
          -- select the next DNS server
          let entry := { entry with
            dnsServerNum := entry.dnsServerNum + 1
            retransmitCount := DNS_CLIENT_MAX_RETRIES }
          if sendQuery entry = .noError then
            { entry with
              timestamp := time
              timeout := DNS_CLIENT_INIT_TIMEOUT
              retransmitCount := entry.retransmitCount - 1 }
          else dnsDeleteEntry entry
        else dnsDeleteEntry entry
      else entry
  | .resolved =>
      if timeCompare time (entry.timestamp + entry.timeout) ≥ 0 then dnsDeleteEntry entry else entry
  | _ => entry

/-- DNS timer handler. -/
def dnsTick (sendQuery : DnsCacheEntry → ErrorCode) (time : UInt32) (dnsCache : List DnsCacheEntry) :
    List DnsCacheEntry :=
  dnsCache.map (dnsTickEntry sendQuery time)

/-! ## Responses -/

section Response

variable (message : List UInt8)

/-- `ntohs` of a field. -/
def read16 (pos : ℕ) : Option UInt16 :=
  match message[pos]?, message[pos + 1]? with
  | some b0, some b1 => some (UInt16.ofNat (b0.toNat * 256 + b1.toNat))
  | _, _ => none

/-- `ntohl` of a field. -/
def read32 (pos : ℕ) : Option UInt32 :=
  match read16 message pos, read16 message (pos + 2) with
  | some high, some low => some (UInt32.ofNat (high.toNat * 65536 + low.toNat))
  | _, _ => none

/-- The loop over `count` answers: the first record with an address of the type expected, and the
positions of the answers that were looked at. -/
def answersLoop (type : HostType) : ℕ → ℕ → Option (Option ℕ × List ℕ)
  | 0, _ => some (none, [])
  | count + 1, pos =>
      match dnsParseName message pos none 0 with
      | none => none
      | some (record, _) =>
          if record = 0 then some (none, [pos])
          else if message.length < record + dnsResourceRecordSize then some (none, [pos])
          else
            match read16 message record, read16 message (record + 8) with
            | some rtype, some rdlength =>
                if message.length < record + dnsResourceRecordSize + rdlength.toNat then
                  some (none, [pos])
                else if type = .ipv4 ∧ rtype = DNS_RR_TYPE_A ∧ rdlength = 4 then
                  some (some record, [pos])
                else if type = .ipv6 ∧ rtype = DNS_RR_TYPE_AAAA ∧ rdlength = 16 then
                  some (some record, [pos])
                else
                  match answersLoop type count
                    (record + dnsResourceRecordSize + rdlength.toNat) with
                  | none => none
                  | some (found, positions) => some (found, pos :: positions)
            | _, _ => none

/-- The lifetime of an entry, from a TTL in seconds. -/
def entryTimeout (ttl : UInt32) : UInt32 :=
  let timeout := ttl * 1000
  -- limit the lifetime of the DNS cache entries
  let timeout := if timeout ≥ DNS_MAX_LIFETIME then DNS_MAX_LIFETIME else timeout
  if timeout ≤ DNS_MIN_LIFETIME then DNS_MIN_LIFETIME else timeout

/-- The address of a record is stored. -/
def storeAnswer (time : UInt32) (entry : DnsCacheEntry) (record : ℕ) : Option DnsCacheEntry :=
  match readBytes message (record + dnsResourceRecordSize) entry.type.addrSize,
    read32 message (record + 4) with
  | some ipAddr, some ttl =>
      some { entry with
        ipAddr := ipAddr
        timestamp := time
        timeout := entryTimeout ttl
        state := .resolved }
  | _, _ => none

/-- What `dnsProcessResponse` does with the entry that waits on the port of the response. -/
def processEntry (time : UInt32) (entry : DnsCacheEntry) : Option DnsCacheEntry := do
  let id ← read16 message 0
  if id ≠ entry.id then return entry
  let (pos, _) ← dnsParseName message dnsHeaderSize none 0
  if pos = 0 then return entry
  if message.length < pos + dnsQuestionSize then return entry
  let res ← dnsCompareName message dnsHeaderSize entry.name 0
  if res ≠ 0 then return entry
  let qtype ← read16 message pos
  let qclass ← read16 message (pos + 2)
  if qclass ≠ DNS_RR_CLASS_IN then return entry
  if entry.type = .ipv4 ∧ qtype ≠ DNS_RR_TYPE_A then return entry
  if entry.type = .ipv6 ∧ qtype ≠ DNS_RR_TYPE_AAAA then return entry
  let flags ← message[3]?
  -- the entry should be deleted since name resolution has failed
  if flags &&& 0x0F ≠ 0 then return dnsDeleteEntry entry
  let ancount ← read16 message 6
  let (found, _) ← answersLoop message entry.type ancount.toNat (pos + dnsQuestionSize)
  match found with
  | none => return entry
  | some record => storeAnswer message time entry record

/-- The answer that a response is accepted for: the first one of the right type among as many as the
header says, behind the question. -/
def acceptedRecord (type : HostType) : Option ℕ := do
  let (pos, _) ← dnsParseName message dnsHeaderSize none 0
  let ancount ← read16 message 6
  let (found, _) ← answersLoop message type ancount.toNat (pos + dnsQuestionSize)
  found

/-- The loop over the cache entries ends with the first entry that waits on the port. -/
def entriesLoop (destPort : UInt16) (time : UInt32) :
    List DnsCacheEntry → Option (List DnsCacheEntry)
  | [] => some []
  | entry :: entries =>
      if entry.state = .inProgress ∧ entry.protocol = .dns ∧ entry.port = destPort then
        (processEntry message time entry).map (· :: entries)
      else (entriesLoop destPort time entries).map (entry :: ·)

/-- Process incoming DNS response message. -/
def dnsProcessResponse (destPort : UInt16) (time : UInt32) (dnsCache : List DnsCacheEntry) :
    Option (List DnsCacheEntry) :=
  if message.length < dnsHeaderSize ∨ DNS_MESSAGE_MAX_SIZE < message.length then some dnsCache
  else
    match message[2]?, read16 message 4 with
    | some flags, some qdcount =>
        -- `qr` is set, and the message contains one question
        if flags &&& 0x80 = 0 ∨ qdcount ≠ 1 then some dnsCache
        else entriesLoop message destPort time dnsCache
    | _, _ => none

end Response

/-! ## The walk over the answers -/

section Walk

variable {message : List UInt8} {pos : ℕ}

theorem read16_isSome (h : pos + 2 ≤ message.length) : ∃ v, read16 message pos = some v := by
  obtain ⟨b0, h0⟩ := getElem?_lt (show pos < message.length by omega)
  obtain ⟨b1, h1⟩ := getElem?_lt (show pos + 1 < message.length by omega)
  exact ⟨_, by rw [read16, h0, h1]⟩

theorem read32_isSome (h : pos + 4 ≤ message.length) : ∃ v, read32 message pos = some v := by
  obtain ⟨high, hhigh⟩ := read16_isSome (show pos + 2 ≤ message.length by omega)
  obtain ⟨low, hlow⟩ := read16_isSome (show pos + 2 + 2 ≤ message.length by omega)
  exact ⟨_, by rw [read32, hhigh, hlow]⟩

/-- The answers are looked at in the order of their positions. -/
structure Ascends (message : List UInt8) (pos : ℕ) (positions : List ℕ) : Prop where
  chain : positions.IsChain (· < ·)
  head : ∀ p ∈ positions.head?, p = pos
  le : ∀ p ∈ positions, p = pos ∨ p ≤ message.length

theorem ascends_singleton (message : List UInt8) (pos : ℕ) : Ascends message pos [pos] :=
  ⟨List.IsChain.singleton pos, by simp, by simp⟩

theorem Ascends.cons {q : ℕ} {positions : List ℕ} (h : Ascends message q positions) (hlt : pos < q)
    (hle : q ≤ message.length) : Ascends message pos (pos :: positions) := by
  refine ⟨?_, by simp, fun p hp => ?_⟩
  · cases positions with
    | nil => exact List.IsChain.singleton pos
    | cons p positions =>
        obtain rfl : p = q := h.head p rfl
        exact List.isChain_cons_cons.2 ⟨hlt, h.chain⟩
  · rcases List.mem_cons.1 hp with rfl | hp
    · exact .inl rfl
    · exact .inr ((h.le p hp).elim (fun heq => heq ▸ hle) id)

/-- The walk comes to an end, stays in the message and goes up; a record that is found lies inside.
-/
theorem answersLoop_ascends (message : List UInt8) (type : HostType) (count pos : ℕ) :
    ∃ found positions, answersLoop message type count pos = some (found, positions) ∧
      Ascends message pos positions ∧
      ∀ record ∈ found, record + dnsResourceRecordSize + type.addrSize ≤ message.length := by
  induction count generalizing pos with
  | zero => exact ⟨none, [], rfl, ⟨List.IsChain.nil, by simp, by simp⟩, by simp⟩
  | succ count ih =>
      obtain ⟨record, out, hparse, hrecord, -⟩ := dnsParseName_decodes message pos none 0
      rw [answersLoop, hparse]
      dsimp only
      split_ifs with hzero hshort
      · exact ⟨none, [pos], rfl, ascends_singleton message pos, by simp⟩
      · exact ⟨none, [pos], rfl, ascends_singleton message pos, by simp⟩
      · have hend : record + 10 ≤ message.length := Nat.not_lt.1 hshort
        obtain ⟨rtype, hrtype⟩ := read16_isSome (show record + 2 ≤ message.length by omega)
        obtain ⟨rdlength, hrdlength⟩ := read16_isSome (show record + 8 + 2 ≤ message.length by omega)
        rw [hrtype, hrdlength]
        dsimp only
        split_ifs with hdata hipv4 hipv6
        · exact ⟨none, [pos], rfl, ascends_singleton message pos, by simp⟩
        · refine ⟨some record, [pos], rfl, ascends_singleton message pos, ?_⟩
          intro _ hrecord'
          obtain rfl := Option.mem_some.1 hrecord'
          rw [hipv4.2.2] at hdata
          rw [hipv4.1]
          exact Nat.not_lt.1 hdata
        · refine ⟨some record, [pos], rfl, ascends_singleton message pos, ?_⟩
          intro _ hrecord'
          obtain rfl := Option.mem_some.1 hrecord'
          rw [hipv6.2.2] at hdata
          rw [hipv6.1]
          exact Nat.not_lt.1 hdata
        · obtain ⟨found, positions, hrest, hascends, hfound⟩ :=
            ih (record + dnsResourceRecordSize + rdlength.toNat)
          have hgt := hrecord.resolve_left hzero
          exact ⟨found, pos :: positions, by rw [hrest], hascends.cons (by omega) (Nat.not_lt.1 hdata),
            hfound⟩

/-- A record of another type is skipped. -/
theorem answersLoop_skip {type : HostType} {count record : ℕ} {out : Option (List UInt8)}
    {rtype rdlength : UInt16} {found : Option ℕ} {positions : List ℕ}
    (hparse : dnsParseName message pos none 0 = some (record, out)) (hrecord : record ≠ 0)
    (hrtype : read16 message record = some rtype)
    (hrdlength : read16 message (record + 8) = some rdlength)
    (hle : record + dnsResourceRecordSize + rdlength.toNat ≤ message.length)
    (hipv4 : ¬ (type = .ipv4 ∧ rtype = DNS_RR_TYPE_A ∧ rdlength = 4))
    (hipv6 : ¬ (type = .ipv6 ∧ rtype = DNS_RR_TYPE_AAAA ∧ rdlength = 16))
    (hrest : answersLoop message type count (record + dnsResourceRecordSize + rdlength.toNat) =
      some (found, positions)) :
    answersLoop message type (count + 1) pos = some (found, pos :: positions) := by
  rw [answersLoop, hparse]
  dsimp only
  rw [if_neg hrecord, if_neg (by omega), hrtype, hrdlength]
  dsimp only
  rw [if_neg (by omega), if_neg hipv4, if_neg hipv6, hrest]

/-- **Names are decoded inside the message, in bounded space, and a response is walked upwards.** -/
theorem dnsParseName_total (message : List UInt8) :
    (∀ pos dest level, ∃ p out,
      dnsParseName message pos dest level = some (p, dest.map (· ++ out)) ∧
      (p = 0 ∨ pos < p ∧ p ≤ message.length) ∧
      ∃ chars, chars.length ≤ DNS_NAME_MAX_RECURSION * message.length ∧
        (out = chars ++ [0] ∨ p = 0 ∧ out = chars)) ∧
    ∀ type count pos out, dnsParseName message dnsHeaderSize none 0 = some (pos, out) → pos ≠ 0 →
      pos + dnsQuestionSize ≤ message.length →
      ∃ found positions, answersLoop message type count (pos + dnsQuestionSize) =
          some (found, positions) ∧
        (dnsHeaderSize :: positions).IsChain (· < ·) ∧ ∀ p ∈ positions, p ≤ message.length := by
  refine ⟨dnsParseName_decodes message, fun type count pos out hparse hpos hle => ?_⟩
  obtain ⟨p, _, hp, hlt, -⟩ := dnsParseName_decodes message dnsHeaderSize none 0
  rw [hparse] at hp
  obtain rfl := (Prod.mk.inj (Option.some.inj hp)).1
  obtain ⟨found, positions, heq, hascends, -⟩ :=
    answersLoop_ascends message type count (pos + dnsQuestionSize)
  have hgt := hlt.resolve_left hpos
  refine ⟨found, positions, heq, (hascends.cons (by omega) hle).chain, fun p hp => ?_⟩
  exact (hascends.le p hp).elim (fun h => h ▸ hle) id

/-- A response to a question for the root: an alias, and an address. -/
def rootAlias : List UInt8 :=
  [0, 7, 0x80, 0, 0, 1, 0, 2, 0, 0, 0, 0] ++ [0, 0, 1, 0, 1] ++
    [0, 0, 5, 0, 1, 0, 0, 0, 60, 0, 1, 0] ++ [0, 0, 1, 0, 1, 0, 0, 0, 60, 0, 4, 192, 0, 2, 1]

/-- A name that points to itself; and two answers, of which the second one is the address. -/
theorem dnsParseName_total_root :
    (∃ p out, dnsParseName [0xC0, 0x00] 0 (some []) 0 = some (p, (some []).map (· ++ out)) ∧
      (p = 0 ∨ 0 < p ∧ p ≤ 2) ∧ ∃ chars : List UInt8, chars.length ≤ 8 ∧
        (out = chars ++ [0] ∨ p = 0 ∧ out = chars)) ∧
    (∃ found positions, answersLoop rootAlias .ipv4 2 17 = some (found, positions) ∧
        (12 :: positions).IsChain (· < ·) ∧ ∀ p ∈ positions, p ≤ 44) ∧
    answersLoop rootAlias .ipv4 2 17 = some (some 30, [17, 29]) := by
  have hparse : ∀ pos, rootAlias[pos]? = some 0 →
      dnsParseName rootAlias pos none 0 = some (pos + 1, none) := by
    intro pos hpos
    rw [dnsParseName, DNS_NAME_MAX_RECURSION, parseName, parseLoop,
      dif_pos (List.getElem?_eq_some_iff.1 hpos).1, hpos]
    rfl
  refine ⟨(dnsParseName_total [0xC0, 0x00]).1 0 (some []) 0,
    (dnsParseName_total rootAlias).2 .ipv4 2 13 none (hparse 12 rfl) (by decide) (by decide), ?_⟩
  have hsecond : answersLoop rootAlias .ipv4 1 29 = some (some 30, [29]) := by
    rw [answersLoop, hparse 29 rfl]
    rfl
  exact answersLoop_skip (hparse 17 rfl) (by decide) rfl rfl (by decide) (by decide) (by decide)
    hsecond

end Walk

/-! ## The lifetime of an entry -/

/-- The lifetime that a TTL in seconds stands for, in milliseconds. -/
def lifetime (ttl : UInt32) : ℕ :=
  min (max (1000 * ttl.toNat) DNS_MIN_LIFETIME.toNat) DNS_MAX_LIFETIME.toNat

/-- The product fits in 32 bits, or what is left of it is cut down all the same. -/
def NotWrapped (ttl : UInt32) : Prop :=
  1000 * ttl.toNat < 2 ^ 32 ∨ DNS_MAX_LIFETIME.toNat ≤ 1000 * ttl.toNat % 2 ^ 32

instance (ttl : UInt32) : Decidable (NotWrapped ttl) := inferInstanceAs (Decidable (_ ∨ _))

theorem entryTimeout_toNat (ttl : UInt32) : (entryTimeout ttl).toNat =
    min (max (1000 * ttl.toNat % 2 ^ 32) DNS_MIN_LIFETIME.toNat) DNS_MAX_LIFETIME.toNat := by
  have hmul : (ttl * 1000).toNat = 1000 * ttl.toNat % 2 ^ 32 := by
    rw [UInt32.toNat_mul, Nat.mul_comm]
    rfl
  have hmax : DNS_MAX_LIFETIME.toNat = 3600000 := rfl
  have hmin : DNS_MIN_LIFETIME.toNat = 1000 := rfl
  rw [entryTimeout, ← hmul]
  simp only [ge_iff_le, UInt32.le_iff_toNat_le]
  split_ifs with h1 h2 h2 <;> omega

/-- The lifetime stored is that of the TTL iff nothing is lost. -/
theorem entryTimeout_eq_iff (ttl : UInt32) :
    (entryTimeout ttl).toNat = lifetime ttl ↔ NotWrapped ttl := by
  have hmax : DNS_MAX_LIFETIME.toNat = 3600000 := rfl
  have hmin : DNS_MIN_LIFETIME.toNat = 1000 := rfl
  rw [entryTimeout_toNat, lifetime, NotWrapped, hmax, hmin]
  by_cases hlt : 1000 * ttl.toNat < 2 ^ 32
  · rw [Nat.mod_eq_of_lt hlt]
    exact iff_of_true rfl (.inl hlt)
  · generalize 1000 * ttl.toNat % 2 ^ 32 = left
    omega

/-- What the lifetime of an entry is for: it is the one that the TTL stands for, and whatever the
clock shows, the entry stays until it has elapsed, and no longer. -/
structure Lives (ttl : UInt32) (entry : DnsCacheEntry) : Prop where
  timeout_eq : entry.timeout.toNat = lifetime ttl
  stays : ∀ sendQuery elapsed, elapsed < lifetime ttl →
    dnsTickEntry sendQuery (Serial.seq entry.timestamp elapsed) entry = entry
  expires : ∀ sendQuery elapsed, lifetime ttl ≤ elapsed → elapsed < lifetime ttl + 2 ^ 31 →
    dnsTickEntry sendQuery (Serial.seq entry.timestamp elapsed) entry = dnsDeleteEntry entry

theorem lifetime_le (ttl : UInt32) : lifetime ttl ≤ 3600000 := min_le_right _ _

/-- `dnsTick` tells whether the lifetime of a resolved entry has elapsed. -/
theorem dnsTickEntry_resolved {entry : DnsCacheEntry} (hstate : entry.state = .resolved)
    (sendQuery : DnsCacheEntry → ErrorCode) {elapsed : ℕ} (hlt : entry.timeout.toNat < 2 ^ 31)
    (helapsed : elapsed < entry.timeout.toNat + 2 ^ 31) :
    dnsTickEntry sendQuery (Serial.seq entry.timestamp elapsed) entry =
      if entry.timeout.toNat ≤ elapsed then dnsDeleteEntry entry else entry := by
  have hcmp : 0 ≤ timeCompare (Serial.seq entry.timestamp elapsed)
      (entry.timestamp + entry.timeout) ↔ entry.timeout.toNat ≤ elapsed := by
    have hend : entry.timestamp + entry.timeout =
        Serial.seq entry.timestamp entry.timeout.toNat := by
      rw [Serial.seq, UInt32.ofNat_toNat]
    rw [timeCompare, hend, Serial.cmp_seq _ helapsed (by omega)]
    omega
  rw [dnsTickEntry, hstate]
  dsimp only
  simp only [ge_iff_le, hcmp]

theorem storeAnswer_eq {message : List UInt8} {time ttl : UInt32} {entry entry' : DnsCacheEntry}
    {record : ℕ} (h : storeAnswer message time entry record = some entry')
    (httl : read32 message (record + 4) = some ttl) :
    entry'.state = .resolved ∧ entry'.timestamp = time ∧ entry'.timeout = entryTimeout ttl := by
  rw [storeAnswer, httl] at h
  cases hread : readBytes message (record + dnsResourceRecordSize) entry.type.addrSize with
  | none =>
      rw [hread] at h
      cases h
  | some ipAddr =>
      rw [hread] at h
      cases h
      exact ⟨rfl, rfl, rfl⟩

/-- The entry lives as long as it should iff its lifetime is right. -/
theorem lives_iff {ttl : UInt32} {entry : DnsCacheEntry} (hstate : entry.state = .resolved)
    (htimeout : entry.timeout = entryTimeout ttl) : Lives ttl entry ↔ NotWrapped ttl := by
  have hiff := entryTimeout_eq_iff ttl
  rw [← htimeout] at hiff
  constructor
  · exact fun hlives => hiff.1 hlives.timeout_eq
  · intro hwrap
    have heq := hiff.2 hwrap
    have hle := lifetime_le ttl
    refine ⟨heq, fun sendQuery elapsed hlt => ?_, fun sendQuery elapsed hlow hhigh => ?_⟩
    · rw [dnsTickEntry_resolved hstate sendQuery (by omega) (by omega), if_neg (by omega)]
    · rw [dnsTickEntry_resolved hstate sendQuery (by omega) (by omega), if_pos (by omega)]

/-- A branch that returns something else has not been taken. -/
theorem else_of_ne {α : Type*} {c : Prop} [Decidable c] {x y z : α} (h : (if c then x else y) = z)
    (hx : x ≠ z) : y = z := by
  split at h
  · exact absurd h hx
  · exact h

/-- An entry is resolved by the answer that is accepted. -/
theorem processEntry_resolved {message : List UInt8} {time : UInt32} {entry entry' : DnsCacheEntry}
    (h : processEntry message time entry = some entry') (hstate : entry.state = .inProgress)
    (hresolved : entry'.state = .resolved) : ∃ record,
      acceptedRecord message entry.type = some record ∧
        storeAnswer message time entry record = some entry' := by
  have hne : some entry ≠ some entry' := fun heq => by
    rw [← Option.some.inj heq, hstate] at hresolved
    cases hresolved
  have hdel : some (dnsDeleteEntry entry) ≠ some entry' := fun heq => by
    rw [← Option.some.inj heq] at hresolved
    cases hresolved
  simp only [processEntry, Option.bind_eq_bind, Option.pure_def] at h
  obtain ⟨id, -, h⟩ := Option.bind_eq_some_iff.1 h
  obtain ⟨⟨pos, out⟩, hparse, h⟩ := Option.bind_eq_some_iff.1 (else_of_ne h hne)
  obtain ⟨res, -, h⟩ := Option.bind_eq_some_iff.1 (else_of_ne (else_of_ne h hne) hne)
  obtain ⟨qtype, -, h⟩ := Option.bind_eq_some_iff.1 (else_of_ne h hne)
  obtain ⟨qclass, -, h⟩ := Option.bind_eq_some_iff.1 h
  obtain ⟨flags, -, h⟩ :=
    Option.bind_eq_some_iff.1 (else_of_ne (else_of_ne (else_of_ne h hne) hne) hne)
  obtain ⟨ancount, hancount, h⟩ := Option.bind_eq_some_iff.1 (else_of_ne h hdel)
  obtain ⟨⟨found, positions⟩, hloop, h⟩ := Option.bind_eq_some_iff.1 h
  cases found with
  | none => exact absurd h hne
  | some record =>
      refine ⟨record, ?_, h⟩
      simp only [acceptedRecord, Option.bind_eq_bind]
      rw [hparse, Option.bind_some, hancount, Option.bind_some]
      exact (congrArg (fun walk => Option.bind walk _) hloop).trans rfl

/-- The answer that is accepted lies in the message. -/
theorem acceptedRecord_inside {message : List UInt8} {type : HostType} {record : ℕ}
    (h : acceptedRecord message type = some record) :
    record + dnsResourceRecordSize + type.addrSize ≤ message.length := by
  simp only [acceptedRecord, Option.bind_eq_bind] at h
  obtain ⟨⟨pos, _⟩, -, h⟩ := Option.bind_eq_some_iff.1 h
  obtain ⟨ancount, -, h⟩ := Option.bind_eq_some_iff.1 h
  obtain ⟨⟨found, positions⟩, hloop, hfound⟩ := Option.bind_eq_some_iff.1 h
  obtain ⟨_, _, heq, -, hinside⟩ :=
    answersLoop_ascends message type ancount.toNat (pos + dnsQuestionSize)
  rw [hloop] at heq
  cases heq
  exact hinside record hfound

theorem entriesLoop_resolved {message : List UInt8} {destPort : UInt16} {time : UInt32}
    {entries entries' : List DnsCacheEntry} {i : ℕ} {entry entry' : DnsCacheEntry}
    (h : entriesLoop message destPort time entries = some entries') (hi : entries[i]? = some entry)
    (hi' : entries'[i]? = some entry') (hne : entry ≠ entry') :
    processEntry message time entry = some entry' := by
  induction entries generalizing entries' i with
  | nil => cases hi
  | cons e es ih =>
      rw [entriesLoop] at h
      split at h
      · obtain ⟨e', he', rfl⟩ := Option.map_eq_some_iff.1 h
        cases i with
        | zero =>
            obtain rfl := Option.some.inj hi
            obtain rfl := Option.some.inj hi'
            exact he'
        | succ i => exact absurd (Option.some.inj (hi.symm.trans hi')) hne
      · obtain ⟨es', hes', rfl⟩ := Option.map_eq_some_iff.1 h
        cases i with
        | zero => exact absurd (Option.some.inj (hi.symm.trans hi')) hne
        | succ i => exact ih hes' hi hi'

section Process

variable {message : List UInt8} {destPort : UInt16} {time : UInt32}
  {dnsCache dnsCache' : List DnsCacheEntry} {i : ℕ} {entry entry' : DnsCacheEntry}

theorem dnsProcessResponse_resolved
    (h : dnsProcessResponse message destPort time dnsCache = some dnsCache')
    (hi : dnsCache[i]? = some entry) (hi' : dnsCache'[i]? = some entry') (hne : entry ≠ entry') :
    processEntry message time entry = some entry' := by
  have hsame : some dnsCache ≠ some dnsCache' := fun heq => by
    rw [← Option.some.inj heq, hi] at hi'
    exact hne (Option.some.inj hi')
  rw [dnsProcessResponse] at h
  have h := else_of_ne h hsame
  split at h
  · exact entriesLoop_resolved (else_of_ne h hsame) hi hi' hne
  · cases h

/-- **An entry lives as long as the answer that is accepted says iff the product does not wrap
around.** -/
theorem dnsProcessResponse_lives_iff
    (h : dnsProcessResponse message destPort time dnsCache = some dnsCache')
    (hi : dnsCache[i]? = some entry) (hi' : dnsCache'[i]? = some entry')
    (hstate : entry.state = .inProgress) (hresolved : entry'.state = .resolved) :
    ∃ record ttl, acceptedRecord message entry.type = some record ∧
      read32 message (record + 4) = some ttl ∧ entry'.timestamp = time ∧
      (Lives ttl entry' ↔ NotWrapped ttl) := by
  have hne : entry ≠ entry' := fun heq => by
    rw [← heq, hstate] at hresolved
    cases hresolved
  obtain ⟨record, haccepted, hstore⟩ :=
    processEntry_resolved (dnsProcessResponse_resolved h hi hi' hne) hstate hresolved
  have hle := acceptedRecord_inside haccepted
  obtain ⟨ttl, httl⟩ := read32_isSome (show record + 4 + 4 ≤ message.length from
    le_trans (by rw [dnsResourceRecordSize]; omega) hle)
  obtain ⟨-, htime, htimeout⟩ := storeAnswer_eq hstore httl
  exact ⟨record, ttl, haccepted, httl, htime, lives_iff hresolved htimeout⟩

end Process

/-! ## A response about the root -/

/-- A response with an IPv4 address of the root, and a TTL. -/
def rootResponse (t0 t1 t2 t3 : UInt8) : List UInt8 :=
  [0, 7, 0x80, 0, 0, 1, 0, 1, 0, 0, 0, 0] ++ [0, 0, 1, 0, 1] ++
    [0, 0, 1, 0, 1, t0, t1, t2, t3, 0, 4, 192, 0, 2, 1]

/-- An entry that waits for it. -/
def rootEntry : DnsCacheEntry :=
  { state := .inProgress, type := .ipv4, protocol := .dns, dnsServerNum := 0, port := 1024, id := 7
    name := [0], ipAddr := [], timestamp := 0, timeout := 1000, maxTimeout := 5000
    retransmitCount := 2 }

theorem dnsParseName_root {message : List UInt8} {pos : ℕ} (h : message[pos]? = some 0) :
    dnsParseName message pos none 0 = some (pos + 1, none) := by
  rw [dnsParseName, DNS_NAME_MAX_RECURSION, parseName, parseLoop,
    dif_pos (List.getElem?_eq_some_iff.1 h).1, h]
  rfl

theorem dnsCompareName_root {message : List UInt8} {pos : ℕ} (h : message[pos]? = some 0) :
    dnsCompareName message pos [0] 0 = some 0 := by
  rw [dnsCompareName, DNS_NAME_MAX_RECURSION, compareName, compareLoop,
    dif_pos (List.getElem?_eq_some_iff.1 h).1, h]
  rfl

theorem rootResponse_answers (t0 t1 t2 t3 : UInt8) :
    answersLoop (rootResponse t0 t1 t2 t3) .ipv4 1 17 = some (some 18, [17]) := by
  rw [answersLoop, dnsParseName_root rfl]
  rfl

theorem rootResponse_processed (time : UInt32) (t0 t1 t2 t3 : UInt8) :
    dnsProcessResponse (rootResponse t0 t1 t2 t3) 1024 time [rootEntry] =
      some [{ rootEntry with
        ipAddr := [192, 0, 2, 1], timestamp := time
        timeout := entryTimeout (UInt32.ofNat ((UInt16.ofNat (t0.toNat * 256 + t1.toNat)).toNat *
          65536 + (UInt16.ofNat (t2.toNat * 256 + t3.toNat)).toNat))
        state := .resolved }] := by
  have hprocess : processEntry (rootResponse t0 t1 t2 t3) time rootEntry =
      some { rootEntry with
        ipAddr := [192, 0, 2, 1], timestamp := time
        timeout := entryTimeout (UInt32.ofNat ((UInt16.ofNat (t0.toNat * 256 + t1.toNat)).toNat *
          65536 + (UInt16.ofNat (t2.toNat * 256 + t3.toNat)).toNat))
        state := .resolved } := by
    have hname : dnsCompareName (rootResponse t0 t1 t2 t3) dnsHeaderSize rootEntry.name 0 = some 0 :=
      dnsCompareName_root rfl
    rw [processEntry, dnsParseName_root rfl, hname]
    exact (congrArg (fun found => Option.bind found _) (rootResponse_answers t0 t1 t2 t3)).trans rfl
  show entriesLoop _ 1024 time [rootEntry] = _
  rw [entriesLoop, if_pos (by decide), hprocess]
  rfl

theorem rootResponse_accepted (t0 t1 t2 t3 : UInt8) :
    acceptedRecord (rootResponse t0 t1 t2 t3) .ipv4 = some 18 := by
  simp only [acceptedRecord, Option.bind_eq_bind]
  rw [dnsParseName_root rfl]
  exact (congrArg (fun walk => Option.bind walk _) (rootResponse_answers t0 t1 t2 t3)).trans rfl

/-- A TTL of one minute. -/
theorem dnsProcessResponse_lives_minute : ∃ record ttl,
    acceptedRecord (rootResponse 0 0 0 60) .ipv4 = some record ∧
      read32 (rootResponse 0 0 0 60) (record + 4) = some ttl ∧ (5 : UInt32) = 5 ∧
      (Lives ttl { rootEntry with
        ipAddr := [192, 0, 2, 1], timestamp := 5, timeout := entryTimeout 60, state := .resolved } ↔
        NotWrapped ttl) :=
  dnsProcessResponse_lives_iff (i := 0) (rootResponse_processed 5 0 0 0 60) rfl rfl rfl rfl

/-- A TTL of 4294968 seconds, about 50 days, makes an entry that lives for one second. -/
theorem dnsProcessResponse_lives_50_days :
    ¬ ∀ message destPort time dnsCache dnsCache' i entry entry' record ttl,
      dnsProcessResponse message destPort time dnsCache = some dnsCache' →
      (dnsCache : List DnsCacheEntry)[(i : ℕ)]? = some entry →
      (dnsCache' : List DnsCacheEntry)[i]? = some entry' →
      entry.state = .inProgress → entry'.state = .resolved →
      acceptedRecord message entry.type = some record →
      read32 message (record + 4) = some ttl → Lives ttl entry' := by
  intro h
  have hlives := h (rootResponse 0x00 0x41 0x89 0x38) 1024 5 [rootEntry] _ 0 rootEntry _ 18 4294968
    (rootResponse_processed 5 0x00 0x41 0x89 0x38) rfl rfl rfl rfl
    (rootResponse_accepted 0x00 0x41 0x89 0x38) rfl
  exact absurd hlives.timeout_eq (by decide)

end Dns
