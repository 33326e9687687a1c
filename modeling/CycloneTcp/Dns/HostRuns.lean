import CycloneTcp.Dns.HostName

set_option autoImplicit false

/-! # What becomes of a host name

An entry of the cache keeps its name until it is taken for another one, so what can be said of the
queries for a name follows from what `getHostByName` stores. -/

namespace Dns.Resolver

open CString

section Calls

variable {I : Type*} [DecidableEq I] {env : Env I} {interface : I} {name : List UInt8}
variable {type : HostType} {protocol : HostnameResolver} {s s' : System I} {error : ErrorCode}
variable {ipAddr : Option (List UInt8)} {sent : List (Query I)}

/-- A query has been sent for a new entry, or not. -/
inductive FirstQuery (env : Env I) (error : ErrorCode) (sent : List (Query I)) (e : CacheEntry I) :
    Prop
  | failed (hstate : e.state = .none) (herror : error ≠ .noError) (hsent : sent = [])
  | sent (hstate : e.state = .inProgress) (herror : error = .inProgress) (transport : ErrorCode)
      (e₀ : CacheEntry I) (hname : e₀.name = e.name) (hprotocol : e₀.protocol = e.protocol)
      (hsent : sent = (sendQuery env transport e₀).2)

/-- What a name is resolved to: an entry that is there, or a new one. -/
inductive Call (env : Env I) (interface : I) (name : List UInt8) (type : HostType)
    (protocol : HostnameResolver) (s : System I) (error : ErrorCode) (s' : System I)
    (sent : List (Query I)) : Prop
  | found (e : CacheEntry I) (hfound : dnsFindEntry interface name type protocol s.dnsCache = some e)
      (hs : s' = s) (hsent : sent = [])
  | created (hnone : dnsFindEntry interface name type protocol s.dnsCache = none)
      (hindex : createIndex env.time s.dnsCache < s.dnsCache.length) (e : CacheEntry I)
      (hcache : s'.dnsCache = s.dnsCache.set (createIndex env.time s.dnsCache) e)
      (hname : strcpy (DNS_MAX_NAME_LEN + 1) name = some e.name) (hprotocol : e.protocol = protocol)
      (hquery : FirstQuery env error sent e)

omit [DecidableEq I] in
theorem dnsSendQuery_failed {transport : ErrorCode} {e : CacheEntry I}
    (h : (dnsSendQuery env transport e).1 ≠ .noError) : (dnsSendQuery env transport e).2 = [] := by
  rw [dnsSendQuery] at h ⊢
  by_cases htype : e.type = .any
  · rw [if_pos htype]
  by_cases hserver : e.dnsServerNum ≥ DNS_SERVER_LIST_SIZE
  · rw [if_neg htype, if_pos hserver]
  rw [if_neg htype, if_neg hserver] at h ⊢
  cases hdest : env.dnsServerList e.interface e.type e.dnsServerNum with
  | none => rfl
  | some destIpAddr =>
      rw [hdest] at h
      dsimp only at h ⊢
      by_cases hsent : transport ≠ .noError
      · rw [if_pos hsent]
      · rw [if_neg hsent] at h
        exact absurd rfl h

omit [DecidableEq I] in
theorem nbnsSendQuery_failed {transport : ErrorCode} {e : CacheEntry I}
    (h : (nbnsSendQuery env transport e).1 ≠ .noError) : (nbnsSendQuery env transport e).2 = [] := by
  rw [nbnsSendQuery] at h ⊢
  by_cases hsent : transport ≠ .noError
  · rw [if_pos hsent]
  · rw [if_neg hsent] at h
    exact absurd rfl h

theorem dnsResolve_call {port id : UInt16}
    (h : dnsResolve env interface name type port id s = some (error, ipAddr, s', sent)) :
    Call env interface name type .dns s error s' sent := by
  rw [dnsResolve] at h
  cases hfound : dnsFindEntry interface name type .dns s.dnsCache with
  | some e =>
      rw [hfound] at h
      dsimp only at h
      split_ifs at h <;> cases h <;> exact .found e hfound rfl rfl
  | none =>
      rw [hfound] at h
      dsimp only at h
      cases hold : s.dnsCache[createIndex env.time s.dnsCache]? with
      | none =>
          rw [hold] at h
          cases h
      | some old =>
          have hindex := (List.getElem?_eq_some_iff.1 hold).1
          rw [hold] at h
          dsimp only at h
          cases hcopy : strcpy (DNS_MAX_NAME_LEN + 1) name with
          | none =>
              rw [hcopy] at h
              cases h
          | some array =>
              rw [hcopy] at h
              dsimp only at h
              cases hattach : udpAttachRxCallback interface port .dnsProcessResponse
                  (dnsDeleteEntry old s.udpCallbackTable).2 with
              | none =>
                  rw [hattach] at h
                  cases h
                  exact .created hfound hindex _ rfl hcopy rfl (.failed rfl (by simp) rfl)
              | some table =>
                  rw [hattach] at h
                  dsimp only at h
                  split_ifs at h with hsent
                  · cases h
                    exact .created hfound hindex _ rfl hcopy rfl (.sent rfl rfl _ _ rfl rfl rfl)
                  · cases h
                    exact .created hfound hindex _ rfl hcopy rfl
                      (.failed rfl hsent (dnsSendQuery_failed hsent))


theorem nbnsResolve_call (h : nbnsResolve env interface name s = some (error, ipAddr, s', sent)) :
    Call env interface name .ipv4 .nbns s error s' sent := by
  rw [nbnsResolve] at h
  cases hfound : dnsFindEntry interface name .ipv4 .nbns s.dnsCache with
  | some e =>
      rw [hfound] at h
      dsimp only at h
      split_ifs at h <;> cases h <;> exact .found e hfound rfl rfl
  | none =>
      rw [hfound] at h
      dsimp only at h
      cases hold : s.dnsCache[createIndex env.time s.dnsCache]? with
      | none =>
          rw [hold] at h
          cases h
      | some old =>
          have hindex := (List.getElem?_eq_some_iff.1 hold).1
          rw [hold] at h
          dsimp only at h
          cases hcopy : strcpy (DNS_MAX_NAME_LEN + 1) name with
          | none =>
              rw [hcopy] at h
              cases h
          | some array =>
              rw [hcopy] at h
              dsimp only at h
              split_ifs at h with hsent
              · cases h
                exact .created hfound hindex _ rfl hcopy rfl (.sent rfl rfl _ _ rfl rfl rfl)
              · cases h
                exact .created hfound hindex _ rfl hcopy rfl
                  (.failed rfl hsent (nbnsSendQuery_failed hsent))

/-- A name that fits is looked up. -/
theorem dnsResolve_some (env : Env I) (interface : I) (type : HostType) (port id : UInt16)
    (hcache : s.dnsCache ≠ []) (hlength : name.length ≤ DNS_MAX_NAME_LEN) :
    ∃ error ipAddr s' sent, dnsResolve env interface name type port id s =
      some (error, ipAddr, s', sent) := by
  have hindex := createIndex_lt env.time hcache
  have hcopy : strcpy (DNS_MAX_NAME_LEN + 1) name = some _ := if_pos (Nat.succ_le_succ hlength)
  rw [dnsResolve]
  cases dnsFindEntry interface name type .dns s.dnsCache with
  | some e =>
      dsimp only
      split_ifs <;> exact ⟨_, _, _, _, rfl⟩
  | none =>
      dsimp only
      rw [List.getElem?_eq_getElem hindex]
      dsimp only
      rw [hcopy]
      dsimp only
      cases udpAttachRxCallback interface port .dnsProcessResponse (dnsDeleteEntry
          s.dnsCache[createIndex env.time s.dnsCache] s.udpCallbackTable).2 with
      | none => exact ⟨_, _, _, _, rfl⟩
      | some table =>
          dsimp only
          split_ifs <;> exact ⟨_, _, _, _, rfl⟩

theorem nbnsResolve_some (env : Env I) (interface : I) (hcache : s.dnsCache ≠ [])
    (hlength : name.length ≤ DNS_MAX_NAME_LEN) :
    ∃ error ipAddr s' sent, nbnsResolve env interface name s =
      some (error, ipAddr, s', sent) := by
  have hindex := createIndex_lt env.time hcache
  have hcopy : strcpy (DNS_MAX_NAME_LEN + 1) name = some _ := if_pos (Nat.succ_le_succ hlength)
  rw [nbnsResolve]
  cases dnsFindEntry interface name .ipv4 .nbns s.dnsCache with
  | some e =>
      dsimp only
      split_ifs <;> exact ⟨_, _, _, _, rfl⟩
  | none =>
      dsimp only
      rw [List.getElem?_eq_getElem hindex]
      dsimp only
      rw [hcopy]
      dsimp only
      split_ifs <;> exact ⟨_, _, _, _, rfl⟩

/-- A name that is asked for is looked up over one of the two protocols. -/
theorem getHostByName_call {flags : UInt32} {port id : UInt16}
    (h : getHostByName env interface name flags port id s = some (error, ipAddr, s', sent)) :
    s' = s ∧ sent = [] ∨
      Call env interface name (lookupType flags name) (hostProtocol flags name) s error s' sent := by
  rw [getHostByName] at h
  cases hconvert : ipStringToAddr name with
  | none =>
      rw [hconvert] at h
      cases h
  | some converted =>
      rw [hconvert] at h
      dsimp only at h
      split_ifs at h
      · cases h
        exact .inl ⟨rfl, rfl⟩
      cases hprotocol : hostProtocol flags name with
      | dns =>
          rw [hprotocol] at h
          rw [lookupType, hprotocol, if_neg nofun]
          exact .inr (dnsResolve_call h)
      | nbns =>
          rw [hprotocol] at h
          rw [lookupType, hprotocol, if_pos rfl]
          exact .inr (nbnsResolve_call h)
      | any | mdns | llmnr =>
          rw [hprotocol] at h
          cases h
          exact .inl ⟨rfl, rfl⟩

end Calls

/-! ## An entry over time -/

section Outcomes

variable {I : Type*} [DecidableEq I] {i : ℕ} {s s' : System I} {e e' : CacheEntry I}

/-- An answer to the query of an entry makes it resolved. -/
def Answered : HostEvent I → CacheEntry I → CacheEntry I → Prop
  | .udpReceive message _ destPort time outside, e, e' =>
      e.state = .inProgress ∧ e.protocol = .dns ∧ e.port = destPort ∧
        dnsHeaderSize ≤ message.length ∧ message.length ≤ DNS_MESSAGE_MAX_SIZE ∧
        (∃ flags, message[2]? = some flags ∧ flags &&& 0x80 ≠ 0) ∧ read16 message 4 = some 1 ∧
        ∃ next, processEntry message time outside e.toDnsCacheEntry = some next ∧
          next.state = .resolved ∧ e' = { e with toDnsCacheEntry := next }
  | .nbnsReceive message peer _ outside, e, e' =>
      peer = .ipv4 ∧ dnsHeaderSize ≤ message.length ∧ message.length ≤ DNS_MESSAGE_MAX_SIZE ∧
        (∃ flags, read16 message 2 = some flags ∧ flags &&& 0x8000 ≠ 0 ∧
          (flags >>> 11) &&& 0x0F = DNS_OPCODE_QUERY ∧ flags &&& 0x0F = DNS_RCODE_NO_ERROR) ∧
        e.state = .inProgress ∧ e.protocol = .nbns ∧ e.type = .ipv4 ∧
        ∃ ttl addr, nbnsAnswer message = some (some (e.id, ttl, addr)) ∧
          (Nbns.nbnsCompareName message dnsHeaderSize e.name).getD outside ∧ e'.ipAddr = addr
  | _, _, _ => False

/-- What an event does to an entry. -/
inductive Outcome (i : ℕ) (s : System I) (event : HostEvent I) (e e' : CacheEntry I) : Prop
  | kept (hname : e'.name = e.name) (hprotocol : e'.protocol = e.protocol)
      (hstate : e'.state = .resolved → e.state = .resolved ∧ e'.ipAddr = e.ipAddr)
  | answered (hname : e'.name = e.name) (hprotocol : e'.protocol = e.protocol)
      (hanswer : Answered event e e')
  | replaced (hreplaces : Replaces i s event) (hstate : e'.state ≠ .resolved)

theorem Outcome.refl (i : ℕ) (s : System I) (event : HostEvent I) (e : CacheEntry I) :
    Outcome i s event e e :=
  .kept rfl rfl fun h => ⟨h, rfl⟩

theorem dnsDeleteEntry_unresolved (e : CacheEntry I) (table : List (UdpRxCallbackDesc I)) :
    (dnsDeleteEntry e table).1.state ≠ .resolved := by
  simp [dnsDeleteEntry]

theorem tickTimedOut_state (env : Env I) (i : ℕ) (e : CacheEntry I)
    (table : List (UdpRxCallbackDesc I)) (hstate : e.state = .inProgress) :
    (tickTimedOut env i e table).1.state ≠ .resolved := by
  rw [tickTimedOut]
  dsimp only
  split_ifs
  · rw [hstate]
    simp
  · exact dnsDeleteEntry_unresolved _ table
  · rw [hstate]
    simp
  · exact dnsDeleteEntry_unresolved _ table
  · exact dnsDeleteEntry_unresolved _ table

theorem Change.kept {table table' : List (UdpRxCallbackDesc I)} (h : Change e table e' table') :
    e'.name = e.name ∧ e'.protocol = e.protocol := by
  cases h with
  | keep hkept _ => exact ⟨hkept.name, hkept.protocol⟩
  | release hkept _ _ => exact ⟨hkept.name, hkept.protocol⟩

theorem tickEntry_resolved (env : Env I) (i : ℕ) (e : CacheEntry I)
    (table : List (UdpRxCallbackDesc I)) (h : (tickEntry env i e table).1.state = .resolved) :
    e.state = .resolved ∧ (tickEntry env i e table).1.ipAddr = e.ipAddr := by
  rw [tickEntry] at h ⊢
  cases hstate : e.state with
  | none =>
      rw [hstate] at h
      cases hstate.symm.trans h
  | permanent =>
      rw [hstate] at h
      cases hstate.symm.trans h
  | resolved =>
      refine ⟨rfl, ?_⟩
      dsimp only
      split_ifs <;> rfl
  | inProgress =>
      rw [hstate] at h
      dsimp only at h
      split_ifs at h
      · exact absurd h (tickTimedOut_state env i e table hstate)
      · cases hstate.symm.trans h

theorem dnsTick_outcome (env : Env I) (he : s.dnsCache[i]? = some e) :
    ∃ e', (dnsTick env s).1.dnsCache[i]? = some e' ∧ Outcome i s (.dnsTick env) e e' := by
  obtain ⟨table, htick⟩ := eachEntry_getElem (tickEntry env) 0 s.udpCallbackTable he
  obtain ⟨hname, hprotocol⟩ := (tickEntry_change env (0 + i) e table).kept
  exact ⟨_, htick, .kept hname hprotocol (tickEntry_resolved env (0 + i) e table)⟩

theorem dnsFlushCache_outcome (interface : I) (he : s.dnsCache[i]? = some e) :
    ∃ e', (dnsFlushCache interface s).dnsCache[i]? = some e' ∧
      Outcome i s (.dnsFlushCache interface) e e' := by
  obtain ⟨table, hflush⟩ := eachEntry_getElem (fun _ entry table =>
    if entry.state ≠ .none then
      if entry.interface = interface then
        ((dnsDeleteEntry entry table).1, (dnsDeleteEntry entry table).2, ([] : List (Query I)))
      else (entry, table, [])
    else (entry, table, [])) 0 s.udpCallbackTable he
  refine ⟨_, hflush, ?_⟩
  split_ifs
  · exact .kept rfl rfl nofun
  · exact .refl i s _ e
  · exact .refl i s _ e

/-! ## Responses -/

section Responses

variable {message : List UInt8} {interface : I} {destPort : UInt16} {time : UInt32} {outside : ℤ}
variable {cache cache' : List (CacheEntry I)} {table table' : List (UdpRxCallbackDesc I)}

/-- What a response does to an entry: nothing, or it is deleted or resolved. -/
def Responded (message : List UInt8) (destPort : UInt16) (time : UInt32) (outside : ℤ)
    (e e' : CacheEntry I) : Prop :=
  e' = e ∨ e.state = .inProgress ∧ (e' = { e with state := .none } ∨
    e.protocol = .dns ∧ e.port = destPort ∧
      ∃ next, processEntry message time outside e.toDnsCacheEntry = some next ∧
        next.state = .resolved ∧ e' = { e with toDnsCacheEntry := next })

theorem processEntry_kept {entry next : DnsCacheEntry}
    (h : processEntry message time outside entry = some next) :
    next.name = entry.name ∧ next.protocol = entry.protocol := by
  rcases processEntry_cases h with rfl | rfl | ⟨record, hstore⟩
  · exact ⟨rfl, rfl⟩
  · exact ⟨rfl, rfl⟩
  · rw [storeAnswer] at hstore
    split at hstore
    · cases hstore
      exact ⟨rfl, rfl⟩
    · cases hstore

theorem respondEntry_responded (hwaits : e.state = .inProgress ∧ e.protocol = .dns ∧ e.port = destPort)
    (h : respondEntry message interface time outside e table = some (e', table')) :
    Responded message destPort time outside e e' := by
  rw [respondEntry] at h
  cases hnext : processEntry message time outside e.toDnsCacheEntry with
  | none =>
      rw [hnext] at h
      cases h
  | some next =>
      rw [hnext] at h
      rcases processEntry_cases hnext with rfl | rfl | ⟨record, hstore⟩
      · left
        dsimp only at h
        split at h <;> cases h <;> rfl
      · cases h
        exact .inr ⟨hwaits.1, .inl rfl⟩
      · have hresolved : next.state = .resolved := by
          rw [storeAnswer] at hstore
          split at hstore
          · cases hstore
            rfl
          · cases hstore
        simp only [hresolved] at h
        cases h
        exact .inr ⟨hwaits.1, .inr ⟨hwaits.2.1, hwaits.2.2, next, hnext, hresolved, rfl⟩⟩

theorem respondLoop_responded
    (h : respondLoop message interface destPort time outside cache table = some (cache', table'))
    (he : cache[i]? = some e) :
    ∃ e', cache'[i]? = some e' ∧ Responded message destPort time outside e e' := by
  induction cache generalizing cache' i with
  | nil => cases he
  | cons d cache ih =>
      rw [respondLoop] at h
      split_ifs at h with hwaits
      · cases hentry : respondEntry message interface time outside d table with
        | none =>
            rw [hentry] at h
            cases h
        | some result =>
            rw [hentry] at h
            cases h
            cases i with
            | zero =>
                cases he
                exact ⟨_, rfl, respondEntry_responded hwaits hentry⟩
            | succ i => exact ⟨e, he, .inl rfl⟩
      · cases hrest : respondLoop message interface destPort time outside cache table with
        | none =>
            rw [hrest] at h
            cases h
        | some result =>
            rw [hrest] at h
            cases h
            cases i with
            | zero =>
                cases he
                exact ⟨_, rfl, .inl rfl⟩
            | succ i =>
                obtain ⟨e', he', hresponded⟩ := ih hrest he
                exact ⟨e', he', hresponded⟩

omit [DecidableEq I] in
/-- An entry that is answered waits no longer. -/
theorem Responded.trans {e'' : CacheEntry I} (h : Responded message destPort time outside e e')
    (h' : Responded message destPort time outside e' e'') :
    Responded message destPort time outside e e'' := by
  rcases h with rfl | ⟨hstate, hchange⟩
  · exact h'
  · have hleft : e'.state ≠ .inProgress := by
      rcases hchange with rfl | ⟨-, -, next, -, hresolved, rfl⟩
      · exact nofun
      · exact fun h => nomatch hresolved.symm.trans h
    rcases h' with rfl | ⟨hprogress, -⟩
    · exact .inr ⟨hstate, hchange⟩
    · exact absurd hprogress hleft

/-- A message that is not looked at changes nothing. -/
theorem dnsProcessResponse_responded
    (h : dnsProcessResponse message interface destPort time outside s = some s')
    (he : s.dnsCache[i]? = some e) :
    ∃ e', s'.dnsCache[i]? = some e' ∧ (e' = e ∨
      Responded message destPort time outside e e' ∧ dnsHeaderSize ≤ message.length ∧
        message.length ≤ DNS_MESSAGE_MAX_SIZE ∧
        (∃ flags, message[2]? = some flags ∧ flags &&& 0x80 ≠ 0) ∧ read16 message 4 = some 1) := by
  rw [dnsProcessResponse] at h
  by_cases hlength : message.length < dnsHeaderSize ∨ DNS_MESSAGE_MAX_SIZE < message.length
  · rw [if_pos hlength] at h
    cases h
    exact ⟨e, he, .inl rfl⟩
  rw [if_neg hlength] at h
  split at h
  · rename_i flags qdcount hflags hqdcount
    by_cases hignored : flags &&& 0x80 = 0 ∨ qdcount ≠ 1
    · rw [if_pos hignored] at h
      cases h
      exact ⟨e, he, .inl rfl⟩
    rw [if_neg hignored] at h
    split at h
    · cases h
    · rename_i cache' table' hloop
      cases h
      obtain ⟨hqr, hone⟩ := not_or.1 hignored
      obtain ⟨hmin, hmax⟩ := not_or.1 hlength
      obtain ⟨e', he', hresponded⟩ := respondLoop_responded hloop he
      refine ⟨e', he', .inr ⟨hresponded, Nat.le_of_not_lt hmin, Nat.le_of_not_lt hmax,
        ⟨flags, hflags, hqr⟩, ?_⟩⟩
      rw [hqdcount, not_not.1 hone]
  · cases h

/-- However many callback functions a datagram is for, an entry is answered once. -/
theorem invokeLoop_responded {k j : ℕ}
    (h : invokeLoop message interface destPort time outside k j s = some s')
    (he : s.dnsCache[i]? = some e) :
    ∃ e', s'.dnsCache[i]? = some e' ∧ (e' = e ∨
      Responded message destPort time outside e e' ∧ dnsHeaderSize ≤ message.length ∧
        message.length ≤ DNS_MESSAGE_MAX_SIZE ∧
        (∃ flags, message[2]? = some flags ∧ flags &&& 0x80 ≠ 0) ∧ read16 message 4 = some 1) := by
  induction k generalizing j s e with
  | zero =>
      cases h
      exact ⟨e, he, .inl rfl⟩
  | succ k ih =>
      rw [invokeLoop] at h
      split at h
      · cases h
        exact ⟨e, he, .inl rfl⟩
      · split_ifs at h
        · cases hprocess : dnsProcessResponse message interface destPort time outside s with
          | none =>
              rw [hprocess] at h
              cases h
          | some s₁ =>
              rw [hprocess] at h
              obtain ⟨e₁, he₁, hfirst⟩ := dnsProcessResponse_responded hprocess he
              obtain ⟨e', he', hrest⟩ := ih h he₁
              refine ⟨e', he', ?_⟩
              rcases hfirst with rfl | ⟨hfirst, hmessage⟩
              · exact hrest
              · rcases hrest with rfl | ⟨hrest, -⟩
                · exact .inr ⟨hfirst, hmessage⟩
                · exact .inr ⟨hfirst.trans hrest, hmessage⟩
        · exact ih h he

theorem udpReceive_outcome (message : List UInt8) (interface : I) (destPort : UInt16) (time : UInt32)
    (outside : ℤ) (he : s.dnsCache[i]? = some e) :
    ∃ e', (hostStep s (.udpReceive message interface destPort time outside)).dnsCache[i]? = some e' ∧
      Outcome i s (.udpReceive message interface destPort time outside) e e' := by
  obtain ⟨s', hs'⟩ := udpInvokeRxCallback_total message interface destPort time outside s
  obtain ⟨e', he', hresponded⟩ := invokeLoop_responded hs' he
  rw [hostStep, hs', Option.getD_some]
  refine ⟨e', he', ?_⟩
  rcases hresponded with rfl | ⟨hresponded, hmin, hmax, hqr, hone⟩
  · exact .refl i s _ e'
  · rcases hresponded with rfl | ⟨hstate, rfl | ⟨hprotocol, hport, next, hnext, hresolved, rfl⟩⟩
    · exact .refl i s _ e'
    · exact .kept rfl rfl nofun
    · obtain ⟨hname, hsame⟩ := processEntry_kept hnext
      exact .answered hname hsame
        ⟨hstate, hprotocol, hport, hmin, hmax, hqr, hone, next, hnext, hresolved, rfl⟩

end Responses

theorem nbnsRespondEntry_outcome {message : List UInt8} {id flags : UInt16} {addr : List UInt8}
    {ttl : UInt32} (hmin : dnsHeaderSize ≤ message.length)
    (hmax : message.length ≤ DNS_MESSAGE_MAX_SIZE) (hflags : read16 message 2 = some flags)
    (hqr : flags &&& 0x8000 ≠ 0) (hopcode : (flags >>> 11) &&& 0x0F = DNS_OPCODE_QUERY)
    (hrcode : flags &&& 0x0F = DNS_RCODE_NO_ERROR) (hanswer : nbnsAnswer message = some (some (id, ttl, addr))) (time : UInt32)
    (outside : Bool) (i : ℕ) (s : System I) (e : CacheEntry I) :
    Outcome i s (.nbnsReceive message .ipv4 time outside) e
      (nbnsRespondEntry message id addr ttl time outside e) := by
  rw [nbnsRespondEntry]
  split_ifs with hwaits hid hname
  · subst hid
    exact .answered rfl rfl ⟨rfl, hmin, hmax, ⟨flags, hflags, hqr, hopcode, hrcode⟩, hwaits.1,
      hwaits.2.1, hwaits.2.2, ttl, addr, hanswer, hname, rfl⟩
  · exact .refl i s _ e
  · exact .refl i s _ e
  · exact .refl i s _ e

theorem nbnsReceive_outcome (message : List UInt8) (peer : HostType) (time : UInt32) (outside : Bool)
    (he : s.dnsCache[i]? = some e) :
    ∃ e', (hostStep s (.nbnsReceive message peer time outside)).dnsCache[i]? = some e' ∧
      Outcome i s (.nbnsReceive message peer time outside) e e' := by
  have hkept : ∃ e', s.dnsCache[i]? = some e' ∧
      Outcome i s (.nbnsReceive message peer time outside) e e' := ⟨e, he, .refl i s _ e⟩
  rw [hostStep, nbnsProcessMessage]
  by_cases hpeer : peer ≠ .ipv4
  · rw [if_pos hpeer]
    exact hkept
  rw [if_neg hpeer]
  obtain rfl := not_not.1 hpeer
  by_cases hlength : message.length < dnsHeaderSize ∨ DNS_MESSAGE_MAX_SIZE < message.length
  · rw [if_pos hlength]
    exact hkept
  rw [if_neg hlength]
  obtain ⟨hmin, hmax⟩ := not_or.1 hlength
  cases hflags : read16 message 2 with
  | none => exact hkept
  | some flags =>
      dsimp only
      split_ifs with hopcode hrcode hqr
      · exact hkept
      · exact hkept
      · exact hkept
      · rw [nbnsProcessResponse]
        cases hanswer : nbnsAnswer message with
        | none => exact hkept
        | some answer =>
            cases answer with
            | none => exact hkept
            | some answer =>
                refine ⟨_, ?_, nbnsRespondEntry_outcome (Nat.le_of_not_lt hmin)
                  (Nat.le_of_not_lt hmax) hflags hqr (not_not.1 hopcode) (not_not.1 hrcode) hanswer time
                  outside i s e⟩
                rw [Option.getD_some, List.getElem?_map, he]
                rfl

theorem getHostByName_outcome (env : Env I) (interface : I) (name : List UInt8) (flags : UInt32)
    (port id : UInt16) (he : s.dnsCache[i]? = some e) :
    ∃ e', (hostStep s (.getHostByName env interface name flags port id)).dnsCache[i]? = some e' ∧
      Outcome i s (.getHostByName env interface name flags port id) e e' := by
  rw [hostStep]
  cases hresult : getHostByName env interface name flags port id s with
  | none => exact ⟨e, he, .refl i s _ e⟩
  | some result =>
      obtain ⟨error, ipAddr, s', sent⟩ := result
      rcases getHostByName_call hresult with ⟨rfl, -⟩ | hcall
      · exact ⟨e, he, .refl i s' _ e⟩
      · cases hcall with
        | found d hfound hs hsent =>
            subst hs
            exact ⟨e, he, .refl i s' _ e⟩
        | created hnone hindex d hcache hname hprotocol hquery =>
            dsimp only
            rw [hcache]
            by_cases hi : createIndex env.time s.dnsCache = i
            · rw [hi] at hindex ⊢
              refine ⟨d, List.getElem?_set_self hindex, .replaced ⟨hnone, hi⟩ ?_⟩
              cases hquery with
              | failed hstate _ _ => rw [hstate]; exact nofun
              | sent hstate _ _ _ _ _ _ => rw [hstate]; exact nofun
            · exact ⟨e, (List.getElem?_set_ne hi).trans he, .refl i s _ e⟩

/-- What an event does to an entry. -/
theorem hostStep_outcome (event : HostEvent I) (he : s.dnsCache[i]? = some e) :
    ∃ e', (hostStep s event).dnsCache[i]? = some e' ∧ Outcome i s event e e' := by
  cases event with
  | getHostByName env interface name flags port id =>
      exact getHostByName_outcome env interface name flags port id he
  | dnsTick env => exact dnsTick_outcome env he
  | udpReceive message interface destPort time outside =>
      exact udpReceive_outcome message interface destPort time outside he
  | nbnsReceive message peer time outside => exact nbnsReceive_outcome message peer time outside he
  | dnsFlushCache interface => exact dnsFlushCache_outcome interface he

/-- The name of an entry stays as long as the entry is not taken for another one. -/
theorem run_kept (he : s.dnsCache[i]? = some e) {events : List (HostEvent I)}
    (h : Along (fun s event => ¬ Replaces i s event) hostStep s events) :
    ∃ e', (run hostStep s events).dnsCache[i]? = some e' ∧ e'.name = e.name ∧
      e'.protocol = e.protocol := by
  refine run_invariant (I := fun s : System I => ∃ e', s.dnsCache[i]? = some e' ∧
    e'.name = e.name ∧ e'.protocol = e.protocol) (fun s event hs hevent => ?_) ⟨e, he, rfl, rfl⟩ h
  obtain ⟨d, hd, hname, hprotocol⟩ := hs
  obtain ⟨d', hd', houtcome⟩ := hostStep_outcome event hd
  refine ⟨d', hd', ?_⟩
  cases houtcome with
  | kept hname' hprotocol' _ => exact ⟨hname'.trans hname, hprotocol'.trans hprotocol⟩
  | answered hname' hprotocol' _ => exact ⟨hname'.trans hname, hprotocol'.trans hprotocol⟩
  | replaced hreplaces _ => exact absurd hreplaces hevent

end Outcomes

end Dns.Resolver
