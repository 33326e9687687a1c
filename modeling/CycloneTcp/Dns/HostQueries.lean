import CycloneTcp.Dns.HostRuns

set_option autoImplicit false

/-! # The queries for a host name

A name that can be asked for is asked for in every query, whatever happens until its entry is taken
for another name. A name that is too long for the entry is written behind it, one that the DNS
encoder rejects is left out of the query, and one that is too long for the NBNS encoder is cut off. -/

namespace Dns.Resolver

open CString
open Ipv6Text (NineThenColons)

section Queries

variable {I : Type*} [DecidableEq I] {s s' : System I} {e : CacheEntry I} {name : List UInt8}

/-- A query that the timer sends is made from the name in the entry. -/
theorem tickEntry_query {env : Env I} {i : ℕ} {table : List (UdpRxCallbackDesc I)} {q : Query I}
    (hq : q ∈ (tickEntry env i e table).2.2) :
    ∃ (transport : ErrorCode) (e₀ : CacheEntry I), e₀.name = e.name ∧ e₀.protocol = e.protocol ∧
      q ∈ (sendQuery env transport e₀).2 := by
  rw [tickEntry] at hq
  cases hstate : e.state with
  | none | permanent =>
      rw [hstate] at hq
      cases hq
  | resolved =>
      rw [hstate] at hq
      dsimp only at hq
      split_ifs at hq <;> cases hq
  | inProgress =>
      rw [hstate] at hq
      dsimp only at hq
      split_ifs at hq
      swap
      · cases hq
      rw [tickTimedOut] at hq
      dsimp only at hq
      by_cases hretry : e.retransmitCount > 0
      · rw [if_pos hretry] at hq
        refine ⟨env.transport i, e, rfl, rfl, ?_⟩
        split_ifs at hq <;> exact hq
      rw [if_neg hretry] at hq
      by_cases hdns : e.protocol = .dns
      · rw [if_pos hdns] at hq
        refine ⟨env.transport i, { e with
          dnsServerNum := e.dnsServerNum + 1, retransmitCount := DNS_CLIENT_MAX_RETRIES },
          rfl, rfl, ?_⟩
        rw [sendQuery]
        dsimp only
        rw [hdns]
        split_ifs at hq <;> exact hq
      · rw [if_neg hdns] at hq
        cases hq

theorem tickEntry_asks {env : Env I} {i : ℕ} {table : List (UdpRxCallbackDesc I)} {q : Query I}
    (h : Acceptable e.protocol (str e.name)) (hq : q ∈ (tickEntry env i e table).2.2) :
    AsksFor e.protocol (str e.name) q.message := by
  obtain ⟨transport, e₀, hname, hprotocol, hq⟩ := tickEntry_query hq
  rw [← hname, ← hprotocol] at h ⊢
  exact sendQuery_asks h hq

/-- The name is in a cache entry, exactly or, if the entry was there before, up to case. The queries
that are sent ask for it, now and as long as the entry is not taken for another name. -/
def Served (protocol : HostnameResolver) (name : List UInt8) (s' : System I)
    (sent : List (Query I)) : Prop :=
  ∃ i e, s'.dnsCache[i]? = some e ∧ e.protocol = protocol ∧
    (e.name.length = DNS_MAX_NAME_LEN + 1 ∧ str e.name = name ∨
      sent = [] ∧ EqFold (str e.name) name) ∧
    (∀ q ∈ sent, AsksFor protocol (str e.name) q.message) ∧
    ∀ events, Along (fun s event => Confined s event ∧ ¬ Replaces i s event) hostStep s' events →
      ∃ e', (run hostStep s' events).dnsCache[i]? = some e' ∧ str e'.name = str e.name ∧
        ∀ env table, ∀ q ∈ (tickEntry env i e' table).2.2, AsksFor protocol (str e.name) q.message

/-- The call returns an error, nothing is sent, and there is no entry to wait for; or the name is
served. Nothing is written behind an object. -/
def Faithful (interface : I) (name : List UInt8) (flags : UInt32)
    (result : Option (ErrorCode × Option (List UInt8) × System I × List (Query I))) : Prop :=
  ∃ error ipAddr s' sent, result = some (error, ipAddr, s', sent) ∧
    (error ≠ .noError ∧ sent = [] ∧
        (error = .inProgress → hostEntry interface name flags s' = none) ∨
      Served (hostProtocol flags name) name s' sent)

theorem Served.intro {protocol : HostnameResolver} {sent : List (Query I)} {i : ℕ}
    (he : s'.dnsCache[i]? = some e) (hprotocol : e.protocol = protocol)
    (hname : e.name.length = DNS_MAX_NAME_LEN + 1 ∧ str e.name = name ∨
      sent = [] ∧ EqFold (str e.name) name)
    (hsent : ∀ q ∈ sent, AsksFor protocol (str e.name) q.message)
    (hacceptable : Acceptable protocol (str e.name)) : Served protocol name s' sent := by
  refine ⟨i, e, he, hprotocol, hname, hsent, fun events hevents => ?_⟩
  obtain ⟨e', he', hname', hprotocol'⟩ := run_kept he (hevents.mono fun _ _ h => h.2)
  refine ⟨e', he', by rw [hname'], fun env table q hq => ?_⟩
  rw [← hname', ← hprotocol, ← hprotocol']
  refine tickEntry_asks ?_ hq
  rwa [hname', hprotocol', hprotocol]

theorem strcpy_length {size : ℕ} {array : List UInt8} (h : strcpy size name = some array) :
    array.length = size := by
  rw [strcpy] at h
  split_ifs at h with hfits
  cases h
  rw [List.length_append, List.length_replicate]
  omega

theorem dnsFindEntry_some {interface : I} {type : HostType} {protocol : HostnameResolver}
    {cache : List (CacheEntry I)} (h : dnsFindEntry interface name type protocol cache = some e) :
    e ∈ cache ∧ Matches interface name type protocol e := by
  rw [dnsFindEntry] at h
  have hmatches := List.find?_some h
  exact ⟨List.mem_of_find?_eq_some h, of_decide_eq_true hmatches⟩

/-- No entry is found after one that is not in use has been stored. -/
theorem dnsFindEntry_set_none {interface : I} {type : HostType} {protocol : HostnameResolver}
    {cache : List (CacheEntry I)} (h : dnsFindEntry interface name type protocol cache = none)
    (i : ℕ) (he : e.state = .none) :
    dnsFindEntry interface name type protocol (cache.set i e) = none := by
  rw [dnsFindEntry, List.find?_eq_none]
  intro d hd
  rw [decide_eq_true_eq]
  rcases List.mem_or_eq_of_mem_set hd with hd | rfl
  · exact dnsFindEntry_none h d hd
  · exact fun hmatches => hmatches.1 he

omit [DecidableEq I] in
theorem hostProtocol_ne_any (flags : UInt32) (name : List UInt8) : hostProtocol flags name ≠ .any := by
  rw [hostProtocol]
  split_ifs <;> nofun

/-- A call that is made is served if the name is acceptable. -/
theorem Call.faithful {env : Env I} {interface : I} {flags : UInt32} {error : ErrorCode}
    {sent : List (Query I)} (hnul : 0 ∉ name)
    (h : Call env interface name (lookupType flags name) (hostProtocol flags name) s error s' sent)
    (hacceptable : Acceptable (hostProtocol flags name) name) (ipAddr : Option (List UInt8)) :
    Faithful interface name flags (some (error, ipAddr, s', sent)) := by
  refine ⟨error, ipAddr, s', sent, rfl, ?_⟩
  cases h with
  | found e hfound hs hsent =>
      subst hs hsent
      obtain ⟨hmem, -, -, -, hprotocol, hfold⟩ := dnsFindEntry_some hfound
      obtain ⟨i, he⟩ := List.mem_iff_getElem?.1 hmem
      exact .inr (.intro he (hprotocol.resolve_right (hostProtocol_ne_any flags name))
        (.inr ⟨rfl, hfold⟩) nofun (acceptable_of_eqFold hfold hacceptable))
  | created hnone hindex e hcache hname hprotocol hquery =>
      have hstr : str e.name = name := str_strcpy hnul hname
      cases hquery with
      | failed hstate herror hsent =>
          refine .inl ⟨herror, hsent, fun _ => ?_⟩
          rw [hostEntry, hcache]
          exact dnsFindEntry_set_none hnone _ hstate
      | sent hstate herror transport e₀ hname₀ hprotocol₀ hsent =>
          have he : s'.dnsCache[createIndex env.time s.dnsCache]? = some e := by
            rw [hcache, List.getElem?_set_self hindex]
          refine .inr (.intro he hprotocol (.inl ⟨strcpy_length hname, hstr⟩) (fun q hq => ?_)
            (hstr.symm ▸ hacceptable))
          rw [hsent] at hq
          rw [← hprotocol, ← hprotocol₀, ← hname₀]
          refine sendQuery_asks ?_ hq
          rwa [hprotocol₀, hprotocol, hname₀, hstr]

/-! ## Addresses -/

/-- A string that is no address is converted inside the address, unless it begins with nine groups. -/
theorem ipStringToAddr_confined (hnul : 0 ∉ name) :
    ∃ error ipAddr, ipStringToAddr name = some (error, ipAddr) ∧
      (ipAddr.Confined ↔ ¬ NineThenColons name) := by
  rw [ipStringToAddr]
  by_cases hcolon : 58 ∈ name
  · rw [if_pos hcolon]
    obtain ⟨⟨error, addr⟩, hresult, hparsed⟩ := Ipv6Text.ipv6StringToAddr_parsed hnul [] fun _ => 0
    rw [hresult]
    exact ⟨error, .ipv6 addr, rfl,
      fun hconfined hnine => absurd (hconfined 8 (hnine.overrun hparsed)) (by decide),
      hparsed.stored_lt⟩
  have hnine : ¬ NineThenColons name := by
    rintro ⟨a, b, va, rfl, -⟩
    exact hcolon (List.mem_append_right _ List.mem_cons_self)
  rw [if_neg hcolon]
  by_cases hdot : 46 ∈ name
  · rw [if_pos hdot]
    obtain ⟨error, addr, hresult, -, -, hbounds⟩ :=
      ipv4StringToAddr_exact name [] (fun _ => 0) hnul
    rw [hresult]
    exact ⟨error, .ipv4 addr, rfl, iff_of_true hbounds hnine⟩
  · rw [if_neg hdot]
    exact ⟨.failure, .unspecified, rfl, iff_of_true trivial hnine⟩

/-! ## The names that are served -/

/-- The names that are asked for: over DNS, those that fit in an entry and have no empty label, and
over NBNS, those of at most 15 characters. The conversion to an address has stayed inside. -/
def Askable (flags : UInt32) (name : List UInt8) : Prop :=
  Acceptable (hostProtocol flags name) name ∧ ¬ NineThenColons name

/-- A string that is no address is resolved with a protocol. -/
theorem getHostByName_eq (hnul : 0 ∉ name)
    (hhost : ∀ ipAddr, ipStringToAddr name ≠ some (.noError, ipAddr)) (hnine : ¬ NineThenColons name)
    (env : Env I) (interface : I) (flags : UInt32) (port id : UInt16) (s : System I) :
    getHostByName env interface name flags port id s =
      match hostProtocol flags name with
      | .dns => dnsResolve env interface name (hostType flags) port id s
      | .nbns => nbnsResolve env interface name s
      | _ => some (.invalidParameter, none, s, []) := by
  obtain ⟨error, ipAddr, hconvert, hconfined⟩ := ipStringToAddr_confined hnul
  have herror : error ≠ .noError := by
    rintro rfl
    exact hhost ipAddr hconvert
  rw [getHostByName, hconvert]
  refine (if_neg (not_not.2 (hconfined.2 hnine))).trans ?_
  exact if_neg herror

theorem faithful_of_askable (hnul : 0 ∉ name)
    (hhost : ∀ ipAddr, ipStringToAddr name ≠ some (.noError, ipAddr)) {flags : UInt32}
    (h : Askable flags name) (env : Env I) (interface : I) (port id : UInt16)
    (hcache : s.dnsCache ≠ []) :
    Faithful interface name flags (getHostByName env interface name flags port id s) := by
  have heq := getHostByName_eq hnul hhost h.2 env interface flags port id s
  have hcall : ∀ {error ipAddr s' sent},
      getHostByName env interface name flags port id s = some (error, ipAddr, s', sent) →
      Call env interface name (lookupType flags name) (hostProtocol flags name) s error s' sent →
      Faithful interface name flags (getHostByName env interface name flags port id s) := by
    intro error ipAddr s' sent hresult hcall
    rw [hresult]
    exact hcall.faithful hnul h.1 ipAddr
  have hacceptable := h.1
  cases hprotocol : hostProtocol flags name with
  | dns =>
      rw [hprotocol] at heq hacceptable
      obtain ⟨error, ipAddr, s', sent, hresult⟩ := dnsResolve_some env interface (hostType flags) port
        id hcache hacceptable.1
      refine hcall (heq.trans hresult) ?_
      rw [lookupType, hprotocol, if_neg (by simp)]
      exact dnsResolve_call hresult
  | nbns =>
      rw [hprotocol] at heq hacceptable
      have hlength : name.length ≤ DNS_MAX_NAME_LEN := le_trans hacceptable (by decide)
      obtain ⟨error, ipAddr, s', sent, hresult⟩ := nbnsResolve_some env interface hcache hlength
      refine hcall (heq.trans hresult) ?_
      rw [lookupType, hprotocol, if_pos rfl]
      exact nbnsResolve_call hresult
  | any | mdns | llmnr =>
      rw [hprotocol] at heq
      exact ⟨_, _, _, _, heq, .inl ⟨by simp, rfl, by simp⟩⟩

/-! ## The names that are not -/

/-- A server, and a network that loses nothing. -/
def oneServer (I : Type*) : Env I :=
  { time := 0, dnsServerList := fun _ _ _ => some [192, 0, 2, 1]
    broadcastAddr := fun _ => [192, 0, 2, 255], transport := fun _ => .noError }

/-- A cache with one entry, and room for one callback function. -/
def oneEntry (interface : I) : System I :=
  start 0 interface [{ interface := none, port := 0, callback := none }]

theorem dnsFindEntry_oneEntry (interface : I) (name : List UInt8) (type : HostType)
    (protocol : HostnameResolver) :
    dnsFindEntry interface name type protocol (oneEntry interface).dnsCache = none := by
  rw [dnsFindEntry, List.find?_eq_none]
  intro e he
  rw [List.eq_of_mem_replicate he, decide_eq_true_eq]
  exact fun hmatches => hmatches.1 rfl

omit [DecidableEq I] in
theorem dnsSendQuery_oneServer {transport : ErrorCode} (htransport : transport = .noError)
    (htype : e.type ≠ .any) (hserver : e.dnsServerNum < DNS_SERVER_LIST_SIZE) :
    ∃ q rest, dnsSendQuery (oneServer I) transport e = (.noError, [q]) ∧ rest.length = 4 ∧
      q.message = queryHeader e.id [0x01, 0x00] ++ (encodedName e.name ++ rest) := by
  rw [dnsSendQuery, if_neg htype, if_neg (Nat.not_le_of_lt hserver)]
  refine ⟨_, htons (if e.type = .ipv4 then DNS_RR_TYPE_A else DNS_RR_TYPE_AAAA) ++
    htons DNS_RR_CLASS_IN, if_neg (not_not.2 htransport), rfl, ?_⟩
  simp only [List.append_assoc]

/-- The first query over DNS, whatever the name is. -/
theorem dnsResolve_oneEntry (interface : I) {type : HostType} (htype : type ≠ .any)
    (port id : UInt16) {array : List UInt8}
    (hcopy : strcpy (DNS_MAX_NAME_LEN + 1) name = some array) :
    ∃ s' q rest, dnsResolve (oneServer I) interface name type port id (oneEntry interface) =
        some (.inProgress, none, s', [q]) ∧ rest.length = 4 ∧
      q.message = queryHeader id [0x01, 0x00] ++ (encodedName array ++ rest) := by
  obtain ⟨q, rest, hquery, hrest, hmessage⟩ := dnsSendQuery_oneServer
    (e := { newEntry array type .dns interface port id with
      retransmitCount := DNS_CLIENT_MAX_RETRIES }) (rfl : (oneServer I).transport 0 = .noError) htype
    Nat.two_pos
  have hresult : ∃ s', dnsResolve (oneServer I) interface name type port id (oneEntry interface) =
      some (.inProgress, none, s', [q]) := by
    rw [dnsResolve, dnsFindEntry_oneEntry]
    dsimp only
    rw [show createIndex (oneServer I).time (oneEntry interface).dnsCache = 0 from rfl,
      show (oneEntry interface).dnsCache[0]? = some (newEntry _ .any .any interface 0 0) from rfl]
    dsimp only
    rw [hcopy]
    dsimp only
    rw [show udpAttachRxCallback interface port .dnsProcessResponse _ = some _ from rfl]
    dsimp only
    rw [hquery]
    exact ⟨_, rfl⟩
  obtain ⟨s', hs'⟩ := hresult
  exact ⟨s', q, rest, hs', hrest, hmessage⟩

/-- The first query over NBNS. -/
theorem nbnsResolve_oneEntry (interface : I) {array : List UInt8}
    (hcopy : strcpy (DNS_MAX_NAME_LEN + 1) name = some array) :
    ∃ s' q, nbnsResolve (oneServer I) interface name (oneEntry interface) =
      some (.inProgress, none, s', [q]) := by
  rw [nbnsResolve, dnsFindEntry_oneEntry]
  dsimp only
  rw [show createIndex (oneServer I).time (oneEntry interface).dnsCache = 0 from rfl,
    show (oneEntry interface).dnsCache[0]? = some (newEntry _ .any .any interface 0 0) from rfl]
  dsimp only
  rw [hcopy]
  exact ⟨_, _, rfl⟩

/-- A name that does not fit is written behind the entry. -/
theorem dnsResolve_overrun (interface : I) (type : HostType) (port id : UInt16)
    (hcopy : strcpy (DNS_MAX_NAME_LEN + 1) name = none) :
    dnsResolve (oneServer I) interface name type port id (oneEntry interface) = none := by
  rw [dnsResolve, dnsFindEntry_oneEntry]
  dsimp only
  rw [show createIndex (oneServer I).time (oneEntry interface).dnsCache = 0 from rfl,
    show (oneEntry interface).dnsCache[0]? = some (newEntry _ .any .any interface 0 0) from rfl]
  dsimp only
  rw [hcopy]

theorem nbnsResolve_overrun (interface : I) (hcopy : strcpy (DNS_MAX_NAME_LEN + 1) name = none) :
    nbnsResolve (oneServer I) interface name (oneEntry interface) = none := by
  rw [nbnsResolve, dnsFindEntry_oneEntry]
  dsimp only
  rw [show createIndex (oneServer I).time (oneEntry interface).dnsCache = 0 from rfl,
    show (oneEntry interface).dnsCache[0]? = some (newEntry _ .any .any interface 0 0) from rfl]
  dsimp only
  rw [hcopy]

/-- A name takes at least the octet that ends it. -/
theorem readLabels_length {k : ℕ} {question rest : List UInt8} {ls : List (List UInt8)}
    (h : readLabels k question = some (ls, rest)) : rest.length < question.length := by
  induction k generalizing question ls with
  | zero =>
      rw [readLabels] at h
      · cases h
      · simp
  | succ k ih =>
      cases question with
      | nil =>
          rw [readLabels] at h
          · cases h
          · simp
      | cons n question =>
          rw [readLabels] at h
          split_ifs at h
          · cases h
            exact Nat.lt_succ_self _
          · split at h
            · cases h
            · rename_i hrest
              cases h
              have hlt := ih hrest
              rw [List.length_drop] at hlt
              rw [List.length_cons]
              omega

/-- A query has been sent, so it asks for the name. -/
theorem Faithful.asks {interface : I} {flags : UInt32} {error : ErrorCode}
    {ipAddr : Option (List UInt8)} {q : Query I}
    (h : Faithful interface name flags (some (error, ipAddr, s', [q]))) :
    AsksFor (hostProtocol flags name) name q.message := by
  obtain ⟨error', ipAddr', s'', sent, heq, hserved⟩ := h
  cases heq
  rcases hserved with ⟨-, hsent, -⟩ | ⟨i, e, -, -, hname, hsent, -⟩
  · cases hsent
  · rcases hname with ⟨-, hname⟩ | ⟨hempty, -⟩
    · rw [hname] at hsent
      exact hsent q List.mem_cons_self
    · cases hempty

/-- A name that is served over DNS is fit for it. -/
theorem acceptable_of_dns {interface : I} {flags : UInt32} {type : HostType} {port id : UInt16}
    (htype : type ≠ .any) (hnul : 0 ∉ name) (hprotocol : hostProtocol flags name = .dns)
    (h : Faithful interface name flags
      (dnsResolve (oneServer I) interface name type port id (oneEntry interface))) :
    Acceptable .dns name := by
  cases hcopy : strcpy (DNS_MAX_NAME_LEN + 1) name with
  | none =>
      rw [dnsResolve_overrun interface type port id hcopy] at h
      obtain ⟨_, _, _, _, heq, -⟩ := h
      cases heq
  | some array =>
      have hstr := str_strcpy hnul hcopy
      obtain ⟨s', q, rest, hresult, hrest, hmessage⟩ :=
        dnsResolve_oneEntry interface htype port id hcopy
      rw [hresult] at h
      have hquestion := h.asks.question
      rw [hprotocol, hmessage] at hquestion
      have hlength : name.length ≤ DNS_MAX_NAME_LEN := by
        by_contra hlong
        rw [strcpy, if_neg fun hfits => hlong (Nat.le_of_succ_le_succ hfits)] at hcopy
        cases hcopy
      refine ⟨hlength, fun l hl hnil => ?_⟩
      have hbad : ¬ ∀ l ∈ labels (str array), LabelOk l := by
        intro hok
        rw [hstr] at hok
        have hpos := (hok l hl).1
        rw [hnil] at hpos
        exact absurd hpos (by decide)
      rw [encodedName_of_not_labelOk hbad, List.nil_append] at hquestion
      obtain ⟨left, hread, hleft⟩ := hquestion
      have hlt := readLabels_length hread
      rw [hleft] at hlt
      exact absurd hlt (Nat.not_lt.2 (Nat.le_of_eq hrest))

/-- A name that is served over NBNS is fit for it. -/
theorem acceptable_of_nbns {interface : I} {flags : UInt32} (hprotocol : hostProtocol flags name = .nbns)
    (h : Faithful interface name flags
      (nbnsResolve (oneServer I) interface name (oneEntry interface))) : Acceptable .nbns name := by
  cases hcopy : strcpy (DNS_MAX_NAME_LEN + 1) name with
  | none =>
      rw [nbnsResolve_overrun interface hcopy] at h
      obtain ⟨_, _, _, _, heq, -⟩ := h
      cases heq
  | some array =>
      obtain ⟨s', q, hresult⟩ := nbnsResolve_oneEntry interface hcopy
      rw [hresult] at h
      have hquestion := h.asks.question
      rw [hprotocol] at hquestion
      obtain ⟨-, -, -, -, hfold⟩ := hquestion
      have hlength := hfold.length_eq
      rw [List.length_append] at hlength
      have htake := List.length_take_le 15
        (Nbns.chars (Nbns.lettersAt (q.message.drop dnsHeaderSize) 0))
      show name.length ≤ 15
      omega

theorem hostType_ne_any (flags : UInt32) : hostType flags ≠ .any := by
  rw [hostType]
  split_ifs <;> nofun

/-- **Host names are queried faithfully exactly if they can be asked for.** For every string that is no
address, in every state of the cache and whatever the environment does, the call returns an error and
nothing is sent, or all queries are for the name, and nothing is written behind an object. -/
theorem getHostByName_faithful_iff (interface : I) (name : List UInt8) (flags : UInt32)
    (hnul : 0 ∉ name) (hhost : ∀ ipAddr, ipStringToAddr name ≠ some (.noError, ipAddr)) :
    (∀ (env : Env I) (port id : UInt16) (s : System I), s.dnsCache ≠ [] →
      Faithful interface name flags (getHostByName env interface name flags port id s)) ↔
      Askable flags name := by
  constructor
  · intro h
    have hone := h (oneServer I) 0 0 (oneEntry interface) (List.cons_ne_nil _ _)
    have hnine : ¬ NineThenColons name := by
      intro hnine
      obtain ⟨error, ipAddr, hconvert, hconfined⟩ := ipStringToAddr_confined hnul
      rw [getHostByName, hconvert] at hone
      dsimp only at hone
      rw [if_pos fun hin => hconfined.1 hin hnine] at hone
      obtain ⟨_, _, _, _, heq, -⟩ := hone
      cases heq
    refine ⟨?_, hnine⟩
    rw [getHostByName_eq hnul hhost hnine] at hone
    cases hprotocol : hostProtocol flags name with
    | dns =>
        rw [hprotocol] at hone
        exact acceptable_of_dns (hostType_ne_any flags) hnul hprotocol hone
    | nbns =>
        rw [hprotocol] at hone
        exact acceptable_of_nbns hprotocol hone
    | any | mdns | llmnr => trivial
  · exact fun h env port id s hcache => faithful_of_askable hnul hhost h env interface port id hcache

end Queries

/-- The name `"a"`. -/
theorem getHostByName_faithful_a :
    (∀ (env : Env Unit) (port id : UInt16) (s : System Unit), s.dnsCache ≠ [] →
      Faithful () [97] 0 (getHostByName env () [97] 0 port id s)) ↔ Askable 0 [97] := by
  refine getHostByName_faithful_iff () [97] 0 (by decide) fun ipAddr h => ?_
  cases h

/-- A name of 64 characters. -/
theorem getHostByName_long : ¬ ∀ (name : List UInt8) (flags : UInt32), 0 ∉ name →
    (∀ ipAddr, ipStringToAddr name ≠ some (.noError, ipAddr)) →
    ∀ (env : Env Unit) (port id : UInt16) (s : System Unit), s.dnsCache ≠ [] →
      Faithful () name flags (getHostByName env () name flags port id s) := by
  intro h
  obtain ⟨_, _, _, _, heq, -⟩ := h (List.replicate 64 97) 0 (by decide) (fun ipAddr h => by cases h)
    (oneServer Unit) 0 0 (oneEntry ()) (List.cons_ne_nil _ _)
  have hnone : getHostByName (oneServer Unit) () (List.replicate 64 97) 0 0 0 (oneEntry ()) = none :=
    rfl
  rw [hnone] at heq
  cases heq

end Dns.Resolver
