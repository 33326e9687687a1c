import CycloneTcp.Dns.Resolver
import CycloneTcp.Lib.Registrations
import CycloneTcp.Lib.Runs

set_option autoImplicit false

/-! # Runs of the resolver

Every path on which an entry comes into progress or leaves it registers or unregisters the callback
function once. A path changes one entry and the callback table; `Change` says in which two ways, and
a loop over the cache makes one change after the other. -/

namespace Dns.Resolver

open CString
open Registrar (mem_middle pairwise_replace pairwise_others)

/-! ## Entries in progress -/

section Entries

variable {I : Type*}

/-- A DNS query is in progress. -/
def Pending (entry : CacheEntry I) : Prop := entry.state = .inProgress ∧ entry.protocol = .dns

instance (entry : CacheEntry I) : Decidable (Pending entry) :=
  inferInstanceAs (Decidable (_ ∧ _))

/-- The callback function of the DNS client is registered. -/
def Listens (entry : UdpRxCallbackDesc I) : Prop := entry.callback = some .dnsProcessResponse

instance (entry : UdpRxCallbackDesc I) : Decidable (Listens entry) :=
  inferInstanceAs (Decidable (_ = _))

/-- The entries in progress hold callback functions, by interface and port. -/
def registrar (I : Type*) : Registrar (CacheEntry I) (UdpRxCallbackDesc I) (Option I × UInt16) :=
  { holds := Pending
    key := fun entry => (some entry.interface, entry.port)
    taken := Listens
    name := fun entry => (entry.interface, entry.port) }

instance : DecidablePred (registrar I).holds := fun e => inferInstanceAs (Decidable (Pending e))

instance : DecidablePred (registrar I).taken := fun d => inferInstanceAs (Decidable (Listens d))

/-- The entries are for the same interface, type, protocol and name. -/
def SameName (d e : CacheEntry I) : Prop :=
  d.interface = e.interface ∧ d.type = e.type ∧ d.protocol = e.protocol ∧
    EqFold (str d.name) (str e.name)

/-- While an entry is in progress, queries have been sent `DNS_CLIENT_MAX_RETRIES` times to the
servers before the present one, and to this one as often as the counter says. -/
def Counted (entry : CacheEntry I) : Prop :=
  entry.state = .inProgress → entry.dnsServerNum < DNS_SERVER_LIST_SIZE ∧
    entry.retransmitCount ≤ DNS_CLIENT_MAX_RETRIES ∧ entry.protocol = .dns ∧
    ∀ n, entry.sentTo.count n =
      if n < entry.dnsServerNum then DNS_CLIENT_MAX_RETRIES
      else if n = entry.dnsServerNum then DNS_CLIENT_MAX_RETRIES - entry.retransmitCount else 0

end Entries

section Good

variable {I : Type*} [DecidableEq I] {cache pre post : List (CacheEntry I)}
variable {table table' : List (UdpRxCallbackDesc I)} {e e' : CacheEntry I}

/-- What holds of the cache and the callback table in every state of a run. -/
structure Good (cache : List (CacheEntry I)) (table : List (UdpRxCallbackDesc I)) : Prop where
  matched : (registrar I).Matched cache table
  ports : cache.Pairwise fun d e => Pending d → Pending e → d.port ≠ e.port
  names : cache.Pairwise fun d e => d.state ≠ .none → e.state ≠ .none → ¬ SameName d e
  counted : ∀ e ∈ cache, Counted e

/-- What stays as it is. -/
structure Kept (e e' : CacheEntry I) : Prop where
  used : e'.state ≠ .none → e.state ≠ .none
  interface : e'.interface = e.interface
  type : e'.type = e.type
  protocol : e'.protocol = e.protocol
  name : e'.name = e.name
  port : e'.port = e.port
  counted : Counted e → Counted e'

/-- What a step does to an entry and to the callback table: the callback function stays, or it is
unregistered when the entry leaves progress. -/
inductive Change (e : CacheEntry I) (table : List (UdpRxCallbackDesc I)) :
    CacheEntry I → List (UdpRxCallbackDesc I) → Prop
  | keep {e' : CacheEntry I} (hkept : Kept e e') (hpending : Pending e' ↔ Pending e) :
      Change e table e' table
  | release {e' : CacheEntry I} (hkept : Kept e e') (he : Pending e) (he' : ¬ Pending e') :
      Change e table e' (udpDetachRxCallback e.interface e.port table)

theorem detachEntry_listens (interface : I) (port : UInt16) (d : UdpRxCallbackDesc I) :
    Listens (detachEntry interface port d) ↔
      Listens d ∧ (d.interface, d.port) ≠ (some interface, port) := by
  rw [detachEntry]
  by_cases hfree : d.callback ≠ none
  · rw [if_pos hfree]
    by_cases hkey : d.port = port ∧ d.interface = some interface
    · rw [if_pos hkey]
      exact iff_of_false nofun fun h => h.2 (by rw [hkey.1, hkey.2])
    · rw [if_neg hkey]
      exact (and_iff_left fun heq => hkey ⟨(Prod.mk.inj heq).2, (Prod.mk.inj heq).1⟩).symm
  · rw [if_neg hfree]
    rw [not_not] at hfree
    refine iff_of_false (fun h => ?_) fun h => ?_
    · rw [Listens, hfree] at h
      cases h
    · rw [Listens, hfree] at h
      cases h.1

theorem detachEntry_name (interface : I) (port : UInt16) (d : UdpRxCallbackDesc I) :
    ((detachEntry interface port d).interface, (detachEntry interface port d).port) =
      (d.interface, d.port) := by
  rw [detachEntry]
  split_ifs <;> rfl

/-- A change of one entry keeps what holds. -/
theorem Good.change (h : Good (pre ++ e :: post) table) (hchange : Change e table e' table') :
    Good (pre ++ e' :: post) table' := by
  have hkept : Kept e e' ∧ (Pending e' → Pending e) := by
    cases hchange with
    | keep hkept hpending => exact ⟨hkept, hpending.1⟩
    | release hkept he he' => exact ⟨hkept, fun h => absurd h he'⟩
  obtain ⟨hkept, hpending⟩ := hkept
  refine ⟨?_, pairwise_replace h.ports ?_ ?_, pairwise_replace h.names ?_ ?_, fun d hd => ?_⟩
  · cases hchange with
    | keep _ hiff =>
        refine h.matched.keep hiff fun _ => ?_
        show (some e'.interface, e'.port) = (some e.interface, e.port)
        rw [hkept.interface, hkept.port]
    | release _ he he' =>
        exact h.matched.release he he' (detachEntry_listens e.interface e.port)
          (detachEntry_name e.interface e.port)
  · intro b _ hb hbpending he'
    rw [hkept.port]
    exact hb hbpending (hpending he')
  · intro b _ hb he' hbpending
    rw [hkept.port]
    exact hb (hpending he') hbpending
  · intro b _ hb hbused he' hsame
    rw [SameName, hkept.interface, hkept.type, hkept.protocol, hkept.name] at hsame
    exact hb hbused (hkept.used he') hsame
  · intro b _ hb he' hbused hsame
    rw [SameName, hkept.interface, hkept.type, hkept.protocol, hkept.name] at hsame
    exact hb (hkept.used he') hbused hsame
  · rcases mem_middle.1 hd with rfl | hd
    · exact hkept.counted (h.counted e (mem_middle.2 (Or.inl rfl)))
    · exact h.counted d (mem_middle.2 (Or.inr hd))

variable (pre) in
/-- A loop over the cache makes one change after the other. -/
theorem Good.eachEntry {f : ℕ → CacheEntry I → List (UdpRxCallbackDesc I) →
      CacheEntry I × List (UdpRxCallbackDesc I) × List (Query I)}
    (hf : ∀ i e table, Change e table (f i e table).1 (f i e table).2.1) (i : ℕ)
    (h : Good (pre ++ cache) table) :
    Good (pre ++ (eachEntry f i cache table).1) (eachEntry f i cache table).2.1 := by
  induction cache generalizing pre table i with
  | nil => exact h
  | cons e cache ih =>
      have hstep := h.change (hf i e table)
      rw [List.append_cons] at hstep
      have hrest := ih _ (i + 1) hstep
      rw [← List.append_cons] at hrest
      exact hrest

/-! ## The changes -/

/-- An entry is deleted, perhaps with other counters. -/
theorem dnsDeleteEntry_change {e₁ : CacheEntry I} (hstate : e₁.state = e.state)
    (hinterface : e₁.interface = e.interface) (htype : e₁.type = e.type)
    (hprotocol : e₁.protocol = e.protocol) (hname : e₁.name = e.name) (hport : e₁.port = e.port) :
    Change e table (dnsDeleteEntry e₁ table).1 (dnsDeleteEntry e₁ table).2 := by
  have hkept : Kept e (dnsDeleteEntry e₁ table).1 :=
    ⟨fun h => absurd rfl h, hinterface, htype, hprotocol, hname, hport, fun _ h => nomatch h⟩
  have hnot : ¬ Pending (dnsDeleteEntry e₁ table).1 := fun h => nomatch h.1
  by_cases hpending : Pending e
  · have htable : (dnsDeleteEntry e₁ table).2 = udpDetachRxCallback e.interface e.port table := by
      rw [dnsDeleteEntry, hprotocol, hstate, hinterface, hport]
      dsimp only
      rw [if_pos hpending.2, if_pos hpending.1]
    rw [htable]
    exact Change.release hkept hpending hnot
  · have htable : (dnsDeleteEntry e₁ table).2 = table := by
      rw [dnsDeleteEntry, hprotocol, hstate]
      dsimp only
      split_ifs with hdns hprogress
      · exact absurd ⟨hprogress, hdns⟩ hpending
      · rfl
      · rfl
    rw [htable]
    exact Change.keep hkept (iff_of_false hnot hpending)

theorem Change.refl (e : CacheEntry I) (table : List (UdpRxCallbackDesc I)) :
    Change e table e table :=
  .keep ⟨id, rfl, rfl, rfl, rfl, rfl, id⟩ Iff.rfl

omit [DecidableEq I] in
/-- A query that has been sent was for a server of the list. -/
theorem dnsSendQuery_noError {env : Env I} {transport : ErrorCode}
    (h : (dnsSendQuery env transport e).1 = .noError) : e.dnsServerNum < DNS_SERVER_LIST_SIZE := by
  by_contra hserver
  rw [dnsSendQuery, if_pos (Nat.le_of_not_lt hserver)] at h
  split_ifs at h

omit [DecidableEq I] in
/-- One more query to the same server. -/
theorem counted_again (h : Counted e) (hpos : 0 < e.retransmitCount) (time timeout : UInt32) :
    Counted { e with
      timestamp := time, timeout := timeout, retransmitCount := e.retransmitCount - 1
      sentTo := e.sentTo ++ [e.dnsServerNum] } := by
  intro hstate
  obtain ⟨hserver, hle, hprotocol, hcount⟩ := h hstate
  refine ⟨hserver, (Nat.sub_le _ _).trans hle, hprotocol, fun n => ?_⟩
  show (e.sentTo ++ [e.dnsServerNum]).count n = if n < e.dnsServerNum then _ else
    if n = e.dnsServerNum then DNS_CLIENT_MAX_RETRIES - (e.retransmitCount - 1) else 0
  rw [List.count_append, hcount, List.count_singleton]
  by_cases hn : n = e.dnsServerNum
  · subst hn
    rw [if_neg (lt_irrefl _), if_pos rfl, if_neg (lt_irrefl _), if_pos rfl, if_pos (beq_self_eq_true _)]
    omega
  · have hne : ¬ (e.dnsServerNum == n) = true := fun h => hn (beq_iff_eq.1 h).symm
    rw [if_neg hn, if_neg hn, if_neg hne, Nat.add_zero]

omit [DecidableEq I] in
/-- The first query to the next server. -/
theorem counted_next (h : Counted e) (hzero : e.retransmitCount = 0)
    (hserver : e.dnsServerNum + 1 < DNS_SERVER_LIST_SIZE) (time timeout : UInt32) :
    Counted { e with
      dnsServerNum := e.dnsServerNum + 1, timestamp := time, timeout := timeout
      retransmitCount := DNS_CLIENT_MAX_RETRIES - 1, sentTo := e.sentTo ++ [e.dnsServerNum + 1] } := by
  intro hstate
  obtain ⟨-, -, hprotocol, hcount⟩ := h hstate
  refine ⟨hserver, Nat.sub_le _ _, hprotocol, fun n => ?_⟩
  show (e.sentTo ++ [e.dnsServerNum + 1]).count n = if n < e.dnsServerNum + 1 then _ else
    if n = e.dnsServerNum + 1 then DNS_CLIENT_MAX_RETRIES - (DNS_CLIENT_MAX_RETRIES - 1) else 0
  rw [List.count_append, hcount, List.count_singleton, hzero, Nat.sub_zero]
  by_cases hn : n = e.dnsServerNum + 1
  · subst hn
    rw [if_neg (by omega), if_neg (by omega), if_pos (beq_self_eq_true _), if_neg (lt_irrefl _),
      if_pos rfl]
    rfl
  · have hne : ¬ (e.dnsServerNum + 1 == n) = true := fun h => hn (beq_iff_eq.1 h).symm
    rw [if_neg hn, if_neg hne, Nat.add_zero]
    by_cases hlt : n < e.dnsServerNum
    · rw [if_pos hlt, if_pos (by omega)]
    · rw [if_neg hlt]
      by_cases heq : n = e.dnsServerNum
      · rw [if_pos heq, if_pos (by omega)]
      · rw [if_neg heq, if_neg (by omega)]

/-- A query that times out: the entry is deleted, or there is one more query. -/
theorem tickTimedOut_change (env : Env I) (i : ℕ) (e : CacheEntry I)
    (table : List (UdpRxCallbackDesc I)) (hstate : e.state = .inProgress) :
    Change e table (tickTimedOut env i e table).1 (tickTimedOut env i e table).2.1 ∧
      ((tickTimedOut env i e table).1.state ≠ .inProgress ∨
        ∃ n, (tickTimedOut env i e table).1.sentTo = e.sentTo ++ [n]) := by
  have hused : e.state ≠ .none := by
    rw [hstate]
    nofun
  rw [tickTimedOut]
  by_cases hretry : e.retransmitCount > 0
  · rw [if_pos hretry]
    by_cases hsent : (sendQuery env (env.transport i) e).1 = .noError
    · dsimp only
      rw [if_pos hsent]
      exact ⟨Change.keep ⟨fun _ => hused, rfl, rfl, rfl, rfl, rfl,
        fun h => counted_again h hretry _ _⟩ Iff.rfl, Or.inr ⟨_, rfl⟩⟩
    · dsimp only
      rw [if_neg hsent]
      exact ⟨dnsDeleteEntry_change rfl rfl rfl rfl rfl rfl, Or.inl nofun⟩
  rw [if_neg hretry]
  by_cases hdns : e.protocol = .dns
  swap
  · rw [if_neg hdns]
    exact ⟨dnsDeleteEntry_change rfl rfl rfl rfl rfl rfl, Or.inl nofun⟩
  rw [if_pos hdns]
  dsimp only
  split_ifs with hsent
  · exact ⟨Change.keep ⟨fun _ => hused, rfl, rfl, rfl, rfl, rfl,
      fun h => counted_next h (Nat.eq_zero_of_not_pos hretry) (dnsSendQuery_noError hsent) _ _⟩
      Iff.rfl, Or.inr ⟨_, rfl⟩⟩
  · exact ⟨dnsDeleteEntry_change rfl rfl rfl rfl rfl rfl, Or.inl nofun⟩

theorem tickEntry_change (env : Env I) (i : ℕ) (e : CacheEntry I)
    (table : List (UdpRxCallbackDesc I)) :
    Change e table (tickEntry env i e table).1 (tickEntry env i e table).2.1 := by
  rw [tickEntry]
  cases hstate : e.state with
  | none => exact Change.refl e table
  | permanent => exact Change.refl e table
  | resolved =>
      dsimp only
      split_ifs
      · exact dnsDeleteEntry_change rfl rfl rfl rfl rfl rfl
      · exact Change.refl e table
  | inProgress =>
      dsimp only
      split_ifs
      · exact (tickTimedOut_change env i e table hstate).1
      · exact Change.refl e table

/-! ## Responses -/

/-- A response leaves an entry alone, deletes it, or stores an address in it. -/
theorem processEntry_cases {message : List UInt8} {time : UInt32} {outside : ℤ}
    {entry next : DnsCacheEntry} (h : processEntry message time outside entry = some next) :
    next = entry ∨ next = Dns.dnsDeleteEntry entry ∨
      ∃ record, storeAnswer message time entry record = some next := by
  have hdone : ∀ {x : Option DnsCacheEntry}, (x = some next → next = entry ∨
      next = Dns.dnsDeleteEntry entry ∨ ∃ record, storeAnswer message time entry record = some next) →
      ∀ {c : Prop} [Decidable c], (if c then some entry else x) = some next →
        next = entry ∨ next = Dns.dnsDeleteEntry entry ∨
          ∃ record, storeAnswer message time entry record = some next := by
    intro x hx c _ h
    split_ifs at h
    · exact Or.inl (Option.some.inj h).symm
    · exact hx h
  simp only [processEntry, Option.bind_eq_bind, Option.pure_def] at h
  obtain ⟨id, -, h⟩ := Option.bind_eq_some_iff.1 h
  refine hdone (fun h => ?_) h
  obtain ⟨⟨pos, _⟩, -, h⟩ := Option.bind_eq_some_iff.1 h
  refine hdone (fun h => hdone (fun h => hdone (fun h => ?_) h) h) h
  obtain ⟨qtype, -, h⟩ := Option.bind_eq_some_iff.1 h
  obtain ⟨qclass, -, h⟩ := Option.bind_eq_some_iff.1 h
  refine hdone (fun h => hdone (fun h => hdone (fun h => ?_) h) h) h
  obtain ⟨flags, -, h⟩ := Option.bind_eq_some_iff.1 h
  split_ifs at h
  · exact Or.inr (Or.inl (Option.some.inj h).symm)
  obtain ⟨ancount, -, h⟩ := Option.bind_eq_some_iff.1 h
  obtain ⟨⟨found, positions⟩, -, h⟩ := Option.bind_eq_some_iff.1 h
  cases found with
  | none => exact Or.inl (Option.some.inj h).symm
  | some record => exact Or.inr (Or.inr ⟨record, h⟩)

/-- A response changes the entry that waits for it. -/
theorem respondEntry_change {message : List UInt8} {interface : I} {time : UInt32} {outside : ℤ}
    (hpending : Pending e) (hinterface : e.interface = interface)
    (h : respondEntry message interface time outside e table = some (e', table')) :
    Change e table e' table' := by
  rw [respondEntry] at h
  cases hnext : processEntry message time outside e.toDnsCacheEntry with
  | none =>
      rw [hnext] at h
      cases h
  | some next =>
      rw [hnext] at h
      have hused : e.state ≠ .none := by
        rw [hpending.1]
        simp
      rcases processEntry_cases hnext with rfl | rfl | ⟨record, hstore⟩
      · have hstate : e.toDnsCacheEntry.state = .inProgress := hpending.1
        simp only [hstate] at h
        cases h
        exact Change.refl e table
      · cases h
        exact dnsDeleteEntry_change rfl rfl rfl rfl rfl rfl
      · rw [storeAnswer] at hstore
        split at hstore
        · cases hstore
          cases h
          rw [← hinterface]
          refine Change.release ⟨fun _ => hused, rfl, rfl, rfl, rfl, rfl, ?_⟩ hpending ?_
          · intro _ hstate
            cases hstate
          · rintro ⟨hstate, -⟩
            cases hstate
        · cases hstore

variable (pre) in
theorem Good.respondLoop {message : List UInt8} {interface : I} {destPort : UInt16} {time : UInt32}
    {outside : ℤ} {cache' : List (CacheEntry I)} (h : Good (pre ++ cache) table)
    (hinterface : ∀ e ∈ cache, Pending e → e.port = destPort → e.interface = interface)
    (hloop : respondLoop message interface destPort time outside cache table =
      some (cache', table')) : Good (pre ++ cache') table' := by
  induction cache generalizing pre cache' with
  | nil =>
      cases hloop
      exact h
  | cons e cache ih =>
      rw [Resolver.respondLoop] at hloop
      split_ifs at hloop with hwaits
      · obtain ⟨hstate, hdns, hport⟩ := hwaits
        split at hloop
        · cases hloop
        · rename_i e' table₁ hrespond
          cases hloop
          exact h.change (respondEntry_change ⟨hstate, hdns⟩
            (hinterface e List.mem_cons_self ⟨hstate, hdns⟩ hport) hrespond)
      · split at hloop
        · cases hloop
        · rename_i cache₁ table₁ hrest
          cases hloop
          rw [List.append_cons] at h ⊢
          exact ih _ h (fun d hd => hinterface d (List.mem_cons_of_mem _ hd)) hrest

/-- The entry that a registered callback function belongs to is the one on its port. -/
theorem Good.interface_eq (h : Good cache table) {d : UdpRxCallbackDesc I} (hd : d ∈ table)
    (hlistens : Listens d) {interface : I}
    (hbound : d.interface = none ∨ d.interface = some interface) (he : e ∈ cache)
    (hpending : Pending e) (hport : e.port = d.port) : e.interface = interface := by
  obtain ⟨c, hc, hcpending, hkey⟩ := h.matched.holder hd hlistens
  obtain ⟨hcinterface, hcport⟩ := Prod.mk.inj hkey
  have hsymm : Std.Symm fun a b : CacheEntry I => Pending a → Pending b → a.port ≠ b.port :=
    ⟨fun _ _ hab hb ha => (hab ha hb).symm⟩
  have hce : c = e := by
    by_contra hne
    exact h.ports.forall hc he hne hcpending hpending (hcport.trans hport.symm)
  rw [← hce]
  rcases hbound with hnone | hsome
  · rw [hnone] at hcinterface
    cases hcinterface
  · rw [hsome] at hcinterface
    exact Option.some.inj hcinterface

theorem Good.dnsProcessResponse {message : List UInt8} {interface : I} {destPort : UInt16}
    {time : UInt32} {outside : ℤ} {s s' : System I} (h : Good s.dnsCache s.udpCallbackTable)
    (hinterface : ∀ e ∈ s.dnsCache, Pending e → e.port = destPort → e.interface = interface)
    (hprocess : dnsProcessResponse message interface destPort time outside s = some s') :
    Good s'.dnsCache s'.udpCallbackTable := by
  rw [Resolver.dnsProcessResponse] at hprocess
  split_ifs at hprocess with hlength
  · cases hprocess
    exact h
  split at hprocess
  · split_ifs at hprocess with hquery
    · cases hprocess
      exact h
    split at hprocess
    · cases hprocess
    · rename_i cache' table' hloop
      cases hprocess
      exact Good.respondLoop [] h hinterface hloop
  · cases hprocess

theorem Good.invokeLoop {message : List UInt8} {interface : I} {destPort : UInt16} {time : UInt32}
    {outside : ℤ} {k i : ℕ} {s s' : System I} (h : Good s.dnsCache s.udpCallbackTable)
    (hloop : invokeLoop message interface destPort time outside k i s = some s') :
    Good s'.dnsCache s'.udpCallbackTable := by
  induction k generalizing i s with
  | zero =>
      cases hloop
      exact h
  | succ k ih =>
      rw [Resolver.invokeLoop] at hloop
      split at hloop
      · cases hloop
        exact h
      · rename_i d hd
        split_ifs at hloop with hmatch
        · obtain ⟨hlistens, hbound, hport⟩ := hmatch
          split at hloop
          · cases hloop
          · rename_i s₁ hprocess
            refine ih (h.dnsProcessResponse (fun e he hpending heport => ?_) hprocess) hloop
            exact h.interface_eq (List.mem_of_getElem? hd) hlistens hbound he hpending
              (heport.trans hport.symm)
        · exact ih h hloop

/-! ## Resolving -/

omit [DecidableEq I] in
theorem oldestLoop_lt (time : UInt32) {i : ℕ} {entries : List (CacheEntry I)} {best n : ℕ}
    {timestamp : UInt32} (hbest : best < n) (hn : i + entries.length ≤ n) :
    oldestLoop time i entries best timestamp < n := by
  induction entries generalizing i best timestamp with
  | nil => exact hbest
  | cons entry entries ih =>
      rw [List.length_cons] at hn
      rw [oldestLoop]
      split_ifs
      · exact ih (by omega) (by omega)
      · exact ih hbest (by omega)

omit [DecidableEq I] in
theorem createIndex_lt (time : UInt32) (hcache : cache ≠ []) :
    createIndex time cache < cache.length := by
  unfold createIndex
  split
  · rename_i i hi
    exact (List.findIdx?_eq_some_iff_getElem.1 hi).1
  · cases cache with
    | nil => exact absurd rfl hcache
    | cons entry entries =>
        exact oldestLoop_lt time (Nat.succ_pos _) (by rw [List.length_cons]; omega)

theorem dnsFindEntry_none {interface : I} {name : List UInt8} {type : HostType}
    {protocol : HostnameResolver} (h : dnsFindEntry interface name type protocol cache = none) :
    ∀ e ∈ cache, ¬ Matches interface name type protocol e := by
  intro e he hmatches
  exact absurd (decide_eq_true hmatches) (List.find?_eq_none.1 h e he)

theorem str_strcpy {name array : List UInt8} {size : ℕ} (hnul : 0 ∉ name)
    (h : strcpy size name = some array) : str array = name := by
  rw [strcpy] at h
  split_ifs at h with hfits
  · cases h
    obtain ⟨n, hn⟩ := Nat.exists_eq_add_of_lt hfits
    rw [str, List.takeWhile_append_of_pos, show size - name.length = n + 1 by omega,
      List.replicate_succ, List.takeWhile_cons_of_neg (by simp), List.append_nil]
    intro c hc
    exact decide_eq_true fun hzero => hnul (hzero ▸ hc)

omit [DecidableEq I] in
/-- The free entry of the callback table that is taken. -/
theorem udpAttachRxCallback_some {interface : I} {port : UInt16} {callback : UdpRxCallback}
    (h : udpAttachRxCallback interface port callback table = some table') :
    ∃ tpre d tpost, table = tpre ++ d :: tpost ∧ d.callback = none ∧ table' = tpre ++
      { interface := some interface, port := port, callback := some callback } :: tpost := by
  rw [udpAttachRxCallback] at h
  split at h
  · cases h
  · rename_i i hi
    cases h
    obtain ⟨hlt, hfree, -⟩ := List.findIdx?_eq_some_iff_getElem.1 hi
    refine ⟨table.take i, table[i], table.drop (i + 1), ?_, of_decide_eq_true hfree, ?_⟩
    · rw [← List.drop_eq_getElem_cons hlt, List.take_append_drop]
    · rw [List.set_eq_take_append_cons_drop, if_pos hlt]

omit [DecidableEq I] in
/-- A new entry, in the place of one that is not in use. -/
theorem Good.create (h : Good (pre ++ e :: post) table) (hunused : e.state = .none)
    (hpending : ¬ Pending e')
    (hnames : e'.state ≠ .none → ∀ b ∈ pre ++ post, b.state ≠ .none → ¬ SameName b e')
    (hcounted : Counted e') : Good (pre ++ e' :: post) table := by
  have he : ¬ Pending e := fun hp => by
    rw [hp.1] at hunused
    cases hunused
  refine ⟨h.matched.keep (iff_of_false hpending he) fun hp => absurd hp he,
    pairwise_replace h.ports ?_ ?_, pairwise_replace h.names ?_ ?_, fun d hd => ?_⟩
  · exact fun b _ _ _ hp => absurd hp hpending
  · exact fun b _ _ hp => absurd hp hpending
  · exact fun b hb _ hbused hused => hnames hused b (List.mem_append_left _ hb) hbused
  · intro b hb _ hused hbused hsame
    refine hnames hused b (List.mem_append_right _ hb) hbused ?_
    exact ⟨hsame.1.symm, hsame.2.1.symm, hsame.2.2.1.symm, hsame.2.2.2.symm⟩
  · rcases mem_middle.1 hd with rfl | hd
    · exact hcounted
    · exact h.counted d (mem_middle.2 (Or.inr hd))

omit [DecidableEq I] in
/-- A new entry that comes into progress, with its callback function. -/
theorem Good.register (h : Good (pre ++ e :: post) table) (hunused : e.state = .none)
    (hpending : Pending e') (hports : ∀ b ∈ pre ++ post, Pending b → b.port ≠ e'.port)
    (hnames : ∀ b ∈ pre ++ post, b.state ≠ .none → ¬ SameName b e') (hcounted : Counted e')
    (hattach : udpAttachRxCallback e'.interface e'.port .dnsProcessResponse table = some table') :
    Good (pre ++ e' :: post) table' := by
  have he : ¬ Pending e := fun hp => by
    rw [hp.1] at hunused
    cases hunused
  obtain ⟨tpre, d, tpost, rfl, hfree, rfl⟩ := udpAttachRxCallback_some hattach
  refine ⟨?_, pairwise_replace h.ports ?_ ?_, pairwise_replace h.names ?_ ?_, fun c hc => ?_⟩
  · refine h.matched.register he hpending (fun b hb hbpending heq => ?_) (fun hl => ?_) rfl rfl
    · exact hports b hb hbpending (Prod.mk.inj heq).2
    · have hl : d.callback = some .dnsProcessResponse := hl
      rw [hfree] at hl
      cases hl
  · exact fun b hb _ hbpending _ => hports b (List.mem_append_left _ hb) hbpending
  · exact fun b hb _ _ hbpending => (hports b (List.mem_append_right _ hb) hbpending).symm
  · exact fun b hb _ hbused _ => hnames b (List.mem_append_left _ hb) hbused
  · intro b hb _ _ hbused hsame
    refine hnames b (List.mem_append_right _ hb) hbused ?_
    exact ⟨hsame.1.symm, hsame.2.1.symm, hsame.2.2.1.symm, hsame.2.2.2.symm⟩
  · rcases mem_middle.1 hc with rfl | hc
    · exact hcounted
    · exact h.counted c (mem_middle.2 (Or.inr hc))

/-- The name fits, and no entry but the one that is recycled is in progress on the port. -/
def ResolveOk (env : Env I) (name : List UInt8) (port : UInt16) (s : System I) : Prop :=
  name.length ≤ DNS_MAX_NAME_LEN ∧ 0 ∉ name ∧
    ∀ p ∈ s.dnsCache.zipIdx, p.2 ≠ createIndex env.time s.dnsCache → Pending p.1 → p.1.port ≠ port

instance (env : Env I) (name : List UInt8) (port : UInt16) (s : System I) :
    Decidable (ResolveOk env name port s) :=
  inferInstanceAs (Decidable (_ ∧ _ ∧ ∀ p ∈ _, _))

theorem Good.dnsResolve {env : Env I} (interface : I) {name : List UInt8} (type : HostType)
    {port : UInt16} (id : UInt16) {s : System I} (h : Good s.dnsCache s.udpCallbackTable)
    (hcache : s.dnsCache ≠ []) (hok : ResolveOk env name port s) :
    ∃ error ipAddr s' sent, dnsResolve env interface name type port id s =
        some (error, ipAddr, s', sent) ∧ Good s'.dnsCache s'.udpCallbackTable ∧
      s'.dnsCache.length = s.dnsCache.length := by
  obtain ⟨hlength, hnul, hports⟩ := hok
  rw [Resolver.dnsResolve]
  cases hfind : dnsFindEntry interface name type .dns s.dnsCache with
  | some entry =>
      dsimp only
      split_ifs
      · exact ⟨_, _, _, _, rfl, h, rfl⟩
      · exact ⟨_, _, _, _, rfl, h, rfl⟩
  | none =>
      have hlt := createIndex_lt env.time hcache
      set i := createIndex env.time s.dnsCache with hi
      have hold : s.dnsCache[i]? = some s.dnsCache[i] := List.getElem?_eq_getElem hlt
      have hsplit : s.dnsCache = s.dnsCache.take i ++ s.dnsCache[i] :: s.dnsCache.drop (i + 1) := by
        rw [← List.drop_eq_getElem_cons hlt, List.take_append_drop]
      have hset : ∀ e, s.dnsCache.set i e = s.dnsCache.take i ++ e :: s.dnsCache.drop (i + 1) :=
        fun e => by rw [List.set_eq_take_append_cons_drop, if_pos hlt]
      have hsetlen : ∀ e, (s.dnsCache.set i e).length = s.dnsCache.length :=
        fun e => List.length_set
      obtain ⟨array, harray⟩ : ∃ array, strcpy (DNS_MAX_NAME_LEN + 1) name = some array :=
        ⟨_, if_pos (Nat.succ_le_succ hlength)⟩
      have hstr := str_strcpy hnul harray
      -- the entry that is recycled
      have hdeleted : Good (s.dnsCache.take i ++
          (dnsDeleteEntry s.dnsCache[i] s.udpCallbackTable).1 :: s.dnsCache.drop (i + 1))
          (dnsDeleteEntry s.dnsCache[i] s.udpCallbackTable).2 := by
        rw [hsplit] at h
        exact h.change (dnsDeleteEntry_change rfl rfl rfl rfl rfl rfl)
      have hothers : ∀ b ∈ s.dnsCache.take i ++ s.dnsCache.drop (i + 1), b ∈ s.dnsCache ∧
          (Pending b → b.port ≠ port) := by
        intro b hb
        rcases List.mem_append.1 hb with hb | hb
        · obtain ⟨j, hj, rfl⟩ := List.getElem_of_mem hb
          rw [List.length_take] at hj
          rw [List.getElem_take]
          exact ⟨List.getElem_mem _, hports (s.dnsCache[j], j)
            (List.mk_mem_zipIdx_iff_getElem?.2 (List.getElem?_eq_getElem _)) (by dsimp only; omega)⟩
        · obtain ⟨j, hj, rfl⟩ := List.getElem_of_mem hb
          rw [List.length_drop] at hj
          rw [List.getElem_drop]
          exact ⟨List.getElem_mem _, hports (s.dnsCache[i + 1 + j], i + 1 + j)
            (List.mk_mem_zipIdx_iff_getElem?.2 (List.getElem?_eq_getElem _)) (by dsimp only; omega)⟩
      have hnames : ∀ e' : CacheEntry I, e'.interface = interface → e'.type = type →
          e'.protocol = .dns → e'.name = array →
          ∀ b ∈ s.dnsCache.take i ++ s.dnsCache.drop (i + 1), b.state ≠ .none →
            ¬ SameName b e' := by
        intro e' hinterface htype hprotocol hname b hb hused hsame
        obtain ⟨hbi, hbt, hbp, hbn⟩ := hsame
        refine dnsFindEntry_none hfind b (hothers b hb).1
          ⟨hused, hbi.trans hinterface, Or.inl (hbt.trans htype), Or.inl (hbp.trans hprotocol), ?_⟩
        rwa [hname, hstr] at hbn
      simp only [hold, harray]
      set table := (dnsDeleteEntry s.dnsCache[i] s.udpCallbackTable).2 with htable
      cases hattach : udpAttachRxCallback interface port .dnsProcessResponse table with
      | none =>
          refine ⟨_, _, _, _, rfl, ?_, hsetlen _⟩
          show Good (s.dnsCache.set i _) _
          rw [hset]
          exact hdeleted.create rfl (fun hp => nomatch hp.1) (fun hused => absurd rfl hused)
            fun hp => nomatch hp
      | some table' =>
          dsimp only
          set entry : CacheEntry I := { newEntry array type .dns interface port id with
            retransmitCount := DNS_CLIENT_MAX_RETRIES } with hentry
          have hregister : ∀ (time timeout maxTimeout : UInt32), Good (s.dnsCache.set i
              { entry with
                timestamp := time, timeout := timeout, maxTimeout := maxTimeout
                retransmitCount := DNS_CLIENT_MAX_RETRIES - 1, state := .inProgress
                sentTo := [entry.dnsServerNum] }) table' := by
            intro time timeout maxTimeout
            rw [hset]
            refine hdeleted.register rfl ⟨rfl, rfl⟩ (fun b hb => (hothers b hb).2)
              (hnames _ rfl rfl rfl rfl) (fun _ => ⟨Nat.succ_pos 1, Nat.sub_le _ _, rfl, fun n => ?_⟩) hattach
            show [0].count n = if n < 0 then _ else if n = 0 then _ else 0
            rw [if_neg (Nat.not_lt_zero n), List.count_singleton]
            by_cases hn : n = 0
            · subst hn
              rfl
            · rw [if_neg hn, if_neg fun heq => hn (beq_iff_eq.1 heq).symm]
          split_ifs with hsent
          · exact ⟨_, _, _, _, rfl, hregister _ _ _, hsetlen _⟩
          · refine ⟨_, _, _, _, rfl, ?_, hsetlen _⟩
            -- as if the entry had been in progress for a moment
            have hgood := hregister 0 0 0
            rw [hset] at hgood
            show Good (s.dnsCache.set i entry) (udpDetachRxCallback interface port table')
            rw [hset]
            refine hgood.change (Change.release ⟨fun hused => absurd rfl hused, rfl, rfl, rfl, rfl, rfl,
              fun _ hp => nomatch hp⟩ ⟨rfl, rfl⟩ fun hp => nomatch hp.1)

/-! ## Every response is processed -/

omit [DecidableEq I] in
/-- What is read lies inside the message. -/
theorem processEntry_total {message : List UInt8} (hlength : dnsHeaderSize ≤ message.length)
    (time : UInt32) (outside : ℤ) (entry : DnsCacheEntry) :
    ∃ next, processEntry message time outside entry = some next := by
  have hheader : 12 ≤ message.length := hlength
  obtain ⟨id, hid⟩ := read16_isSome (show 0 + 2 ≤ message.length by omega)
  obtain ⟨pos, out, hparse, -⟩ := dnsParseName_decodes message dnsHeaderSize none 0
  obtain ⟨flags, hflags⟩ := getElem?_lt (show 3 < message.length by omega)
  obtain ⟨ancount, hancount⟩ := read16_isSome (show 6 + 2 ≤ message.length by omega)
  have hdone : ∀ {x : Option DnsCacheEntry} {y : DnsCacheEntry} {c : Prop} [Decidable c],
      (¬ c → ∃ next, x = some next) → ∃ next, (if c then some y else x) = some next := by
    intro x y c _ h
    split_ifs with hc
    · exact ⟨y, rfl⟩
    · exact h hc
  simp only [processEntry, Option.bind_eq_bind, Option.pure_def, hid, hparse, hflags, hancount,
    Option.bind_some]
  refine hdone fun _ => hdone fun _ => hdone fun hquestion => hdone fun _ => ?_
  have hinside : pos + 4 ≤ message.length := Nat.le_of_not_lt hquestion
  obtain ⟨qtype, hqtype⟩ := read16_isSome (show pos + 2 ≤ message.length by omega)
  obtain ⟨qclass, hqclass⟩ := read16_isSome (show pos + 2 + 2 ≤ message.length by omega)
  rw [hqtype, hqclass, Option.bind_some, Option.bind_some]
  refine hdone fun _ => hdone fun _ => hdone fun _ => hdone fun _ => ?_
  obtain ⟨found, positions, hloop, -, hrecord⟩ :=
    answersLoop_ascends message entry.type ancount.toNat (pos + dnsQuestionSize)
  rw [hloop, Option.bind_some]
  cases found with
  | none => exact ⟨_, rfl⟩
  | some record =>
      have hle := hrecord record rfl
      obtain ⟨ttl, httl⟩ := read32_isSome (show record + 4 + 4 ≤ message.length from
        le_trans (by rw [dnsResourceRecordSize]; omega) hle)
      show ∃ next, storeAnswer message time entry record = some next
      rw [storeAnswer, readBytes, if_pos hle, httl]
      exact ⟨_, rfl⟩

theorem respondLoop_total {message : List UInt8} (hlength : dnsHeaderSize ≤ message.length)
    (interface : I) (destPort : UInt16) (time : UInt32) (outside : ℤ)
    (cache : List (CacheEntry I)) (table : List (UdpRxCallbackDesc I)) :
    ∃ result, respondLoop message interface destPort time outside cache table = some result := by
  induction cache with
  | nil => exact ⟨_, rfl⟩
  | cons e cache ih =>
      rw [respondLoop]
      split_ifs
      · obtain ⟨next, hnext⟩ := processEntry_total hlength time outside e.toDnsCacheEntry
        obtain ⟨result, hrespond⟩ :
            ∃ result, respondEntry message interface time outside e table = some result := by
          rw [respondEntry, hnext]
          dsimp only
          split <;> exact ⟨_, rfl⟩
        rw [hrespond]
        exact ⟨_, rfl⟩
      · obtain ⟨result, hresult⟩ := ih
        rw [hresult]
        exact ⟨_, rfl⟩

theorem dnsProcessResponse_total (message : List UInt8) (interface : I) (destPort : UInt16)
    (time : UInt32) (outside : ℤ) (s : System I) :
    ∃ s', dnsProcessResponse message interface destPort time outside s = some s' := by
  rw [dnsProcessResponse]
  split_ifs with hlength
  · exact ⟨_, rfl⟩
  have hheader : dnsHeaderSize ≤ message.length := Nat.le_of_not_lt fun h => hlength (Or.inl h)
  have htwelve : 12 ≤ message.length := hheader
  obtain ⟨flags, hflags⟩ := getElem?_lt (show 2 < message.length by omega)
  obtain ⟨qdcount, hqdcount⟩ := read16_isSome (show 4 + 2 ≤ message.length by omega)
  rw [hflags, hqdcount]
  dsimp only
  split_ifs
  · exact ⟨_, rfl⟩
  · obtain ⟨result, hresult⟩ := respondLoop_total hheader interface destPort time outside s.dnsCache
      s.udpCallbackTable
    rw [hresult]
    exact ⟨_, rfl⟩

/-- A datagram is processed to the end. -/
theorem udpInvokeRxCallback_total (message : List UInt8) (interface : I) (destPort : UInt16)
    (time : UInt32) (outside : ℤ) (s : System I) :
    ∃ s', udpInvokeRxCallback message interface destPort time outside s = some s' := by
  have hloop : ∀ k i (s : System I),
      ∃ s', invokeLoop message interface destPort time outside k i s = some s' := by
    intro k
    induction k with
    | zero => exact fun i s => ⟨s, rfl⟩
    | succ k ih =>
        intro i s
        rw [invokeLoop]
        split
        · exact ⟨_, rfl⟩
        · split_ifs
          · obtain ⟨s₁, hs₁⟩ := dnsProcessResponse_total message interface destPort time outside s
            rw [hs₁]
            exact ih _ _
          · exact ih _ _
  exact hloop _ _ _

end Good

/-! ## Runs -/

section Runs

variable {I : Type*} [DecidableEq I]

inductive Event (I : Type*)
  | resolve (env : Env I) (interface : I) (name : List UInt8) (type : HostType) (port id : UInt16)
  | tick (env : Env I)
  | receive (message : List UInt8) (interface : I) (destPort : UInt16) (time : UInt32) (outside : ℤ)
  | flush (interface : I)

/-- One event. `dnsResolve` has a result when the name fits, and a datagram is always processed to
the end. -/
def step (s : System I) : Event I → System I
  | .resolve env interface name type port id =>
      match dnsResolve env interface name type port id s with
      | none => s
      | some (_, _, s, _) => s
  | .tick env => (dnsTick env s).1
  | .receive message interface destPort time outside =>
      (udpInvokeRxCallback message interface destPort time outside s).getD s
  | .flush interface => dnsFlushCache interface s

/-- The names fit, and no port is handed out again while an entry on it is in progress. -/
def Allowed (s : System I) : Event I → Prop
  | .resolve env _ name _ port _ => ResolveOk env name port s
  | _ => True

instance (s : System I) (event : Event I) : Decidable (Allowed s event) :=
  match event with
  | .resolve env _ name _ port _ => inferInstanceAs (Decidable (ResolveOk env name port s))
  | .tick _ | .receive .. | .flush _ => .isTrue trivial

/-- An empty cache of `size + 1` entries. -/
def start (size : ℕ) (interface : I) (udpCallbackTable : List (UdpRxCallbackDesc I)) : System I :=
  { dnsCache := List.replicate (size + 1)
      (newEntry (List.replicate (DNS_MAX_NAME_LEN + 1) 0) .any .any interface 0 0)
    udpCallbackTable := udpCallbackTable }

/-- The state of a run. -/
structure Sound (s : System I) : Prop where
  good : Good s.dnsCache s.udpCallbackTable
  nonempty : s.dnsCache ≠ []

omit [DecidableEq I] in
theorem eachEntry_length (f : ℕ → CacheEntry I → List (UdpRxCallbackDesc I) →
      CacheEntry I × List (UdpRxCallbackDesc I) × List (Query I)) (i : ℕ)
    (cache : List (CacheEntry I)) (table : List (UdpRxCallbackDesc I)) :
    (eachEntry f i cache table).1.length = cache.length := by
  induction cache generalizing i table with
  | nil => rfl
  | cons e cache ih => exact congrArg Nat.succ (ih _ _)

omit [DecidableEq I] in
/-- The entries behind the loop are those that it makes, one by one. -/
theorem eachEntry_getElem (f : ℕ → CacheEntry I → List (UdpRxCallbackDesc I) →
      CacheEntry I × List (UdpRxCallbackDesc I) × List (Query I)) (i : ℕ) {j : ℕ}
    {cache : List (CacheEntry I)} (table : List (UdpRxCallbackDesc I)) {e : CacheEntry I}
    (he : cache[j]? = some e) :
    ∃ table', (eachEntry f i cache table).1[j]? = some (f (i + j) e table').1 := by
  induction cache generalizing i j table with
  | nil => cases he
  | cons d cache ih =>
      cases j with
      | zero =>
          cases he
          exact ⟨table, rfl⟩
      | succ j =>
          obtain ⟨table', htable⟩ := ih (i + 1) (f i d table).2.1 he
          refine ⟨table', ?_⟩
          rw [show i + (j + 1) = i + 1 + j by omega]
          exact htable

theorem dnsFlushCache_sound {s : System I} (h : Sound s) (interface : I) :
    Sound (dnsFlushCache interface s) := by
  refine ⟨Good.eachEntry [] (fun i e table => ?_) 0 h.good, fun hnil => h.nonempty ?_⟩
  · dsimp only
    split_ifs
    · exact dnsDeleteEntry_change rfl rfl rfl rfl rfl rfl
    · exact Change.refl e table
    · exact Change.refl e table
  · rw [← List.length_eq_zero_iff] at hnil ⊢
    rw [← hnil]
    exact (eachEntry_length _ _ _ _).symm

theorem dnsTick_sound {s : System I} (h : Sound s) (env : Env I) : Sound (dnsTick env s).1 := by
  refine ⟨Good.eachEntry [] (tickEntry_change env) 0 h.good, fun hnil => h.nonempty ?_⟩
  rw [← List.length_eq_zero_iff] at hnil ⊢
  rw [← hnil]
  exact (eachEntry_length _ _ _ _).symm

theorem respondLoop_length {message : List UInt8} {interface : I} {destPort : UInt16}
    {time : UInt32} {outside : ℤ} {cache cache' : List (CacheEntry I)}
    {table table' : List (UdpRxCallbackDesc I)}
    (h : respondLoop message interface destPort time outside cache table = some (cache', table')) :
    cache'.length = cache.length := by
  induction cache generalizing cache' with
  | nil =>
      cases h
      rfl
  | cons e cache ih =>
      rw [respondLoop] at h
      split_ifs at h
      · split at h
        · cases h
        · cases h
          rfl
      · split at h
        · cases h
        · rename_i cache₁ table₁ hrest
          cases h
          exact congrArg Nat.succ (ih hrest)

theorem dnsProcessResponse_length {message : List UInt8} {interface : I} {destPort : UInt16}
    {time : UInt32} {outside : ℤ} {s s' : System I}
    (h : dnsProcessResponse message interface destPort time outside s = some s') :
    s'.dnsCache.length = s.dnsCache.length := by
  rw [dnsProcessResponse] at h
  split_ifs at h
  · cases h
    rfl
  split at h
  · split_ifs at h
    · cases h
      rfl
    split at h
    · cases h
    · rename_i hloop
      cases h
      exact respondLoop_length hloop
  · cases h

theorem invokeLoop_length {message : List UInt8} {interface : I} {destPort : UInt16}
    {time : UInt32} {outside : ℤ} {k i : ℕ} {s s' : System I}
    (h : invokeLoop message interface destPort time outside k i s = some s') :
    s'.dnsCache.length = s.dnsCache.length := by
  induction k generalizing i s with
  | zero =>
      cases h
      rfl
  | succ k ih =>
      rw [invokeLoop] at h
      split at h
      · cases h
        rfl
      · split_ifs at h
        · split at h
          · cases h
          · rename_i s₁ hprocess
            exact (ih h).trans (dnsProcessResponse_length hprocess)
        · exact ih h

theorem step_sound {s : System I} (h : Sound s) (event : Event I) (hallowed : Allowed s event) :
    Sound (step s event) := by
  cases event with
  | resolve env interface name type port id =>
      obtain ⟨error, ipAddr, s', sent, hresolve, hgood, hlength⟩ :=
        h.good.dnsResolve interface type id h.nonempty hallowed
      rw [step, hresolve]
      refine ⟨hgood, fun hnil => h.nonempty ?_⟩
      rw [← List.length_eq_zero_iff] at hnil ⊢
      rw [← hlength]
      exact hnil
  | tick env => exact dnsTick_sound h env
  | receive message interface destPort time outside =>
      obtain ⟨s', hs'⟩ :=
        udpInvokeRxCallback_total message interface destPort time outside s
      rw [step, hs', Option.getD_some]
      refine ⟨h.good.invokeLoop hs', fun hnil => h.nonempty ?_⟩
      rw [← List.length_eq_zero_iff] at hnil ⊢
      rw [← invokeLoop_length hs']
      exact hnil
  | flush interface => exact dnsFlushCache_sound h interface

omit [DecidableEq I] in
theorem start_sound (size : ℕ) (interface : I) {udpCallbackTable : List (UdpRxCallbackDesc I)}
    (htable : ∀ d ∈ udpCallbackTable, ¬ Listens d) :
    Sound (start size interface udpCallbackTable) := by
  have hunused : ∀ e ∈ (start size interface udpCallbackTable).dnsCache, e.state = .none :=
    fun e he => by rw [List.eq_of_mem_replicate he]; rfl
  have hnot : ∀ e ∈ (start size interface udpCallbackTable).dnsCache, ¬ Pending e :=
    fun e he hp => nomatch (hunused e he).symm.trans hp.1
  refine ⟨⟨⟨?_, ?_, fun k => iff_of_false ?_ ?_⟩, ?_, ?_, fun e he hstate => ?_⟩, nofun⟩
  · exact List.pairwise_of_forall_mem_list fun d hd _ _ hp _ => absurd hp (hnot d hd)
  · exact List.pairwise_of_forall_mem_list fun d hd _ _ hl _ => absurd hl (htable d hd)
  · rintro ⟨e, he, hp, -⟩
    exact hnot e he hp
  · rintro ⟨d, hd, hl, -⟩
    exact htable d hd hl
  · exact List.pairwise_of_forall_mem_list fun d hd _ _ hp _ => absurd hp (hnot d hd)
  · exact List.pairwise_of_forall_mem_list fun d hd _ _ hused _ => absurd (hunused d hd) hused
  · rw [hunused e he] at hstate
    cases hstate

/-! ## The bookkeeping -/

/-- The callback functions and the DNS entries in progress are the same by interface and port, and
each of them is there once; entries in use differ in interface, type, protocol or name; and an entry
in progress has sent at most `DNS_CLIENT_MAX_RETRIES` queries to each server of the list and none to
others, while a timeout makes it leave progress or send one more. -/
structure Bookkeeping (s : System I) : Prop where
  callbacks : ((s.dnsCache.filter fun e => Pending e).map fun e => (some e.interface, e.port)).Perm
    ((s.udpCallbackTable.filter fun d => Listens d).map fun d => (d.interface, d.port))
  once : ((s.dnsCache.filter fun e => Pending e).map fun e => (some e.interface, e.port)).Nodup
  names : s.dnsCache.Pairwise fun d e => d.state ≠ .none → e.state ≠ .none → ¬ SameName d e
  bounded : ∀ e ∈ s.dnsCache, e.state = .inProgress → ∀ n,
    e.sentTo.count n ≤ if n < DNS_SERVER_LIST_SIZE then DNS_CLIENT_MAX_RETRIES else 0
  leaves : ∀ (env : Env I) (i : ℕ) (e : CacheEntry I), s.dnsCache[i]? = some e →
    e.state = .inProgress → timeCompare env.time (e.timestamp + e.timeout) ≥ 0 →
    ∃ e', (dnsTick env s).1.dnsCache[i]? = some e' ∧
      (e'.state ≠ .inProgress ∨ ∃ n, e'.sentTo = e.sentTo ++ [n])

theorem Sound.bookkeeping {s : System I} (h : Sound s) : Bookkeeping s := by
  obtain ⟨hperm, honce⟩ := h.good.matched.perm
  refine ⟨hperm, honce, h.good.names, fun e he hstate n => ?_, fun env i e he hstate hexpired => ?_⟩
  · obtain ⟨hserver, -, -, hcount⟩ := h.good.counted e he hstate
    rw [hcount]
    by_cases hlt : n < e.dnsServerNum
    · rw [if_pos hlt, if_pos (hlt.trans hserver)]
    · rw [if_neg hlt]
      by_cases heq : n = e.dnsServerNum
      · rw [if_pos heq, if_pos (heq ▸ hserver)]
        exact Nat.sub_le _ _
      · rw [if_neg heq]
        exact Nat.zero_le _
  · obtain ⟨table', htick⟩ := eachEntry_getElem (tickEntry env) 0 s.udpCallbackTable he
    refine ⟨_, htick, ?_⟩
    rw [tickEntry, hstate]
    dsimp only
    rw [if_pos hexpired]
    exact (tickTimedOut_change env (0 + i) e table' hstate).2

/-- **DNS resolver bookkeeping.** It is kept in every run of resolutions, ticks, datagrams and
flushes from an empty cache, beside whatever other callback functions there are. -/
theorem run_bookkeeping (size : ℕ) (interface : I) (udpCallbackTable : List (UdpRxCallbackDesc I))
    (htable : ∀ d ∈ udpCallbackTable, ¬ Listens d) (events : List (Event I))
    (hrun : Along Allowed step (start size interface udpCallbackTable) events) :
    Bookkeeping (run step (start size interface udpCallbackTable) events) :=
  (run_invariant (I := Sound) (fun _ event hs hallowed => step_sound hs event hallowed)
    (start_sound size interface htable) hrun).bookkeeping

end Runs

/-- Servers at two addresses, and a network that loses nothing. -/
def twoServers (time : UInt32) : Env Unit :=
  { time := time, dnsServerList := fun _ _ n => some [192, 0, 2, UInt8.ofNat n]
    broadcastAddr := fun _ => [192, 0, 2, 255], transport := fun _ => .noError }

/-- Two names, and time passes. -/
theorem run_bookkeeping_two :
    Bookkeeping (run step (start 1 () [{ interface := none, port := 0, callback := none },
      { interface := none, port := 0, callback := none }])
      [.resolve (twoServers 0) () [97] .ipv4 50000 7, .resolve (twoServers 10) () [98] .ipv4 50001 8,
        .tick (twoServers 2000), .flush ()]) :=
  run_bookkeeping 1 () _ (by decide) _ (by decide +kernel)

end Dns.Resolver
