import CycloneTcp.Ip.AddrList
import CycloneTcp.Lib.Runs
import CycloneTcp.Lib.Serial
import Mathlib.Data.ENat.Basic

set_option autoImplicit false

/-! # Stateless address autoconfiguration

What the Prefix Information options of a Router Advertisement do to the address list. An
advertisement comes in as the options that are found in it one after the other, once it has passed
the checks of `ndpProcessRouterAdv`. -/

namespace Ipv6

open Arp (timeCompare)

/-! ## Prefix Information options -/

def SLAAC_LIFETIME_2_HOURS : UInt32 := 2 * 3600 * 1000

/-- `IPV6_LINK_LOCAL_ADDR_PREFIX`. -/
def IPV6_LINK_LOCAL_ADDR_PREFIX : Ipv6Addr := 0xFE800000000000000000000000000000

/-- `NdpPrefixInfoOption`, with the lifetimes in seconds. -/
structure NdpPrefixInfoOption where
  length : UInt8
  prefixLength : UInt8
  a : Bool
  validLifetime : UInt32
  preferredLifetime : UInt32
  addrPrefix : Ipv6Addr

/-- A lifetime in milliseconds: those that are too long to be measured become `MAX_DELAY`. -/
def checkLifetime (lifetime : UInt32) : UInt32 :=
  if lifetime ≠ NDP_INFINITE_LIFETIME then
    if lifetime < MAX_DELAY / 1000 then lifetime * 1000 else MAX_DELAY
  else INFINITE_DELAY

/-- The checks of `slaacParsePrefixInfoOption`. -/
def acceptsOption (option : NdpPrefixInfoOption) : Bool :=
  option.length = 4 ∧ option.a ∧
    !ipv6CompPrefix option.addrPrefix IPV6_LINK_LOCAL_ADDR_PREFIX 10 ∧
    option.validLifetime ≠ 0 ∧ option.preferredLifetime ≤ option.validLifetime ∧
    option.prefixLength = 64

/-- The remaining time to the valid lifetime expiration. -/
def remainingLifetime (time : UInt32) (entry : Ipv6AddrEntry) : UInt32 :=
  if timeCompare time (entry.timestamp + entry.validLifetime) < 0 then
    entry.timestamp + entry.validLifetime - time
  else 0

/-- What an option does to a valid address with its prefix. -/
def updateLifetimes (validLifetime preferredLifetime time : UInt32) (entry : Ipv6AddrEntry) :
    Ipv6AddrEntry :=
  let entry := { entry with preferredLifetime := preferredLifetime }
  let remaining := remainingLifetime time entry
  if validLifetime > SLAAC_LIFETIME_2_HOURS ∨ validLifetime > remaining then
    { entry with validLifetime := validLifetime, timestamp := time, state := .preferred }
  -- the option is ignored with regards to the valid lifetime
  else if remaining ≤ SLAAC_LIFETIME_2_HOURS then entry
  else { entry with
    validLifetime := SLAAC_LIFETIME_2_HOURS, timestamp := time, state := .preferred }

/-- An entry that the loop of `slaacParsePrefixInfoOption` looks at: the first one is left out. -/
def matchesPrefix (option : NdpPrefixInfoOption) (i : Fin IPV6_ADDR_LIST_SIZE) (addr : Ipv6Addr) :
    Bool :=
  i ≠ linkLocalIndex ∧ ipv6CompPrefix addr option.addrPrefix option.prefixLength.toNat

/-- Parse Prefix Information Option. `time` is read first, `now` and `join` are for the new address.
-/
def slaacParsePrefixInfoOption (option : NdpPrefixInfoOption) (time now : UInt32) (join : ErrorCode)
    (s : NetInterface) : NetInterface :=
  if !acceptsOption option then s
  else
    let addr : Ipv6Addr := option.addrPrefix.extractLsb' 64 64 ++ s.eui64
    let validLifetime := checkLifetime option.validLifetime
    let preferredLifetime := checkLifetime option.preferredLifetime
    let found := ∃ i, matchesPrefix option i (s.addrList i).addr ∧ (s.addrList i).state ≠ .invalid
    if found then
      { s with
        addrList := fun i =>
          let entry := s.addrList i
          if matchesPrefix option i entry.addr ∧ (entry.state = .preferred ∨ entry.state = .deprecated) then
            updateLifetimes validLifetime preferredLifetime time entry
          else entry }
    else
      match (List.finRange IPV6_ADDR_LIST_SIZE).find? fun i =>
          i ≠ linkLocalIndex ∧ (s.addrList i).state = .invalid with
      | some i =>
          (ipv6SetAddr i.val addr (newAddrState s) validLifetime preferredLifetime false join now s).2
      | none => s

/-- An option with what is read while it is parsed. -/
structure OptionInput where
  option : NdpPrefixInfoOption
  time : UInt32
  now : UInt32
  join : ErrorCode

/-- Parse Router Advertisement message. -/
def slaacParseRouterAdv (options : List OptionInput) (s : NetInterface) : NetInterface :=
  if !s.running then s
  else if ipv6GetLinkLocalAddrState s ≠ .preferred then s
  else options.foldl
    (fun s o => slaacParsePrefixInfoOption o.option o.time o.now o.join s) s

/-- Router Advertisement message processing. -/
def ndpProcessRouterAdv (retransTimer : UInt32) (options : List OptionInput) (s : NetInterface) :
    NetInterface :=
  slaacParseRouterAdv options
    (if retransTimer ≠ 0 then { s with retransTimer := retransTimer } else s)

/-! ## Runs -/

inductive AddrEvent where
  | routerAdv (retransTimer : UInt32) (options : List OptionInput)
  | tick (time : UInt32) (now rand : Fin IPV6_ADDR_LIST_SIZE → UInt32)

/-- One event on the address list. -/
def addrStep (s : NetInterface) : AddrEvent → NetInterface
  | .routerAdv retransTimer options => ndpProcessRouterAdv retransTimer options s
  | .tick time now rand => ndpUpdateAddrList time now rand s

/-- The calls that assign an address manually. -/
inductive ManualCall where
  | setLinkLocalAddr
  | setGlobalAddr (index : UInt32)

/-- The entry that a call assigns. -/
def ManualCall.entry : ManualCall → ℕ
  | .setLinkLocalAddr => 0
  | .setGlobalAddr index => (index + 1).toNat

def ManualCall.apply (addr : Ipv6Addr) (join : ErrorCode) (now : UInt32) (s : NetInterface) :
    ManualCall → ErrorCode × NetInterface
  | .setLinkLocalAddr => ipv6SetLinkLocalAddr addr join now s
  | .setGlobalAddr index => ipv6SetGlobalAddr index addr join now s

/-! ## What an option does to an entry -/

section Option

variable {s : NetInterface} {i : Fin IPV6_ADDR_LIST_SIZE} {option : NdpPrefixInfoOption}

/-- The address in an entry is valid. -/
def Valid (entry : Ipv6AddrEntry) : Prop := entry.state = .preferred ∨ entry.state = .deprecated

theorem Valid.ne_invalid {entry : Ipv6AddrEntry} (h : Valid entry) : entry.state ≠ .invalid := by
  rcases h with h | h <;> rw [h] <;> decide

/-- An accepted option updates every valid address with its prefix. -/
theorem slaacParsePrefixInfoOption_match (time now : UInt32) (join : ErrorCode)
    (haccept : acceptsOption option) (hmatch : matchesPrefix option i (s.addrList i).addr)
    (hvalid : Valid (s.addrList i)) :
    (slaacParsePrefixInfoOption option time now join s).addrList i =
      updateLifetimes (checkLifetime option.validLifetime) (checkLifetime option.preferredLifetime)
        time (s.addrList i) := by
  have hfound : ∃ i, matchesPrefix option i (s.addrList i).addr ∧ (s.addrList i).state ≠ .invalid :=
    ⟨i, hmatch, hvalid.ne_invalid⟩
  simp only [slaacParsePrefixInfoOption, haccept, Bool.not_true, Bool.false_eq_true, if_false]
  rw [if_pos hfound]
  exact if_pos ⟨hmatch, hvalid⟩

/-- The other entries in use stay as they are. -/
theorem slaacParsePrefixInfoOption_of_not (time now : UInt32) (join : ErrorCode)
    (hstate : (s.addrList i).state ≠ .invalid)
    (hnot : ¬ (acceptsOption option ∧ matchesPrefix option i (s.addrList i).addr ∧
      Valid (s.addrList i))) :
    (slaacParsePrefixInfoOption option time now join s).addrList i = s.addrList i := by
  unfold slaacParsePrefixInfoOption
  by_cases haccept : acceptsOption option
  · simp only [haccept, Bool.not_true, Bool.false_eq_true, if_false]
    by_cases hfound : ∃ i, matchesPrefix option i (s.addrList i).addr ∧ (s.addrList i).state ≠ .invalid
    · rw [if_pos hfound]
      exact if_neg fun h => hnot ⟨haccept, h⟩
    · rw [if_neg hfound]
      cases hfind : (List.finRange IPV6_ADDR_LIST_SIZE).find? fun i =>
          i ≠ linkLocalIndex ∧ (s.addrList i).state = .invalid with
      | none => rfl
      | some j =>
          -- the entry of the new address is not in use
          have hj := List.find?_some hfind
          refine ipv6SetAddr_addrList_of_ne _ _ _ _ _ _ _ fun hij => hstate ?_
          rw [Fin.ext hij]
          exact (of_decide_eq_true hj).2
  · simp only [haccept, Bool.not_false, if_true]

end Option

/-! ## Manually assigned addresses -/

section Manual

variable {s : NetInterface} {i : Fin IPV6_ADDR_LIST_SIZE} {a : Ipv6Addr}

/-- An entry holds the manually assigned address `a`, whose duplicate address detection has not
failed, and its preferred lifetime is infinite. -/
structure Manual (a : Ipv6Addr) (entry : Ipv6AddrEntry) : Prop where
  addr : entry.addr = a
  state : entry.state = .tentative ∨ entry.state = .preferred
  duplicate : entry.duplicate = false
  preferredLifetime : entry.preferredLifetime = NDP_INFINITE_LIFETIME
  permanent : entry.permanent = true

/-- An option is not one that gives a finite preferred lifetime to the address `a` of entry `i`. -/
def SparesAddr (i : Fin IPV6_ADDR_LIST_SIZE) (a : Ipv6Addr) (option : NdpPrefixInfoOption) : Prop :=
  acceptsOption option → matchesPrefix option i a → option.preferredLifetime = NDP_INFINITE_LIFETIME

/-- No advertisement that is processed once the address in entry `i` is valid gives it a finite
preferred lifetime. -/
def Spares (i : Fin IPV6_ADDR_LIST_SIZE) (s : NetInterface) : AddrEvent → Prop
  | .routerAdv _ options =>
      s.running → ipv6GetLinkLocalAddrState s = .preferred → (s.addrList i).state = .preferred →
        ∀ o ∈ options, SparesAddr i (s.addrList i).addr o.option
  | .tick _ _ _ => True

theorem Manual.ne_invalid {entry : Ipv6AddrEntry} (h : Manual a entry) : entry.state ≠ .invalid := by
  rcases h.state with h | h <;> rw [h] <;> decide

theorem Manual.preferred {entry : Ipv6AddrEntry} (h : Manual a entry) (hvalid : Valid entry) :
    entry.state = .preferred := by
  rcases hvalid with hp | hd
  · exact hp
  · rcases h.state with ht | hp
    · rw [ht] at hd
      cases hd
    · exact hp

/-- An infinite lifetime is longer than any remaining time. -/
theorem updateLifetimes_infinite (time : UInt32) (entry : Ipv6AddrEntry) :
    updateLifetimes NDP_INFINITE_LIFETIME NDP_INFINITE_LIFETIME time entry =
      { entry with
        preferredLifetime := NDP_INFINITE_LIFETIME, validLifetime := NDP_INFINITE_LIFETIME
        timestamp := time, state := .preferred } := by
  unfold updateLifetimes
  rw [if_pos (Or.inl (by decide))]

/-- The preferred lifetime of an accepted option does not exceed its valid lifetime. -/
theorem preferredLifetime_le {option : NdpPrefixInfoOption} (h : acceptsOption option) :
    option.preferredLifetime ≤ option.validLifetime := by
  simp only [acceptsOption, Bool.decide_and, Bool.and_eq_true, decide_eq_true_eq] at h
  exact h.2.2.2.2.1

theorem validLifetime_infinite {option : NdpPrefixInfoOption} (h : acceptsOption option)
    (hinf : option.preferredLifetime = NDP_INFINITE_LIFETIME) :
    option.validLifetime = NDP_INFINITE_LIFETIME := by
  have hle := preferredLifetime_le h
  have hlt := option.validLifetime.toNat_lt
  have hmax : NDP_INFINITE_LIFETIME.toNat = 2 ^ 32 - 1 := rfl
  rw [hinf, UInt32.le_iff_toNat_le] at hle
  exact UInt32.toNat_inj.1 (by omega)

/-- An option that spares the address leaves it as it is, or makes its lifetimes infinite again. -/
theorem Manual.option (h : Manual a (s.addrList i)) {option : NdpPrefixInfoOption} (time now : UInt32)
    (join : ErrorCode)
    (hspares : (s.addrList i).state = .preferred → SparesAddr i a option) :
    Manual a ((slaacParsePrefixInfoOption option time now join s).addrList i) ∧
      ((slaacParsePrefixInfoOption option time now join s).addrList i).state =
        (s.addrList i).state := by
  by_cases hcase : acceptsOption option ∧ matchesPrefix option i (s.addrList i).addr ∧
      Valid (s.addrList i)
  · obtain ⟨haccept, hmatch, hvalid⟩ := hcase
    have hpreferred := h.preferred hvalid
    have hinf := hspares hpreferred haccept (h.addr ▸ hmatch)
    have hcheck : checkLifetime NDP_INFINITE_LIFETIME = NDP_INFINITE_LIFETIME := rfl
    rw [slaacParsePrefixInfoOption_match time now join haccept hmatch hvalid,
      validLifetime_infinite haccept hinf, hinf, hcheck, updateLifetimes_infinite]
    exact ⟨⟨h.addr, Or.inr rfl, h.duplicate, rfl, h.permanent⟩, hpreferred.symm⟩
  · rw [slaacParsePrefixInfoOption_of_not time now join h.ne_invalid hcase]
    exact ⟨h, rfl⟩

theorem Manual.options (h : Manual a (s.addrList i)) (options : List OptionInput)
    (hspares : (s.addrList i).state = .preferred →
      ∀ o ∈ options, SparesAddr i a o.option) :
    let s' := options.foldl (fun s o => slaacParsePrefixInfoOption o.option o.time o.now o.join s) s
    Manual a (s'.addrList i) ∧ (s'.addrList i).state = (s.addrList i).state := by
  induction options generalizing s with
  | nil => exact ⟨h, rfl⟩
  | cons o options ih =>
      obtain ⟨hmanual, hstate⟩ := h.option o.time o.now o.join
        fun hp => hspares hp o (List.mem_cons_self ..)
      obtain ⟨hmanual', hstate'⟩ := ih hmanual fun hp o' ho' =>
        hspares (hstate ▸ hp) o' (List.mem_cons_of_mem _ ho')
      exact ⟨hmanual', hstate'.trans hstate⟩

theorem Manual.routerAdv (h : Manual a (s.addrList i)) {retransTimer : UInt32}
    {options : List OptionInput} (hspares : Spares i s (.routerAdv retransTimer options)) :
    Manual a ((ndpProcessRouterAdv retransTimer options s).addrList i) ∧
      ((ndpProcessRouterAdv retransTimer options s).addrList i).state = (s.addrList i).state := by
  unfold ndpProcessRouterAdv slaacParseRouterAdv
  generalize hs' : (if retransTimer ≠ 0 then { s with retransTimer := retransTimer } else s) = s'
  have haddrList : s'.addrList = s.addrList := by
    rw [← hs']
    split <;> rfl
  have hrunning : s'.running = s.running := by
    rw [← hs']
    split <;> rfl
  rw [← haddrList] at h ⊢
  split_ifs with hrun hlinkLocal
  · exact ⟨h, rfl⟩
  · exact ⟨h, rfl⟩
  · refine h.options options fun hp => ?_
    rw [← h.addr, haddrList]
    refine hspares (by simpa [hrunning] using hrun) ?_ (haddrList ▸ hp)
    simpa [ipv6GetLinkLocalAddrState, haddrList] using hlinkLocal

/-- The tick never deprecates an address with an infinite preferred lifetime, and duplicate address
detection does not fail. -/
theorem Manual.tick (h : Manual a (s.addrList i)) (time : UInt32)
    (now rand : Fin IPV6_ADDR_LIST_SIZE → UInt32) :
    Manual a ((ndpUpdateAddrList time now rand s).addrList i) ∧
      ((s.addrList i).state = .preferred →
        ((ndpUpdateAddrList time now rand s).addrList i).state = .preferred) := by
  obtain ⟨linkLocalState, heq⟩ := ndpUpdateAddrList_addrList time now rand s i
  rw [heq]
  unfold ndpUpdateAddrEntry
  rcases h.state with ht | hp
  · rw [ht]
    refine ⟨?_, fun hp => by cases hp⟩
    simp only [ndpUpdateTentative, h.duplicate, Bool.false_eq_true, if_false]
    split_ifs
    all_goals
      exact ⟨h.addr, by simp [ht], by simp [h.duplicate], h.preferredLifetime, h.permanent⟩
  · simp only [hp, h.preferredLifetime, ne_eq, not_true_eq_false, false_and, if_false]
    exact ⟨h, fun _ => trivial⟩

theorem Manual.step (h : Manual a (s.addrList i)) {e : AddrEvent} (hspares : Spares i s e) :
    Manual a ((addrStep s e).addrList i) := by
  cases e with
  | routerAdv retransTimer options => exact (h.routerAdv hspares).1
  | tick time now rand => exact (h.tick time now rand).1

theorem Manual.step_preferred (h : Manual a (s.addrList i)) (hp : (s.addrList i).state = .preferred)
    {e : AddrEvent} (hspares : Spares i s e) : ((addrStep s e).addrList i).state = .preferred := by
  cases e with
  | routerAdv retransTimer options => exact (h.routerAdv hspares).2.trans hp
  | tick time now rand => exact (h.tick time now rand).2 hp

/-- What a successful call leaves in its entry. -/
theorem ManualCall.manual {addr : Ipv6Addr} {join : ErrorCode} {now : UInt32} {call : ManualCall}
    (haddr : addr ≠ IPV6_UNSPECIFIED_ADDR) (hi : call.entry = i.val)
    (hok : (call.apply addr join now s).1 = .noError) :
    Manual addr ((call.apply addr join now s).2.addrList i) := by
  have happly : call.apply addr join now s = ipv6SetAddr i.val addr (newAddrState s)
      NDP_INFINITE_LIFETIME NDP_INFINITE_LIFETIME true join now s := by
    rw [← hi]
    cases call <;> rfl
  rw [happly] at hok ⊢
  rw [ipv6SetAddr_entry haddr hok]
  refine ⟨rfl, ?_, rfl, rfl, rfl⟩
  unfold newAddrState
  split
  · exact Or.inl rfl
  · exact Or.inr rfl

end Manual

/-- Manually assigned addresses are immune to the events that meet `P`: in a run that starts with the
call that assigns the address, once the address is preferred it stays so. -/
def ManualImmune (P : Fin IPV6_ADDR_LIST_SIZE → NetInterface → AddrEvent → Prop) : Prop :=
  ∀ (s s₀ s₁ s₂ : NetInterface) (call : ManualCall) (addr : Ipv6Addr) (join : ErrorCode)
    (now : UInt32) (i : Fin IPV6_ADDR_LIST_SIZE) (es₁ es₂ : List AddrEvent),
    addr ≠ IPV6_UNSPECIFIED_ADDR → call.entry = i.val →
    call.apply addr join now s = (.noError, s₀) →
    Along (P i) addrStep s₀ es₁ → run addrStep s₀ es₁ = s₁ →
    (s₁.addrList i).state = .preferred →
    Along (P i) addrStep s₁ es₂ → run addrStep s₁ es₂ = s₂ →
    (s₂.addrList i).addr = addr ∧ (s₂.addrList i).state = .preferred

/-- A manually assigned address stays preferred as long as no advertisement gives its prefix a finite
preferred lifetime. -/
theorem manualAddr_immune (s s₀ s₁ s₂ : NetInterface) (call : ManualCall) (addr : Ipv6Addr)
    (join : ErrorCode) (now : UInt32) (i : Fin IPV6_ADDR_LIST_SIZE) (es₁ es₂ : List AddrEvent)
    (haddr : addr ≠ IPV6_UNSPECIFIED_ADDR) (hi : call.entry = i.val)
    (hcall : call.apply addr join now s = (.noError, s₀)) (hes₁ : Along (Spares i) addrStep s₀ es₁)
    (hs₁ : run addrStep s₀ es₁ = s₁) (hpreferred : (s₁.addrList i).state = .preferred)
    (hes₂ : Along (Spares i) addrStep s₁ es₂) (hs₂ : run addrStep s₁ es₂ = s₂) :
    (s₂.addrList i).addr = addr ∧ (s₂.addrList i).state = .preferred := by
  have hmanual : Manual addr (s₀.addrList i) := by
    have h := ManualCall.manual haddr hi (congrArg Prod.fst hcall)
    rwa [hcall] at h
  have h₁ : Manual addr (s₁.addrList i) := by
    rw [← hs₁]
    exact run_invariant (I := fun s => Manual addr (s.addrList i)) (fun _ _ h he => h.step he) hmanual
      hes₁
  have h₂ : Manual addr (s₂.addrList i) ∧ (s₂.addrList i).state = .preferred := by
    rw [← hs₂]
    exact run_invariant
      (I := fun s => Manual addr (s.addrList i) ∧ (s.addrList i).state = .preferred)
      (fun _ _ h he => ⟨h.1.step he, h.1.step_preferred h.2 he⟩) ⟨h₁, hpreferred⟩ hes₂
  exact ⟨h₂.1.addr, h₂.2⟩

/-- An entry of the list that holds an address with infinite lifetimes. -/
def infiniteEntry (addr : Ipv6Addr) (state : Ipv6AddrState) : Ipv6AddrEntry :=
  { addr := addr, state := state, duplicate := false, validLifetime := NDP_INFINITE_LIFETIME
    preferredLifetime := NDP_INFINITE_LIFETIME, permanent := false, timestamp := 0, dadTimeout := 0
    dadRetransmitCount := 0 }

/-- An interface with nothing but a valid link-local address. -/
def linkLocalInterface : NetInterface :=
  { addrList := fun i =>
      if i = linkLocalIndex then infiniteEntry 0xFE800000000000000000000000000001 .preferred
      else infiniteEntry IPV6_UNSPECIFIED_ADDR .invalid
    linkState := true, eui64 := 0x1, dupAddrDetectTransmits := 0, retransTimer := 1000
    running := true }

/-- An advertisement of the prefix `2001:db8::/64` with these lifetimes, in seconds. -/
def prefixAdv (validLifetime preferredLifetime time : UInt32) : AddrEvent :=
  .routerAdv 0
    [{ option := { length := 4, prefixLength := 64, a := true, validLifetime := validLifetime
                   preferredLifetime := preferredLifetime
                   addrPrefix := 0x20010DB8000000000000000000000000 }
       time := time, now := time, join := .noError }]

/-- An address in a prefix that is advertised for ever stays. -/
theorem manualAddr_immune_infinite :
    let s₀ := (ipv6SetGlobalAddr 0 0x20010DB8000000000000000000000001 .noError 0 linkLocalInterface).2
    let es := [prefixAdv NDP_INFINITE_LIFETIME NDP_INFINITE_LIFETIME 0,
      .tick 1800000 (fun _ => 1800000) (fun _ => 0)]
    ((run addrStep s₀ es).addrList ⟨1, by decide⟩).addr = 0x20010DB8000000000000000000000001 ∧
      ((run addrStep s₀ es).addrList ⟨1, by decide⟩).state = .preferred :=
  manualAddr_immune linkLocalInterface _ _ _ (.setGlobalAddr 0) 0x20010DB8000000000000000000000001
    .noError 0 ⟨1, by decide⟩ [] [prefixAdv NDP_INFINITE_LIFETIME NDP_INFINITE_LIFETIME 0,
      .tick 1800000 (fun _ => 1800000) (fun _ => 0)]
    (by decide) (by decide) rfl trivial rfl (by decide)
    ⟨fun _ _ _ o ho _ _ => by rw [List.mem_singleton.1 ho], trivial, trivial⟩ rfl

/-- The prefix of `2001:db8::1` is advertised for an hour, half an hour of it preferred: the address
that `ipv6SetGlobalAddr` has assigned is gone after that hour. -/
theorem manualAddr_counterexample : ¬ ManualImmune fun _ _ _ => True := by
  intro h
  let tick (time : UInt32) : AddrEvent := .tick time (fun _ => time) (fun _ => 0)
  have hstays := h linkLocalInterface _ _ _ (.setGlobalAddr 0) 0x20010DB8000000000000000000000001
    .noError 0 ⟨1, by decide⟩ [] [prefixAdv 3600 1800 0, tick 1800000, tick 3600000]
    (by decide) (by decide) rfl trivial rfl (by decide) ⟨trivial, trivial, trivial, trivial⟩ rfl
  exact absurd hstays.1 (by decide)

end Ipv6
