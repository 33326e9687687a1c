import CycloneTcp.Common.Error
import CycloneTcp.Ip.Ipv6Addr
import Mathlib.Data.List.MinMax
import Mathlib.Data.Prod.Lex

set_option autoImplicit false

/-! # Source address selection

`ipv6SelectSourceAddr` keeps the best candidate so far and compares every other one with it, rule by
rule. That finds a candidate that no other beats because the rules make a linear order of ranks; the
loop is then `List.argmax` of the rank. -/

namespace Ipv6

variable {I : Type*}

/-! ## The selection -/

/-- The body of the inner loop: the entry `current` of an interface against the best one so far. -/
def compareAddr (destAddr : Ipv6Addr) (best : Option (I × Ipv6AddrEntry))
    (current : I × Ipv6AddrEntry) : Option (I × Ipv6AddrEntry) :=
  if current.2.state = .preferred ∨ current.2.state = .deprecated then
    match best with
    | none => some current
    | some best =>
        -- Rule 1: prefer same address
        if best.2.addr = destAddr then some best
        else if current.2.addr = destAddr then some current
        -- Rule 2: prefer appropriate scope
        else if ipv6GetAddrScope current.2.addr < ipv6GetAddrScope best.2.addr then
          if ipv6GetAddrScope current.2.addr ≥ ipv6GetAddrScope destAddr then some current
          else some best
        else if ipv6GetAddrScope best.2.addr < ipv6GetAddrScope current.2.addr then
          if ipv6GetAddrScope best.2.addr < ipv6GetAddrScope destAddr then some current
          else some best
        -- Rule 3: avoid deprecated addresses
        else if best.2.state = .preferred ∧ current.2.state = .deprecated then some best
        else if current.2.state = .preferred ∧ best.2.state = .deprecated then some current
        -- Rule 8: use longest matching prefix
        else if ipv6GetCommonPrefixLength current.2.addr destAddr >
            ipv6GetCommonPrefixLength best.2.addr destAddr then some current
        else some best
  else best

/-- The loop over the addresses of one interface. -/
def addrLoop (destAddr : Ipv6Addr) (currentInterface : I) :
    List Ipv6AddrEntry → Option (I × Ipv6AddrEntry) → Option (I × Ipv6AddrEntry)
  | [], best => best
  | currentAddr :: addrList, best =>
      addrLoop destAddr currentInterface addrList
        (compareAddr destAddr best (currentInterface, currentAddr))

/-- The loop over the network interfaces, of which `interface` may single out one. -/
def interfaceLoop [DecidableEq I] (destAddr : Ipv6Addr) (interface : Option I) :
    List (I × List Ipv6AddrEntry) → Option (I × Ipv6AddrEntry) → Option (I × Ipv6AddrEntry)
  | [], best => best
  | (currentInterface, addrList) :: netInterface, best =>
      if interface ≠ some currentInterface ∧ interface ≠ none then
        interfaceLoop destAddr interface netInterface best
      else
        interfaceLoop destAddr interface netInterface
          (addrLoop destAddr currentInterface addrList best)

/-- `ipv6SelectSourceAddr`, with the interfaces and their address lists; `none` is the NULL pointer in
place of a hint. -/
def ipv6SelectSourceAddr [DecidableEq I] (netInterface : List (I × List Ipv6AddrEntry))
    (interface : Option I) (destAddr : Ipv6Addr) : Except ErrorCode (I × Ipv6Addr) :=
  match interfaceLoop destAddr interface netInterface none with
  | none => .error .noAddress
  | some best => .ok (best.1, best.2.addr)

/-! ## Candidates and rules -/

/-- The entries that are assigned to an admissible interface and may be used. -/
def candidates [DecidableEq I] (netInterface : List (I × List Ipv6AddrEntry))
    (interface : Option I) : List (I × Ipv6AddrEntry) :=
  (netInterface.filter fun x => interface = some x.1 ∨ interface = none).flatMap fun x =>
    (x.2.filter fun entry => entry.state = .preferred ∨ entry.state = .deprecated).map (x.1, ·)

/-- Rule 2 prefers `x`: of two scopes the smaller one, unless it is smaller than that of the
destination. -/
def ScopeBeats (destAddr : Ipv6Addr) (x y : Ipv6AddrEntry) : Prop :=
  ipv6GetAddrScope x.addr < ipv6GetAddrScope y.addr ∧
      ipv6GetAddrScope destAddr ≤ ipv6GetAddrScope x.addr ∨
    ipv6GetAddrScope y.addr < ipv6GetAddrScope x.addr ∧
      ipv6GetAddrScope y.addr < ipv6GetAddrScope destAddr

/-- Rules 2, 3 and 8, the later ones where the earlier ones do not tell two entries apart. -/
def LaterBeats (destAddr : Ipv6Addr) (x y : Ipv6AddrEntry) : Prop :=
  ScopeBeats destAddr x y ∨ ipv6GetAddrScope x.addr = ipv6GetAddrScope y.addr ∧
    (x.state = .preferred ∧ y.state = .deprecated ∨ x.state = y.state ∧
      ipv6GetCommonPrefixLength y.addr destAddr < ipv6GetCommonPrefixLength x.addr destAddr)

/-- The later rules do not tell two entries apart. -/
def LaterTies (destAddr : Ipv6Addr) (x y : Ipv6AddrEntry) : Prop :=
  ipv6GetAddrScope x.addr = ipv6GetAddrScope y.addr ∧ x.state = y.state ∧
    ipv6GetCommonPrefixLength x.addr destAddr = ipv6GetCommonPrefixLength y.addr destAddr

/-- The lexicographic order of the four rules. -/
def LexBeats (destAddr : Ipv6Addr) (x y : Ipv6AddrEntry) : Prop :=
  x.addr = destAddr ∧ y.addr ≠ destAddr ∨
    (x.addr = destAddr ↔ y.addr = destAddr) ∧ LaterBeats destAddr x y

def LexTies (destAddr : Ipv6Addr) (x y : Ipv6AddrEntry) : Prop :=
  (x.addr = destAddr ↔ y.addr = destAddr) ∧ LaterTies destAddr x y

/-- The order of the code: rule 1 is decisive, also between two entries with the destination address,
and the later rules are for entries with other addresses. -/
def Beats (destAddr : Ipv6Addr) (x y : Ipv6AddrEntry) : Prop :=
  y.addr ≠ destAddr ∧ (x.addr = destAddr ∨ LaterBeats destAddr x y)

def Ties (destAddr : Ipv6Addr) (x y : Ipv6AddrEntry) : Prop :=
  x.addr = destAddr ∧ y.addr = destAddr ∨
    x.addr ≠ destAddr ∧ y.addr ≠ destAddr ∧ LaterTies destAddr x y

/-- The selection fails if there is no candidate, and returns one that no other beats together with
its interface otherwise; another arrangement of the candidates may only make it return one that
ties. -/
def SelectsBest (I : Type*) [DecidableEq I]
    (beats ties : Ipv6Addr → Ipv6AddrEntry → Ipv6AddrEntry → Prop) : Prop :=
  ∀ (netInterface : List (I × List Ipv6AddrEntry)) (interface : Option I) (destAddr : Ipv6Addr),
    (candidates netInterface interface = [] →
      ipv6SelectSourceAddr netInterface interface destAddr = .error .noAddress) ∧
    (candidates netInterface interface ≠ [] → ∃ best ∈ candidates netInterface interface,
      ipv6SelectSourceAddr netInterface interface destAddr = .ok (best.1, best.2.addr) ∧
      (∀ c ∈ candidates netInterface interface, ¬ beats destAddr c.2 best.2) ∧
      ∀ netInterface', (candidates netInterface' interface).Perm (candidates netInterface interface) →
        ∃ best' ∈ candidates netInterface interface,
          ipv6SelectSourceAddr netInterface' interface destAddr = .ok (best'.1, best'.2.addr) ∧
          ties destAddr best'.2 best.2)

/-! ## Ranks -/

/-- The rank under rule 2: scopes that are large enough come first, the smaller ones before the larger
ones; the others follow, the larger ones before the smaller ones. -/
def scopeRank (destAddr addr : Ipv6Addr) : ℕ ×ₗ ℤ :=
  if ipv6GetAddrScope destAddr ≤ ipv6GetAddrScope addr then toLex (1, -(ipv6GetAddrScope addr : ℤ))
  else toLex (0, (ipv6GetAddrScope addr : ℤ))

/-- The rank under the rules 2, 3 and 8. -/
def laterRank (destAddr : Ipv6Addr) (x : Ipv6AddrEntry) : (ℕ ×ₗ ℤ) ×ₗ ℕ ×ₗ ℕ :=
  toLex (scopeRank destAddr x.addr, toLex (if x.state = .preferred then 1 else 0,
    ipv6GetCommonPrefixLength x.addr destAddr))

/-- The rank under all rules. -/
def rank (destAddr : Ipv6Addr) (x : Ipv6AddrEntry) : ℕ ×ₗ (ℕ ×ₗ ℤ) ×ₗ ℕ ×ₗ ℕ :=
  if x.addr = destAddr then toLex (1, toLex (toLex (0, 0), toLex (0, 0)))
  else toLex (0, laterRank destAddr x)

variable {destAddr : Ipv6Addr} {x y : Ipv6AddrEntry}

theorem scopeRank_lt_iff :
    scopeRank destAddr y.addr < scopeRank destAddr x.addr ↔ ScopeBeats destAddr x y := by
  rw [scopeRank, scopeRank, ScopeBeats]
  split_ifs <;>
    simp only [Prod.Lex.toLex_lt_toLex, neg_lt_neg_iff, Nat.cast_lt, lt_irrefl, false_or, true_and,
      zero_lt_one, Nat.not_lt_zero, false_and, true_or, zero_ne_one, one_ne_zero] <;>
    grind

theorem scopeRank_eq_iff : scopeRank destAddr y.addr = scopeRank destAddr x.addr ↔
    ipv6GetAddrScope x.addr = ipv6GetAddrScope y.addr := by
  rw [scopeRank, scopeRank]
  split_ifs <;> rw [toLex_inj, Prod.mk.injEq] <;> omega

/-- An entry that may be used. -/
def Usable (x : Ipv6AddrEntry) : Prop := x.state = .preferred ∨ x.state = .deprecated

theorem laterRank_lt_iff (hx : Usable x) (hy : Usable y) :
    laterRank destAddr y < laterRank destAddr x ↔ LaterBeats destAddr x y := by
  simp only [laterRank, Prod.Lex.toLex_lt_toLex, scopeRank_lt_iff, scopeRank_eq_iff]
  rw [LaterBeats]
  rcases hx with hx | hx <;> rcases hy with hy | hy <;> simp [hx, hy]

theorem laterRank_eq_iff (hx : Usable x) (hy : Usable y) :
    laterRank destAddr x = laterRank destAddr y ↔ LaterTies destAddr x y := by
  simp only [laterRank, toLex_inj, Prod.mk.injEq, scopeRank_eq_iff, LaterTies]
  rcases hx with hx | hx <;> rcases hy with hy | hy <;> simp [hx, hy, eq_comm]

theorem rank_lt_iff (hx : Usable x) (hy : Usable y) :
    rank destAddr y < rank destAddr x ↔ Beats destAddr x y := by
  rw [rank, rank, Beats]
  by_cases hdy : y.addr = destAddr <;> by_cases hdx : x.addr = destAddr
  · simp [hdx, hdy]
  · simp [hdx, hdy, Prod.Lex.toLex_lt_toLex]
  · simp [hdx, hdy, Prod.Lex.toLex_lt_toLex]
  · simp [hdx, hdy, Prod.Lex.toLex_lt_toLex, laterRank_lt_iff hx hy]

theorem rank_eq_iff (hx : Usable x) (hy : Usable y) :
    rank destAddr x = rank destAddr y ↔ Ties destAddr x y := by
  rw [rank, rank, Ties]
  by_cases hdy : y.addr = destAddr <;> by_cases hdx : x.addr = destAddr
  · simp [hdx, hdy]
  · simp [hdx, hdy]
  · simp [hdx, hdy]
  · simp [hdx, hdy, laterRank_eq_iff hx hy]

/-! ## The loops -/

/-- The comparison of the code is the comparison of the ranks. -/
theorem compareAddr_eq {best current : I × Ipv6AddrEntry} (hbest : Usable best.2)
    (hcurrent : Usable current.2) : compareAddr destAddr (some best) current =
      if rank destAddr best.2 < rank destAddr current.2 then some current else some best := by
  rw [compareAddr, if_pos (show current.2.state = .preferred ∨ current.2.state = .deprecated from hcurrent)]
  simp only [rank_lt_iff hcurrent hbest, Beats, LaterBeats, ScopeBeats]
  by_cases hdy : best.2.addr = destAddr
  · rw [if_pos hdy, if_neg fun h => h.1 hdy]
  by_cases hdx : current.2.addr = destAddr
  · rw [if_neg hdy, if_pos hdx, if_pos ⟨hdy, .inl hdx⟩]
  rw [if_neg hdy, if_neg hdx]
  rcases Nat.lt_trichotomy (ipv6GetAddrScope current.2.addr) (ipv6GetAddrScope best.2.addr) with
    hlt | heq | hgt
  · rw [if_pos hlt]
    grind
  · rw [if_neg (by omega), if_neg (by omega)]
    rcases hbest with hb | hb <;> rcases hcurrent with hc | hc <;> simp [hb, hc, heq, hdy, hdx]
  · rw [if_neg (by omega), if_pos hgt]
    grind

/-- The best of the candidates by their ranks, which is what the loops compute. -/
theorem foldl_compareAddr (cs : List (I × Ipv6AddrEntry)) (hcs : ∀ c ∈ cs, Usable c.2)
    (best : Option (I × Ipv6AddrEntry)) (hbest : ∀ c ∈ best, Usable c.2) :
    cs.foldl (compareAddr destAddr) best =
      cs.foldl (List.argAux fun c c' => rank destAddr c'.2 < rank destAddr c.2) best := by
  induction cs generalizing best with
  | nil => rfl
  | cons c cs ih =>
      have hc : Usable c.2 := hcs c List.mem_cons_self
      have hstep : compareAddr destAddr best c =
          List.argAux (fun c c' => rank destAddr c'.2 < rank destAddr c.2) best c := by
        cases best with
        | none => exact if_pos hc
        | some best => exact compareAddr_eq (hbest best rfl) hc
      rw [List.foldl_cons, List.foldl_cons, ← hstep]
      refine ih (fun c' hc' => hcs c' (List.mem_cons_of_mem c hc')) _ ?_
      rw [hstep]
      intro c' hc'
      cases best with
      | none =>
          obtain rfl : c = c' := Option.some.inj hc'
          exact hc
      | some best =>
          simp only [List.argAux] at hc'
          split_ifs at hc'
          · obtain rfl : c = c' := Option.some.inj hc'
            exact hc
          · obtain rfl : best = c' := Option.some.inj hc'
            exact hbest _ rfl

/-- Entries that may not be used are skipped. -/
theorem addrLoop_eq (currentInterface : I) (addrList : List Ipv6AddrEntry)
    (best : Option (I × Ipv6AddrEntry)) : addrLoop destAddr currentInterface addrList best =
      ((addrList.filter fun entry => entry.state = .preferred ∨ entry.state = .deprecated).map
        (currentInterface, ·)).foldl (compareAddr destAddr) best := by
  induction addrList generalizing best with
  | nil => rfl
  | cons entry addrList ih =>
      rw [addrLoop, ih, List.filter_cons]
      split_ifs with h
      · rfl
      · unfold compareAddr
        rw [if_neg (by simpa using h)]

variable [DecidableEq I]

theorem interfaceLoop_eq (netInterface : List (I × List Ipv6AddrEntry)) (interface : Option I)
    (best : Option (I × Ipv6AddrEntry)) : interfaceLoop destAddr interface netInterface best =
      (candidates netInterface interface).foldl (compareAddr destAddr) best := by
  induction netInterface generalizing best with
  | nil => rfl
  | cons x netInterface ih =>
      obtain ⟨currentInterface, addrList⟩ := x
      rw [interfaceLoop]
      split_ifs with h
      · rw [ih, candidates, candidates, List.filter_cons_of_neg (by simpa [or_iff_not_imp_left] using h)]
      · have hadmissible : interface = some currentInterface ∨ interface = none := by
          by_contra hnot
          exact h (not_or.1 hnot)
        rw [ih, addrLoop_eq, candidates, candidates, List.filter_cons_of_pos (by simpa using hadmissible),
          List.flatMap_cons, List.foldl_append]

theorem usable_of_mem {netInterface : List (I × List Ipv6AddrEntry)} {interface : Option I}
    {c : I × Ipv6AddrEntry} (h : c ∈ candidates netInterface interface) : Usable c.2 := by
  obtain ⟨x, -, hc⟩ := List.mem_flatMap.1 h
  obtain ⟨entry, hentry, rfl⟩ := List.mem_map.1 hc
  simpa [Usable] using (List.mem_filter.1 hentry).2

theorem ipv6SelectSourceAddr_eq (netInterface : List (I × List Ipv6AddrEntry))
    (interface : Option I) (destAddr : Ipv6Addr) :
    ipv6SelectSourceAddr netInterface interface destAddr =
      match (candidates netInterface interface).argmax fun c => rank destAddr c.2 with
      | none => .error .noAddress
      | some best => .ok (best.1, best.2.addr) := by
  rw [ipv6SelectSourceAddr, interfaceLoop_eq, foldl_compareAddr _ (fun _ => usable_of_mem) none nofun]
  rfl

/-- The selection finds a candidate that no other beats in the order of the code. -/
theorem ipv6SelectSourceAddr_best : SelectsBest I Beats Ties := by
  intro netInterface interface destAddr
  refine ⟨fun h => ?_, fun hne => ?_⟩
  · rw [ipv6SelectSourceAddr_eq, h]
    rfl
  · cases hbest : (candidates netInterface interface).argmax fun c => rank destAddr c.2 with
    | none => exact absurd (List.argmax_eq_none.1 hbest) hne
    | some best =>
        have hmem := List.argmax_mem hbest
        refine ⟨best, hmem, ?_, fun c hc hbeats => ?_, fun netInterface' hperm => ?_⟩
        · rw [ipv6SelectSourceAddr_eq, hbest]
        · have hle := List.le_of_mem_argmax hc hbest
          exact absurd ((rank_lt_iff (usable_of_mem hc) (usable_of_mem hmem)).2 hbeats)
            (not_lt_of_ge hle)
        · cases hbest' : (candidates netInterface' interface).argmax fun c => rank destAddr c.2 with
          | none =>
              rw [List.argmax_eq_none.1 hbest'] at hperm
              exact absurd hperm.symm.eq_nil hne
          | some best' =>
              have hmem' := List.argmax_mem hbest'
              have hcand := hperm.mem_iff.1 hmem'
              refine ⟨best', hcand, by rw [ipv6SelectSourceAddr_eq, hbest'], ?_⟩
              have hle := List.le_of_mem_argmax hcand hbest
              have hge := List.le_of_mem_argmax (hperm.mem_iff.2 hmem) hbest'
              exact (rank_eq_iff (usable_of_mem hcand) (usable_of_mem hmem)).1 (le_antisymm hle hge)

/-- An address of the documentation prefix. -/
def sampleEntry (state : Ipv6AddrState) : Ipv6AddrEntry where
  addr := 0x20010db8000000000000000000000001
  state := state
  duplicate := false
  validLifetime := 0
  preferredLifetime := 0
  permanent := false
  timestamp := 0
  dadTimeout := 0
  dadRetransmitCount := 0

/-- Two interfaces have the destination address, the first one as a deprecated address: it is
selected, although rule 3 prefers the other one. -/
theorem ipv6SelectSourceAddr_lexicographic : ¬ SelectsBest ℕ LexBeats LexTies := by
  intro h
  obtain ⟨-, hbest⟩ := h [(0, [sampleEntry .deprecated]), (1, [sampleEntry .preferred])] none
    (sampleEntry .preferred).addr
  obtain ⟨best, hmem, hselect, hnot, -⟩ := hbest (by decide)
  have hfirst : best.1 = 0 := by
    have := congrArg (fun r => r.toOption.map Prod.fst) hselect
    exact (Option.some.inj this).symm
  have hcases : best = (0, sampleEntry .deprecated) ∨ best = (1, sampleEntry .preferred) := by
    simpa [candidates, sampleEntry] using hmem
  rcases hcases with rfl | rfl
  · refine hnot (1, sampleEntry .preferred) (by decide) (.inr ⟨Iff.rfl, .inr ⟨rfl, .inl ⟨rfl, rfl⟩⟩⟩)
  · cases hfirst

end Ipv6
