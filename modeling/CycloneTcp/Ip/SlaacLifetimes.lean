import CycloneTcp.Ip.Slaac

set_option autoImplicit false

/-! # The two-hour rule

What an accepted Prefix Information option should do to the lifetimes of an autoconfigured address,
and when it does. Both lifetimes count from one time stamp, which is not refreshed when the valid
lifetime is left alone, the remaining time is computed from the valid lifetime even when that is
infinite, and a lifetime that the clock cannot measure is cut down. -/

namespace Ipv6

open Arp (timeCompare)

/-! ## The rule -/

/-- An advertised lifetime in seconds, in milliseconds. -/
def advertised (lifetime : UInt32) : ℕ∞ :=
  if lifetime = NDP_INFINITE_LIFETIME then ⊤ else (1000 * lifetime.toNat : ℕ)

/-- The time that is left until the end of the valid lifetime: nothing, when the end lies in the past,
that is more than half a turn of the clock ahead. -/
def timeLeft (time : UInt32) (entry : Ipv6AddrEntry) : ℕ :=
  if (entry.timestamp + entry.validLifetime - time).toNat ≤ 2 ^ 31 then
    (entry.timestamp + entry.validLifetime - time).toNat
  else 0

/-- The remaining valid lifetime of an address. -/
def remainingValid (time : UInt32) (entry : Ipv6AddrEntry) : ℕ∞ :=
  if entry.validLifetime = NDP_INFINITE_LIFETIME then ⊤ else timeLeft time entry

def twoHours : ℕ∞ := 7200000

/-- The valid lifetime that an address with the remaining lifetime `r` has after the lifetime `v` has
been received. -/
def twoHourRule (v r : ℕ∞) : ℕ∞ :=
  if twoHours < v ∨ r < v then v else if r ≤ twoHours then r else twoHours

/-- The address in entry `i` stays preferred for `p` from `time` on, not less and not more: until
then the tick leaves it preferred, and then the tick deprecates it. -/
def PreferredFor (p : ℕ∞) (time : UInt32) (i : Fin IPV6_ADDR_LIST_SIZE) (s : NetInterface) : Prop :=
  ∀ d : ℕ, (d : ℕ∞) ≤ p → ∀ now rand : Fin IPV6_ADDR_LIST_SIZE → UInt32,
    ((ndpUpdateAddrList (time + UInt32.ofNat d) now rand s).addrList i).state = .preferred ↔
      (d : ℕ∞) < p

/-- The option resets the lifetimes of the address in entry `i` as it should. -/
def FollowsRule (option : NdpPrefixInfoOption) (time now : UInt32) (join : ErrorCode)
    (i : Fin IPV6_ADDR_LIST_SIZE) (s : NetInterface) : Prop :=
  let s' := slaacParsePrefixInfoOption option time now join s
  remainingValid time (s'.addrList i) =
      twoHourRule (advertised option.validLifetime) (remainingValid time (s.addrList i)) ∧
    PreferredFor (advertised option.preferredLifetime) time i s'

/-- A lifetime that the clock can measure: it is infinite, or shorter than about 24.8 days. -/
def Unclamped (lifetime : UInt32) : Prop :=
  lifetime = NDP_INFINITE_LIFETIME ∨ lifetime.toNat < 2147483

instance (lifetime : UInt32) : Decidable (Unclamped lifetime) := inferInstanceAs (Decidable (_ ∨ _))

/-- The time stamp is refreshed, or need not be: the valid lifetime `v` exceeds two hours; or the
stored one is finite and `v` exceeds the remaining time, or that exceeds two hours, or the preferred
lifetime `p` may count from the old time stamp; or the stored one is infinite and what comes out as
its remaining time exceeds two hours, or falls short of them when `v` is two hours. -/
def Resets (v p : ℕ∞) (time : UInt32) (entry : Ipv6AddrEntry) : Prop :=
  twoHours < v ∨
    if entry.validLifetime = NDP_INFINITE_LIFETIME then
      twoHours < timeLeft time entry ∨ (v = twoHours ∧ timeLeft time entry < twoHours)
    else
      timeLeft time entry < v ∨ twoHours < timeLeft time entry ∨
        if p = 0 then entry.state = .preferred → 0 ≤ timeCompare time entry.timestamp
        else entry.state = .preferred ∧ time = entry.timestamp

/-! ## Lifetimes -/

section Lifetimes

variable {v time : UInt32} {entry : Ipv6AddrEntry}

/-- A stored lifetime, in milliseconds. -/
def duration (lifetime : UInt32) : ℕ∞ :=
  if lifetime = NDP_INFINITE_LIFETIME then ⊤ else lifetime.toNat

/-- A stored lifetime that comparisons of the clock can tell. -/
def Measurable (lifetime : UInt32) : Prop :=
  lifetime = NDP_INFINITE_LIFETIME ∨ lifetime.toNat < 2 ^ 31

theorem checkLifetime_toNat {x : UInt32} (hx : x ≠ NDP_INFINITE_LIFETIME) :
    (checkLifetime x).toNat = if x.toNat < 2147483 then x.toNat * 1000 else 2147483647 := by
  have hdiv : (MAX_DELAY / 1000).toNat = 2147483 := rfl
  unfold checkLifetime
  rw [if_pos hx]
  simp only [UInt32.lt_iff_toNat_lt, hdiv]
  split
  · rw [UInt32.toNat_mul, show (1000 : UInt32).toNat = 1000 from rfl, Nat.mod_eq_of_lt (by omega)]
  · rfl

/-- A lifetime that can be measured is stored as it is. -/
theorem duration_checkLifetime {x : UInt32} (hx : Unclamped x) :
    duration (checkLifetime x) = advertised x := by
  unfold duration advertised
  by_cases hinf : x = NDP_INFINITE_LIFETIME
  · rw [if_pos hinf, hinf]
    rfl
  · have hlt := hx.resolve_left hinf
    have heq := checkLifetime_toNat hinf
    rw [if_pos hlt] at heq
    rw [if_neg hinf, if_neg, heq, Nat.mul_comm]
    rintro hmax
    rw [hmax] at heq
    have hbig : NDP_INFINITE_LIFETIME.toNat = 4294967295 := rfl
    omega

/-- Any other one is cut down, and is never stored as it is. -/
theorem duration_clamped {x : UInt32} (hx : ¬ Unclamped x) :
    checkLifetime x = MAX_DELAY ∧ advertised x = ((1000 * x.toNat : ℕ) : ℕ∞) ∧
      advertised x ≠ duration MAX_DELAY ∧ 2147483 ≤ x.toNat := by
  obtain ⟨hinf, hle⟩ := not_or.1 hx
  have heq := checkLifetime_toNat hinf
  rw [if_neg hle] at heq
  have hadvertised : advertised x = ((1000 * x.toNat : ℕ) : ℕ∞) := if_neg hinf
  refine ⟨UInt32.toNat_inj.1 heq, hadvertised, ?_, Nat.not_lt.1 hle⟩
  rw [hadvertised, show duration MAX_DELAY = ((2147483647 : ℕ) : ℕ∞) from if_neg (by decide), ne_eq,
    Nat.cast_inj]
  omega

theorem checkLifetime_measurable (x : UInt32) : Measurable (checkLifetime x) := by
  by_cases hx : x = NDP_INFINITE_LIFETIME
  · exact Or.inl (by rw [hx]; rfl)
  · right
    rw [checkLifetime_toNat hx]
    split <;> omega

theorem checkLifetime_mono {x y : UInt32} (h : x ≤ y) :
    (checkLifetime x).toNat ≤ (checkLifetime y).toNat := by
  by_cases hy : y = NDP_INFINITE_LIFETIME
  · have hmax : (checkLifetime y).toNat = 2 ^ 32 - 1 := by rw [hy]; rfl
    have := (checkLifetime x).toNat_lt
    omega
  · have hx : x ≠ NDP_INFINITE_LIFETIME := by
      rintro rfl
      have hlt := y.toNat_lt
      have hmax : NDP_INFINITE_LIFETIME.toNat = 2 ^ 32 - 1 := rfl
      rw [UInt32.le_iff_toNat_le] at h
      exact hy (UInt32.toNat_inj.1 (by omega))
    rw [UInt32.le_iff_toNat_le] at h
    rw [checkLifetime_toNat hx, checkLifetime_toNat hy]
    split <;> split <;> omega

theorem timeCompare_neg (a c : UInt32) : timeCompare a c < 0 ↔ 2 ^ 31 ≤ (a - c).toNat := by
  rw [← not_le, ← Nat.not_lt]
  exact not_congr (Serial.cmp_nonneg a c)

/-- The code computes the time that is left. -/
theorem remainingLifetime_toNat (time : UInt32) (entry : Ipv6AddrEntry) :
    (remainingLifetime time entry).toNat = timeLeft time entry := by
  unfold remainingLifetime timeLeft
  generalize entry.timestamp + entry.validLifetime = last
  have hlast := last.toNat_lt
  have htime := time.toNat_lt
  simp only [timeCompare_neg, UInt32.toNat_sub]
  split <;> split <;> first | rfl | (simp only [UInt32.toNat_sub, UInt32.toNat_zero]; omega)

/-- A lifetime that counts from `time` has all of it left. -/
theorem remainingValid_fresh (hv : Measurable v) (hvalid : entry.validLifetime = v)
    (htimestamp : entry.timestamp = time) : remainingValid time entry = duration v := by
  unfold remainingValid duration timeLeft
  rw [hvalid, htimestamp]
  split
  · rfl
  · rename_i hne
    have hlt := hv.resolve_left hne
    rw [UInt32.add_comm, UInt32.add_sub_cancel, if_pos hlt.le]

/-- A valid address stays preferred in the tick until its preferred lifetime is over. -/
theorem tick_preferred_iff {s : NetInterface} {i : Fin IPV6_ADDR_LIST_SIZE}
    (hvalid : Valid (s.addrList i)) (time : UInt32) (now rand : Fin IPV6_ADDR_LIST_SIZE → UInt32) :
    ((ndpUpdateAddrList time now rand s).addrList i).state = .preferred ↔
      (s.addrList i).state = .preferred ∧
        ((s.addrList i).preferredLifetime = NDP_INFINITE_LIFETIME ∨
          timeCompare time ((s.addrList i).timestamp + (s.addrList i).preferredLifetime) < 0) := by
  obtain ⟨linkLocalState, heq⟩ := ndpUpdateAddrList_addrList time now rand s i
  rw [heq]
  unfold ndpUpdateAddrEntry
  rcases hvalid with hp | hd
  · simp only [hp, ne_eq, true_and]
    split_ifs with h
    · exact iff_of_false (by simp) fun h' => h'.elim h.1 fun hlt => not_le.2 hlt h.2
    · refine iff_of_true hp ?_
      by_contra hcontra
      rw [not_or, not_lt] at hcontra
      exact h hcontra
  · simp only [hd, reduceCtorEq, false_and, iff_false]
    split_ifs with h
    · exact fun h' => by cases h'
    · rw [hd]
      exact fun h' => by cases h'

theorem preferredFor_iff {s : NetInterface} {i : Fin IPV6_ADDR_LIST_SIZE}
    (hvalid : Valid (s.addrList i)) (p : ℕ∞) (time : UInt32) :
    PreferredFor p time i s ↔ ∀ d : ℕ, (d : ℕ∞) ≤ p →
      ((s.addrList i).state = .preferred ∧
        ((s.addrList i).preferredLifetime = NDP_INFINITE_LIFETIME ∨
          timeCompare (time + UInt32.ofNat d)
            ((s.addrList i).timestamp + (s.addrList i).preferredLifetime) < 0) ↔ (d : ℕ∞) < p) := by
  unfold PreferredFor
  simp only [tick_preferred_iff hvalid]
  exact forall₂_congr fun d _ => ⟨fun h => h (fun _ => 0) fun _ => 0, fun h _ _ => h⟩

/-- There is one such time. -/
theorem PreferredFor.unique {s : NetInterface} {i : Fin IPV6_ADDR_LIST_SIZE} {p q : ℕ∞}
    (hp : PreferredFor p time i s) (hq : PreferredFor q time i s) : p = q := by
  have hle : ∀ {p q : ℕ∞}, PreferredFor p time i s → PreferredFor q time i s → ¬ p < q := by
    intro p q hp hq hlt
    obtain ⟨d, rfl⟩ := ENat.ne_top_iff_exists.1 (ne_top_of_lt hlt)
    have hover := hp d le_rfl (fun _ => 0) fun _ => 0
    exact lt_irrefl _ (hover.1 ((hq d hlt.le (fun _ => 0) fun _ => 0).2 hlt))
  exact le_antisymm (not_lt.1 (hle hq hp)) (not_lt.1 (hle hp hq))

/-- Between two instants that are `d` and `p` after a time less than half a turn apart. -/
theorem timeCompare_delay (time : UInt32) {d : ℕ} {p : UInt32} (hp : p.toNat < 2 ^ 31)
    (hd : d ≤ p.toNat) : timeCompare (time + UInt32.ofNat d) (time + p) < 0 ↔ d < p.toNat := by
  have := time.toNat_lt
  rw [timeCompare_neg, UInt32.toNat_sub, UInt32.toNat_add, UInt32.toNat_add, UInt32.toNat_ofNat']
  omega

/-- A preferred lifetime that counts from `time` is kept. -/
theorem preferredFor_fresh {s : NetInterface} {i : Fin IPV6_ADDR_LIST_SIZE} {p : UInt32}
    (hp : Measurable p) (hstate : (s.addrList i).state = .preferred)
    (hlifetime : (s.addrList i).preferredLifetime = p)
    (htimestamp : (s.addrList i).timestamp = time) : PreferredFor (duration p) time i s := by
  rw [preferredFor_iff (Or.inl hstate), hstate, hlifetime, htimestamp]
  intro d hd
  unfold duration at hd ⊢
  split at hd
  · rename_i hinf
    simp [hinf]
  · rename_i hne
    rw [Nat.cast_le] at hd
    rw [if_neg hne, Nat.cast_lt, ← timeCompare_delay time (hp.resolve_left hne) hd]
    simp [hne]

/-- A finite preferred lifetime that counts from an old time stamp is kept if it is zero and the time
stamp is not in the future, or if the time stamp is not old. -/
theorem preferredFor_stale {s : NetInterface} {i : Fin IPV6_ADDR_LIST_SIZE} {p : UInt32}
    (hp : p.toNat < 2 ^ 31) (hvalid : Valid (s.addrList i))
    (hlifetime : (s.addrList i).preferredLifetime = p) :
    PreferredFor (duration p) time i s ↔
      if duration p = 0 then
        (s.addrList i).state = .preferred → 0 ≤ timeCompare time (s.addrList i).timestamp
      else (s.addrList i).state = .preferred ∧ time = (s.addrList i).timestamp := by
  have hne : p ≠ NDP_INFINITE_LIFETIME := by
    rintro rfl
    exact absurd hp (by decide)
  have hzero : ((p.toNat : ℕ) : ℕ∞) = 0 ↔ p = 0 := by
    rw [Nat.cast_eq_zero]
    exact ⟨fun h => UInt32.toNat_inj.1 h, fun h => by rw [h]; rfl⟩
  rw [preferredFor_iff hvalid, hlifetime, show duration p = p.toNat from if_neg hne]
  simp only [Nat.cast_le, Nat.cast_lt, hne, false_or, hzero]
  split
  · rename_i hzero
    rw [hzero]
    constructor
    · intro h hstate
      by_contra hneg
      have hlt := (h 0 (Nat.zero_le _)).1 ⟨hstate, by simpa using hneg⟩
      exact absurd hlt (by decide)
    · intro h d hd
      obtain rfl : d = 0 := by simpa using hd
      refine iff_of_false ?_ (by decide)
      rintro ⟨hstate, hneg⟩
      exact absurd (h hstate) (by simpa using hneg)
  · rename_i hzero
    have hpos : 0 < p.toNat := Nat.pos_of_ne_zero fun h0 => hzero (UInt32.toNat_inj.1 h0)
    constructor
    · intro h
      have hstate := ((h 0 (Nat.zero_le _)).2 hpos).1
      -- still preferred just before the lifetime is over, and no longer when it is
      have hbefore := ((h (p.toNat - 1) (Nat.sub_le _ _)).2 (by omega)).2
      have hafter : ¬ timeCompare (time + UInt32.ofNat p.toNat) ((s.addrList i).timestamp + p) < 0 :=
        fun hneg => absurd ((h p.toNat le_rfl).1 ⟨hstate, hneg⟩) (lt_irrefl _)
      refine ⟨hstate, UInt32.toNat_inj.1 ?_⟩
      have := time.toNat_lt
      have := (s.addrList i).timestamp.toNat_lt
      rw [timeCompare_neg, UInt32.toNat_sub, UInt32.toNat_add, UInt32.toNat_add,
        UInt32.toNat_ofNat'] at hbefore hafter
      omega
    · rintro ⟨hstate, rfl⟩ d hd
      rw [timeCompare_delay _ hp hd]
      exact ⟨fun h => h.2, fun h => ⟨hstate, h⟩⟩

end Lifetimes

/-! ## The cases of the rule -/

theorem twoHours_lt_duration (v : UInt32) : twoHours < duration v ↔ SLAAC_LIFETIME_2_HOURS < v := by
  unfold duration
  split
  · rename_i h
    rw [h]
    exact iff_of_true (WithTop.coe_lt_top _) (by decide)
  · rw [UInt32.lt_iff_toNat_lt]
    exact Nat.cast_lt (α := ℕ∞)

theorem timeLeft_lt_duration (v time : UInt32) (entry : Ipv6AddrEntry) :
    timeLeft time entry < duration v ↔ remainingLifetime time entry < v := by
  rw [UInt32.lt_iff_toNat_lt, remainingLifetime_toNat]
  unfold duration
  split
  · rename_i h
    have hle : timeLeft time entry ≤ 2 ^ 31 := by
      unfold timeLeft
      split
      · assumption
      · exact Nat.zero_le _
    have hmax : NDP_INFINITE_LIFETIME.toNat = 2 ^ 32 - 1 := rfl
    rw [h]
    exact iff_of_true (WithTop.coe_lt_top _) (by omega)
  · exact Nat.cast_lt (α := ℕ∞)

theorem twoHours_lt_timeLeft (time : UInt32) (entry : Ipv6AddrEntry) :
    twoHours < timeLeft time entry ↔ SLAAC_LIFETIME_2_HOURS < remainingLifetime time entry := by
  rw [UInt32.lt_iff_toNat_lt, remainingLifetime_toNat]
  exact Nat.cast_lt (α := ℕ∞)

section Rule

variable {v p : ℕ∞} {time : UInt32} {entry : Ipv6AddrEntry}

theorem remainingValid_infinite (h : entry.validLifetime = NDP_INFINITE_LIFETIME) (time : UInt32) :
    remainingValid time entry = ⊤ := if_pos h

theorem remainingValid_finite (h : entry.validLifetime ≠ NDP_INFINITE_LIFETIME) (time : UInt32) :
    remainingValid time entry = timeLeft time entry := if_neg h

/-- Against an infinite lifetime two hours are left, or more. -/
theorem twoHourRule_top (h : ¬ twoHours < v) : twoHourRule v ⊤ = twoHours := by
  unfold twoHourRule
  rw [if_neg, if_neg]
  · exact not_le.2 (WithTop.coe_lt_top _)
  · rintro (h' | h')
    · exact h h'
    · exact not_top_lt h'

/-- The valid lifetime is reset to that of the option: this is right unless the stored one is
infinite. -/
theorem reset_iff (h : twoHours < v ∨ timeLeft time entry < v) :
    v = twoHourRule v (remainingValid time entry) ↔ Resets v p time entry := by
  unfold Resets
  by_cases hlong : twoHours < v
  · exact iff_of_true (if_pos (Or.inl hlong)).symm (Or.inl hlong)
  · have hlt := h.resolve_left hlong
    rw [or_iff_right hlong]
    by_cases hinf : entry.validLifetime = NDP_INFINITE_LIFETIME
    · rw [remainingValid_infinite hinf, twoHourRule_top hlong, if_pos hinf]
      constructor
      · exact fun heq => Or.inr ⟨heq, heq ▸ hlt⟩
      · rintro (hle | ⟨heq, -⟩)
        · exact absurd (hle.trans hlt) hlong
        · exact heq
    · rw [remainingValid_finite hinf, if_neg hinf]
      exact iff_of_true (if_pos (Or.inr hlt)).symm (Or.inl hlt)

/-- The valid lifetime is left alone. -/
theorem keep_iff (hshort : ¬ twoHours < v) (hle : ¬ timeLeft time entry < v)
    (hremaining : ¬ twoHours < timeLeft time entry) :
    (remainingValid time entry = twoHourRule v (remainingValid time entry) ∧
      if p = 0 then entry.state = .preferred → 0 ≤ timeCompare time entry.timestamp
      else entry.state = .preferred ∧ time = entry.timestamp) ↔ Resets v p time entry := by
  unfold Resets
  rw [or_iff_right hshort]
  by_cases hinf : entry.validLifetime = NDP_INFINITE_LIFETIME
  · rw [remainingValid_infinite hinf, twoHourRule_top hshort, if_pos hinf, or_iff_right hremaining]
    refine iff_of_false (fun h => ENat.top_ne_natCast 7200000 h.1) ?_
    rintro ⟨rfl, hlt⟩
    exact hle hlt
  · rw [remainingValid_finite hinf, if_neg hinf, or_iff_right hle, or_iff_right hremaining]
    refine and_iff_right ?_
    unfold twoHourRule
    rw [if_neg (not_or.2 ⟨hshort, hle⟩), if_pos (not_lt.1 hremaining)]

/-- The valid lifetime is reset to two hours. -/
theorem shorten_eq (hshort : ¬ twoHours < v) (hle : ¬ timeLeft time entry < v)
    (hremaining : twoHours < timeLeft time entry) :
    twoHours = twoHourRule v (remainingValid time entry) := by
  by_cases hinf : entry.validLifetime = NDP_INFINITE_LIFETIME
  · rw [remainingValid_infinite hinf, twoHourRule_top hshort]
  · rw [remainingValid_finite hinf]
    unfold twoHourRule
    rw [if_neg (not_or.2 ⟨hshort, hle⟩), if_neg (not_le.2 hremaining)]

theorem shorten_resets (hremaining : twoHours < timeLeft time entry) : Resets v p time entry := by
  unfold Resets
  right
  split
  · exact Or.inl hremaining
  · exact Or.inr (Or.inl hremaining)

end Rule

/-! ## When the rule is followed -/

section Option

variable {s : NetInterface} {i : Fin IPV6_ADDR_LIST_SIZE} {option : NdpPrefixInfoOption}

/-- A lifetime of more than two hours is stored. -/
theorem slaacParsePrefixInfoOption_long (time now : UInt32) (join : ErrorCode)
    (haccept : acceptsOption option) (hmatch : matchesPrefix option i (s.addrList i).addr)
    (hvalid : Valid (s.addrList i))
    (hlong : SLAAC_LIFETIME_2_HOURS < checkLifetime option.validLifetime) :
    (slaacParsePrefixInfoOption option time now join s).addrList i = { s.addrList i with
      preferredLifetime := checkLifetime option.preferredLifetime
      validLifetime := checkLifetime option.validLifetime
      timestamp := time, state := .preferred } := by
  rw [slaacParsePrefixInfoOption_match time now join haccept hmatch hvalid]
  exact if_pos (Or.inl hlong)

/-- A lifetime that is cut down does not follow the rule. -/
theorem unclamped_of_followsRule {time now : UInt32} {join : ErrorCode}
    (haccept : acceptsOption option) (hmatch : matchesPrefix option i (s.addrList i).addr)
    (hvalid : Valid (s.addrList i)) (h : FollowsRule option time now join i s) :
    Unclamped option.validLifetime ∧ Unclamped option.preferredLifetime := by
  have hmax : Measurable MAX_DELAY := Or.inr (by decide)
  obtain ⟨hrule, hpreferred⟩ := h
  by_cases hV : Unclamped option.validLifetime
  · refine ⟨hV, ?_⟩
    by_contra hP
    obtain ⟨hclamped, -, hne, hle⟩ := duration_clamped hP
    -- the valid lifetime is infinite, since it is not the shorter one
    have hinf : option.validLifetime = NDP_INFINITE_LIFETIME := by
      have hmono := UInt32.le_iff_toNat_le.1 (preferredLifetime_le haccept)
      exact hV.resolve_right fun hlt => by omega
    have hentry := slaacParsePrefixInfoOption_long time now join haccept hmatch hvalid
      (by rw [hinf]; decide)
    exact hne (hpreferred.unique (preferredFor_fresh hmax (by rw [hentry])
      (by rw [hentry, hclamped]) (by rw [hentry])))
  · exfalso
    obtain ⟨hclamped, hadvertised, hne, hle⟩ := duration_clamped hV
    have hentry := slaacParsePrefixInfoOption_long time now join haccept hmatch hvalid
      (by rw [hclamped]; decide)
    have hlong : twoHours < advertised option.validLifetime := by
      have hlt : 7200000 < 1000 * option.validLifetime.toNat := by omega
      rw [hadvertised]
      exact Nat.cast_lt.2 hlt
    rw [remainingValid_fresh hmax (by rw [hentry, hclamped]) (by rw [hentry]), twoHourRule,
      if_pos (Or.inl hlong)] at hrule
    exact hne hrule.symm

/-- **An accepted option resets the lifetimes of a valid address as it should iff they can be measured
and the time stamp is refreshed or need not be.** -/
theorem slaacParsePrefixInfoOption_rule (time now : UInt32) (join : ErrorCode)
    (haccept : acceptsOption option) (hmatch : matchesPrefix option i (s.addrList i).addr)
    (hvalid : Valid (s.addrList i)) :
    FollowsRule option time now join i s ↔
      Unclamped option.validLifetime ∧ Unclamped option.preferredLifetime ∧
        Resets (advertised option.validLifetime) (advertised option.preferredLifetime) time
          (s.addrList i) := by
  rw [← and_assoc]
  by_cases hclamp : Unclamped option.validLifetime ∧ Unclamped option.preferredLifetime
  swap
  · exact iff_of_false (fun h => hclamp (unclamped_of_followsRule haccept hmatch hvalid h))
      fun h => hclamp h.1
  rw [and_iff_right hclamp]
  have hentry := slaacParsePrefixInfoOption_match time now join haccept hmatch hvalid
  have hv := checkLifetime_measurable option.validLifetime
  have hp := checkLifetime_measurable option.preferredLifetime
  have hpv := checkLifetime_mono (preferredLifetime_le haccept)
  unfold FollowsRule
  rw [← duration_checkLifetime hclamp.1, ← duration_checkLifetime hclamp.2]
  generalize checkLifetime option.validLifetime = v at *
  generalize checkLifetime option.preferredLifetime = p at *
  generalize slaacParsePrefixInfoOption option time now join s = s' at *
  generalize s.addrList i = entry at *
  have hlong := twoHours_lt_duration v
  have hlt := timeLeft_lt_duration v time entry
  have hleft := twoHours_lt_timeLeft time entry
  simp only
  by_cases hreset : SLAAC_LIFETIME_2_HOURS < v ∨ remainingLifetime time entry < v
  · have hentry' : s'.addrList i = { entry with
        preferredLifetime := p, validLifetime := v, timestamp := time, state := .preferred } := by
      rw [hentry]
      exact if_pos hreset
    rw [remainingValid_fresh hv (by rw [hentry']) (by rw [hentry']),
      ← reset_iff (hreset.imp hlong.2 hlt.2)]
    exact and_iff_left
      (preferredFor_fresh hp (by rw [hentry']) (by rw [hentry']) (by rw [hentry']))
  · have hshort := (not_or.1 hreset).1
    have hle := (not_or.1 hreset).2
    by_cases hremaining : SLAAC_LIFETIME_2_HOURS < remainingLifetime time entry
    · have hentry' : s'.addrList i = { entry with
          preferredLifetime := p, validLifetime := SLAAC_LIFETIME_2_HOURS, timestamp := time
          state := .preferred } := by
        rw [hentry]
        exact (if_neg hreset).trans (if_neg (UInt32.not_le.2 hremaining))
      refine iff_of_true ⟨?_, ?_⟩ (shorten_resets (hleft.2 hremaining))
      · rw [remainingValid_fresh (v := SLAAC_LIFETIME_2_HOURS) (Or.inr (by decide))
          (by rw [hentry']) (by rw [hentry'])]
        exact shorten_eq (mt hlong.1 hshort) (mt hlt.1 hle) (hleft.2 hremaining)
      · exact preferredFor_fresh hp (by rw [hentry']) (by rw [hentry']) (by rw [hentry'])
    · have hentry' : s'.addrList i = { entry with preferredLifetime := p } := by
        rw [hentry]
        exact (if_neg hreset).trans (if_pos (UInt32.not_lt.1 hremaining))
      have hp' : p.toNat < 2 ^ 31 := by
        have htwo : v.toNat ≤ 7200000 := Nat.not_lt.1 fun h => hshort (UInt32.lt_iff_toNat_lt.2 h)
        omega
      have hvalid' : Valid (s'.addrList i) := by
        rw [hentry']
        exact hvalid
      rw [preferredFor_stale hp' hvalid' (by rw [hentry']),
        ← keep_iff (mt hlong.1 hshort) (mt hlt.1 hle) (mt hleft.1 hremaining), hentry']
      exact Iff.rfl

end Option

/-- Every accepted option resets the lifetimes of every valid autoconfigured address as it should. -/
def TwoHourRule : Prop :=
  ∀ (s : NetInterface) (i : Fin IPV6_ADDR_LIST_SIZE) (option : NdpPrefixInfoOption)
    (time now : UInt32) (join : ErrorCode), acceptsOption option →
    matchesPrefix option i (s.addrList i).addr → Valid (s.addrList i) →
    (s.addrList i).permanent = false → FollowsRule option time now join i s

/-- The link-local interface, with `2001:db8::1` autoconfigured at time 0 for an hour. -/
def hourInterface : NetInterface :=
  { linkLocalInterface with
    addrList := Function.update linkLocalInterface.addrList ⟨1, by decide⟩
      { infiniteEntry 0x20010DB8000000000000000000000001 .preferred with
        validLifetime := 3600000, preferredLifetime := 3600000 } }

/-- The prefix `2001:db8::/64`, half an hour of it preferred. -/
def halfHourOption (validLifetime : UInt32) : NdpPrefixInfoOption :=
  { length := 4, prefixLength := 64, a := true, validLifetime := validLifetime
    preferredLifetime := 1800, addrPrefix := 0x20010DB8000000000000000000000000 }

theorem slaacParsePrefixInfoOption_rule_day :
    FollowsRule (halfHourOption 86400) 600000 600000 .noError ⟨1, by decide⟩ hourInterface := by
  have hday : advertised (halfHourOption 86400).validLifetime = ((86400000 : ℕ) : ℕ∞) :=
    if_neg (by decide)
  refine (slaacParsePrefixInfoOption_rule 600000 600000 .noError (by decide) (by decide)
    (Or.inl (by decide))).2 ⟨by decide, by decide, Or.inl ?_⟩
  rw [hday]
  exact Nat.cast_lt.2 (by decide)

/-- Ten minutes after an address has been configured for an hour, its prefix is advertised for the
remaining fifty minutes, half an hour of it preferred: twenty minutes later the tick deprecates the
address. -/
theorem twoHourRule_counterexample : ¬ TwoHourRule := by
  intro h
  have hrule := h hourInterface ⟨1, by decide⟩ (halfHourOption 3000) 600000 600000 .noError
    (by decide) (by decide) (Or.inl (by decide)) (by decide)
  have hpreferred := hrule.2 1200000
  rw [show advertised (halfHourOption 3000).preferredLifetime = ((1800000 : ℕ) : ℕ∞) from
    if_neg (by decide), Nat.cast_le, Nat.cast_lt] at hpreferred
  have hstate := (hpreferred (by decide) (fun _ => 0) fun _ => 0).2 (by decide)
  exact absurd hstate (by decide)

end Ipv6
