import CycloneTcp.Ip.NdpMessage

set_option autoImplicit false

/-! # Bounds of Neighbor Discovery messages

What the loops over the options read. A loop that goes over the Options field reads the first two
bytes of an option where the option before it ends, as long as they lie in the length that it is
given. When that length is the one of the field nothing else is read; the Redirect message is given
16 bytes more. -/

namespace NdpMessage

open Reads (byte number numberAt Inside Sees inside_pure inside_byte inside_number wholly message)
open Ipv6 (Ipv6Addr)

/-! ## Where options start -/

/-- The offsets at which options start, in an Options field of `length` bytes, and where the last
one ends. -/
inductive Visits (m : Memory UInt8) (options length : ℕ) : ℕ → Prop
  | start : Visits m options length 0
  | next {i : ℕ} (h : Visits m options length i) (hi : i + sizeofNdpOption ≤ length)
      (hlength : m (options + i + 1) ≠ 0) :
      Visits m options length (i + (m (options + i + 1)).toNat * 8)

/-- In a message of `n` bytes, no option starts in the last byte of the Options field or behind its
end, if the first two bytes of the option lie in `length` bytes. -/
def Stays (m : Memory UInt8) (n options length : ℕ) : Prop :=
  ∀ i, Visits m options (n - options) i → i + sizeofNdpOption ≤ length →
    i + sizeofNdpOption ≤ n - options

/-- An option that is found at `option`. -/
structure Found (m : Memory UInt8) (n options length option : ℕ) : Prop where
  start : options ≤ option
  visits : Visits m options (n - options) (option - options)
  inside : option + sizeofNdpOption ≤ n
  nonzero : m (option + 1) ≠ 0
  fits : option + (m (option + 1)).toNat * 8 ≤ options + length

section Loops

variable {m : Memory UInt8} {n options length : ℕ}

theorem stays_self : Stays m n options (n - options) := fun _ _ h => h

theorem inside_checkOptionsLoop (hoptions : options ≤ n) (hstays : Stays m n options length)
    {fuel i : ℕ} (hvisits : Visits m options (n - options) i) (hfuel : length < fuel + i)
    (hpos : 0 < fuel) :
    Inside m n (checkOptionsLoop options length fuel i) fun _ => True := by
  induction fuel generalizing i with
  | zero => exact absurd hpos (lt_irrefl 0)
  | succ fuel ih =>
      unfold checkOptionsLoop
      split_ifs with hi
      · have hin := hstays i hvisits hi
        unfold sizeofNdpOption at hi hin
        refine (inside_byte (by omega)).bind fun optionLength hlength => ?_
        subst hlength
        split_ifs with hzero
        · exact inside_pure trivial
        · have hpos' : 0 < (m (options + i + 1)).toNat := UInt8.pos_iff_ne_zero.2 hzero
          exact ih (hvisits.next hin hzero) (by omega) (by omega)
      · exact inside_pure trivial

theorem inside_ndpCheckOptions (hoptions : options ≤ n) (hstays : Stays m n options length) :
    Inside m n (ndpCheckOptions options length) fun _ => True :=
  inside_checkOptionsLoop hoptions hstays .start (by omega) (by omega)

theorem inside_getOptionLoop (hoptions : options ≤ n) (hstays : Stays m n options length)
    (type : UInt8) {fuel i : ℕ} (hvisits : Visits m options (n - options) i)
    (hfuel : length < fuel + i) (hpos : 0 < fuel) :
    Inside m n (getOptionLoop options length type fuel i)
      fun option => ∀ o ∈ option, Found m n options length o := by
  induction fuel generalizing i with
  | zero => exact absurd hpos (lt_irrefl 0)
  | succ fuel ih =>
      unfold getOptionLoop
      split_ifs with hi
      · have hin := hstays i hvisits hi
        unfold sizeofNdpOption at hi hin
        refine (inside_byte (by omega)).bind fun optionLength hlength => ?_
        subst hlength
        split_ifs with hzero hlong
        · exact inside_pure (by simp)
        · exact inside_pure (by simp)
        · refine (inside_byte (by omega)).bind fun optionType _ => ?_
          split_ifs with htype
          · refine inside_pure fun o ho => ?_
            obtain rfl := Option.some.inj ho
            refine ⟨by omega, ?_, ?_, hzero, by omega⟩
            · rwa [Nat.add_sub_cancel_left]
            · unfold sizeofNdpOption
              omega
          · have hpos' : 0 < (m (options + i + 1)).toNat := UInt8.pos_iff_ne_zero.2 hzero
            exact ih (hvisits.next hin hzero) (by omega) (by omega)
      · exact inside_pure (by simp)

theorem inside_ndpGetOption (hoptions : options ≤ n) (hstays : Stays m n options length)
    (type : UInt8) : Inside m n (ndpGetOption options length type)
      fun option => ∀ o ∈ option, Found m n options length o :=
  inside_getOptionLoop hoptions hstays type .start (by omega) (by omega)

/-- An option that is found in the Options field lies in the message. -/
theorem Found.le {option : ℕ} (h : Found m n options (n - options) option)
    (hoptions : options ≤ n) : option + (m (option + 1)).toNat * 8 ≤ n := by
  have hfits := h.fits
  omega

/-! ## The options -/

/-- The spans lie in the message. -/
def Within (n : ℕ) (spans : List (ℕ × ℕ)) : Prop := ∀ span ∈ spans, span.1 + span.2 ≤ n

theorem inside_readAddr {i : ℕ} (h : i + 16 ≤ n) :
    Inside m n (readAddr i) (· = BitVec.ofNat 128 (numberAt m i 16)) := by
  refine (inside_number h).bind fun x hx => ?_
  subst hx
  exact inside_pure rfl

theorem inside_readLinkLayerAddr {option : Option ℕ}
    (h : ∀ o ∈ option, o + sizeofNdpOption ≤ n ∧ (m (o + 1) = 1 → o + 8 ≤ n)) :
    Inside m n (readLinkLayerAddr option) fun l => Within n (linkLayerAddrSpan l) := by
  cases option with
  | none => exact inside_pure fun span hspan => by cases hspan
  | some o =>
      obtain ⟨hin, hone⟩ := h o rfl
      unfold sizeofNdpOption at hin
      refine (inside_byte (by omega)).bind fun optionLength hlength => ?_
      subst hlength
      split_ifs with hlength
      · have hle := hone hlength
        refine (inside_number (by omega)).bind fun x _ => ?_
        refine inside_pure fun span hspan => ?_
        obtain rfl := List.mem_singleton.1 hspan
        exact hle
      · exact inside_pure fun span hspan => by cases hspan

/-- A link-layer address option of the right size in the Options field. -/
theorem Found.linkLayerAddr {option : ℕ} (h : Found m n options (n - options) option)
    (hoptions : options ≤ n) :
    option + sizeofNdpOption ≤ n ∧ (m (option + 1) = 1 → option + 8 ≤ n) := by
  refine ⟨h.inside, fun hone => ?_⟩
  have hle := h.le hoptions
  rw [hone] at hle
  exact hle

theorem inside_readMtuOption (hoptions : options ≤ n) :
    Inside m n (readMtuOption options (n - options))
      fun mtu => Within n (mtu.toList.map fun o => (o.1, 8)) := by
  refine (inside_ndpGetOption hoptions stays_self _).bind fun option hoption => ?_
  cases option with
  | none => exact inside_pure fun span hspan => by cases hspan
  | some o =>
      obtain ⟨hin, hone⟩ := (hoption o rfl).linkLayerAddr hoptions
      unfold sizeofNdpOption at hin
      refine (inside_byte (by omega)).bind fun optionLength hlength => ?_
      subst hlength
      split_ifs with hlength
      · have hle := hone hlength
        refine (inside_number (by omega)).bind fun x _ => ?_
        refine inside_pure fun span hspan => ?_
        obtain rfl := List.mem_singleton.1 hspan
        exact hle
      · exact inside_pure fun span hspan => by cases hspan

theorem inside_readPrefixInfoOption {option : ℕ} (hin : option + sizeofNdpOption ≤ n)
    (hle : option + (m (option + 1)).toNat * 8 ≤ n) :
    Inside m n (readPrefixInfoOption option) fun info => ∀ p ∈ info, p.offset + 32 ≤ n := by
  unfold sizeofNdpOption at hin
  refine (inside_byte (by omega)).bind fun optionLength hlength => ?_
  subst hlength
  split_ifs with hlength
  · exact inside_pure (by simp)
  · rw [ne_eq, not_not] at hlength
    rw [hlength] at hle
    have hle' : option + 32 ≤ n := hle
    refine (inside_byte (by omega)).bind fun _ _ => (inside_byte (by omega)).bind fun _ _ => ?_
    refine (inside_number (by omega)).bind fun _ _ => (inside_number (by omega)).bind fun _ _ => ?_
    refine (inside_readAddr (by omega)).bind fun _ _ => inside_pure fun p hp => ?_
    obtain rfl := Option.some.inj hp
    exact hle'

theorem inside_prefixInfoLoop (hoptions : options ≤ n) {fuel k : ℕ}
    (hfuel : n - options < fuel + k) (hpos : 0 < fuel) (hk : k ≤ n - options) :
    Inside m n (prefixInfoLoop options (n - options) fuel k)
      fun infos => ∀ p ∈ infos, p.offset + 32 ≤ n := by
  induction fuel generalizing k with
  | zero => exact absurd hpos (lt_irrefl 0)
  | succ fuel ih =>
      have hlength : n - options - k = n - (options + k) := by omega
      unfold prefixInfoLoop
      rw [hlength]
      have hoptions' : options + k ≤ n := by omega
      refine (inside_ndpGetOption hoptions' stays_self _).bind fun option hoption => ?_
      cases option with
      | none => exact inside_pure (by simp)
      | some o =>
          have hfound := hoption o rfl
          have hle := hfound.le hoptions'
          have hstart := hfound.start
          have hin := hfound.inside
          have hpos' : 0 < (m (o + 1)).toNat := UInt8.pos_iff_ne_zero.2 hfound.nonzero
          refine (inside_readPrefixInfoOption hin hle).bind fun info hinfo => ?_
          unfold sizeofNdpOption at hin
          refine (inside_byte (by omega)).bind fun optionLength hoptionLength => ?_
          subst hoptionLength
          refine (ih (by omega) (by omega) (by omega)).bind fun rest hrest => ?_
          refine inside_pure fun p hp => ?_
          rcases List.mem_append.1 hp with hp | hp
          · exact hinfo p (Option.mem_toList.1 hp)
          · exact hrest p hp

theorem inside_prefixInfoOptions (hoptions : options ≤ n) :
    Inside m n (prefixInfoOptions options (n - options))
      fun infos => ∀ p ∈ infos, p.offset + 32 ≤ n :=
  inside_prefixInfoLoop hoptions (by omega) (by omega) (by omega)

theorem inside_dnsServerLoop {option : ℕ} {k i : ℕ} {servers : List Ipv6Addr}
    (h : option + 8 + (i + k) * 16 ≤ n) :
    Inside m n (dnsServerLoop option k i servers) fun _ => True := by
  induction k generalizing i servers with
  | zero => exact inside_pure trivial
  | succ k ih =>
      unfold dnsServerLoop
      split_ifs with hi
      · refine (inside_readAddr (by omega)).bind fun address _ => ?_
        exact ih (by omega)
      · exact inside_pure trivial

theorem inside_readRdnssOption (hoptions : options ≤ n) (servers : List Ipv6Addr) :
    Inside m n (readRdnssOption options (n - options) servers) fun _ => True := by
  refine (inside_ndpGetOption hoptions stays_self _).bind fun option hoption => ?_
  cases option with
  | none => exact inside_pure trivial
  | some o =>
      have hfound := hoption o rfl
      have hle := hfound.le hoptions
      have hin := hfound.inside
      have hpos : 0 < (m (o + 1)).toNat := UInt8.pos_iff_ne_zero.2 hfound.nonzero
      unfold sizeofNdpOption at hin
      refine (inside_byte (by omega)).bind fun optionLength hlength => ?_
      subst hlength
      split_ifs with hlength
      · exact inside_dnsServerLoop (by omega)
      · exact inside_pure trivial

theorem inside_readDnsServers (hoptions : options ≤ n) (manualDnsConfig : Bool)
    (servers : List Ipv6Addr) :
    Inside m n (readDnsServers options (n - options) manualDnsConfig servers) fun _ => True := by
  unfold readDnsServers
  split_ifs
  · exact inside_readRdnssOption hoptions servers
  · exact inside_pure trivial

end Loops

/-! ## The messages -/

section Messages

variable {P : Type} {m : Memory UInt8} {n : ℕ} {env : Env} {srcAddr destAddr : Ipv6Addr}
  {hopLimit : UInt8} {s : NetInterface P}

/-- The options that are used lie in the message. -/
def Uses (n : ℕ) (o : Outcome P) : Prop := Within n o.used

theorem uses_discard (n : ℕ) (s : NetInterface P) : Uses n (discard s) :=
  fun span hspan => by cases hspan

theorem inside_readRouterAdvHeader (h : sizeofNdpRouterAdvMessage ≤ n) :
    Inside m n readRouterAdvHeader fun _ => True := by
  unfold sizeofNdpRouterAdvMessage at h
  refine (inside_byte (by omega)).bind fun _ _ => (inside_byte (by omega)).bind fun _ _ => ?_
  refine (inside_byte (by omega)).bind fun _ _ => (inside_number (by omega)).bind fun _ _ => ?_
  refine (inside_number (by omega)).bind fun _ _ => (inside_number (by omega)).bind fun _ _ => ?_
  exact inside_pure trivial

/-- The options of a Router Advertisement lie in the message. -/
structure RouterAdvOptions.Inside (n : ℕ) (options : RouterAdvOptions) : Prop where
  linkLayerAddr : Within n (linkLayerAddrSpan options.linkLayerAddr)
  mtu : Within n (options.mtu.toList.map fun o => (o.1, 8))
  prefixInfo : ∀ p ∈ options.prefixInfo, p.offset + 32 ≤ n
  slaac : ∀ p ∈ options.slaac, p.offset + 32 ≤ n

theorem inside_readRouterAdvOptions {options : ℕ} (h : options ≤ n) :
    Inside m n (readRouterAdvOptions s options (n - options)) (RouterAdvOptions.Inside n) := by
  refine (inside_ndpGetOption h stays_self _).bind fun option hoption => ?_
  refine (inside_readLinkLayerAddr fun o ho => (hoption o ho).linkLayerAddr h).bind
    fun linkLayerAddr hlinkLayerAddr => ?_
  refine (inside_readMtuOption h).bind fun mtu hmtu => ?_
  refine (inside_prefixInfoOptions h).bind fun prefixInfo hprefixInfo => ?_
  split_ifs with hslaac
  · refine (inside_prefixInfoOptions h).bind fun slaac hslaac => ?_
    exact (inside_readDnsServers h _ _).bind fun _ _ =>
      inside_pure ⟨hlinkLayerAddr, hmtu, hprefixInfo, hslaac⟩
  · exact inside_pure ⟨hlinkLayerAddr, hmtu, hprefixInfo, fun p hp => by cases hp⟩

theorem uses_processRouterAdv {options : RouterAdvOptions} (h : options.Inside n)
    (header : RouterAdvHeader) : Uses n (processRouterAdv env srcAddr header options s) := by
  intro span hspan
  rcases List.mem_append.1 hspan with hspan | hspan
  · rcases List.mem_append.1 hspan with hspan | hspan
    · exact h.linkLayerAddr span hspan
    · exact h.mtu span hspan
  · obtain ⟨info, hinfo, rfl⟩ := List.mem_map.1 hspan
    rcases List.mem_append.1 hinfo with hinfo | hinfo
    · exact h.prefixInfo info hinfo
    · exact h.slaac info hinfo

theorem inside_ndpProcessRouterAdv :
    Inside m n (ndpProcessRouterAdv env srcAddr hopLimit n s) (Uses n) := by
  unfold ndpProcessRouterAdv
  split_ifs with hshort
  · exact inside_pure (uses_discard n s)
  rw [not_lt] at hshort
  refine (inside_readRouterAdvHeader hshort).bind fun header _ => ?_
  split_ifs with hinvalid
  · exact inside_pure (uses_discard n s)
  refine (inside_ndpCheckOptions hshort stays_self).bind fun error _ => ?_
  split_ifs with herror
  · exact inside_pure (uses_discard n s)
  refine (inside_readRouterAdvOptions hshort).bind fun options hoptions => ?_
  exact inside_pure (uses_processRouterAdv hoptions header)

/-- The target address of a solicitation is valid. -/
theorem inside_answer {targetAddr : Ipv6Addr} {option : Option ℕ}
    (h : ∀ o ∈ option, o + sizeofNdpOption ≤ n ∧ (m (o + 1) = 1 → o + 8 ≤ n)) :
    Inside m n (ndpProcessNeighborSol.answer env srcAddr destAddr s targetAddr option)
      (Uses n) := by
  refine (inside_readLinkLayerAddr h).bind fun linkLayerAddr hlinkLayerAddr => ?_
  cases linkLayerAddr with
  | some linkLayerAddr =>
      simp only
      split_ifs with hunspecified
      · exact inside_pure (uses_discard n s)
      · exact inside_pure hlinkLayerAddr
  | none =>
      simp only
      split_ifs with hmulticast
      · exact inside_pure (uses_discard n s)
      · exact inside_pure (uses_discard n s)

theorem inside_ndpProcessNeighborSol :
    Inside m n (ndpProcessNeighborSol env srcAddr destAddr hopLimit n s) (Uses n) := by
  unfold ndpProcessNeighborSol
  by_cases hshort : n < sizeofNdpNeighborSolMessage
  · rw [if_pos hshort]
    exact inside_pure (uses_discard n s)
  rw [if_neg hshort]
  rw [not_lt] at hshort
  have hheader : 24 ≤ n := hshort
  refine (inside_byte (by omega)).bind fun code _ => ?_
  refine (inside_readAddr (by omega)).bind fun targetAddr _ => ?_
  split
  · exact inside_pure (uses_discard n s)
  split
  · exact inside_pure (uses_discard n s)
  refine (inside_ndpCheckOptions hshort stays_self).bind fun error _ => ?_
  split
  · exact inside_pure (uses_discard n s)
  refine (inside_ndpGetOption hshort stays_self _).bind fun option hoption => ?_
  have hanswer : Inside m n
      (ndpProcessNeighborSol.answer env srcAddr destAddr s targetAddr option) (Uses n) :=
    inside_answer fun o ho => (hoption o ho).linkLayerAddr hshort
  split
  · split
    · split <;> exact inside_pure (uses_discard n _)
    · exact hanswer
  · split
    · exact inside_pure (uses_discard n s)
    · exact hanswer

theorem inside_ndpProcessNeighborAdv :
    Inside m n (ndpProcessNeighborAdv env destAddr hopLimit n s) (Uses n) := by
  unfold ndpProcessNeighborAdv
  by_cases hshort : n < sizeofNdpNeighborAdvMessage
  · rw [if_pos hshort]
    exact inside_pure (uses_discard n s)
  rw [if_neg hshort]
  rw [not_lt] at hshort
  have hheader : 24 ≤ n := hshort
  refine (inside_byte (by omega)).bind fun code _ => (inside_byte (by omega)).bind fun flags _ => ?_
  refine (inside_readAddr (by omega)).bind fun targetAddr _ => ?_
  split
  · exact inside_pure (uses_discard n s)
  split
  · exact inside_pure (uses_discard n s)
  split
  · exact inside_pure (uses_discard n s)
  refine (inside_ndpCheckOptions hshort stays_self).bind fun error _ => ?_
  split
  · exact inside_pure (uses_discard n s)
  split
  · exact inside_pure (uses_discard n _)
  · split
    · exact inside_pure (uses_discard n s)
    · refine (inside_ndpGetOption hshort stays_self _).bind fun option hoption => ?_
      refine (inside_readLinkLayerAddr fun o ho => (hoption o ho).linkLayerAddr hshort).bind
        fun linkLayerAddr hlinkLayerAddr => ?_
      exact inside_pure hlinkLayerAddr

/-! ## Redirects -/

/-- The address that is stored at an offset. -/
def addrAt (m : Memory UInt8) (i : ℕ) : Ipv6Addr := BitVec.ofNat 128 (numberAt m i 16)

/-- An option of the right size that is found in a Redirect lies in the message: the next option
would start too early otherwise. -/
theorem Found.linkLayerAddr_of_stays {option : ℕ}
    (hstays : Stays m n sizeofNdpRedirectMessage (n - sizeofNdpNeighborAdvMessage))
    (h : Found m n sizeofNdpRedirectMessage (n - sizeofNdpNeighborAdvMessage) option) :
    option + sizeofNdpOption ≤ n ∧ (m (option + 1) = 1 → option + 8 ≤ n) := by
  refine ⟨h.inside, fun hone => ?_⟩
  have hstart := h.start
  have hin := h.inside
  have hposition : sizeofNdpRedirectMessage + (option - sizeofNdpRedirectMessage) + 1 =
      option + 1 := by
    omega
  have hnext := h.visits.next (by omega) (hposition ▸ h.nonzero)
  rw [hposition, hone] at hnext
  have hbound := hstays _ hnext
  have height : (1 : UInt8).toNat * 8 = 8 := rfl
  simp only [height, sizeofNdpRedirectMessage, sizeofNdpNeighborAdvMessage, sizeofNdpOption] at *
  omega

theorem inside_ndpProcessRedirect
    (h : sizeofNdpRedirectMessage ≤ n →
      acceptsRedirect srcAddr hopLimit (m 1) (addrAt m 8) (addrAt m 24) s →
      Stays m n sizeofNdpRedirectMessage (n - sizeofNdpNeighborAdvMessage)) :
    Inside m n (ndpProcessRedirect env srcAddr hopLimit n s) (Uses n) := by
  unfold ndpProcessRedirect
  by_cases hshort : n < sizeofNdpRedirectMessage
  · rw [if_pos hshort]
    exact inside_pure (uses_discard n s)
  rw [if_neg hshort]
  rw [not_lt] at hshort
  have hheader : 40 ≤ n := hshort
  refine (inside_byte (by omega)).bind fun code hcode => ?_
  refine (inside_readAddr (by omega)).bind fun targetAddr htarget => ?_
  refine (inside_readAddr (by omega)).bind fun destAddr hdest => ?_
  subst hcode htarget hdest
  split
  · exact inside_pure (uses_discard n s)
  rename_i haccept
  have hstays := h hshort (by simpa [addrAt] using haccept)
  refine (inside_ndpCheckOptions hshort hstays).bind fun error _ => ?_
  split
  · exact inside_pure (uses_discard n s)
  refine (inside_ndpGetOption hshort hstays _).bind fun option hoption => ?_
  refine (inside_readLinkLayerAddr fun o ho => (hoption o ho).linkLayerAddr_of_stays hstays).bind
    fun linkLayerAddr hlinkLayerAddr => ?_
  exact inside_pure hlinkLayerAddr

/-- When an option is reached that does not lie in the message, the loop reads behind its end. -/
theorem checkOptionsLoop_stuck {options length i : ℕ} (hoptions : options ≤ n)
    (hlength : n - options ≤ length) (hvisits : Visits m options (n - options) i)
    (hi : i + sizeofNdpOption ≤ length) (hout : n - options < i + sizeofNdpOption) (fuel : ℕ) :
    checkOptionsLoop options length fuel 0 (message m n) = none := by
  have hreached : ∀ fuel, checkOptionsLoop options length fuel i (message m n) = none := by
    intro fuel
    cases fuel with
    | zero => rfl
    | succ fuel =>
        have hbyte : byte (options + i + 1) (message m n) = none := by
          unfold sizeofNdpOption at hout
          exact if_neg (by omega)
        unfold checkOptionsLoop
        rw [if_pos hi, Reads.bind_apply, hbyte]
        rfl
  clear hi hout
  induction hvisits generalizing fuel with
  | start => exact hreached fuel
  | next hvisits hi hnonzero ih =>
      refine ih fuel fun fuel => ?_
      cases fuel with
      | zero => rfl
      | succ fuel =>
          unfold checkOptionsLoop
          unfold sizeofNdpOption at hi
          rw [if_pos (show _ + sizeofNdpOption ≤ length from hi.trans hlength),
            (inside_byte (by omega)).bind_apply _ (Reads.sees_message m n), if_neg hnonzero]
          exact hreached fuel

/-- A Redirect whose options leave the message is parsed behind its end. -/
theorem ndpProcessRedirect_stuck (hlength : sizeofNdpRedirectMessage ≤ n)
    (haccept : acceptsRedirect srcAddr hopLimit (m 1) (addrAt m 8) (addrAt m 24) s)
    (hnot : ¬Stays m n sizeofNdpRedirectMessage (n - sizeofNdpNeighborAdvMessage)) :
    ndpProcessRedirect env srcAddr hopLimit n s (message m n) = none := by
  unfold Stays at hnot
  push Not at hnot
  obtain ⟨i, hvisits, hi, hout⟩ := hnot
  have hheader : 40 ≤ n := hlength
  have hsees := Reads.sees_message m n
  have hcheck := checkOptionsLoop_stuck hlength (Nat.sub_le_sub_left (by decide) n) hvisits hi hout
    (n - sizeofNdpNeighborAdvMessage + 1)
  unfold ndpProcessRedirect
  rw [if_neg (not_lt.2 hlength), (inside_byte (by omega)).bind_apply _ hsees,
    (inside_readAddr (by omega)).bind_apply _ hsees,
    (inside_readAddr (by omega)).bind_apply _ hsees]
  unfold addrAt at haccept
  rw [if_neg (by simpa using haccept), Reads.bind_apply, ndpCheckOptions, hcheck]
  rfl

end Messages

/-! ## Every message -/

/-- A message of `n` bytes is parsed inside its bounds: on the bytes of the message alone the
outcome is `o`, whatever follows it in memory the outcome is `o`, and the options that are used lie
in the message. -/
structure ParsedInside {P : Type} (m : Memory UInt8) (n : ℕ) (f : Reads (Outcome P))
    (o : Outcome P) : Prop where
  alone : f (message m n) = some o
  same : ∀ mem : Memory UInt8, (∀ i < n, mem i = m i) → f (wholly mem) = some o
  used : ∀ option ∈ o.used, option.1 + option.2 ≤ n

/-- All messages are parsed inside their bounds, but for the Redirects that are accepted and in
which an option is reached within 16 bytes behind the end. -/
theorem process_parsedInside {P : Type} (kind : Kind) (env : Env) (srcAddr destAddr : Ipv6Addr)
    (hopLimit : UInt8) (s : NetInterface P) (m : Memory UInt8) (n : ℕ) :
    (∃ o, ParsedInside m n (process kind env srcAddr destAddr hopLimit n s) o) ↔
      (kind = .redirect → sizeofNdpRedirectMessage ≤ n →
        acceptsRedirect srcAddr hopLimit (m 1) (addrAt m 8) (addrAt m 24) s →
          Stays m n sizeofNdpRedirectMessage (n - sizeofNdpNeighborAdvMessage)) := by
  constructor
  · rintro ⟨o, ho⟩ rfl hlength haccept
    by_contra hnot
    have hstuck : ndpProcessRedirect env srcAddr hopLimit n s (message m n) = none :=
      ndpProcessRedirect_stuck hlength haccept hnot
    rw [show ndpProcessRedirect env srcAddr hopLimit n s (message m n) = _ from ho.alone] at hstuck
    cases hstuck
  · intro h
    have hinside : Inside m n (process kind env srcAddr destAddr hopLimit n s) (Uses n) := by
      cases kind with
      | routerAdv => exact inside_ndpProcessRouterAdv
      | neighborSol => exact inside_ndpProcessNeighborSol
      | neighborAdv => exact inside_ndpProcessNeighborAdv
      | redirect => exact inside_ndpProcessRedirect (h rfl)
    obtain ⟨o, hf, hused⟩ := hinside
    exact ⟨o, hf _ (Reads.sees_message m n), fun mem hmem => hf _ (Reads.sees_wholly hmem), hused⟩

/-- An interface whose default router is `fe80::1`. -/
def routedInterface : NetInterface Unit :=
  { ndp := Ndp.ndpInit, isRouter := List.replicate Ndp.NDP_NEIGHBOR_CACHE_SIZE false
    dest := { DestCache.ipv6Init 1500 with
      routerList :=
        [{ addr := 0xFE800000000000000000000000000001, lifetime := 1800000, preference := 0
           permanent := false, timestamp := 0 }, DestCache.emptyRouterEntry] }
    addr := Ipv6.linkLocalInterface, anycastAddrList := [0], prefixList := [], dnsServerList := []
    manualDnsConfig := false, curHopLimit := 64, rtrSolicitationCount := 0, rtrAdvReceived := false
    sixLowpan := false, mtu := 1500 }

/-- A Redirect of 40 bytes for `2001:db8::1`, to the target `fe80::2`, and what follows it in
memory. -/
def redirectMemory (stale : List UInt8) : Memory UInt8 := fun i =>
  ([137, 0, 0, 0, 0, 0, 0, 0, 0xFE, 0x80, 0, 0, 0, 0, 0, 0, 0, 0, 0, 0, 0, 0, 0, 2,
    0x20, 1, 0x0D, 0xB8, 0, 0, 0, 0, 0, 0, 0, 0, 0, 0, 0, 1] ++ stale).getD i 0

/-- A link-layer address is learnt from the bytes that follow a Redirect without options. -/
theorem process_counterexample : ¬∃ o, ParsedInside (redirectMemory []) 40
    (process .redirect { time := 0, now := 0, slaac := fun _ => (0, 0, .noError) }
      0xFE800000000000000000000000000001 0xFE800000000000000000000000000005 255 40 routedInterface)
    o := by
  rintro ⟨o, h⟩
  have hstale := h.same (redirectMemory [2, 1, 2, 0, 0, 0, 0, 0x66, 0, 1]) (by decide)
  have hzero := h.same (redirectMemory []) fun _ _ => rfl
  have hsame := congrArg (Option.map fun o => o.interface.ndp.neighborCache.map fun e => e.macAddr)
    (hstale.trans hzero.symm)
  revert hsame
  decide +kernel

end NdpMessage
