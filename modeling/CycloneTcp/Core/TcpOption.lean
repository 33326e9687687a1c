import CycloneTcp.Lib.Memory

set_option autoImplicit false

/-! # TCP options

`tcpGetOption` looks for an option in the header of an incoming segment. The loop goes on by a length
octet that the sender of the segment has chosen, so nothing bounds it beforehand: the function takes
the number of rounds it may use, and `none` stands for a loop that has not come to an end. -/

namespace Tcp

def TCP_OPTION_END : UInt8 := 0

def TCP_OPTION_NOP : UInt8 := 1

def TCP_OPTION_MAX_SEGMENT_SIZE : UInt8 := 2

/-- What `tcpGetOption` reads of a TCP header as it has arrived: the data offset, in 32-bit words, and
the memory from the options on. -/
structure OptionHeader where
  dataOffset : Fin 16
  options : Memory UInt8

/-- Length of the options field: what the data offset leaves behind the 20 bytes that every header
has. -/
def OptionHeader.length (segment : OptionHeader) : ℕ := segment.dataOffset.val * 4 - 20

/-- The length octet of the option at `i`. -/
def OptionHeader.optionLength (segment : OptionHeader) (i : ℕ) : ℕ :=
  (segment.options (i + 1)).toNat

/-- The loop of `tcpGetOption`, for at most `fuel` options. The offset of the option is returned. -/
def optionLoop (segment : OptionHeader) (kind : UInt8) : ℕ → ℕ → Option (Option ℕ)
  | 0, _ => none
  | fuel + 1, i =>
      if segment.length ≤ i then some none
      else if segment.options i = TCP_OPTION_NOP then optionLoop segment kind fuel (i + 1)
      else if segment.options i = TCP_OPTION_END then some none
      else if segment.length ≤ i + 1 ∨ segment.length < i + segment.optionLength i then some none
      else if segment.options i = kind then some (some i)
      else optionLoop segment kind fuel (i + segment.optionLength i)

/-- Find a specified option in a TCP segment. -/
def tcpGetOption (fuel : ℕ) (segment : OptionHeader) (kind : UInt8) : Option (Option ℕ) :=
  if segment.dataOffset.val < 5 then some none else optionLoop segment kind fuel 0

/-! ## The options that are examined -/

/-- An option other than NOP and END starts at `i`, and what it announces fits in the field. -/
structure OptionHeader.HasOption (segment : OptionHeader) (i : ℕ) : Prop where
  ne_nop : segment.options i ≠ TCP_OPTION_NOP
  ne_end : segment.options i ≠ TCP_OPTION_END
  fits : i + 1 < segment.length
  length_le : i + segment.optionLength i ≤ segment.length

/-- The offsets the search for `kind` comes to: every NOP takes one octet, every other option what it
announces. -/
inductive OptionHeader.Examined (segment : OptionHeader) (kind : UInt8) : ℕ → Prop
  | first : segment.Examined kind 0
  | nop {i : ℕ} (h : segment.Examined kind i) (hlt : i < segment.length)
      (hnop : segment.options i = TCP_OPTION_NOP) : segment.Examined kind (i + 1)
  | option {i : ℕ} (h : segment.Examined kind i) (hopt : segment.HasOption i)
      (hkind : segment.options i ≠ kind) : segment.Examined kind (i + segment.optionLength i)

/-- No option that the search comes to announces length 0, nor length 1 if it is the one searched
for. -/
def OptionHeader.Sound (segment : OptionHeader) (kind : UInt8) : Prop :=
  ∀ i, segment.Examined kind i → segment.HasOption i →
    segment.optionLength i ≠ 0 ∧ (segment.options i = kind → segment.optionLength i ≠ 1)

section Loop

variable {segment : OptionHeader} {kind : UInt8} {fuel i : ℕ}

theorem optionLoop_end (h : segment.length ≤ i) :
    optionLoop segment kind (fuel + 1) i = some none := by
  rw [optionLoop, if_pos h]

theorem optionLoop_nop (hlt : i < segment.length) (hnop : segment.options i = TCP_OPTION_NOP) :
    optionLoop segment kind (fuel + 1) i = optionLoop segment kind fuel (i + 1) := by
  rw [optionLoop, if_neg (Nat.not_le.2 hlt), if_pos hnop]

/-- Neither a NOP nor an option that fits: the search is given up. -/
theorem optionLoop_stop (hnop : segment.options i ≠ TCP_OPTION_NOP) (h : ¬ segment.HasOption i) :
    optionLoop segment kind (fuel + 1) i = some none := by
  rw [optionLoop]
  split_ifs with h1 h2 h3 h4
  · rfl
  · rfl
  · rfl
  · refine absurd ⟨hnop, h2, ?_, ?_⟩ h <;> omega
  · refine absurd ⟨hnop, h2, ?_, ?_⟩ h <;> omega

theorem OptionHeader.HasOption.loop (h : segment.HasOption i) :
    optionLoop segment kind (fuel + 1) i =
      if segment.options i = kind then some (some i)
      else optionLoop segment kind fuel (i + segment.optionLength i) := by
  have hfits := h.fits
  have hle := h.length_le
  rw [optionLoop, if_neg (by omega), if_neg h.ne_nop, if_neg h.ne_end, if_neg (by omega)]

/-- What the search returns, it returns from every offset that it comes to. -/
theorem OptionHeader.Examined.loop {result : Option ℕ} (h : segment.Examined kind i)
    (hret : ∃ fuel, optionLoop segment kind fuel 0 = some result) :
    ∃ fuel, optionLoop segment kind fuel i = some result := by
  induction h with
  | first => exact hret
  | nop _ hlt hnop ih =>
      obtain ⟨fuel, hfuel⟩ := ih
      cases fuel with
      | zero => cases hfuel
      | succ fuel =>
          rw [optionLoop_nop hlt hnop] at hfuel
          exact ⟨fuel, hfuel⟩
  | option _ hopt hkind ih =>
      obtain ⟨fuel, hfuel⟩ := ih
      cases fuel with
      | zero => cases hfuel
      | succ fuel =>
          rw [hopt.loop, if_neg hkind] at hfuel
          exact ⟨fuel, hfuel⟩

/-- An option that announces length 0 is examined again and again. -/
theorem optionLoop_zero (hopt : segment.HasOption i) (hkind : segment.options i ≠ kind)
    (hzero : segment.optionLength i = 0) (fuel : ℕ) : optionLoop segment kind fuel i = none := by
  induction fuel with
  | zero => rfl
  | succ fuel ih => rw [hopt.loop, if_neg hkind, hzero, Nat.add_zero, ih]

end Loop

/-! ## Termination inside the header -/

/-- The option at `i` lies in the options field, and is long enough for its kind and its length. -/
structure OptionHeader.Inside (segment : OptionHeader) (i : ℕ) : Prop where
  octets : i + 1 < segment.length
  two_le : 2 ≤ segment.optionLength i
  length_le : i + segment.optionLength i ≤ segment.length

/-- `tcpGetOption` terminates, and an option that it returns lies in the options field. -/
def OptionHeader.Parsed (segment : OptionHeader) (kind : UInt8) : Prop :=
  ∃ fuel result, tcpGetOption fuel segment kind = some result ∧
    ∀ i ∈ result, segment.options i = kind ∧ segment.Inside i

/-- Each round takes the search on, so the length of the field bounds the number of rounds. -/
theorem optionLoop_sound {segment : OptionHeader} {kind : UInt8} (hsound : segment.Sound kind)
    (fuel : ℕ) {i : ℕ} (hex : segment.Examined kind i) (hfuel : segment.length < i + fuel) :
    ∃ result, optionLoop segment kind fuel i = some result ∧
      ∀ j ∈ result, segment.options j = kind ∧ segment.Inside j := by
  induction fuel generalizing i with
  | zero =>
      -- no offset behind the field is examined
      have hle : i ≤ segment.length := by
        cases hex with
        | first => exact Nat.zero_le _
        | nop _ hlt _ => exact hlt
        | option _ hopt _ => exact hopt.length_le
      omega
  | succ fuel ih =>
      by_cases hend : segment.length ≤ i
      · exact ⟨none, optionLoop_end hend, by simp⟩
      by_cases hnop : segment.options i = TCP_OPTION_NOP
      · rw [optionLoop_nop (by omega) hnop]
        exact ih (hex.nop (by omega) hnop) (by omega)
      by_cases hopt : segment.HasOption i
      · obtain ⟨hzero, hone⟩ := hsound i hex hopt
        rw [hopt.loop]
        split_ifs with hkind
        · refine ⟨some i, rfl, ?_⟩
          rintro j ⟨rfl⟩
          have := hone hkind
          exact ⟨hkind, hopt.fits, by omega, hopt.length_le⟩
        · exact ih (hex.option hopt hkind) (by omega)
      · exact ⟨none, optionLoop_stop hnop hopt, by simp⟩

/-- **The search for an option ends inside the header** exactly if no option that it comes to announces
length 0, and the one it looks for does not announce length 1. -/
theorem tcpGetOption_parsed_iff (segment : OptionHeader) (kind : UInt8) :
    segment.Parsed kind ↔ segment.Sound kind := by
  by_cases hoff : segment.dataOffset.val < 5
  · -- there is no options field
    have hlen : segment.length = 0 := by
      rw [OptionHeader.length]
      omega
    constructor
    · intro _ i _ hopt
      have := hopt.fits
      omega
    · intro _
      exact ⟨0, none, if_pos hoff, by simp⟩
  · constructor
    · rintro ⟨fuel, result, hret, hres⟩ i hex hopt
      rw [tcpGetOption, if_neg hoff] at hret
      obtain ⟨fuel', hloop⟩ := hex.loop ⟨fuel, hret⟩
      by_cases hkind : segment.options i = kind
      · have hfound : result = some i := by
          cases fuel' with
          | zero => cases hloop
          | succ fuel' =>
              rw [hopt.loop, if_pos hkind, Option.some.injEq] at hloop
              exact hloop.symm
        have htwo := (hres i hfound).2.two_le
        exact ⟨by omega, fun _ => by omega⟩
      · refine ⟨?_, fun h => absurd h hkind⟩
        intro hzero
        rw [optionLoop_zero hopt hkind hzero] at hloop
        cases hloop
    · intro hsound
      obtain ⟨result, hret, hres⟩ :=
        optionLoop_sound hsound (segment.length + 1) .first (by omega)
      exact ⟨segment.length + 1, result, by rw [tcpGetOption, if_neg hoff, hret], hres⟩

/-- A header with one word of options: an option of kind 8 that announces length 0. -/
def zeroLengthOption : OptionHeader where
  dataOffset := 6
  options := fun i => [8, 0, 0, 0].getD i 0

/-- The search for the MSS option never ends in this header. -/
theorem zeroLengthOption_loops (fuel : ℕ) :
    tcpGetOption fuel zeroLengthOption TCP_OPTION_MAX_SEGMENT_SIZE = none := by
  rw [tcpGetOption, if_neg (by decide)]
  exact optionLoop_zero ⟨by decide, by decide, by decide, by decide⟩ (by decide) (by decide) fuel

theorem tcpGetOption_not_parsed :
    ¬ ∀ (segment : OptionHeader) (kind : UInt8), 5 ≤ segment.dataOffset.val →
      segment.Parsed kind := by
  intro h
  obtain ⟨fuel, result, hret, -⟩ := h zeroLengthOption TCP_OPTION_MAX_SEGMENT_SIZE (by decide)
  rw [zeroLengthOption_loops] at hret
  cases hret

end Tcp
