import CycloneTcp.Core.NetMem

set_option autoImplicit false

/-! # IPv6 options

`ipv6ParseOptions` goes through the Options field of a Hop-by-Hop Options or Destination Options
header. It compares the low five bits of a type with Pad1 and PadN, steps over an option's data
without comparing its end with the end of the field, and reads the field through one pointer, even
where it goes on in another chunk of the packet. -/

namespace Ip

/-! ## The parser -/

def IPV6_OPTION_TYPE_MASK : UInt8 := 0x1F

def IPV6_OPTION_TYPE_PAD1 : UInt8 := 0x00

def IPV6_OPTION_TYPE_PADN : UInt8 := 0x01

def IPV6_ACTION_MASK : UInt8 := 0xC0

def IPV6_ACTION_DISCARD_PACKET : UInt8 := 0x40

def IPV6_ACTION_SEND_ICMP_ERROR_ALL : UInt8 := 0x80

def IPV6_ACTION_SEND_ICMP_ERROR_UNI : UInt8 := 0xC0

def ICMPV6_TYPE_PARAM_PROBLEM : UInt8 := 4

def ICMPV6_CODE_UNKNOWN_NEXT_HEADER : UInt8 := 1

def ICMPV6_CODE_UNKNOWN_IPV6_OPTION : UInt8 := 2

/-- `sizeof(Ipv6Option)`. -/
def ipv6OptionSize : ℕ := 2

/-- `sizeof(Ipv6HopByHopOptHeader)` and `sizeof(Ipv6DestOptHeader)`. -/
def ipv6OptHeaderSize : ℕ := 2

/-- What `icmpv6SendErrorMessage` is called with, for the packet being parsed. -/
structure Icmpv6Error where
  type : UInt8
  code : UInt8
  parameter : ℕ
  deriving DecidableEq, Repr

section Parser

variable (mem : Memory UInt8) (ipPacket : NetBuffer) (ipPacketOffset optionOffset optionLen : ℕ)

/-- `ipv6IsMulticastAddr`, of the destination address in the header at `ipHeader`. -/
def ipv6IsMulticastAddr (ipHeader : ℕ) : Bool := mem (ipHeader + 24) = 0xFF

/-- The Parameter Problem message about the option at `i`. -/
def paramProblem (i : ℕ) : Icmpv6Error :=
  { type := ICMPV6_TYPE_PARAM_PROBLEM, code := ICMPV6_CODE_UNKNOWN_IPV6_OPTION
    parameter := optionOffset + i - ipPacketOffset }

/-- The loop of `ipv6ParseOptions`. -/
def optionsLoop (options i : ℕ) : ErrorCode × List Icmpv6Error :=
  if _hlt : i < optionLen then
    let type := mem (options + i) &&& IPV6_OPTION_TYPE_MASK
    if type = IPV6_OPTION_TYPE_PAD1 then optionsLoop options (i + 1)
    else if type = IPV6_OPTION_TYPE_PADN then
      if optionLen < i + ipv6OptionSize then (.invalidLength, [])
      else optionsLoop options (i + (ipv6OptionSize + (mem (options + i + 1)).toNat))
    else
      match netBufferAt ipPacket ipPacketOffset with
      | none => (.failure, [])
      | some ipHeader =>
          let action := mem (options + i) &&& IPV6_ACTION_MASK
          if action = IPV6_ACTION_DISCARD_PACKET then (.invalidOption, [])
          else if action = IPV6_ACTION_SEND_ICMP_ERROR_ALL then
            (.invalidOption, [paramProblem ipPacketOffset optionOffset i])
          else if action = IPV6_ACTION_SEND_ICMP_ERROR_UNI then
            (.invalidOption, if !ipv6IsMulticastAddr mem ipHeader then
              [paramProblem ipPacketOffset optionOffset i] else [])
          else if optionLen < i + ipv6OptionSize then (.invalidLength, [])
          else optionsLoop options (i + (ipv6OptionSize + (mem (options + i + 1)).toNat))
  else (.noError, [])
termination_by optionLen - i
decreasing_by all_goals (try simp only [ipv6OptionSize]); omega

/-- Parse IPv6 options; returns the messages sent, too. -/
def ipv6ParseOptions : ErrorCode × List Icmpv6Error :=
  match netBufferAt ipPacket optionOffset with
  | none => (.failure, [])
  | some options =>
      optionsLoop mem ipPacket ipPacketOffset optionOffset optionLen options 0

variable (headerOffset nextHeaderOffset : ℕ)

/-- What `ipv6ParseHopByHopOptHeader` and `ipv6ParseDestOptHeader` have in common: `misplaced` tells
that the header may not stand where it does. Returns the error, the messages sent, and the new
offsets of the header and of the Next Header field. -/
def parseOptHeader (misplaced : Bool) : ErrorCode × List Icmpv6Error × ℕ × ℕ :=
  let length := netBufferGetLength ipPacket - headerOffset
  if length < ipv6OptHeaderSize then (.invalidHeader, [], headerOffset, nextHeaderOffset)
  else
    match netBufferAt ipPacket headerOffset with
    | none => (.failure, [], headerOffset, nextHeaderOffset)
    | some header =>
        let headerLen := (mem (header + 1)).toNat * 8 + 8
        if length < headerLen then (.invalidHeader, [], headerOffset, nextHeaderOffset)
        else if misplaced then
          (.invalidHeader, [{ type := ICMPV6_TYPE_PARAM_PROBLEM
                              code := ICMPV6_CODE_UNKNOWN_NEXT_HEADER
                              parameter := nextHeaderOffset - ipPacketOffset }],
            headerOffset, nextHeaderOffset)
        else
          let (error, messages) := ipv6ParseOptions mem ipPacket ipPacketOffset
            (headerOffset + ipv6OptHeaderSize) (headerLen - ipv6OptHeaderSize)
          if error ≠ .noError then (error, messages, headerOffset, nextHeaderOffset)
          else (.noError, messages, headerOffset + headerLen, headerOffset)

/-- Parse Hop-by-Hop Options header. It must immediately follow the IPv6 header. -/
def ipv6ParseHopByHopOptHeader : ErrorCode × List Icmpv6Error × ℕ × ℕ :=
  parseOptHeader mem ipPacket ipPacketOffset headerOffset nextHeaderOffset
    (headerOffset ≠ ipPacketOffset + 40)

/-- Parse Destination Options header. -/
def ipv6ParseDestOptHeader : ErrorCode × List Icmpv6Error × ℕ × ℕ :=
  parseOptHeader mem ipPacket ipPacketOffset headerOffset nextHeaderOffset false

end Parser

/-! ## The grammar of the field -/

/-- A concatenation of complete options that are padding or may be skipped. -/
inductive Options : List UInt8 → Prop
  | nil : Options []
  | pad1 {rest : List UInt8} (h : Options rest) : Options (0x00 :: rest)
  | option {type length : UInt8} {data rest : List UInt8} (hne : type ≠ 0x00)
      (hskip : type &&& 0xC0 = 0) (hlen : data.length = length.toNat) (h : Options rest) :
      Options (type :: length :: (data ++ rest))

/-- What stops a reader of options. -/
inductive Verdict where
  | complete
  | lonely
  | cut
  | unknown (type : UInt8)
  deriving DecidableEq

/-- The field stops a reader right here: it is over, or only the type of an option is left, or its
data is cut off, or its type is unknown and it may not be skipped. -/
inductive Stop : List UInt8 → Verdict → Prop
  | complete : Stop [] .complete
  | lonely {type : UInt8} (hne : type ≠ 0x00) (hskip : type &&& 0xC0 = 0) : Stop [type] .lonely
  | cut {type length : UInt8} {data : List UInt8} (hne : type ≠ 0x00) (hskip : type &&& 0xC0 = 0)
      (hlt : data.length < length.toNat) : Stop (type :: length :: data) .cut
  | unknown {type : UInt8} {rest : List UInt8} (h : type &&& 0xC0 ≠ 0) :
      Stop (type :: rest) (.unknown type)

/-- The first option that may not be skipped is the one at `i`. -/
def FirstUnknown (field : List UInt8) (i : ℕ) (type : UInt8) : Prop :=
  ∃ pre rest, field = pre ++ type :: rest ∧ pre.length = i ∧ Options pre ∧ type &&& 0xC0 ≠ 0

section Grammar

variable {field pre rest : List UInt8} {v : Verdict}

theorem Options.append (h : Options pre) (hrest : Options rest) : Options (pre ++ rest) := by
  induction h with
  | nil => exact hrest
  | pad1 _ ih => exact .pad1 ih
  | option hne hskip hlen _ ih =>
      rw [List.cons_append, List.cons_append, List.append_assoc]
      exact .option hne hskip hlen ih

/-- Every field consists of options that may be skipped and of what stops a reader. -/
theorem exists_stop (field : List UInt8) :
    ∃ pre rest v, field = pre ++ rest ∧ Options pre ∧ Stop rest v := by
  induction h : field.length using Nat.strong_induction_on generalizing field with
  | _ n ih =>
      subst h
      match field with
      | [] => exact ⟨[], [], _, rfl, .nil, .complete⟩
      | type :: tail =>
          by_cases hzero : type = 0x00
          · obtain ⟨pre, rest, v, rfl, hpre, hstop⟩ := ih tail.length (by simp) tail rfl
            exact ⟨0x00 :: pre, rest, v, by rw [hzero]; rfl, .pad1 hpre, hstop⟩
          by_cases hskip : type &&& 0xC0 = 0
          swap
          · exact ⟨[], _, _, rfl, .nil, .unknown hskip⟩
          match tail with
          | [] => exact ⟨[], _, _, rfl, .nil, .lonely hzero hskip⟩
          | length :: data =>
              by_cases hlt : data.length < length.toNat
              · exact ⟨[], _, _, rfl, .nil, .cut hzero hskip hlt⟩
              · obtain ⟨pre, rest, v, hrest, hpre, hstop⟩ :=
                  ih (data.drop length.toNat).length (by simp; omega) _ rfl
                refine ⟨type :: length :: (data.take length.toNat ++ pre), rest, v, ?_,
                  .option hzero hskip (by simp; omega) hpre, hstop⟩
                rw [List.cons_append, List.cons_append, List.append_assoc, ← hrest,
                  List.take_append_drop]

theorem Stop.ne_pad1 {type : UInt8} {tail : List UInt8} (h : Stop (type :: tail) v) :
    type ≠ 0x00 := by
  cases h with
  | lonely hne _ => exact hne
  | cut hne _ _ => exact hne
  | unknown h =>
      rintro rfl
      exact h rfl

theorem Stop.not_option {type length : UInt8} {data tail : List UInt8}
    (h : Stop (type :: length :: (data ++ tail) ++ rest) v) (hskip : type &&& 0xC0 = 0) :
    data.length ≠ length.toNat := by
  generalize htail : data ++ tail = tail' at h
  cases h with
  | cut _ _ hlt =>
      have hle : data.length ≤ (tail' ++ rest).length := by
        rw [← htail, List.append_assoc, List.length_append]
        omega
      exact fun heq => absurd (heq ▸ hle) (Nat.not_le.2 hlt)
  | unknown h => exact absurd hskip h

/-- No option that may be skipped begins where a reader stops. -/
theorem Options.append_inj {pre' rest' : List UInt8} {v' : Verdict} (h : Options pre)
    (h' : Options pre') (hstop : Stop rest v) (hstop' : Stop rest' v')
    (heq : pre ++ rest = pre' ++ rest') : pre = pre' ∧ rest = rest' := by
  induction h generalizing pre' with
  | nil =>
      obtain rfl : rest = _ := heq
      cases h' with
      | nil => exact ⟨rfl, rfl⟩
      | pad1 _ => exact absurd rfl hstop.ne_pad1
      | option _ hskip hlen _ => exact absurd hlen (hstop.not_option hskip)
  | pad1 _ ih =>
      cases h' with
      | nil =>
          obtain rfl : _ = rest' := heq
          exact absurd rfl hstop'.ne_pad1
      | pad1 h' =>
          obtain ⟨hpre, hrest⟩ := ih h' (List.cons.inj heq).2
          exact ⟨congrArg _ hpre, hrest⟩
      | option hne _ _ _ => exact absurd (List.cons.inj heq).1.symm hne
  | option hne hskip hlen _ ih =>
      cases h' with
      | nil =>
          obtain rfl : _ = rest' := heq
          exact absurd hlen (hstop'.not_option hskip)
      | pad1 _ => exact absurd (List.cons.inj heq).1 hne
      | option _ _ hlen' h' =>
          simp only [List.cons_append, List.cons.injEq, List.append_assoc] at heq
          obtain ⟨rfl, rfl, heq⟩ := heq
          obtain ⟨rfl, htail⟩ := List.append_inj heq (hlen.trans hlen'.symm)
          obtain ⟨rfl, hrest⟩ := ih h' htail
          exact ⟨rfl, hrest⟩

/-- The field belongs to the grammar iff nothing but its end stops a reader. -/
theorem options_iff_complete (hpre : Options pre) (hstop : Stop rest v) :
    Options (pre ++ rest) ↔ v = .complete := by
  constructor
  · intro h
    obtain ⟨-, rfl⟩ := h.append_inj hpre .complete hstop (List.append_nil _)
    cases hstop
    rfl
  · rintro rfl
    cases hstop
    rwa [List.append_nil]

theorem firstUnknown_iff (hpre : Options pre) (hstop : Stop rest v) {i : ℕ} {type : UInt8} :
    FirstUnknown (pre ++ rest) i type ↔ i = pre.length ∧ v = .unknown type := by
  constructor
  · rintro ⟨pre', rest', heq, rfl, hpre', htype⟩
    obtain ⟨rfl, rfl⟩ := hpre.append_inj hpre' hstop (.unknown htype) heq
    cases hstop with
    | lonely _ hskip => exact absurd hskip htype
    | cut _ hskip _ => exact absurd hskip htype
    | unknown _ => exact ⟨rfl, rfl⟩
  · rintro ⟨rfl, rfl⟩
    cases hstop with
    | unknown h => exact ⟨pre, _, rfl, rfl, hpre, h⟩

end Grammar

/-! ## What the parser makes of a field -/

/-- The bytes of the Options field. -/
def optionsField (mem : Memory UInt8) (ipPacket : NetBuffer) (optionOffset optionLen : ℕ) :
    List UInt8 :=
  ((flat mem ipPacket).drop optionOffset).take optionLen

/-- The packet goes to a multicast address. -/
def toMulticast (mem : Memory UInt8) (ipPacket : NetBuffer) (ipPacketOffset : ℕ) : Bool :=
  (flat mem ipPacket)[ipPacketOffset + 24]? = some 0xFF

/-- The messages that the two high bits of a type ask for. -/
def unknownErrors (multicast : Bool) (type : UInt8) (message : Icmpv6Error) : List Icmpv6Error :=
  if type &&& 0xC0 = 0x80 then [message]
  else if type &&& 0xC0 = 0xC0 then if multicast then [] else [message]
  else []

/-- What parsing an Options field is for. -/
structure OptionsParsed (mem : Memory UInt8) (ipPacket : NetBuffer)
    (ipPacketOffset optionOffset optionLen : ℕ) : Prop where
  accepts : (ipv6ParseOptions mem ipPacket ipPacketOffset optionOffset optionLen).1 = .noError ↔
    Options (optionsField mem ipPacket optionOffset optionLen)
  rejects : ∀ i type, FirstUnknown (optionsField mem ipPacket optionOffset optionLen) i type →
    ipv6ParseOptions mem ipPacket ipPacketOffset optionOffset optionLen =
      (.invalidOption, unknownErrors (toMulticast mem ipPacket ipPacketOffset) type
        (paramProblem ipPacketOffset optionOffset i))
  silent : (∀ i type, ¬ FirstUnknown (optionsField mem ipPacket optionOffset optionLen) i type) →
    (ipv6ParseOptions mem ipPacket ipPacketOffset optionOffset optionLen).2 = []
  inside : ∀ mem', optionsField mem' ipPacket optionOffset optionLen =
      optionsField mem ipPacket optionOffset optionLen →
    toMulticast mem' ipPacket ipPacketOffset = toMulticast mem ipPacket ipPacketOffset →
    ipv6ParseOptions mem' ipPacket ipPacketOffset optionOffset optionLen =
      ipv6ParseOptions mem ipPacket ipPacketOffset optionOffset optionLen

/-- Only Pad1 has the low five bits of Pad1, and only types that may be skipped have those of PadN.
-/
def NoneMasked (field : List UInt8) : Prop :=
  ∀ pre type rest, Options pre → field = pre ++ type :: rest →
    (type &&& 0x1F = 0x00 → type = 0x00) ∧ (type &&& 0x1F = 0x01 → type &&& 0xC0 = 0)

/-- No option runs past the end of the field. -/
def NoneCut (field : List UInt8) : Prop :=
  ∀ pre type length data, Options pre → field = pre ++ type :: length :: data → type ≠ 0x00 →
    type &&& 0xC0 = 0 → length.toNat ≤ data.length

/-- The destination address can be read through the pointer to the IPv6 header. -/
def HeaderInReach (ipPacket : NetBuffer) (ipPacketOffset : ℕ) : Prop :=
  ∃ ipHeader, netBufferAt ipPacket ipPacketOffset = some ipHeader ∧
    netBufferAt ipPacket (ipPacketOffset + 24) = some (ipHeader + 24)

/-- The options that a reader comes to can be read through the pointer to the field: the type of
each one, and the length of each one that is stepped over, lie as far behind the start of the field
in memory as they do in the packet. -/
def OptionsInReach (mem : Memory UInt8) (ipPacket : NetBuffer)
    (optionOffset optionLen : ℕ) : Prop :=
  ∃ options, netBufferAt ipPacket optionOffset = some options ∧
    ∀ pre type rest, Options pre →
      optionsField mem ipPacket optionOffset optionLen = pre ++ type :: rest →
      netBufferAt ipPacket (optionOffset + pre.length) = some (options + pre.length) ∧
        (rest ≠ [] → type ≠ 0x00 → type &&& 0xC0 = 0 →
          netBufferAt ipPacket (optionOffset + pre.length + 1) = some (options + pre.length + 1))

/-- Memory holds the options that a reader of the field comes to. -/
def Holds (mem : Memory UInt8) (a : ℕ) (field : List UInt8) : Prop :=
  ∀ pre type rest, Options pre → field = pre ++ type :: rest →
    mem (a + pre.length) = type ∧ ∀ length data, rest = length :: data → type ≠ 0x00 →
      type &&& 0xC0 = 0 → mem (a + pre.length + 1) = length

theorem NoneMasked.append {pre rest : List UInt8} (h : NoneMasked (pre ++ rest))
    (hpre : Options pre) : NoneMasked rest := by
  rintro pre' type rest' hpre' rfl
  exact h (pre ++ pre') type rest' (hpre.append hpre') (List.append_assoc ..).symm

theorem noneCut_iff {pre rest : List UInt8} {v : Verdict} (hpre : Options pre)
    (hstop : Stop rest v) : NoneCut (pre ++ rest) ↔ v ≠ .cut := by
  constructor
  · rintro h rfl
    cases hstop with
    | cut hne hskip hlt => exact absurd (h pre _ _ _ hpre rfl hne hskip) (Nat.not_le.2 hlt)
  · intro hv pre' type length data hpre' heq hne hskip
    by_contra hlt
    obtain ⟨rfl, rfl⟩ := hpre.append_inj hpre' hstop (.cut hne hskip (Nat.not_le.1 hlt)) heq
    cases hstop with
    | cut _ _ _ => exact hv rfl
    | unknown h => exact h hskip

theorem NoneMasked.left {pre rest : List UInt8} (h : NoneMasked (pre ++ rest)) :
    NoneMasked pre := by
  rintro pre' type rest' hpre' rfl
  exact h pre' type (rest' ++ rest) hpre' (List.append_assoc ..)

theorem Holds.append {mem : Memory UInt8} {a : ℕ} {pre rest : List UInt8}
    (h : Holds mem a (pre ++ rest)) (hpre : Options pre) : Holds mem (a + pre.length) rest := by
  rintro pre' type rest' hpre' rfl
  have hfound := h (pre ++ pre') type rest' (hpre.append hpre') (List.append_assoc ..).symm
  rwa [List.length_append, ← Nat.add_assoc] at hfound

/-- The option right here. -/
theorem Holds.head {mem : Memory UInt8} {a : ℕ} {type : UInt8} {rest : List UInt8}
    (h : Holds mem a (type :: rest)) : mem a = type ∧ ∀ length data, rest = length :: data →
      type ≠ 0x00 → type &&& 0xC0 = 0 → mem (a + 1) = length := h [] type rest .nil rfl

theorem Holds.left {mem : Memory UInt8} {a : ℕ} {pre rest : List UInt8}
    (h : Holds mem a (pre ++ rest)) : Holds mem a pre := by
  rintro pre' type rest' hpre' rfl
  obtain ⟨htype, hlength⟩ := h pre' type (rest' ++ rest) hpre' (List.append_assoc ..)
  refine ⟨htype, ?_⟩
  rintro length data rfl
  exact hlength length (data ++ rest) rfl

/-- The two high bits of a type. -/
theorem action_cases (type : UInt8) : type &&& 0xC0 = 0x00 ∨ type &&& 0xC0 = 0x40 ∨
    type &&& 0xC0 = 0x80 ∨ type &&& 0xC0 = 0xC0 := by
  have h : ∀ n : Fin 256, n.val &&& 0xC0 = 0x00 ∨ n.val &&& 0xC0 = 0x40 ∨
      n.val &&& 0xC0 = 0x80 ∨ n.val &&& 0xC0 = 0xC0 := by decide +kernel
  simp only [← UInt8.toNat_inj, UInt8.toNat_and]
  exact h ⟨type.toNat, type.toNat_lt⟩

section Loop

variable {mem : Memory UInt8} {ipPacket : NetBuffer} {ipPacketOffset optionOffset optionLen : ℕ}
  {options i ipHeader : ℕ} {type length : UInt8} {pre rest data : List UInt8}

theorem optionsLoop_end (h : optionLen ≤ i) :
    optionsLoop mem ipPacket ipPacketOffset optionOffset optionLen options i = (.noError, []) := by
  rw [optionsLoop, dif_neg (Nat.not_lt.2 h)]

theorem optionsLoop_pad1 (htype : mem (options + i) = 0x00) (hlt : i < optionLen) :
    optionsLoop mem ipPacket ipPacketOffset optionOffset optionLen options i =
      optionsLoop mem ipPacket ipPacketOffset optionOffset optionLen options (i + 1) := by
  conv_lhs => rw [optionsLoop, dif_pos hlt]
  exact if_pos (by rw [htype]; rfl)

/-- The loop steps over an option that may be skipped, wherever its data ends. -/
theorem optionsLoop_option (hheader : netBufferAt ipPacket ipPacketOffset = some ipHeader)
    (htype : mem (options + i) = type) (hlength : mem (options + i + 1) = length)
    (hle : i + 2 ≤ optionLen)
    (hpad : type &&& 0x1F ≠ 0x00) (hskip : type &&& 0xC0 = 0) :
    optionsLoop mem ipPacket ipPacketOffset optionOffset optionLen options i =
      optionsLoop mem ipPacket ipPacketOffset optionOffset optionLen options
        (i + (2 + length.toNat)) := by
  have hfit : ¬ optionLen < i + ipv6OptionSize := Nat.not_lt.2 hle
  conv_lhs => rw [optionsLoop, dif_pos (by omega), htype, hlength]
  refine (if_neg hpad).trans ?_
  by_cases hpadn : type &&& 0x1F = 0x01
  · exact (if_pos hpadn).trans (if_neg hfit)
  · refine (if_neg hpadn).trans ?_
    simp only [hheader, IPV6_ACTION_MASK, hskip]
    rw [if_neg (by decide), if_neg (by decide), if_neg (by decide)]
    exact if_neg hfit

/-- Only its type is left of the option. -/
theorem optionsLoop_lonely (hheader : netBufferAt ipPacket ipPacketOffset = some ipHeader)
    (htype : mem (options + i) = type) (hlen : i + 1 = optionLen)
    (hpad : type &&& 0x1F ≠ 0x00) (hskip : type &&& 0xC0 = 0) :
    optionsLoop mem ipPacket ipPacketOffset optionOffset optionLen options i =
      (.invalidLength, []) := by
  have hfit : optionLen < i + ipv6OptionSize := by
    rw [ipv6OptionSize]
    omega
  rw [optionsLoop, dif_pos (by omega), htype]
  refine (if_neg hpad).trans ?_
  by_cases hpadn : type &&& 0x1F = 0x01
  · exact (if_pos hpadn).trans (if_pos hfit)
  · refine (if_neg hpadn).trans ?_
    simp only [hheader, IPV6_ACTION_MASK, hskip]
    rw [if_neg (by decide), if_neg (by decide), if_neg (by decide)]
    exact if_pos hfit

/-- The option is unknown, and its two high bits say what to do. -/
theorem optionsLoop_unknown (hheader : netBufferAt ipPacket ipPacketOffset = some ipHeader)
    (htype : mem (options + i) = type) (hlt : i < optionLen)
    (hpad : type &&& 0x1F ≠ 0x00) (hpadn : type &&& 0x1F ≠ 0x01) (hact : type &&& 0xC0 ≠ 0) :
    optionsLoop mem ipPacket ipPacketOffset optionOffset optionLen options i =
      (.invalidOption, unknownErrors (ipv6IsMulticastAddr mem ipHeader) type
        (paramProblem ipPacketOffset optionOffset i)) := by
  rw [optionsLoop, dif_pos hlt, htype]
  refine (if_neg hpad).trans ((if_neg hpadn).trans ?_)
  rcases action_cases type with h | h | h | h
  · exact absurd h hact
  · simp only [hheader, IPV6_ACTION_MASK, unknownErrors, h]
    rfl
  · simp only [hheader, IPV6_ACTION_MASK, unknownErrors, h]
    rfl
  · simp only [hheader, IPV6_ACTION_MASK, unknownErrors, h]
    cases ipv6IsMulticastAddr mem ipHeader <;> rfl

/-- The loop goes through all options that may be skipped. -/
theorem optionsLoop_options (hheader : netBufferAt ipPacket ipPacketOffset = some ipHeader)
    (hpre : Options pre) (hmask : NoneMasked pre) (hmem : Holds mem (options + i) pre)
    (hlen : i + pre.length ≤ optionLen) :
    optionsLoop mem ipPacket ipPacketOffset optionOffset optionLen options i =
      optionsLoop mem ipPacket ipPacketOffset optionOffset optionLen options
        (i + pre.length) := by
  induction hpre generalizing i with
  | nil => rfl
  | @pad1 pre hpre ih =>
      have hpad : Options [0x00] := .pad1 .nil
      have hnext : Holds mem (options + (i + 1)) pre := hmem.append hpad
      rw [List.length_cons] at hlen
      rw [optionsLoop_pad1 hmem.head.1 (by omega), ih (hmask.append hpad) hnext (by omega),
        List.length_cons]
      congr 1
      omega
  | @option type length data pre hne hskip hdata hpre ih =>
      have hoption : Options (type :: length :: (data ++ [])) := .option hne hskip hdata .nil
      rw [List.append_nil] at hoption
      have hsize : (type :: length :: data).length = 2 + length.toNat := by
        rw [List.length_cons, List.length_cons, hdata]
        omega
      have hpad : type &&& 0x1F ≠ 0x00 := fun h => hne ((hmask [] type _ .nil rfl).1 h)
      obtain ⟨htype, hlength⟩ := hmem.head
      have hnext : Holds mem (options + i + (type :: length :: data).length) pre :=
        hmem.append hoption
      rw [hsize, Nat.add_assoc] at hnext
      rw [List.length_cons, List.length_cons, List.length_append, hdata] at hlen
      rw [optionsLoop_option hheader htype (hlength length _ rfl hne hskip) (by omega) hpad hskip,
        ih (hmask.append hoption) hnext (by omega)]
      congr 1
      rw [List.length_cons, List.length_cons, List.length_append, hdata]
      omega

/-- What the loop returns where a reader stops: an option that is cut off goes unnoticed. -/
def outcome (multicast : Bool) (message : Icmpv6Error) : Verdict → ErrorCode × List Icmpv6Error
  | .complete => (.noError, [])
  | .lonely => (.invalidLength, [])
  | .cut => (.noError, [])
  | .unknown type => (.invalidOption, unknownErrors multicast type message)

theorem optionsLoop_stop (hheader : netBufferAt ipPacket ipPacketOffset = some ipHeader)
    {v : Verdict} (hstop : Stop rest v) (hmask : NoneMasked rest)
    (hmem : Holds mem (options + i) rest) (hlen : i + rest.length = optionLen) :
    optionsLoop mem ipPacket ipPacketOffset optionOffset optionLen options i =
      outcome (ipv6IsMulticastAddr mem ipHeader) (paramProblem ipPacketOffset optionOffset i) v := by
  cases hstop with
  | complete => exact optionsLoop_end (Nat.le_of_eq hlen.symm)
  | lonely hne hskip =>
      exact optionsLoop_lonely hheader hmem.head.1 hlen
        (fun h => hne ((hmask [] _ _ .nil rfl).1 h)) hskip
  | cut hne hskip hlt =>
      obtain ⟨htype, hlength⟩ := hmem.head
      rw [List.length_cons, List.length_cons] at hlen
      rw [optionsLoop_option hheader htype (hlength _ _ rfl hne hskip) (by omega)
        (fun h => hne ((hmask [] _ _ .nil rfl).1 h)) hskip, optionsLoop_end (by omega)]
      rfl
  | @unknown type _ hact =>
      have hknown := hmask [] type _ .nil rfl
      rw [List.length_cons] at hlen
      exact optionsLoop_unknown hheader hmem.head.1 (by omega)
        (fun h => hact (by rw [hknown.1 h]; rfl)) (fun h => hact (hknown.2 h)) hact

end Loop

/-! ## The packet -/

section Packet

variable {mem : Memory UInt8} {ipPacket : NetBuffer}
  {ipPacketOffset optionOffset optionLen headerOffset nextHeaderOffset : ℕ}

/-- The bytes of the packet are those at the addresses that its offsets stand for. -/
theorem flat_getElem? (mem : Memory UInt8) (ipPacket : NetBuffer) (offset : ℕ) :
    (flat mem ipPacket)[offset]? = (netBufferAt ipPacket offset).map mem := by
  cases hat : netBufferAt ipPacket offset with
  | none => exact List.getElem?_eq_none (chunkAt_eq_none.1 hat)
  | some a => exact chunkAt_eq_some hat

theorem optionsField_getElem? (mem : Memory UInt8) (ipPacket : NetBuffer) {k : ℕ}
    (hk : k < optionLen) : (optionsField mem ipPacket optionOffset optionLen)[k]? =
      (netBufferAt ipPacket (optionOffset + k)).map mem := by
  rw [optionsField, List.getElem?_take_of_lt hk, List.getElem?_drop, flat_getElem?]

theorem length_optionsField (mem : Memory UInt8)
    (hinside : optionOffset + optionLen ≤ netBufferGetLength ipPacket) :
    (optionsField mem ipPacket optionOffset optionLen).length = optionLen := by
  rw [netBufferGetLength_eq mem] at hinside
  rw [optionsField, List.length_take, List.length_drop]
  omega

/-- A byte of the field that is in reach. -/
theorem read_inReach {options k : ℕ} {pre rest : List UInt8} {byte : UInt8}
    (hinside : optionOffset + optionLen ≤ netBufferGetLength ipPacket)
    (hfield : optionsField mem ipPacket optionOffset optionLen = pre ++ byte :: rest)
    (hk : pre.length = k) (hat : netBufferAt ipPacket (optionOffset + k) = some (options + k)) :
    mem (options + k) = byte := by
  have hlength := length_optionsField mem hinside
  rw [hfield, List.length_append, List.length_cons] at hlength
  have hget : (optionsField mem ipPacket optionOffset optionLen)[k]? =
      (netBufferAt ipPacket (optionOffset + k)).map mem :=
    optionsField_getElem? mem ipPacket (by omega)
  rw [hfield, hat, ← hk, List.getElem?_append_right le_rfl, Nat.sub_self, List.getElem?_cons_zero,
    hk] at hget
  exact (Option.some.inj hget).symm

theorem OptionsInReach.holds (h : OptionsInReach mem ipPacket optionOffset optionLen)
    (hinside : optionOffset + optionLen ≤ netBufferGetLength ipPacket) :
    ∃ options, netBufferAt ipPacket optionOffset = some options ∧
      Holds mem options (optionsField mem ipPacket optionOffset optionLen) := by
  obtain ⟨options, hat, hreach⟩ := h
  refine ⟨options, hat, fun pre type rest hpre hfield => ?_⟩
  obtain ⟨htype, hlength⟩ := hreach pre type rest hpre hfield
  refine ⟨read_inReach hinside hfield rfl htype, ?_⟩
  rintro length data rfl hne hskip
  have hsplit : pre ++ type :: length :: data = (pre ++ [type]) ++ length :: data := by
    rw [List.append_assoc]
    rfl
  have hat' : netBufferAt ipPacket (optionOffset + (pre.length + 1)) =
    some (options + (pre.length + 1)) := hlength (List.cons_ne_nil _ _) hne hskip
  refine read_inReach (k := pre.length + 1) hinside (hfield.trans hsplit) ?_ hat'
  rw [List.length_append, List.length_singleton]

theorem HeaderInReach.multicast (h : HeaderInReach ipPacket ipPacketOffset) (mem : Memory UInt8) :
    ∃ ipHeader, netBufferAt ipPacket ipPacketOffset = some ipHeader ∧
      ipv6IsMulticastAddr mem ipHeader = toMulticast mem ipPacket ipPacketOffset := by
  obtain ⟨ipHeader, hat, hdest⟩ := h
  refine ⟨ipHeader, hat, ?_⟩
  rw [toMulticast, flat_getElem?, hdest, ipv6IsMulticastAddr]
  simp only [Option.map_some, Option.some.injEq]

/-- What `ipv6ParseOptions` returns. -/
theorem ipv6ParseOptions_eq (hheader : HeaderInReach ipPacket ipPacketOffset)
    (hinside : optionOffset + optionLen ≤ netBufferGetLength ipPacket)
    (hreach : OptionsInReach mem ipPacket optionOffset optionLen) {pre rest : List UInt8}
    {v : Verdict} (hfield : optionsField mem ipPacket optionOffset optionLen = pre ++ rest)
    (hmask : NoneMasked (pre ++ rest)) (hpre : Options pre) (hstop : Stop rest v) :
    ipv6ParseOptions mem ipPacket ipPacketOffset optionOffset optionLen =
      outcome (toMulticast mem ipPacket ipPacketOffset)
        (paramProblem ipPacketOffset optionOffset pre.length) v := by
  obtain ⟨ipHeader, hip, hdest⟩ := hheader.multicast mem
  obtain ⟨options, hat, hholds⟩ := hreach.holds hinside
  have hlength := length_optionsField mem hinside
  rw [hfield] at hholds hlength
  rw [List.length_append] at hlength
  rw [ipv6ParseOptions, hat]
  show optionsLoop mem ipPacket ipPacketOffset optionOffset optionLen options 0 = _
  rw [optionsLoop_options hip hpre hmask.left hholds.left (by omega), Nat.zero_add,
    optionsLoop_stop hip hstop (hmask.append hpre) (hholds.append hpre) hlength, hdest]

/-- When the type of an option that a reader comes to lies in another chunk, and what follows the
first one in memory is not part of the packet, a byte outside the field is used. -/
theorem ipv6ParseOptions_outside {options : ℕ} {pre rest : List UInt8} {type : UInt8}
    (hheader : HeaderInReach ipPacket ipPacketOffset)
    (hinside : optionOffset + optionLen ≤ netBufferGetLength ipPacket)
    (hat : netBufferAt ipPacket optionOffset = some options)
    (hfield : optionsField mem ipPacket optionOffset optionLen = pre ++ type :: rest)
    (hpre : Options pre) (hmask : NoneMasked pre) (hmem : Holds mem options pre)
    (houtside : ∀ offset, netBufferAt ipPacket offset ≠ some (options + pre.length)) :
    ¬ OptionsParsed mem ipPacket ipPacketOffset optionOffset optionLen := by
  intro h
  have hlength := length_optionsField mem hinside
  rw [hfield, List.length_append, List.length_cons] at hlength
  -- the packet with another byte behind the chunk
  have hresult : ∀ byte : UInt8, byte &&& 0x1F = 0x02 → byte &&& 0xC0 ≠ 0 →
      ipv6ParseOptions mem ipPacket ipPacketOffset optionOffset optionLen =
        (.invalidOption, unknownErrors (toMulticast mem ipPacket ipPacketOffset) byte
          (paramProblem ipPacketOffset optionOffset pre.length)) := by
    intro byte hlow hact
    let mem' : Memory UInt8 := Function.update mem (options + pre.length) byte
    have hflat : flat mem' ipPacket = flat mem ipPacket := by
      refine List.ext_getElem? fun offset => ?_
      rw [flat_getElem?, flat_getElem?]
      cases ha : netBufferAt ipPacket offset with
      | none => rfl
      | some a =>
          have hne : a ≠ options + pre.length := fun heq => houtside offset (by rw [ha, heq])
          exact congrArg some (Function.update_of_ne hne byte mem)
    have hfield' : optionsField mem' ipPacket optionOffset optionLen =
        optionsField mem ipPacket optionOffset optionLen := by
      rw [optionsField, hflat, optionsField]
    have hdest' : toMulticast mem' ipPacket ipPacketOffset =
        toMulticast mem ipPacket ipPacketOffset := by
      rw [toMulticast, hflat, toMulticast]
    obtain ⟨ipHeader, hip, hdest⟩ := hheader.multicast mem'
    have hholds : Holds mem' options pre := by
      rintro pre' type' rest' hpre' rfl
      obtain ⟨htype, hlen⟩ := hmem pre' type' rest' hpre' rfl
      have hsame : ∀ k, k < (pre' ++ type' :: rest').length → mem' (options + k) = mem (options + k) :=
        fun k hk => Function.update_of_ne (by omega) byte mem
      have hlt : (pre' ++ type' :: rest').length = pre'.length + (rest'.length + 1) := by
        rw [List.length_append, List.length_cons]
      refine ⟨(hsame _ (by omega)).trans htype, ?_⟩
      rintro length data rfl hne hskip
      rw [List.length_cons] at hlt
      rw [Nat.add_assoc, hsame _ (by omega), ← Nat.add_assoc]
      exact hlen length data rfl hne hskip
    have hbyte : mem' (options + pre.length) = byte := Function.update_self ..
    have hpad : byte &&& 0x1F ≠ 0x00 := by
      rw [hlow]
      decide
    have hpadn : byte &&& 0x1F ≠ 0x01 := by
      rw [hlow]
      decide
    rw [← h.inside mem' hfield' hdest', ipv6ParseOptions, hat]
    show optionsLoop mem' ipPacket ipPacketOffset optionOffset optionLen options 0 = _
    rw [← Nat.add_zero options] at hholds
    rw [optionsLoop_options hip hpre hmask hholds (by omega), Nat.zero_add,
      optionsLoop_unknown hip hbyte (by omega) hpad hpadn hact, hdest, hdest']
  have hdiscard := hresult 0x42 (by decide) (by decide)
  have hsend := hresult 0x82 (by decide) (by decide)
  have hsame := hdiscard.symm.trans hsend
  rw [unknownErrors, unknownErrors, if_neg (by decide), if_neg (by decide), if_pos (by decide)] at hsame
  cases hsame

/-- **When the options can be read and their types are told apart, they are parsed unless one is cut
off.** -/
theorem ipv6ParseOptions_iff (hheader : HeaderInReach ipPacket ipPacketOffset)
    (hinside : optionOffset + optionLen ≤ netBufferGetLength ipPacket)
    (hreach : OptionsInReach mem ipPacket optionOffset optionLen)
    (hmask : NoneMasked (optionsField mem ipPacket optionOffset optionLen)) :
    OptionsParsed mem ipPacket ipPacketOffset optionOffset optionLen ↔
      NoneCut (optionsField mem ipPacket optionOffset optionLen) := by
  obtain ⟨pre, rest, v, hfield, hpre, hstop⟩ :=
    exists_stop (optionsField mem ipPacket optionOffset optionLen)
  rw [hfield] at hmask
  have heq := ipv6ParseOptions_eq hheader hinside hreach hfield hmask hpre hstop
  constructor
  · intro h
    have hiff := h.accepts
    rw [hfield, options_iff_complete hpre hstop, heq] at hiff
    rw [hfield, noneCut_iff hpre hstop]
    rintro rfl
    cases hiff.1 rfl
  · rw [hfield, noneCut_iff hpre hstop]
    intro hcut
    constructor
    · rw [hfield, options_iff_complete hpre hstop, heq]
      cases v with
      | complete => simp [outcome]
      | lonely => simp [outcome]
      | cut => exact absurd rfl hcut
      | unknown => simp [outcome]
    · intro i type hunknown
      rw [hfield, firstUnknown_iff hpre hstop] at hunknown
      obtain ⟨rfl, rfl⟩ := hunknown
      exact heq
    · intro hnone
      rw [heq]
      cases v with
      | unknown type =>
          refine absurd ((firstUnknown_iff hpre hstop).2 ⟨rfl, rfl⟩) ?_
          rw [← hfield]
          exact hnone _ type
      | _ => rfl
    · intro mem' hsame hdest
      have hreach' : OptionsInReach mem' ipPacket optionOffset optionLen := by
        rwa [OptionsInReach, hsame]
      rw [heq, ipv6ParseOptions_eq hheader hinside hreach' (hsame.trans hfield) hmask hpre hstop,
        hdest]

end Packet

/-- A packet to a unicast address that has been put together from fragments: the IPv6 header stands in
one chunk, and an options header in another one. -/
def reassembledMem (field : List UInt8) : Memory UInt8 := fun a =>
  if a < 40 then 0 else ([59, 0] ++ field).getD (a - 64) 0xFF

def reassembledBuffer (field : List UInt8) : NetBuffer :=
  { chunk := [{ address := 0, length := 40, size := 0 },
      { address := 64, length := UInt16.ofNat (field.length + 2), size := 0 }]
    maxChunkCount := 2 }

/-- An option that is skipped, and padding. -/
theorem optionsParsed_skipped :
    OptionsParsed (reassembledMem [0x1E, 1, 0, 0x00, 0x01, 0])
      (reassembledBuffer [0x1E, 1, 0, 0x00, 0x01, 0]) 0 42 6 := by
  have hsplit : ∀ {pre rest : List UInt8} {type : UInt8},
      optionsField (reassembledMem [0x1E, 1, 0, 0x00, 0x01, 0])
        (reassembledBuffer [0x1E, 1, 0, 0x00, 0x01, 0]) 42 6 = pre ++ type :: rest →
      ([0x1E, 1, 0, 0x00, 0x01, 0] : List UInt8) = pre ++ type :: rest ∧
        pre.length + (rest.length + 1) = 6 := by
    intro pre rest type heq
    have hfield : ([0x1E, 1, 0, 0x00, 0x01, 0] : List UInt8) = pre ++ type :: rest := heq
    exact ⟨hfield, by simpa using (congrArg List.length hfield).symm⟩
  have hat : ∀ k, k < 6 → netBufferAt (reassembledBuffer [0x1E, 1, 0, 0x00, 0x01, 0]) (42 + k) =
      some (66 + k) := by
    intro k hk
    interval_cases k <;> rfl
  refine (ipv6ParseOptions_iff ⟨0, rfl, rfl⟩ (by decide)
    ⟨66, rfl, fun pre type rest _ heq => ⟨?_, fun hne _ _ => ?_⟩⟩ ?_).2 ?_
  · have hlen := (hsplit heq).2
    exact hat _ (by omega)
  · have hlen := (hsplit heq).2
    have hpos := List.length_pos_iff.2 hne
    exact hat (pre.length + 1) (by omega)
  · intro pre type rest _ heq
    have hmem : type ∈ ([0x1E, 1, 0, 0x00, 0x01, 0] : List UInt8) := by
      rw [(hsplit heq).1]
      exact List.mem_append_right _ List.mem_cons_self
    fin_cases hmem <;> decide
  · intro pre type length data _ heq _ _
    obtain ⟨hfield, hlen⟩ := hsplit heq
    rw [List.length_cons] at hlen
    have hget : ([0x1E, 1, 0, 0x00, 0x01, 0] : List UInt8)[pre.length + 1]? = some length := by
      rw [hfield, List.getElem?_append_right (by omega), Nat.add_sub_cancel_left]
      rfl
    obtain ⟨n, hn⟩ : ∃ n, pre.length = n := ⟨_, rfl⟩
    rw [hn] at hlen hget
    have hle : n ≤ 4 := by omega
    interval_cases n <;> simp at hget <;> subst hget <;> simp <;> omega

/-- An option of type 0x41 is to be discarded, and is taken for PadN. -/
theorem optionsParsed_masked :
    ¬ OptionsParsed (reassembledMem [0x41, 4, 0, 0, 0, 0])
      (reassembledBuffer [0x41, 4, 0, 0, 0, 0]) 0 42 6 := by
  intro h
  have hreject := h.rejects 0 0x41 ⟨[], [4, 0, 0, 0, 0], rfl, rfl, .nil, by decide⟩
  have hmem : reassembledMem [0x41, 4, 0, 0, 0, 0] 66 = 0x41 := rfl
  have hpadn : ipv6ParseOptions (reassembledMem [0x41, 4, 0, 0, 0, 0])
      (reassembledBuffer [0x41, 4, 0, 0, 0, 0]) 0 42 6 = (.noError, []) := by
    rw [ipv6ParseOptions]
    show optionsLoop _ _ 0 42 6 66 0 = _
    rw [optionsLoop, dif_pos (by decide), Nat.add_zero, hmem]
    exact (if_neg (by decide)).trans ((if_pos (by decide)).trans
      ((if_neg (by decide)).trans (optionsLoop_end (by decide))))
  rw [hpadn] at hreject
  cases hreject

end Ip
