import CycloneTcp.Common.Error
import CycloneTcp.Lib.Memory
import CycloneTcp.Lib.Numeral

set_option autoImplicit false

/-! # The text form of addresses

`ipv4StringToAddr`, `macStringToAddr` and `eui64StringToAddr` are three copies of one loop: numerals of
one byte with a separator between any two. A string is the list of its characters, and an array that
holds it ends in NUL; `none` stands for a read behind the array. What the functions store through
their output parameter is recorded with the indices, so that a store behind the address is visible.
The three functions that print an address are translated below them. -/

open Numeral

/-- The memory an output parameter points to, and the indices stored to so far. -/
structure Output (α : Type*) where
  cells : Memory α
  stored : List ℕ

namespace Output

variable {α : Type*}

def init (cells : Memory α) : Output α := ⟨cells, []⟩

/-- `out[i] = x`. -/
def store (out : Output α) (i : ℕ) (x : α) : Output α :=
  ⟨Function.update out.cells i x, out.stored ++ [i]⟩

/-- Stores to consecutive indices. -/
def storeAll (out : Output α) (i : ℕ) : List α → Output α
  | [] => out
  | x :: xs => (out.store i x).storeAll (i + 1) xs

theorem storeAll_cells (out : Output α) (i : ℕ) (xs : List α) :
    (out.storeAll i xs).cells = out.cells.write i xs := by
  induction xs generalizing out i with
  | nil => rw [storeAll, Memory.write_nil]
  | cons x xs ih => rw [storeAll, ih, Memory.write_cons, store]

theorem storeAll_append (out : Output α) (i : ℕ) (xs ys : List α) :
    out.storeAll i (xs ++ ys) = (out.storeAll i xs).storeAll (i + xs.length) ys := by
  induction xs generalizing out i with
  | nil => rfl
  | cons x xs ih =>
      rw [List.cons_append, storeAll, ih, storeAll, List.length_cons]
      congr 1
      omega

/-- What stores to consecutive indices store to. -/
theorem mem_stored_storeAll {out : Output α} {i k : ℕ} {xs : List α} :
    k ∈ (out.storeAll i xs).stored ↔ k ∈ out.stored ∨ i ≤ k ∧ k < i + xs.length := by
  induction xs generalizing out i with
  | nil =>
      rw [storeAll, List.length_nil]
      exact ⟨Or.inl, fun h => h.resolve_right (by omega)⟩
  | cons x xs ih =>
      rw [storeAll, ih, store, List.mem_append, List.mem_singleton, List.length_cons, or_assoc]
      refine or_congr Iff.rfl ?_
      omega

end Output

/-! ## Characters -/

/-- The value of a character for which `isdigit` holds. -/
def decimalDigit (c : UInt8) : Option ℕ :=
  if 48 ≤ c.toNat ∧ c.toNat ≤ 57 then some (c.toNat - 48) else none

/-- The value of a character for which `isxdigit` holds. -/
def hexDigit (c : UInt8) : Option ℕ :=
  if 48 ≤ c.toNat ∧ c.toNat ≤ 57 then some (c.toNat - 48)
  else if 65 ≤ c.toNat ∧ c.toNat ≤ 70 then some (c.toNat - 65 + 10)
  else if 97 ≤ c.toNat ∧ c.toNat ≤ 102 then some (c.toNat - 97 + 10)
  else none

/-- The digits of `%u` and of `%X`. -/
def upperChar (d : ℕ) : UInt8 := if d < 10 then UInt8.ofNat (48 + d) else UInt8.ofNat (55 + d)

/-- The digits of `%x`. -/
def lowerChar (d : ℕ) : UInt8 := if d < 10 then UInt8.ofNat (48 + d) else UInt8.ofNat (87 + d)

theorem decimalDigit_upperChar {d : ℕ} (h : d < 10) : decimalDigit (upperChar d) = some d := by
  interval_cases d <;> rfl

theorem hexDigit_upperChar {d : ℕ} (h : d < 16) : hexDigit (upperChar d) = some d := by
  interval_cases d <;> rfl

theorem hexDigit_lowerChar {d : ℕ} (h : d < 16) : hexDigit (lowerChar d) = some d := by
  interval_cases d <;> rfl

/-! ## From text to bytes -/

/-- Four decimal numbers with `'.'` between them. -/
def ipv4Format : Format UInt8 where
  base := 10
  digit := decimalDigit
  sep := fun c => c == 46
  max := 255
  base_pos := by decide
  digit_sep := fun c h => by rw [eq_of_beq h]; rfl

/-- Hexadecimal numbers with `'-'` or `':'` between them. -/
def macFormat : Format UInt8 where
  base := 16
  digit := hexDigit
  sep := fun c => c == 45 || c == 58
  max := 0xFF
  base_pos := by decide
  digit_sep := fun c h => by
    rw [Bool.or_eq_true] at h
    rcases h with h | h <;> rw [eq_of_beq h] <;> rfl

/-- The loop of the three functions over the characters from `str` on, for an address of `count`
bytes. `value` is `none` where the code has −1: no digit of the current byte has been read. -/
def stringToAddrLoop (f : Format UInt8) (count : ℕ) :
    List UInt8 → ℕ → Option ℕ → Output UInt8 → Option (ErrorCode × Output UInt8)
  | [], _, _, _ => none
  | c :: str, i, value, addr =>
      match f.digit c with
      | some d =>
          if f.base * value.getD 0 + d ≤ f.max then
            stringToAddrLoop f count str i (some (f.base * value.getD 0 + d)) addr
          else some (.invalidSyntax, addr)
      | none =>
          if f.sep c ∧ i < count then
            match value with
            | none => some (.invalidSyntax, addr)
            | some v => stringToAddrLoop f count str (i + 1) none (addr.store i (UInt8.ofNat v))
          else if c = 0 ∧ i = count - 1 then
            match value with
            | none => some (.invalidSyntax, addr)
            | some v => some (.noError, addr.store i (UInt8.ofNat v))
          else some (.invalidSyntax, addr)

/-- `ipv4StringToAddr`. -/
def ipv4StringToAddr (str : List UInt8) (ipAddr : Output UInt8) : Option (ErrorCode × Output UInt8) :=
  stringToAddrLoop ipv4Format 4 str 0 none ipAddr

/-- `macStringToAddr`. -/
def macStringToAddr (str : List UInt8) (macAddr : Output UInt8) :
    Option (ErrorCode × Output UInt8) :=
  stringToAddrLoop macFormat 6 str 0 none macAddr

/-- `eui64StringToAddr`. -/
def eui64StringToAddr (str : List UInt8) (eui64 : Output UInt8) :
    Option (ErrorCode × Output UInt8) :=
  stringToAddrLoop macFormat 8 str 0 none eui64

/-! ## From bytes to text -/

/-- `%u` with one byte. -/
def formatU8 (b : UInt8) : List UInt8 := digits 10 upperChar b.toNat

/-- `%02X` with one byte. -/
def format02X8 (b : UInt8) : List UInt8 := [upperChar (b.toNat / 16), upperChar (b.toNat % 16)]

/-- `ipv4AddrToString`. -/
def ipv4AddrToString (p : Fin 4 → UInt8) : List UInt8 :=
  formatU8 (p 0) ++ 46 :: (formatU8 (p 1) ++ 46 :: (formatU8 (p 2) ++ 46 :: formatU8 (p 3)))

/-- `macAddrToString`. -/
def macAddrToString (b : Fin 6 → UInt8) : List UInt8 :=
  format02X8 (b 0) ++ 45 :: (format02X8 (b 1) ++ 45 :: (format02X8 (b 2) ++ 45 ::
    (format02X8 (b 3) ++ 45 :: (format02X8 (b 4) ++ 45 :: format02X8 (b 5)))))

/-- `eui64AddrToString`. -/
def eui64AddrToString (b : Fin 8 → UInt8) : List UInt8 :=
  format02X8 (b 0) ++ 45 :: (format02X8 (b 1) ++ 45 :: (format02X8 (b 2) ++ 45 ::
    (format02X8 (b 3) ++ 45 :: (format02X8 (b 4) ++ 45 :: (format02X8 (b 5) ++ 45 ::
      (format02X8 (b 6) ++ 45 :: format02X8 (b 7)))))))

/-! ## What the loop accepts -/

section Loop

variable {f : Format UInt8} {count : ℕ}

/-- What the loop over the characters of `s` and a NUL does, with `i` bytes stored and the digits of
`value` read: it succeeds if the text has the numerals that are missing, and stores them. -/
structure Parsed (f : Format UInt8) (count : ℕ) (s : List UInt8) (i : ℕ) (value : Option ℕ)
    (addr : Output UInt8) (result : ErrorCode × Output UInt8) : Prop where
  noError_iff : result.1 = .noError ↔ ∃ vs, f.groupsFrom value s = some vs ∧ i + vs.length = count
  stored : ∀ vs, f.groupsFrom value s = some vs → i + vs.length = count →
    result.2 = addr.storeAll i (vs.map UInt8.ofNat)
  bounds : ∀ k ∈ result.2.stored, k ∈ addr.stored ∨ k < count

/-- The loop fails where the text is none of the grammar, or has too few or too many numerals. -/
theorem Parsed.fail {s : List UInt8} {i : ℕ} {value : Option ℕ} {addr : Output UInt8}
    (h : ∀ vs, f.groupsFrom value s = some vs → i + vs.length ≠ count) :
    Parsed f count s i value addr (.invalidSyntax, addr) where
  noError_iff := iff_of_false nofun fun ⟨vs, hvs, hlen⟩ => h vs hvs hlen
  stored := fun vs hvs hlen => absurd hlen (h vs hvs)
  bounds := fun _ hk => .inl hk

/-- One numeral has been read up to its separator. -/
theorem Parsed.sep {s : List UInt8} {c : UInt8} {i v : ℕ} {addr : Output UInt8}
    {result : ErrorCode × Output UInt8} (hc : f.sep c) (hi : i < count)
    (h : Parsed f count s (i + 1) none (addr.store i (UInt8.ofNat v)) result) :
    Parsed f count (c :: s) i (some v) addr result := by
  have hread : f.groupsFrom (some v) (c :: s) = (f.groupsFrom none s).map (v :: ·) := by
    rw [Format.groupsFrom_sep hc, Option.bind_some]
  refine ⟨?_, ?_, ?_⟩
  · rw [h.noError_iff, hread]
    constructor
    · rintro ⟨vs, hvs, hlen⟩
      exact ⟨v :: vs, by rw [hvs]; rfl, by rw [List.length_cons]; omega⟩
    · rintro ⟨_, hvs, hlen⟩
      obtain ⟨vs, hvs', rfl⟩ := Option.map_eq_some_iff.1 hvs
      exact ⟨vs, hvs', by rw [List.length_cons] at hlen; omega⟩
  · intro _ hvs hlen
    rw [hread] at hvs
    obtain ⟨vs, hvs', rfl⟩ := Option.map_eq_some_iff.1 hvs
    rw [List.length_cons] at hlen
    exact h.stored vs hvs' (by omega)
  · intro k hk
    rcases h.bounds k hk with hk | hk
    · rcases List.mem_append.1 hk with hk | hk
      · exact .inl hk
      · exact .inr (by rwa [List.mem_singleton.1 hk])
    · exact .inr hk

/-- The loop over a string, from any of its states. -/
theorem stringToAddrLoop_parsed (hdigit : f.digit 0 = none) (hsep : f.sep 0 = false)
    (hcount : 0 < count) (s rest : List UInt8) (hs : 0 ∉ s) (i : ℕ) (hi : i ≤ count)
    (value : Option ℕ) (addr : Output UInt8) :
    ∃ result, stringToAddrLoop f count (s ++ 0 :: rest) i value addr = some result ∧
      Parsed f count s i value addr result := by
  induction s generalizing i value addr with
  | nil =>
      rw [List.nil_append]
      unfold stringToAddrLoop
      simp only [hdigit, hsep, Bool.false_eq_true, false_and, if_false, true_and]
      split_ifs with hlast
      · cases value with
        | none => exact ⟨_, rfl, .fail nofun⟩
        | some v =>
            refine ⟨_, rfl, ?_, ?_, ?_⟩
            · exact iff_of_true rfl ⟨[v], rfl, by rw [List.length_singleton]; omega⟩
            · intro vs hvs _
              rw [← Option.some.inj hvs]
              rfl
            · intro k hk
              rcases List.mem_append.1 hk with hk | hk
              · exact .inl hk
              · exact .inr (by rw [List.mem_singleton.1 hk]; omega)
      · refine ⟨_, rfl, .fail fun vs hvs hlen => ?_⟩
        cases value with
        | none => cases hvs
        | some v =>
            rw [← Option.some.inj hvs, List.length_singleton] at hlen
            omega
  | cons c s ih =>
      have hs' : 0 ∉ s := fun h => hs (List.mem_cons_of_mem c h)
      have hc : c ≠ 0 := fun h => hs (h ▸ List.mem_cons_self)
      rw [List.cons_append]
      unfold stringToAddrLoop
      cases hd : f.digit c with
      | some d =>
          have hread : f.groupsFrom value (c :: s) =
              if f.base * value.getD 0 + d ≤ f.max then
                f.groupsFrom (some (f.base * value.getD 0 + d)) s else none := by
            rw [Format.groupsFrom, hd]
          simp only
          split_ifs with hmax
          · obtain ⟨result, hresult, hp⟩ := ih hs' i hi (some (f.base * value.getD 0 + d)) addr
            rw [if_pos hmax] at hread
            exact ⟨result, hresult, by rw [hread]; exact hp.noError_iff,
              by rw [hread]; exact hp.stored, hp.bounds⟩
          · rw [if_neg hmax] at hread
            exact ⟨_, rfl, .fail fun vs hvs => by rw [hread] at hvs; cases hvs⟩
      | none =>
          simp only [hc, false_and, if_false]
          split_ifs with hif
          · cases value with
            | none =>
                refine ⟨_, rfl, .fail fun vs hvs => ?_⟩
                rw [Format.groupsFrom_sep hif.1] at hvs
                cases hvs
            | some v =>
                obtain ⟨result, hresult, hp⟩ := ih hs' (i + 1) hif.2 none
                  (addr.store i (UInt8.ofNat v))
                exact ⟨result, hresult, hp.sep hif.1 hif.2⟩
          · refine ⟨_, rfl, .fail fun vs hvs hlen => ?_⟩
            by_cases hsepc : f.sep c
            · have hfull : i = count := le_antisymm hi (not_lt.1 fun h => hif ⟨hsepc, h⟩)
              rw [Format.groupsFrom_sep hsepc] at hvs
              obtain ⟨v, -, hvs⟩ := Option.bind_eq_some_iff.1 hvs
              obtain ⟨vs', hvs', rfl⟩ := Option.map_eq_some_iff.1 hvs
              rw [List.length_cons] at hlen
              omega
            · rw [Format.groupsFrom, hd, if_neg hsepc] at hvs
              cases hvs

end Loop

/-! ## Parsers and printers -/

/-- `parse` succeeds on the texts of `count` numerals of the format and on no other string, stores
the bytes that the text denotes, and stores to nothing behind the address. -/
def ParsesExactly (parse : List UInt8 → Output UInt8 → Option (ErrorCode × Output UInt8))
    (f : Format UInt8) (count : ℕ) : Prop :=
  ∀ (s rest : List UInt8) (cells : Memory UInt8), 0 ∉ s → ∃ error addr,
    parse (s ++ 0 :: rest) (.init cells) = some (error, addr) ∧
    (error = .noError ↔ ∃ vs, f.Groups s vs ∧ vs.length = count) ∧
    (∀ vs, f.Groups s vs → vs.length = count →
      addr.cells.read 0 count = vs.map UInt8.ofNat) ∧
    (∀ k ∈ addr.stored, k < count)

/-- `parse` reads back the address that `print` has printed. -/
def Inverts (parse : List UInt8 → Output UInt8 → Option (ErrorCode × Output UInt8)) {count : ℕ}
    (print : (Fin count → UInt8) → List UInt8) : Prop :=
  ∀ (b : Fin count → UInt8) (rest : List UInt8) (cells : Memory UInt8), ∃ addr,
    parse (print b ++ 0 :: rest) (.init cells) = some (.noError, addr) ∧
    addr.cells.read 0 count = List.ofFn b

theorem parsesExactly {f : Format UInt8} {count : ℕ} (hdigit : f.digit 0 = none)
    (hsep : f.sep 0 = false) (hcount : 0 < count) :
    ParsesExactly (fun str addr => stringToAddrLoop f count str 0 none addr) f count := by
  intro s rest cells hs
  obtain ⟨⟨error, addr⟩, hresult, hp⟩ := stringToAddrLoop_parsed hdigit hsep hcount s rest hs 0
    (Nat.zero_le _) none (.init cells)
  refine ⟨error, addr, hresult, ?_, ?_, ?_⟩
  · rw [hp.noError_iff]
    refine exists_congr fun vs => and_congr Format.groupsFrom_iff ?_
    rw [Nat.zero_add]
  · intro vs hvs hlen
    have haddr : addr = (Output.init cells).storeAll 0 (vs.map UInt8.ofNat) :=
      hp.stored vs (Format.groupsFrom_iff.2 hvs) (by omega)
    rw [haddr, Output.storeAll_cells]
    exact Memory.read_write_of_length _ _ (by rw [List.length_map, hlen])
  · intro k hk
    exact (hp.bounds k hk).resolve_left List.not_mem_nil

/-- A parser reads back a text of numerals of the bytes. -/
theorem ParsesExactly.inverts {parse : List UInt8 → Output UInt8 → Option (ErrorCode × Output UInt8)}
    {f : Format UInt8} {count : ℕ} {print : (Fin count → UInt8) → List UInt8}
    (h : ParsesExactly parse f count) (hdigit : f.digit 0 = none) (hsep : f.sep 0 = false)
    (hprint : ∀ b, f.Groups (print b) ((List.ofFn b).map UInt8.toNat)) : Inverts parse print := by
  intro b rest cells
  have hlen : ((List.ofFn b).map UInt8.toNat).length = count := by
    rw [List.length_map, List.length_ofFn]
  obtain ⟨error, addr, hresult, hiff, hcells, -⟩ :=
    h (print b) rest cells ((hprint b).not_mem hdigit hsep)
  obtain rfl : error = .noError := hiff.2 ⟨_, hprint b, hlen⟩
  refine ⟨addr, hresult, (hcells _ (hprint b) hlen).trans ?_⟩
  rw [List.map_map]
  exact (List.map_congr_left fun x _ => UInt8.ofNat_toNat).trans (List.map_id _)

theorem group_formatU8 (b : UInt8) : ipv4Format.Group (formatU8 b) b.toNat :=
  group_digits (f := ipv4Format) (by decide) (fun _ hd => decimalDigit_upperChar hd)
    (Nat.le_of_lt_succ b.toNat_lt)

theorem group_format02X8 (b : UInt8) : macFormat.Group (format02X8 b) b.toNat := by
  have hlt : b.toNat < 256 := b.toNat_lt
  have hhi : macFormat.digit (upperChar (b.toNat / 16)) = some (b.toNat / 16) :=
    hexDigit_upperChar (by omega)
  have hlo : macFormat.digit (upperChar (b.toNat % 16)) = some (b.toNat % 16) :=
    hexDigit_upperChar (by omega)
  refine ⟨List.cons_ne_nil _ _, ?_, Nat.le_of_lt_succ hlt⟩
  rw [format02X8, Format.valueFrom_cons hhi, Format.valueFrom_cons hlo]
  exact congrArg some (show 16 * (16 * 0 + b.toNat / 16) + b.toNat % 16 = b.toNat by omega)

theorem ipv4StringToAddr_exact : ParsesExactly ipv4StringToAddr ipv4Format 4 :=
  parsesExactly rfl rfl (by decide)

theorem macStringToAddr_exact : ParsesExactly macStringToAddr macFormat 6 :=
  parsesExactly rfl rfl (by decide)

theorem eui64StringToAddr_exact : ParsesExactly eui64StringToAddr macFormat 8 :=
  parsesExactly rfl rfl (by decide)

theorem groups_ipv4AddrToString (p : Fin 4 → UInt8) :
    ipv4Format.Groups (ipv4AddrToString p) ((List.ofFn p).map UInt8.toNat) :=
  .cons (group_formatU8 _) rfl <| .cons (group_formatU8 _) rfl <| .cons (group_formatU8 _) rfl <|
    .single (group_formatU8 _)

theorem groups_macAddrToString (b : Fin 6 → UInt8) :
    macFormat.Groups (macAddrToString b) ((List.ofFn b).map UInt8.toNat) :=
  .cons (group_format02X8 _) rfl <| .cons (group_format02X8 _) rfl <|
    .cons (group_format02X8 _) rfl <| .cons (group_format02X8 _) rfl <|
    .cons (group_format02X8 _) rfl <| .single (group_format02X8 _)

theorem groups_eui64AddrToString (b : Fin 8 → UInt8) :
    macFormat.Groups (eui64AddrToString b) ((List.ofFn b).map UInt8.toNat) :=
  .cons (group_format02X8 _) rfl <| .cons (group_format02X8 _) rfl <|
    .cons (group_format02X8 _) rfl <| .cons (group_format02X8 _) rfl <|
    .cons (group_format02X8 _) rfl <| .cons (group_format02X8 _) rfl <|
    .cons (group_format02X8 _) rfl <| .single (group_format02X8 _)

/-- The three parsers accept exactly their grammars, store only inside the address, and invert the
printers. -/
theorem addrText_exact :
    ParsesExactly ipv4StringToAddr ipv4Format 4 ∧
    ParsesExactly macStringToAddr macFormat 6 ∧
    ParsesExactly eui64StringToAddr macFormat 8 ∧
    Inverts ipv4StringToAddr ipv4AddrToString ∧
    Inverts macStringToAddr macAddrToString ∧
    Inverts eui64StringToAddr eui64AddrToString :=
  ⟨ipv4StringToAddr_exact, macStringToAddr_exact, eui64StringToAddr_exact,
    ipv4StringToAddr_exact.inverts rfl rfl groups_ipv4AddrToString,
    macStringToAddr_exact.inverts rfl rfl groups_macAddrToString,
    eui64StringToAddr_exact.inverts rfl rfl groups_eui64AddrToString⟩
