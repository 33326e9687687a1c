import CycloneTcp.Ip.Ipv6Text

set_option autoImplicit false

/-! # The text form of an IPv6 address

`ipv6AddrToString` looks for the longest run of zeros with one loop inside another, and prints the
words in a third loop that skips the run. The form it is meant to print (RFC 5952) is stated by
itself: a run that no other beats, and the numerals on both sides of it. -/

namespace Ipv6Text

open Numeral

/-! ## The printer -/

/-- `for(j = i; j < 8 && !w[j]; j++)`, with `n` words left. -/
def zeroLoop (w : Memory UInt16) : ℕ → ℕ → ℕ
  | 0, j => j
  | n + 1, j => if w j = 0 then zeroLoop w n (j + 1) else j

/-- The loop over `i` that keeps track of the longest run of zeros, with `n` iterations left. -/
def runLoop (w : Memory UInt16) : ℕ → ℕ → ℕ × ℕ → ℕ × ℕ
  | 0, _, run => run
  | n + 1, i, run =>
      let j := zeroLoop w (8 - i) i
      runLoop w n (i + 1) (if j - i > 1 ∧ j - i > run.2 - run.1 then (i, j) else run)

/-- `%x` with one word. -/
def formatX16 (v : ℕ) : List UInt8 := digits 16 lowerChar v

/-- The loop that prints the words from `i` on. -/
def printLoop (w : Memory UInt16) (zeroRunStart zeroRunEnd : ℕ) (i : ℕ) : List UInt8 :=
  if i < 8 then
    if i ≥ zeroRunStart ∧ i < zeroRunEnd then
      58 :: printLoop w zeroRunStart zeroRunEnd (zeroRunEnd - 1 + 1)
    else
      (if i > 0 then [58] else []) ++ formatX16 (w i).toNat ++
        printLoop w zeroRunStart zeroRunEnd (i + 1)
  else []
termination_by 8 - i

/-- `ipv6AddrToString`. -/
def ipv6AddrToString (w : Memory UInt16) : List UInt8 :=
  let run := runLoop w 8 0 (0, 0)
  printLoop w run.1 run.2 0 ++ if run.2 = 8 then [58] else []

/-! ## The canonical form -/

/-- The words from `start` up to `stop` are zero. -/
structure ZeroRun (w : Memory UInt16) (start stop : ℕ) : Prop where
  lt : start < stop
  le : stop ≤ 8
  zero : ∀ k, start ≤ k → k < stop → w k = 0

/-- The first one of the longest runs of at least two zeros. -/
structure FirstLongest (w : Memory UInt16) (start stop : ℕ) : Prop where
  run : ZeroRun w start stop
  two : 2 ≤ stop - start
  longest : ∀ s e, ZeroRun w s e → e - s ≤ stop - start
  first : ∀ s e, ZeroRun w s e → e - s = stop - start → start ≤ s

/-- A hexadecimal numeral in lower case and without leading zeros. -/
structure CanonicalNumeral (g : List UInt8) (v : ℕ) : Prop where
  group : groupFormat.Group g v
  lower : ∀ c ∈ g, ¬ (65 ≤ c.toNat ∧ c.toNat ≤ 90)
  noZero : g.head? = some 48 → g = [48]

/-- The values of the words from `start` up to `stop`. -/
def words (w : Memory UInt16) (start stop : ℕ) : List ℕ :=
  (w.read start (stop - start)).map UInt16.toNat

/-- The canonical text form: the first longest run of at least two zeros is written `"::"`, and every
other word by its canonical numeral. -/
def Canonical (w : Memory UInt16) (s : List UInt8) : Prop :=
  ∃ numeral : ℕ → List UInt8, (∀ v ≤ 0xFFFF, CanonicalNumeral (numeral v) v) ∧
    ((∃ start stop, FirstLongest w start stop ∧ s = join numeral 58 (words w 0 start) ++
        58 :: 58 :: join numeral 58 (words w stop 8)) ∨
      (∀ start stop, ZeroRun w start stop → stop - start < 2) ∧ s = join numeral 58 (words w 0 8))

/-! ## The longest run -/

section Run

variable {w : Memory UInt16} {i n : ℕ} {run : ℕ × ℕ}

theorem zeroLoop_spec (w : Memory UInt16) (n j : ℕ) :
    j ≤ zeroLoop w n j ∧ zeroLoop w n j ≤ j + n ∧ (∀ k, j ≤ k → k < zeroLoop w n j → w k = 0) ∧
      (zeroLoop w n j = j + n ∨ w (zeroLoop w n j) ≠ 0) := by
  induction n generalizing j with
  | zero => exact ⟨le_refl _, le_refl _, fun k _ _ => by rw [zeroLoop] at *; omega, .inl rfl⟩
  | succ n ih =>
      rw [zeroLoop]
      split_ifs with h
      · obtain ⟨hle, hub, hzero, hstop⟩ := ih (j + 1)
        refine ⟨by omega, by omega, fun k hk hlt => ?_, hstop.imp_left fun heq => by omega⟩
        rcases Nat.eq_or_lt_of_le hk with rfl | hk
        · exact h
        · exact hzero k hk hlt
      · exact ⟨le_refl _, Nat.le_add_right _ _, fun k _ _ => by omega, .inr h⟩

/-- The inner loop finds the longest run that begins at `i`. -/
theorem ZeroRun.le_zeroLoop {e : ℕ} (h : ZeroRun w i e) : e ≤ zeroLoop w (8 - i) i := by
  obtain ⟨hle, -, -, hstop⟩ := zeroLoop_spec w (8 - i) i
  have hlt := h.lt
  have he := h.le
  rcases hstop with heq | hne
  · omega
  · exact Nat.not_lt.1 fun hgt => hne (h.zero _ hle hgt)

/-- The best run so far, among those that begin in front of `i`. -/
structure BestRun (w : Memory UInt16) (i : ℕ) (run : ℕ × ℕ) : Prop where
  found : run = (0, 0) ∨ ZeroRun w run.1 run.2 ∧ 2 ≤ run.2 - run.1
  le : run.1 ≤ i
  longest : ∀ s e, s < i → ZeroRun w s e → 2 ≤ e - s → e - s ≤ run.2 - run.1
  first : ∀ s e, s < i → ZeroRun w s e → e - s = run.2 - run.1 → run.1 ≤ s

theorem BestRun.next (h : BestRun w i run) (hi : i < 8) :
    BestRun w (i + 1) (if zeroLoop w (8 - i) i - i > 1 ∧
      zeroLoop w (8 - i) i - i > run.2 - run.1 then (i, zeroLoop w (8 - i) i) else run) := by
  obtain ⟨hle, hub, hzero, -⟩ := zeroLoop_spec w (8 - i) i
  split_ifs with hif
  · refine ⟨.inr ⟨⟨by omega, by omega, hzero⟩, hif.1⟩, Nat.le_succ i, fun s e hs hrun htwo => ?_,
      fun s e hs hrun heq => ?_⟩
    · rcases Nat.eq_or_lt_of_le (Nat.le_of_lt_succ hs) with rfl | hlt
      · have := hrun.le_zeroLoop
        exact Nat.sub_le_sub_right this s
      · have := h.longest s e hlt hrun htwo
        exact Nat.le_of_lt (Nat.lt_of_le_of_lt this hif.2)
    · rcases Nat.eq_or_lt_of_le (Nat.le_of_lt_succ hs) with rfl | hlt
      · exact le_refl _
      · have htwo : 2 ≤ e - s := by rw [heq]; exact hif.1
        have := h.longest s e hlt hrun htwo
        simp only at heq
        omega
  · refine ⟨h.found, Nat.le_succ_of_le h.le, fun s e hs hrun htwo => ?_, fun s e hs hrun heq => ?_⟩
    · rcases Nat.eq_or_lt_of_le (Nat.le_of_lt_succ hs) with rfl | hlt
      · have := hrun.le_zeroLoop
        omega
      · exact h.longest s e hlt hrun htwo
    · rcases Nat.eq_or_lt_of_le (Nat.le_of_lt_succ hs) with rfl | hlt
      · exact h.le
      · exact h.first s e hlt hrun heq

theorem runLoop_best (h : BestRun w i run) (hn : i + n = 8) : BestRun w 8 (runLoop w n i run) := by
  induction n generalizing i run with
  | zero =>
      obtain rfl : i = 8 := hn
      exact h
  | succ n ih => exact ih (h.next (by omega)) (by omega)

/-- The loop finds the first longest run, or there is none. -/
theorem runLoop_spec (w : Memory UInt16) :
    (FirstLongest w (runLoop w 8 0 (0, 0)).1 (runLoop w 8 0 (0, 0)).2) ∨
    runLoop w 8 0 (0, 0) = (0, 0) ∧ ∀ start stop, ZeroRun w start stop → stop - start < 2 := by
  have hbest : BestRun w 8 (runLoop w 8 0 (0, 0)) :=
    runLoop_best ⟨.inl rfl, le_refl 0, fun s e hs => absurd hs (Nat.not_lt_zero s),
      fun s e hs => absurd hs (Nat.not_lt_zero s)⟩ rfl
  rcases hbest.found with hnone | ⟨hrun, htwo⟩
  · refine .inr ⟨hnone, fun s e hse => Nat.not_le.1 fun htwo => ?_⟩
    have hlong := hbest.longest s e (Nat.lt_of_lt_of_le hse.lt hse.le) hse htwo
    rw [hnone] at hlong
    omega
  · refine .inl ⟨hrun, htwo, fun s e hse => ?_, fun s e hse heq => ?_⟩
    · rcases Nat.lt_or_ge (e - s) 2 with hlt | hge
      · omega
      · exact hbest.longest s e (Nat.lt_of_lt_of_le hse.lt hse.le) hse hge
    · exact hbest.first s e (Nat.lt_of_lt_of_le hse.lt hse.le) hse heq

end Run

/-! ## The text -/

section Print

variable {w : Memory UInt16} {start stop i : ℕ}

theorem words_cons (w : Memory UInt16) (h : start < stop) :
    words w start stop = (w start).toNat :: words w (start + 1) stop := by
  obtain ⟨n, rfl⟩ : ∃ n, stop = start + (1 + n) := ⟨stop - start - 1, by omega⟩
  rw [words, words, Nat.add_sub_cancel_left, Memory.read_add,
    show start + (1 + n) - (start + 1) = n by omega]
  rfl

theorem words_append (w : Memory UInt16) {mid : ℕ} (h : start ≤ mid) (h' : mid ≤ stop) :
    words w start stop = words w start mid ++ words w mid stop := by
  rw [words, words, words, ← List.map_append, show stop - start = (mid - start) + (stop - mid) by omega,
    Memory.read_add, show start + (mid - start) = mid by omega]

theorem words_self (w : Memory UInt16) (i : ℕ) : words w i i = [] := by
  rw [words, Nat.sub_self]
  rfl

theorem length_words (w : Memory UInt16) (start stop : ℕ) :
    (words w start stop).length = stop - start := by
  rw [words, List.length_map, Memory.length_read]

theorem words_le {v : ℕ} (h : v ∈ words w start stop) : v ≤ 0xFFFF := by
  obtain ⟨x, -, rfl⟩ := List.mem_map.1 h
  exact Nat.le_of_lt_succ x.toNat_lt

/-- Behind the run every word follows a separator. -/
theorem printLoop_behind {n : ℕ} (hn : i + n = 8) (hi : 0 < i) (h : stop ≤ i) :
    printLoop w start stop i = (words w i 8).flatMap fun v => 58 :: formatX16 v := by
  induction n generalizing i with
  | zero =>
      obtain rfl : i = 8 := hn
      rw [printLoop, words_self]
      rfl
  | succ n ih =>
      rw [printLoop, if_pos (by omega), if_neg (by omega), if_pos hi, words_cons w (by omega),
        ih (by omega) (Nat.succ_pos i) (Nat.le_succ_of_le h), List.flatMap_cons]
      rfl

/-- In front of the run the words are printed with a separator between any two. -/
theorem printLoop_front (hi : i ≤ start) (h : start < 8) :
    printLoop w start stop 0 = join formatX16 58 (words w 0 i) ++ printLoop w start stop i := by
  induction i with
  | zero => rfl
  | succ i ih =>
      rw [ih (by omega), printLoop, if_pos (by omega), if_neg (by omega),
        words_append w (Nat.zero_le i) (Nat.le_succ i), words_cons w (Nat.lt_succ_self i), words_self,
        ← List.append_assoc, ← List.append_assoc]
      congr 1
      cases i with
      | zero => exact List.nil_append _
      | succ i =>
          rw [join_append _ _ (List.ne_nil_of_length_pos (by rw [length_words]; omega)),
            List.append_assoc]
          congr 1
          exact (List.append_nil _).symm

/-- The text with a run: the words on both sides of it. -/
theorem printLoop_run (h : ZeroRun w start stop) :
    (printLoop w start stop 0 ++ if stop = 8 then [58] else []) =
      join formatX16 58 (words w 0 start) ++ 58 :: 58 :: join formatX16 58 (words w stop 8) := by
  have hlt := h.lt
  have hle := h.le
  rw [printLoop_front (le_refl start) (by omega), printLoop, if_pos (by omega),
    if_pos ⟨le_refl start, hlt⟩, Nat.sub_add_cancel (by omega : 1 ≤ stop),
    printLoop_behind (Nat.add_sub_cancel' hle) (by omega) (le_refl stop), List.append_assoc, List.cons_append]
  congr 2
  split_ifs with hend
  · rw [hend, words_self]
    rfl
  · rw [words_cons w (by omega), List.append_nil, List.flatMap_cons, List.cons_append, join_cons]

/-- The text without a run. -/
theorem printLoop_full : printLoop w 0 0 0 = join formatX16 58 (words w 0 8) := by
  rw [printLoop, if_pos (by decide), if_neg (by decide), if_neg (by decide),
    printLoop_behind (n := 7) rfl Nat.one_pos (Nat.zero_le 1), words_cons w (by decide : 0 < 8), join_cons]
  rfl

theorem toNat_lowerChar {d : ℕ} (h : d < 16) :
    (lowerChar d).toNat = if d < 10 then 48 + d else 87 + d := by
  interval_cases d <;> rfl

theorem canonical_formatX16 {v : ℕ} (hv : v ≤ 0xFFFF) : CanonicalNumeral (formatX16 v) v where
  group := group_digits (f := groupFormat) (by decide) (fun _ hd => hexDigit_lowerChar hd) hv
  lower := by
    intro c hc
    have hd : ∃ d < 16, c = lowerChar d := by
      rw [formatX16, digits] at hc
      split_ifs at hc with hzero
      · exact ⟨0, by decide, List.mem_singleton.1 hc⟩
      · obtain ⟨d, hd, rfl⟩ := List.mem_map.1 hc
        exact ⟨d, Nat.digits_lt_base (by decide) (List.mem_reverse.1 hd), rfl⟩
    obtain ⟨d, hd, rfl⟩ := hd
    rw [toNat_lowerChar hd]
    split_ifs <;> omega
  noZero := by
    intro hhead
    rw [formatX16, digits] at hhead ⊢
    split_ifs at hhead ⊢ with hzero
    · rfl
    · -- the most significant digit is not zero
      have hne : Nat.digits 16 v ≠ [] := Nat.digits_ne_nil_iff_ne_zero.2 hzero
      rw [List.head?_map, List.head?_reverse, List.getLast?_eq_getLast_of_ne_nil hne] at hhead
      have hlast := Nat.getLast_digit_ne_zero 16 hzero
      have hlt : (Nat.digits 16 v).getLast hne < 16 :=
        Nat.digits_lt_base (by decide) (List.getLast_mem hne)
      have hchar := congrArg UInt8.toNat (Option.some.inj hhead)
      rw [toNat_lowerChar hlt] at hchar
      split_ifs at hchar <;> simp at hchar <;> omega

theorem length_formatX16 {v : ℕ} (hv : v ≤ 0xFFFF) : (formatX16 v).length ≤ 4 := by
  rw [formatX16, digits]
  split_ifs with hzero
  · decide
  · rw [List.length_map, List.length_reverse, Nat.digits_length_le_iff (by decide)]
    exact Nat.lt_of_le_of_lt hv (by decide)

/-- The text, by whether there is a run to abbreviate. -/
theorem ipv6AddrToString_eq (w : Memory UInt16) :
    (∃ start stop, FirstLongest w start stop ∧ ipv6AddrToString w =
      join formatX16 58 (words w 0 start) ++ 58 :: 58 :: join formatX16 58 (words w stop 8)) ∨
    (∀ start stop, ZeroRun w start stop → stop - start < 2) ∧
      ipv6AddrToString w = join formatX16 58 (words w 0 8) := by
  rcases runLoop_spec w with hrun | ⟨hnone, hshort⟩
  · exact .inl ⟨_, _, hrun, printLoop_run hrun.run⟩
  · refine .inr ⟨hshort, ?_⟩
    rw [ipv6AddrToString, hnone]
    simp only [printLoop_full, OfNat.zero_ne_ofNat, if_false, List.append_nil]

theorem canonical_ipv6AddrToString (w : Memory UInt16) : Canonical w (ipv6AddrToString w) :=
  ⟨formatX16, fun _ hv => canonical_formatX16 hv, ipv6AddrToString_eq w⟩

/-! ## Reading the text back -/

theorem groups_words (h : start < stop) :
    groupFormat.Groups (join formatX16 58 (words w start stop)) (words w start stop) := by
  refine groups_join rfl (fun v hv => (canonical_formatX16 (words_le hv)).group) ?_
  rw [words_cons w h]
  exact List.cons_ne_nil _ _

theorem optGroups_words (h : start ≤ stop) :
    OptGroups (join formatX16 58 (words w start stop)) (words w start stop) := by
  rcases Nat.eq_or_lt_of_le h with rfl | h
  · rw [words_self]
    exact .inl ⟨rfl, rfl⟩
  · exact .inr (groups_words h)

/-- The words of a run are zeros. -/
theorem words_run (h : ZeroRun w start stop) :
    words w start stop = List.replicate (stop - start) 0 := by
  apply List.ext_getElem
  · rw [length_words, List.length_replicate]
  · intro k hk _
    rw [length_words] at hk
    simp only [words, List.getElem_map, Memory.getElem_read, List.getElem_replicate]
    rw [h.zero _ (Nat.le_add_right _ _) (by omega)]
    rfl

/-- The text denotes the address that is printed. -/
theorem text_of_run (h : ZeroRun w start stop) :
    Text (join formatX16 58 (words w 0 start) ++ 58 :: 58 :: join formatX16 58 (words w stop 8))
      (words w 0 8) := by
  have hlt := h.lt
  have hle := h.le
  have htext := Text.short (optGroups_words (w := w) (Nat.zero_le start))
    (optGroups_words (w := w) hle) (by rw [length_words, length_words]; omega)
  rwa [length_words, length_words, show 8 - (start - 0 + (8 - stop)) = stop - start by omega,
    ← words_run h, ← words_append w (Nat.le_of_lt hlt) hle,
    ← words_append w (Nat.zero_le start) (by omega)] at htext

theorem not_sevenThenColons (h : ZeroRun w start stop) (htwo : 2 ≤ stop - start) :
    ¬ SevenThenColons
      (join formatX16 58 (words w 0 start) ++ 58 :: 58 :: join formatX16 58 (words w stop 8)) := by
  rintro ⟨a, va, heq, ha, hlen⟩
  have hfront := (frontFrom_some (b := join formatX16 58 (words w stop 8))).2
    ⟨_, rfl, optGroups_words (w := w) (Nat.zero_le start)⟩
  rw [heq, frontFrom_some.2 ⟨a, rfl, .inr ha⟩] at hfront
  obtain ⟨rfl, -⟩ := Prod.mk.inj (Option.some.inj hfront)
  rw [length_words] at hlen
  have := h.le
  omega

/-- A text of the grammar consists of digits and colons. -/
theorem Text.not_mem_zero {s : List UInt8} {ws : List ℕ} (h : Text s ws) : 0 ∉ s := by
  have hopt : ∀ {a : List UInt8} {va : List ℕ}, OptGroups a va → 0 ∉ a := by
    rintro a va (⟨rfl, -⟩ | ha)
    · exact List.not_mem_nil
    · exact ha.not_mem rfl rfl
  cases h with
  | full hgroups _ => exact hgroups.not_mem rfl rfl
  | short ha hb _ =>
      intro hmem
      rcases List.mem_append.1 hmem with hmem | hmem
      · exact hopt ha hmem
      · simp only [List.mem_cons, show (0 : UInt8) = 58 ↔ False by decide, false_or] at hmem
        exact hopt hb hmem

/-- The text form is in the grammar, and one the parser agrees with the grammar about. -/
theorem text_ipv6AddrToString (w : Memory UInt16) :
    Text (ipv6AddrToString w) (words w 0 8) ∧ ¬ SevenThenColons (ipv6AddrToString w) := by
  rcases ipv6AddrToString_eq w with ⟨start, stop, hrun, heq⟩ | ⟨-, heq⟩
  · rw [heq]
    exact ⟨text_of_run hrun.run, not_sevenThenColons hrun.run hrun.two⟩
  · have hgroups := groups_words (w := w) (by decide : 0 < 8)
    rw [heq]
    refine ⟨.full hgroups (length_words w 0 8), ?_⟩
    rintro ⟨a, va, heq, ha, -⟩
    have hfront := frontFrom_none.2 (Format.groupsFrom_iff.2 hgroups)
    rw [heq, frontFrom_some.2 ⟨a, rfl, .inr ha⟩] at hfront
    cases (Prod.mk.inj (Option.some.inj hfront)).2

theorem length_ipv6AddrToString (w : Memory UInt16) : (ipv6AddrToString w).length ≤ 39 := by
  have hpart : ∀ start stop, (join formatX16 58 (words w start stop)).length ≤
      5 * (stop - start) - 1 := fun start stop => by
    have hlen := length_join_le formatX16 58 fun v (hv : v ∈ words w start stop) =>
      length_formatX16 (words_le hv)
    rwa [length_words] at hlen
  rcases ipv6AddrToString_eq w with ⟨start, stop, hrun, heq⟩ | ⟨-, heq⟩
  · have hfront := hpart 0 start
    have hback := hpart stop 8
    have htwo := hrun.two
    have hle := hrun.run.le
    rw [heq]
    simp only [List.length_append, List.length_cons]
    omega
  · rw [heq]
    exact hpart 0 8

/-- The printer writes the canonical form in at most 39 characters, and the parser reads it back. -/
theorem ipv6AddrToString_roundTrip (w : Memory UInt16) :
    Canonical w (ipv6AddrToString w) ∧ (ipv6AddrToString w).length ≤ 39 ∧
    ∀ (rest : List UInt8) (cells : Memory UInt16), ∃ addr,
      ipv6StringToAddr (ipv6AddrToString w ++ 0 :: rest) (.init cells) = some (.noError, addr) ∧
      addr.cells.read 0 8 = w.read 0 8 := by
  refine ⟨canonical_ipv6AddrToString w, length_ipv6AddrToString w, fun rest cells => ?_⟩
  obtain ⟨htext, hseven⟩ := text_ipv6AddrToString w
  obtain ⟨⟨error, addr⟩, hresult, hp⟩ := ipv6StringToAddr_parsed htext.not_mem_zero rest cells
  obtain ⟨herror, hread⟩ := text_accepted hp htext hseven
  obtain rfl : error = .noError := herror
  refine ⟨addr, hresult, hread.trans ?_⟩
  rw [words, List.map_map]
  exact (List.map_congr_left fun x _ => UInt16.ofNat_toNat).trans (List.map_id _)

end Print

end Ipv6Text
