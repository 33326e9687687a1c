import CycloneTcp.Core.TcpAccounting

set_option autoImplicit false

/-! # Progress of the receiver

Data that begins at RCV.NXT should take RCV.NXT up to the end of everything received without a gap. The
code merges the data with the blocks it touches by the unsigned minimum and maximum of sequence numbers.
Where the numbers wrap inside the window, the minimum of two edges is the one behind the wrap: the merged
block seems to begin beyond RCV.NXT, and the data is put back into the list of blocks.

Positions are counted from RCV.NXT here. -/

namespace Tcp

open Serial

/-- The blocks received out of order: spans of the window behind RCV.NXT, apart from one another. -/
structure OutOfOrder (rcv : ReceiveSide) (spans : List Span) : Prop where
  sackBlock : rcv.sackBlock = spans.map (blockOf rcv.rcvNxt)
  inside : ∀ c ∈ spans, 0 < c.left ∧ c.Inside 0 rcv.rcvWnd.toNat
  apart : spans.Pairwise Span.Apart

theorem Reassembly.outOfOrder {rcv : ReceiveSide} {n : ℕ} {spans : List Span}
    (h : Reassembly rcv n spans) :
    OutOfOrder rcv (spans.map fun c => ⟨c.left - n, c.right - n⟩) := by
  have hinside := h.inside
  refine ⟨?_, ?_, ?_⟩
  · rw [h.sackBlock, List.map_map]
    apply List.map_congr_left
    intro c hc
    obtain ⟨hlt, -, hle, -⟩ := hinside c hc
    simp only [blockOf, Function.comp, h.rcvNxt, seq_seq]
    rw [show n + (c.left - n) = c.left by omega, show n + (c.right - n) = c.right by omega]
  · intro c hc
    obtain ⟨d, hd, rfl⟩ := List.mem_map.1 hc
    obtain ⟨hlt, hlo, hle, hhi⟩ := hinside d hd
    simp only [Span.Inside]
    omega
  · rw [List.pairwise_map]
    refine h.apart.imp_of_mem fun {c d} hc hd hcd => ?_
    obtain ⟨hlt, hlo, hle, hhi⟩ := hinside c hc
    obtain ⟨hlt', hlo', hle', hhi'⟩ := hinside d hd
    simp only [Span.Apart, Span.Touches] at hcd ⊢
    omega

/-- The blocks of every connection are of this kind, in a run with clean counters. -/
theorem outOfOrder_run (outcomes : ℕ → SendOutcome) {events : List Event}
    (h : Along CountersClean step (Slot.init outcomes) events)
    (hreceiving : (run step (Slot.init outcomes) events).socket.state.Receiving) :
    ∃ spans, OutOfOrder (run step (Slot.init outcomes) events).socket.rcv spans := by
  obtain ⟨spans, hreassembly⟩ := (receiveAccount_run outcomes h).receive hreceiving
  exact ⟨_, hreassembly.outOfOrder⟩

/-! ## The wrap -/

/-- The number of the position comes before the wrap. -/
def Early (nxt : UInt32) (x : ℕ) : Prop := nxt.toNat + x < 2 ^ 32

instance (nxt : UInt32) (x : ℕ) : Decidable (Early nxt x) := inferInstanceAs (Decidable (_ < _))

section Wrap

variable {nxt : UInt32} {x y : ℕ}

theorem early_zero : Early nxt 0 := nxt.toNat_lt

theorem Early.of_le (h : Early nxt y) (hle : x ≤ y) : Early nxt x := by
  rw [Early] at *
  omega

theorem early_max (h : Early nxt x ↔ Early nxt y) : Early nxt (max x y) ↔ Early nxt x := by
  rcases Nat.le_total x y with hxy | hxy
  · rw [Nat.max_eq_right hxy, h]
  · rw [Nat.max_eq_left hxy]

/-- The numbers from RCV.NXT on are those before the wrap. -/
theorem early_iff (hx : x < 2 ^ 31) : Early nxt x ↔ nxt ≤ seq nxt x := by
  have := nxt.toNat_lt
  rw [Early, UInt32.le_iff_toNat_le, seq_toNat]
  omega

/-- On one side of the wrap, numbers are in the order of the positions. -/
theorem seq_le_iff (hx : x < 2 ^ 31) (hy : y < 2 ^ 31) (h : Early nxt x ↔ Early nxt y) :
    seq nxt x ≤ seq nxt y ↔ x ≤ y := by
  have := nxt.toNat_lt
  simp only [Early] at h
  rw [UInt32.le_iff_toNat_le, seq_toNat, seq_toNat]
  omega

/-- Those behind the wrap are smaller than all those before it. -/
theorem seq_lt_of_wrap (hx : x < 2 ^ 31) (hy : y < 2 ^ 31) (hearly : Early nxt x)
    (hlate : ¬ Early nxt y) : seq nxt y < seq nxt x := by
  have := nxt.toNat_lt
  rw [Early] at hearly hlate
  rw [UInt32.lt_iff_toNat_lt, seq_toNat, seq_toNat]
  omega

theorem max_seq_same (hx : x < 2 ^ 31) (hy : y < 2 ^ 31) (h : Early nxt x ↔ Early nxt y) :
    max (seq nxt x) (seq nxt y) = seq nxt (max x y) := by
  have hle := seq_le_iff hx hy h
  rcases Nat.le_total x y with hxy | hxy
  · rw [Nat.max_eq_right hxy]
    exact if_pos (hle.2 hxy)
  · rw [Nat.max_eq_left hxy]
    by_cases heq : x = y
    · rw [heq]
      exact if_pos (UInt32.le_refl _)
    · exact if_neg fun hseq => heq (Nat.le_antisymm (hle.1 hseq) hxy)

/-- The unsigned minimum prefers a number behind the wrap. -/
theorem min_seq_wrap (nxt : UInt32) {x y : ℕ} (hx : x < 2 ^ 31) (hy : y < 2 ^ 31) :
    ∃ z, (z = x ∨ z = y) ∧ min (seq nxt x) (seq nxt y) = seq nxt z ∧
      (¬ Early nxt x ∨ ¬ Early nxt y → ¬ Early nxt z) := by
  by_cases hle : seq nxt x ≤ seq nxt y
  · refine ⟨x, .inl rfl, if_pos hle, ?_⟩
    rintro (h | h) hearly
    · exact h hearly
    · exact UInt32.not_le.2 (seq_lt_of_wrap hx hy hearly h) hle
  · refine ⟨y, .inr rfl, if_neg hle, ?_⟩
    rintro (h | h) hearly
    · exact hle (UInt32.le_of_lt (seq_lt_of_wrap hy hx hearly h))
    · exact h hearly

/-- The unsigned maximum prefers a number before it. -/
theorem max_seq_wrap (nxt : UInt32) {x y : ℕ} (hx : x < 2 ^ 31) (hy : y < 2 ^ 31) :
    ∃ z, (z = x ∨ z = y) ∧ max (seq nxt x) (seq nxt y) = seq nxt z ∧
      (Early nxt x ∨ Early nxt y → Early nxt z) := by
  by_cases hle : seq nxt x ≤ seq nxt y
  · refine ⟨y, .inr rfl, if_pos hle, ?_⟩
    rintro (h | h)
    · by_contra hlate
      exact UInt32.not_le.2 (seq_lt_of_wrap hx hy h hlate) hle
    · exact h
  · refine ⟨x, .inl rfl, if_neg hle, ?_⟩
    rintro (h | h)
    · exact h
    · by_contra hlate
      exact hle (UInt32.le_of_lt (seq_lt_of_wrap hy hx h hlate))

end Wrap

/-! ## Merging in the order of the positions -/

/-- Where the data up to `b` ends once the blocks that it touches have been added to it. -/
def unionEnd (b : ℕ) (spans : List Span) (r : ℕ) : ℕ :=
  (spans.filter (·.left ≤ b)).foldl (fun r c => max r c.right) r

theorem unionEnd_cons (b : ℕ) (c : Span) (spans : List Span) (r : ℕ) :
    unionEnd b (c :: spans) r =
      if c.left ≤ b then unionEnd b spans (max r c.right) else unionEnd b spans r := by
  rw [unionEnd, List.filter_cons]
  by_cases h : c.left ≤ b
  · simp [h, unionEnd]
  · simp [h, unionEnd]

theorem le_unionEnd (b : ℕ) (spans : List Span) (r : ℕ) : r ≤ unionEnd b spans r := by
  induction spans generalizing r with
  | nil => exact le_refl r
  | cons c spans ih =>
      rw [unionEnd_cons]
      split
      · exact le_trans (le_max_left _ _) (ih _)
      · exact ih r

theorem unionEnd_le {b w : ℕ} {spans : List Span} (hspans : ∀ c ∈ spans, c.Inside 0 w) {r : ℕ}
    (hr : r ≤ w) : unionEnd b spans r ≤ w := by
  induction spans generalizing r with
  | nil => exact hr
  | cons c spans ih =>
      have hrest : ∀ d ∈ spans, d.Inside 0 w := fun d hd => hspans d (by simp [hd])
      have hc := (hspans c (by simp)).2.2
      rw [unionEnd_cons]
      split
      · exact ih hrest (max_le hr hc)
      · exact ih hrest hr

section Merge

variable {nxt : UInt32} {w : ℕ}

/-- What a wrong merge does for good: a left edge behind the wrap stays there, and a right edge before it
stays there, too. -/
theorem mergeSackBlocks_stays (nxt : UInt32) {w : ℕ} (hw : w < 2 ^ 31) (spans : List Span)
    (hspans : ∀ c ∈ spans, c.Inside 0 w) (a : Span) (ha : a.Inside 0 w) :
    ∃ (m : Span) (rest : List TcpSackBlock),
      mergeSackBlocks (seq nxt a.left) (seq nxt a.right) (spans.map (blockOf nxt))
        = (seq nxt m.left, seq nxt m.right, rest) ∧ m.Inside 0 w ∧
      (¬ Early nxt a.left → ¬ Early nxt m.left) ∧ (Early nxt a.right → Early nxt m.right) := by
  induction spans generalizing a with
  | nil => exact ⟨a, [], rfl, ha, id, id⟩
  | cons c spans ih =>
      have hc := hspans c (by simp)
      have hrest : ∀ d ∈ spans, d.Inside 0 w := fun d hd => hspans d (by simp [hd])
      rw [List.map_cons, mergeSackBlocks]
      simp only [blockOf, touches_iff nxt (show w < 0 + 2 ^ 31 by omega) ha hc]
      split
      case isFalse =>
        obtain ⟨m, rest, heq, hm, hleft, hright⟩ := ih hrest a ha
        rw [heq]
        exact ⟨m, _, rfl, hm, hleft, hright⟩
      case isTrue htouch =>
        obtain ⟨-, hale, hbound⟩ := id ha
        obtain ⟨-, hcle, hcbound⟩ := id hc
        obtain ⟨left, hl, hmin, hlate⟩ := min_seq_wrap nxt (x := a.left) (y := c.left)
          (by omega) (by omega)
        obtain ⟨right, hr, hmax, hearly⟩ := max_seq_wrap nxt (x := a.right) (y := c.right)
          (by omega) (by omega)
        have hbetween : Span.Between a c ⟨left, right⟩ := ⟨hl, hr⟩
        rw [hmin, hmax]
        obtain ⟨m, rest, heq, hm, hleft, hright⟩ := ih hrest ⟨left, right⟩
          (Span.inside_of_between ha hc htouch hbetween)
        exact ⟨m, rest, heq, hm, fun h => hleft (hlate (.inl h)), fun h => hright (hearly (.inl h))⟩

/-- The blocks that data up to `b` touches lie on one side of the wrap with it: they begin before the
wrap, and end on the side that the data, up to `r` so far, ends on. -/
def SameSide (nxt : UInt32) (b : ℕ) (spans : List Span) (r : ℕ) : Prop :=
  ∀ c ∈ spans, c.left ≤ b → Early nxt c.left ∧ (Early nxt r ↔ Early nxt c.right)

/-- The first block that is not on one side of the wrap with the data puts the result on the wrong side,
and the blocks behind it do not bring it back. -/
theorem mergeSackBlocks_wrongSide (nxt : UInt32) {w : ℕ} (hw : w < 2 ^ 31) (b : ℕ) (spans : List Span)
    (hspans : ∀ c ∈ spans, c.Inside 0 w) {c : Span} (hc : c.Inside 0 w) {r : ℕ} (hr : r ≤ w)
    (htouch : (⟨0, r⟩ : Span).Touches c)
    (hbad : ¬ (Early nxt c.left ∧ (Early nxt r ↔ Early nxt c.right))) :
    ∃ (m : Span) (rest : List TcpSackBlock),
      mergeSackBlocks (min nxt (seq nxt c.left)) (max (seq nxt r) (seq nxt c.right))
          (spans.map (blockOf nxt)) = (seq nxt m.left, seq nxt m.right, rest) ∧ m.Inside 0 w ∧
        (¬ Early nxt m.left ∨ (Early nxt m.right ∧ ¬ Early nxt (unionEnd b spans (max r c.right)))) := by
  have hdata : (⟨0, r⟩ : Span).Inside 0 w := ⟨le_refl 0, Nat.zero_le r, hr⟩
  obtain ⟨-, hcle, hcbound⟩ := id hc
  obtain ⟨left, hl, hmin, hlate⟩ := min_seq_wrap nxt (x := 0) (y := c.left) (by omega) (by omega)
  obtain ⟨right, hr', hmax, hearly⟩ := max_seq_wrap nxt (x := r) (y := c.right)
    (by omega) (by omega)
  rw [seq_zero] at hmin
  rw [hmin, hmax]
  obtain ⟨m, rest, heq, hm, hleft, hright⟩ := mergeSackBlocks_stays nxt hw spans hspans
    ⟨left, right⟩ (Span.inside_of_between hdata hc htouch (m := ⟨left, right⟩) ⟨hl, hr'⟩)
  refine ⟨m, rest, heq, hm, ?_⟩
  by_cases hcl : Early nxt c.left
  · right
    have hle := le_unionEnd b spans (max r c.right)
    by_cases hre : Early nxt r
    · have hcr : ¬ Early nxt c.right := fun h => hbad ⟨hcl, iff_of_true hre h⟩
      exact ⟨hright (hearly (.inl hre)), fun h => hcr (h.of_le (by omega))⟩
    · have hcr : Early nxt c.right := by
        by_contra h
        exact hbad ⟨hcl, iff_of_false hre h⟩
      exact ⟨hright (hearly (.inr hcr)), fun h => hre (h.of_le (by omega))⟩
  · exact .inl (hleft (hlate (.inr hcl)))

/-- Data from RCV.NXT on is merged in the order of the positions, or the result is on the wrong side of
the wrap. A block that the data has not touched is not touched by the blocks that it has, since the
blocks are apart. -/
theorem mergeSackBlocks_data (nxt : UInt32) {w : ℕ} (hw : w < 2 ^ 31) {b : ℕ} (spans : List Span)
    (hspans : ∀ c ∈ spans, c.Inside 0 w) (hapart : spans.Pairwise Span.Apart) {r : ℕ} (hr : r ≤ w)
    (htouch : ∀ c ∈ spans, c.left ≤ r ↔ c.left ≤ b) :
    (SameSide nxt b spans r ∧
      mergeSackBlocks nxt (seq nxt r) (spans.map (blockOf nxt))
        = (nxt, seq nxt (unionEnd b spans r),
            (spans.filter (b < ·.left)).map (blockOf nxt))) ∨
    (¬ SameSide nxt b spans r ∧ ∃ (m : Span) (rest : List TcpSackBlock),
      mergeSackBlocks nxt (seq nxt r) (spans.map (blockOf nxt))
        = (seq nxt m.left, seq nxt m.right, rest) ∧ m.Inside 0 w ∧
      (¬ Early nxt m.left ∨ (Early nxt m.right ∧ ¬ Early nxt (unionEnd b spans r)))) := by
  induction spans generalizing r with
  | nil => exact .inl ⟨fun c hc => absurd hc (by simp), rfl⟩
  | cons c spans ih =>
      have hc := hspans c (by simp)
      have hrest : ∀ d ∈ spans, d.Inside 0 w := fun d hd => hspans d (by simp [hd])
      obtain ⟨hcapart, hapart'⟩ := List.pairwise_cons.1 hapart
      have hdata : (⟨0, r⟩ : Span).Inside 0 w := ⟨le_refl 0, Nat.zero_le r, hr⟩
      have hif := touches_iff nxt (show w < 0 + 2 ^ 31 by omega) hdata hc
      simp only [seq_zero] at hif
      obtain ⟨-, hcle, hcbound⟩ := id hc
      rw [List.map_cons, mergeSackBlocks, unionEnd_cons]
      simp only [blockOf, hif]
      by_cases hcb : c.left ≤ b
      case neg =>
        -- the block is apart from the data and stays in the list
        have hno : ¬ (⟨0, r⟩ : Span).Touches c := fun h => hcb ((htouch c (by simp)).1 h.1)
        rw [if_neg hno, if_neg hcb]
        have hside : SameSide nxt b (c :: spans) r ↔ SameSide nxt b spans r := by
          constructor
          · exact fun h d hd => h d (by simp [hd])
          · intro h d hd hdb
            rcases List.mem_cons.1 hd with rfl | hd
            · exact absurd hdb hcb
            · exact h d hd hdb
        rcases ih hrest hapart' hr (fun d hd => htouch d (by simp [hd])) with
          ⟨hsame, heq⟩ | ⟨hnot, m, rest, heq, hm, hwrong⟩
        · refine .inl ⟨hside.2 hsame, ?_⟩
          rw [heq, List.filter_cons, if_pos (by simpa using hcb)]
          rfl
        · rw [heq]
          exact .inr ⟨fun h => hnot (hside.1 h), m, _, rfl, hm, hwrong⟩
      case pos =>
        have hyes : (⟨0, r⟩ : Span).Touches c :=
          ⟨(htouch c (by simp)).2 hcb, Nat.zero_le _⟩
        rw [if_pos hyes, if_pos hcb]
        by_cases hgood : Early nxt c.left ∧ (Early nxt r ↔ Early nxt c.right)
        case pos =>
          have hmin : min nxt (seq nxt c.left) = nxt := by
            refine if_pos ?_
            exact (early_iff (by omega)).1 hgood.1
          rw [hmin, max_seq_same (by omega) (by omega) hgood.2]
          -- the blocks behind `c` are not touched by what `c` adds
          have htouch' : ∀ d ∈ spans, d.left ≤ max r c.right ↔ d.left ≤ b := by
            intro d hd
            have hcd := hcapart d hd
            have hdle := (hrest d hd).2.1
            have hd' := htouch d (by simp [hd])
            simp only [Span.Apart, Span.Touches] at hcd
            omega
          have hmax := early_max hgood.2
          have hside : SameSide nxt b (c :: spans) r ↔ SameSide nxt b spans (max r c.right) := by
            constructor
            · intro h d hd hdb
              rw [hmax]
              exact h d (by simp [hd]) hdb
            · intro h d hd hdb
              rcases List.mem_cons.1 hd with rfl | hd
              · exact hgood
              · rw [← hmax]
                exact h d hd hdb
          rcases ih hrest hapart' (max_le hr hcbound) htouch' with
            ⟨hsame, heq⟩ | ⟨hnot, m, rest, heq, hm, hwrong⟩
          · refine .inl ⟨hside.2 hsame, ?_⟩
            rw [heq, List.filter_cons, if_neg (by simpa using hcb)]
          · exact .inr ⟨fun h => hnot (hside.1 h), m, rest, heq, hm, hwrong⟩
        case neg =>
          exact .inr ⟨fun h => hgood (h c (by simp) hcb),
            mergeSackBlocks_wrongSide nxt hw b spans hrest hc hr hyes hgood⟩

end Merge

/-! ## Data that contains the next byte -/

/-- The segment contains the byte RCV.NXT. -/
def ContainsNext (rcv : ReceiveSide) (segment : Segment) : Prop :=
  (rcv.rcvNxt - segment.seqNum).toNat < segment.length

instance (rcv : ReceiveSide) (segment : Segment) : Decidable (ContainsNext rcv segment) :=
  inferInstanceAs (Decidable (_ < _))

/-- Where the part of the segment ends that is inside the window. -/
def dataEnd (rcv : ReceiveSide) (segment : Segment) : ℕ :=
  min (segment.length - (rcv.rcvNxt - segment.seqNum).toNat) rcv.rcvWnd.toNat

section Data

variable {rcv : ReceiveSide} {segment : Segment} {spans : List Span}

/-- The segment is trimmed to the data from RCV.NXT to the end of the window. -/
theorem receiveData_edges (hnext : ContainsNext rcv segment) :
    (if tcpCmpSeq segment.seqNum rcv.rcvNxt < 0 then
        (segment.offset + (rcv.rcvNxt - segment.seqNum).toNat, rcv.rcvNxt)
      else (segment.offset, segment.seqNum))
      = (segment.offset + (rcv.rcvNxt - segment.seqNum).toNat, rcv.rcvNxt) ∧
    (if 0 < tcpCmpSeq (segment.seqNum + UInt32.ofNat segment.length)
        (rcv.rcvNxt + rcv.rcvWnd.toUInt32) then rcv.rcvNxt + rcv.rcvWnd.toUInt32
      else segment.seqNum + UInt32.ofNat segment.length)
      = seq rcv.rcvNxt (dataEnd rcv segment) := by
  have hlen := segment.length_lt
  have hwnd := rcv.rcvWnd.toNat_lt
  rw [ContainsNext] at hnext
  rw [dataEnd, add_word_seq]
  have hnxt : rcv.rcvNxt = seq segment.seqNum (rcv.rcvNxt - segment.seqNum).toNat :=
    (Serial.seq_dist _ _).symm
  generalize (rcv.rcvNxt - segment.seqNum).toNat = e at *
  have hright : segment.seqNum + UInt32.ofNat segment.length = seq segment.seqNum segment.length :=
    rfl
  have hleft : tcpCmpSeq segment.seqNum rcv.rcvNxt = -(e : ℤ) := by
    have hcmp := cmp_seq segment.seqNum (x := 0) (y := e) (by omega) (by omega)
    rw [seq_zero, ← hnxt] at hcmp
    rw [tcpCmpSeq, hcmp]
    omega
  constructor
  · rw [hleft]
    split
    · rfl
    · have he : e = 0 := by omega
      rw [hnxt, he, seq_zero]
      rfl
  · rw [hnxt, hright, seq_seq, seq_seq, tcpCmpSeq, cmp_seq _ (by omega) (by omega)]
    split
    · rw [Nat.min_eq_right (by omega)]
    · rw [Nat.min_eq_left (by omega)]
      congr 1
      omega

/-- RCV.NXT after the data, by what the merge gives. -/
theorem receiveData_rcvNxt (hnext : ContainsNext rcv segment) {left right : UInt32}
    {rest : List TcpSackBlock}
    (hmerge : mergeSackBlocks rcv.rcvNxt (seq rcv.rcvNxt (dataEnd rcv segment)) rcv.sackBlock
      = (left, right, rest)) :
    (receiveData rcv segment).rcvNxt =
      if 0 < tcpCmpSeq left rcv.rcvNxt then rcv.rcvNxt else rcv.rcvNxt + (right - left) := by
  obtain ⟨hleft, hright⟩ := receiveData_edges hnext
  rw [receiveData]
  simp only [hleft, hright]
  obtain ⟨rxBuffer, hwrite⟩ := tcpWriteRxBuffer_frame rcv rcv.rcvNxt segment.buffer
    (segment.offset + (rcv.rcvNxt - segment.seqNum).toNat)
    (seq rcv.rcvNxt (dataEnd rcv segment) - rcv.rcvNxt).toNat
  simp only [hwrite, tcpUpdateSackBlocks, hmerge]
  split
  · rfl
  · rfl

theorem seq_inj_of_lt {nxt : UInt32} {x y : ℕ} (hx : x < 2 ^ 31) (hy : y < 2 ^ 31)
    (h : seq nxt x = seq nxt y) : x = y := by
  have hsub := congrArg (fun q => (q - nxt).toNat) h
  simp only [seq_sub_base] at hsub
  omega

end Data

/-- The segment takes RCV.NXT to the end of its union with the blocks that it touches, and the blocks are
merged in the order of the positions. -/
structure Progress (socket : Socket) (segment : Segment) (spans : List Span) : Prop where
  rcvNxt : (tcpProcessSegmentData socket segment).rcv.rcvNxt
    = seq socket.rcv.rcvNxt (unionEnd (dataEnd socket.rcv segment) spans
        (dataEnd socket.rcv segment))
  union : tcpUpdateSackBlocks socket.rcv socket.rcv.rcvNxt
      (seq socket.rcv.rcvNxt (dataEnd socket.rcv segment))
    = (socket.rcv.rcvNxt, seq socket.rcv.rcvNxt (unionEnd (dataEnd socket.rcv segment) spans
        (dataEnd socket.rcv segment)),
      { socket.rcv with sackBlock :=
          (spans.filter (dataEnd socket.rcv segment < ·.left)).map (blockOf socket.rcv.rcvNxt) })

theorem tcpProcessSegmentData_rcv (socket : Socket) (segment : Segment) :
    (tcpProcessSegmentData socket segment).rcv = receiveData socket.rcv segment := by
  rw [tcpProcessSegmentData]
  generalize receiveData socket.rcv segment = rcv
  exact (tcpSendAck_keeps { socket with rcv := rcv }).same.rcv

/-- **In-order data makes progress** exactly if the blocks that it touches are on one side of the wrap with
it. -/
theorem inOrderData_progress_iff {socket : Socket} {segment : Segment} {spans : List Span}
    (h : OutOfOrder socket.rcv spans) (hnext : ContainsNext socket.rcv segment) :
    Progress socket segment spans ↔
      SameSide socket.rcv.rcvNxt (dataEnd socket.rcv segment) spans
        (dataEnd socket.rcv segment) := by
  have hwnd := socket.rcv.rcvWnd.toNat_lt
  have hend : dataEnd socket.rcv segment ≤ socket.rcv.rcvWnd.toNat := min_le_right _ _
  have hinside : ∀ c ∈ spans, c.Inside 0 socket.rcv.rcvWnd.toNat := fun c hc => (h.inside c hc).2
  have hle := le_unionEnd (dataEnd socket.rcv segment) spans (dataEnd socket.rcv segment)
  have hunion := unionEnd_le (b := dataEnd socket.rcv segment) hinside hend
  have hmerge := mergeSackBlocks_data socket.rcv.rcvNxt (by omega) spans hinside h.apart
    hend fun c _ => Iff.rfl
  rw [← h.sackBlock] at hmerge
  have hnotafter : ¬ 0 < tcpCmpSeq socket.rcv.rcvNxt socket.rcv.rcvNxt := by
    rw [tcpCmpSeq, cmp_pos, UInt32.sub_self]
    exact fun h => absurd h.1 (lt_irrefl 0)
  rcases hmerge with ⟨hsame, hmerge⟩ | ⟨hnot, m, rest, hmerge, hm, hwrong⟩
  · refine iff_of_true ⟨?_, ?_⟩ hsame
    · rw [tcpProcessSegmentData_rcv, receiveData_rcvNxt hnext hmerge, if_neg hnotafter, UInt32.add_comm,
        UInt32.sub_add_cancel]
    · rw [tcpUpdateSackBlocks, hmerge]
      simp only [if_neg hnotafter]
  · refine iff_of_false (fun hprogress => ?_) hnot
    obtain ⟨-, hmle, hmend⟩ := id hm
    have hrcvNxt := hprogress.rcvNxt
    rw [tcpProcessSegmentData_rcv, receiveData_rcvNxt hnext hmerge] at hrcvNxt
    have hcmp : 0 < tcpCmpSeq (seq socket.rcv.rcvNxt m.left) socket.rcv.rcvNxt ↔ 0 < m.left := by
      have hseq := cmp_seq socket.rcv.rcvNxt (x := m.left) (y := 0) (by omega) (by omega)
      rw [seq_zero] at hseq
      rw [tcpCmpSeq, hseq]
      omega
    by_cases hleft : 0 < m.left
    · -- the data is taken for data out of order
      rw [if_pos (hcmp.2 hleft), eq_comm] at hrcvNxt
      have hzero := seq_inj_of_lt (by omega) (by omega)
        (hrcvNxt.trans (seq_zero socket.rcv.rcvNxt).symm)
      have hpos : 0 < dataEnd socket.rcv segment := by
        rw [ContainsNext] at hnext
        rw [dataEnd]
        omega
      omega
    · -- RCV.NXT stops before the wrap
      have hzero : m.left = 0 := by omega
      rw [if_neg (fun h => hleft (hcmp.1 h)), hzero, seq_zero, UInt32.add_comm,
        UInt32.sub_add_cancel] at hrcvNxt
      have hright := seq_inj_of_lt (by omega) (by omega) hrcvNxt
      rcases hwrong with hlate | ⟨hearly, hlate⟩
      · rw [hzero] at hlate
        exact hlate early_zero
      · rw [hright] at hearly
        exact hlate hearly

/-- A connection to a peer with the initial sequence number `irs` that has sent two bytes, the fifth and
the sixth of its data. -/
def gapBefore (irs : UInt32) : Socket :=
  (run step (Slot.init fun _ => {}) (.open .stream 49152 :: handshake 100 irs 1000 ++
    [.segment (.ofData { ack := true } (irs + 5) 101 1000 [5, 6] (by decide)) true])).socket

/-- The first four bytes. -/
def fillGap (irs : UInt32) : Segment :=
  .ofData { ack := true } (irs + 1) 101 1000 [1, 2, 3, 4] (by decide)

theorem gapBefore_outOfOrder {irs : UInt32}
    (hblock : (gapBefore irs).rcv.sackBlock = [blockOf (gapBefore irs).rcv.rcvNxt ⟨4, 6⟩])
    (hwnd : 6 ≤ (gapBefore irs).rcv.rcvWnd.toNat) :
    OutOfOrder (gapBefore irs).rcv [⟨4, 6⟩] := by
  refine ⟨hblock, ?_, List.pairwise_singleton _ _⟩
  intro c hc
  rw [List.mem_singleton] at hc
  subst hc
  exact ⟨by decide, by decide, by decide, hwnd⟩

/-- The gap is filled where the numbers do not wrap. -/
theorem inOrderData_progress_iff_noWrap : Progress (gapBefore 500) (fillGap 500) [⟨4, 6⟩] := by
  refine (inOrderData_progress_iff (gapBefore_outOfOrder (by decide) (by decide)) (by decide)).2 ?_
  intro c hc _
  rw [List.mem_singleton] at hc
  subst hc
  exact ⟨by decide, by decide⟩

/-- The gap ends at the wrap: the four bytes are discarded, as often as they are sent. -/
theorem inOrderData_not_progress :
    (¬ ∀ (socket : Socket) (segment : Segment) (spans : List Span), OutOfOrder socket.rcv spans →
      socket.rcv.rcvWnd ≠ 0 → acceptable socket.rcv segment = true →
        ContainsNext socket.rcv segment → Progress socket segment spans) ∧
    (tcpProcessSegmentData (gapBefore 4294967293) (fillGap 4294967293)).rcv.rcvNxt = 4294967294 ∧
    (tcpProcessSegmentData (gapBefore 4294967293) (fillGap 4294967293)).rcv.sackBlock
      = (gapBefore 4294967293).rcv.sackBlock := by
  refine ⟨fun h => ?_, by decide, by decide⟩
  have hprogress := h (gapBefore 4294967293) (fillGap 4294967293) [⟨4, 6⟩]
    (gapBefore_outOfOrder (by decide) (by decide)) (by decide) (by decide) (by decide)
  exact absurd hprogress.rcvNxt (by decide)

end Tcp
