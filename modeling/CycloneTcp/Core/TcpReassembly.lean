import CycloneTcp.Core.TcpCallSteps
import CycloneTcp.Lib.Spans

set_option autoImplicit false

/-! # Reassembly of the incoming stream

The receive side in terms of stream positions: the data byte `p` of the peer has the sequence number
`seq (irs + 1) p`. The blocks received out of order are spans of positions beyond RCV.NXT and inside
the window, apart from one another. The code merges blocks with the unsigned minimum and maximum of
sequence numbers, which are not those of the positions when the numbers wrap; it suffices that they
are one or the other. -/

namespace Tcp

open Serial

/-- The block that covers a span of the stream. -/
def blockOf (base : UInt32) (a : Span) : TcpSackBlock :=
  { leftEdge := seq base a.left, rightEdge := seq base a.right }

/-! ## Merging -/

/-- What `m` and `rest` are to the span `a` that has been merged with those of `spans` it touches. -/
structure Merged (lo hi : ℕ) (a : Span) (spans : List Span) (m : Span) (rest : List Span) :
    Prop where
  sublist : rest.Sublist spans
  inside : m.Inside lo hi
  has : ∀ p, m.Has p → a.Has p ∨ ∃ b ∈ spans, b.Has p
  apart : ∀ c : Span, c.left ≤ c.right → a.Apart c → (∀ b ∈ spans, b.Apart c) → m.Apart c
  rest_apart : spans.Pairwise Span.Apart → ∀ c ∈ rest, m.Apart c

theorem min_seq (base : UInt32) (x y : ℕ) :
    ∃ z, (z = x ∨ z = y) ∧ min (seq base x) (seq base y) = seq base z := by
  by_cases h : seq base x ≤ seq base y
  · exact ⟨x, .inl rfl, if_pos h⟩
  · exact ⟨y, .inr rfl, if_neg h⟩

theorem max_seq (base : UInt32) (x y : ℕ) :
    ∃ z, (z = x ∨ z = y) ∧ max (seq base x) (seq base y) = seq base z := by
  by_cases h : seq base x ≤ seq base y
  · exact ⟨y, .inr rfl, if_pos h⟩
  · exact ⟨x, .inl rfl, if_neg h⟩

/-- The code's test for blocks that touch. -/
theorem touches_iff (base : UInt32) {lo hi : ℕ} (hwin : hi < lo + 2 ^ 31) {a b : Span}
    (ha : a.Inside lo hi) (hb : b.Inside lo hi) :
    (0 ≤ tcpCmpSeq (seq base a.right) (seq base b.left) ∧
      tcpCmpSeq (seq base a.left) (seq base b.right) ≤ 0) ↔ a.Touches b := by
  simp only [Span.Inside] at ha hb
  rw [tcpCmpSeq, tcpCmpSeq, cmp_seq base (by omega) (by omega), cmp_seq base (by omega) (by omega),
    Span.Touches]
  omega

theorem mergeSackBlocks_spec (base : UInt32) {lo hi : ℕ} (hwin : hi < lo + 2 ^ 31)
    (spans : List Span) (hspans : ∀ b ∈ spans, b.Inside lo hi) (a : Span) (ha : a.Inside lo hi) :
    ∃ m rest, mergeSackBlocks (seq base a.left) (seq base a.right) (spans.map (blockOf base))
      = (seq base m.left, seq base m.right, rest.map (blockOf base)) ∧
        Merged lo hi a spans m rest := by
  induction spans generalizing a with
  | nil =>
      exact ⟨a, [], rfl, .refl _, ha, fun _ => .inl, fun _ _ hac _ => hac, by simp⟩
  | cons b bs ih =>
      have hb := hspans b (by simp)
      have hbs : ∀ c ∈ bs, c.Inside lo hi := fun c hc => hspans c (by simp [hc])
      rw [List.map_cons, mergeSackBlocks]
      simp only [blockOf, touches_iff base hwin ha hb]
      split
      case isTrue htouch =>
        obtain ⟨left, hleft, hmin⟩ := min_seq base a.left b.left
        obtain ⟨right, hright, hmax⟩ := max_seq base a.right b.right
        have hm : Span.Between a b ⟨left, right⟩ := ⟨hleft, hright⟩
        rw [hmin, hmax]
        obtain ⟨m, rest, heq, h⟩ := ih hbs ⟨left, right⟩ (Span.inside_of_between ha hb htouch hm)
        refine ⟨m, rest, heq, h.sublist.cons b, h.inside, ?_, ?_, ?_⟩
        · intro p hp
          rcases h.has p hp with hp | ⟨c, hc, hp⟩
          · rcases Span.has_of_between htouch hm hp with hp | hp
            · exact .inl hp
            · exact .inr ⟨b, by simp, hp⟩
          · exact .inr ⟨c, by simp [hc], hp⟩
        · intro c hc hac hbsc
          refine h.apart c hc ?_ fun d hd => hbsc d (by simp [hd])
          exact Span.apart_of_between hc htouch hm hac (hbsc b (by simp))
        · intro hpair
          exact h.rest_apart (List.pairwise_cons.1 hpair).2
      case isFalse hapart =>
        obtain ⟨m, rest, heq, h⟩ := ih hbs a ha
        refine ⟨m, b :: rest, ?_, h.sublist.cons_cons b, h.inside, ?_, ?_, ?_⟩
        · simp only [heq, List.map_cons, blockOf]
        · intro p hp
          rcases h.has p hp with hp | ⟨c, hc, hp⟩
          · exact .inl hp
          · exact .inr ⟨c, by simp [hc], hp⟩
        · intro c hc hac hbsc
          exact h.apart c hc hac fun d hd => hbsc d (by simp [hd])
        · intro hpair
          rw [List.pairwise_cons] at hpair
          intro c hc
          rcases List.mem_cons.1 hc with rfl | hc
          · exact h.apart c hb.2.1 hapart fun d hd => (hpair.1 d hd).symm
          · exact h.rest_apart hpair.2 c hc

/-! ## Trimming -/

theorem seq_seq (base : UInt32) (n d : ℕ) : seq (seq base n) d = seq base (n + d) := by
  rw [seq, seq_add]

theorem seq_turn (base : UInt32) (p : ℕ) : seq base (p + 2 ^ 32) = seq base p := by
  apply UInt32.toNat_inj.1
  rw [seq_toNat, seq_toNat]
  omega

theorem add_word_seq (nxt : UInt32) (w : UInt16) : nxt + w.toUInt32 = seq nxt w.toNat := by
  have h := seq_add_word nxt 0 w
  rwa [seq_zero, Nat.zero_add] at h

/-- The test for a sequence number in the window of size `w`. -/
theorem in_window_iff (q nxt : UInt32) (w : UInt16) :
    (0 ≤ tcpCmpSeq q nxt ∧ tcpCmpSeq q (nxt + w.toUInt32) < 0) ↔ (q - nxt).toNat < w.toNat := by
  have hw := w.toNat_lt
  rw [tcpCmpSeq, cmp_nonneg]
  by_cases hd : (q - nxt).toNat < 2 ^ 31
  · have hq : q = seq nxt (q - nxt).toNat := (Serial.seq_dist nxt q).symm
    generalize (q - nxt).toNat = d at hq hd ⊢
    rw [hq, add_word_seq, tcpCmpSeq, cmp_seq nxt (by omega) (by omega)]
    omega
  · constructor
    · exact fun h => absurd h.1 hd
    · intro h
      exact absurd (lt_trans h (by omega)) hd

/-- An acceptable segment with data has its first or its last byte in the window. -/
theorem acceptable_iff {rcv : ReceiveSide} {segment : Segment} (hlen : 0 < segment.length) :
    acceptable rcv segment = true ↔ rcv.rcvWnd ≠ 0 ∧
      ((segment.seqNum - rcv.rcvNxt).toNat < rcv.rcvWnd.toNat ∨
        (segment.seqNum + UInt32.ofNat segment.length - 1 - rcv.rcvNxt).toNat
          < rcv.rcvWnd.toNat) := by
  rw [acceptable, if_neg (by omega), if_neg (by omega)]
  by_cases hwnd : rcv.rcvWnd = 0
  · simp [hwnd]
  · rw [if_pos hwnd]
    simp only [Bool.or_eq_true, Bool.and_eq_true, decide_eq_true_eq, in_window_iff, ne_eq, hwnd,
      not_false_eq_true, true_and]

/-- The part of the segment that is inside the window: positions `a` to `b`. -/
structure Trimmed (rcv : ReceiveSide) (segment : Segment) (n a b : ℕ) : Prop where
  left_ge : n ≤ a
  lt : a < b
  right_le : b ≤ n + rcv.rcvWnd.toNat
  within : (seq (rcv.irs + 1) a - segment.seqNum).toNat + (b - a) ≤ segment.length

theorem receiveData_trimmed {rcv : ReceiveSide} {segment : Segment} {n : ℕ}
    (hnxt : rcv.rcvNxt = seq (rcv.irs + 1) n) (hacc : acceptable rcv segment = true)
    (hlen : 0 < segment.length) :
    ∃ a b, Trimmed rcv segment n a b ∧
      (if tcpCmpSeq segment.seqNum rcv.rcvNxt < 0 then
        (segment.offset + (rcv.rcvNxt - segment.seqNum).toNat, rcv.rcvNxt)
      else (segment.offset, segment.seqNum))
        = (segment.offset + (seq (rcv.irs + 1) a - segment.seqNum).toNat, seq (rcv.irs + 1) a) ∧
      (if 0 < tcpCmpSeq (segment.seqNum + UInt32.ofNat segment.length)
          (rcv.rcvNxt + rcv.rcvWnd.toUInt32) then rcv.rcvNxt + rcv.rcvWnd.toUInt32
      else segment.seqNum + UInt32.ofNat segment.length) = seq (rcv.irs + 1) b := by
  have hlen16 := segment.length_lt
  have hwnd16 := rcv.rcvWnd.toNat_lt
  have hq : segment.seqNum = seq rcv.rcvNxt (segment.seqNum - rcv.rcvNxt).toNat :=
    (Serial.seq_dist _ _).symm
  have hd32 := (segment.seqNum - rcv.rcvNxt).toNat_lt
  obtain ⟨hwnd, hin⟩ := (acceptable_iff hlen).1 hacc
  have hlast : (segment.seqNum + UInt32.ofNat segment.length - 1 - rcv.rcvNxt).toNat
      = ((segment.seqNum - rcv.rcvNxt).toNat + segment.length - 1) % 2 ^ 32 := by
    have h1 : segment.seqNum + UInt32.ofNat segment.length - 1
        = seq rcv.rcvNxt ((segment.seqNum - rcv.rcvNxt).toNat + segment.length - 1) := by
      conv_lhs => rw [hq]
      rw [seq_add, show (1 : UInt32) = UInt32.ofNat 1 from rfl, seq_sub _ (by omega)]
    rw [h1, seq_sub_base]
  rw [hlast] at hin
  have hright : segment.seqNum + UInt32.ofNat segment.length
      = seq rcv.rcvNxt ((segment.seqNum - rcv.rcvNxt).toNat + segment.length) := by
    conv_lhs => rw [hq]
    rw [seq_add]
  have hedge : rcv.rcvNxt + rcv.rcvWnd.toUInt32 = seq rcv.rcvNxt rcv.rcvWnd.toNat := add_word_seq _ _
  have hbase : ∀ x, seq (rcv.irs + 1) (n + x) = seq rcv.rcvNxt x := fun x => by rw [hnxt, seq_seq]
  generalize hd : (segment.seqNum - rcv.rcvNxt).toNat = d at *
  by_cases hle : d < 2 ^ 31
  · -- the segment begins in the window
    refine ⟨n + d, n + min (d + segment.length) rcv.rcvWnd.toNat, ⟨?_, ?_, ?_, ?_⟩, ?_, ?_⟩
    · omega
    · omega
    · omega
    · rw [hbase, ← hq, UInt32.sub_self]
      simp only [UInt32.toNat_zero]
      omega
    · have hcmp : ¬ tcpCmpSeq segment.seqNum rcv.rcvNxt < 0 := by
        rw [not_lt, tcpCmpSeq, cmp_nonneg, hd]
        exact hle
      rw [if_neg hcmp, hbase, ← hq, UInt32.sub_self]
      simp
    · rw [hright, hedge, hbase, tcpCmpSeq, cmp_seq _ (by omega) (by omega)]
      split
      · rw [Nat.min_eq_right (by omega)]
      · rw [Nat.min_eq_left (by omega)]
  · -- the segment begins before RCV.NXT and ends in the window
    obtain ⟨e, he⟩ : ∃ e, d + segment.length = e + 2 ^ 32 :=
      Nat.exists_eq_add_of_le' (by omega)
    have hback : (rcv.rcvNxt - segment.seqNum).toNat = 2 ^ 32 - d := by
      have := rcv.rcvNxt.toNat_lt
      have := segment.seqNum.toNat_lt
      rw [UInt32.toNat_sub] at hd ⊢
      omega
    refine ⟨n, n + min e rcv.rcvWnd.toNat, ⟨le_rfl, ?_, ?_, ?_⟩, ?_, ?_⟩
    · omega
    · omega
    · rw [← hnxt, hback]
      omega
    · have hcmp : tcpCmpSeq segment.seqNum rcv.rcvNxt < 0 := by
        rw [← not_le, tcpCmpSeq, cmp_nonneg, hd]
        exact hle
      rw [if_pos hcmp, ← hnxt]
    · rw [hright, hedge, hbase, he, seq_turn, tcpCmpSeq, cmp_seq _ (by omega) (by omega)]
      split
      · rw [Nat.min_eq_right (by omega)]
      · rw [Nat.min_eq_left (by omega)]

/-! ## Incoming data -/

/-- `n` bytes of the stream have been received in order, and those of `spans` beyond them. -/
structure Reassembly (rcv : ReceiveSide) (n : ℕ) (spans : List Span) : Prop where
  rcvNxt : rcv.rcvNxt = seq (rcv.irs + 1) n
  room : rcv.rcvUser.toNat + rcv.rcvWnd.toNat ≤ rcv.rxBufferSize
  size : rcv.rxBufferSize ≤ TCP_MAX_RX_BUFFER_SIZE
  sackBlock : rcv.sackBlock = spans.map (blockOf (rcv.irs + 1))
  inside : ∀ c ∈ spans, n < c.left ∧ c.Inside n (n + rcv.rcvWnd.toNat)
  apart : spans.Pairwise Span.Apart

/-- What `receiveData` does with positions `a` to `b` of the stream: they are stored, and RCV.NXT
advances by `k`. -/
structure Stored (rcv : ReceiveSide) (segment : Segment) (n : ℕ) (spans : List Span) (a b k : ℕ)
    (spans' : List Span) (rcv' : ReceiveSide) : Prop where
  trimmed : Trimmed rcv segment n a b
  irs : rcv'.irs = rcv.irs
  rxBufferSize : rcv'.rxBufferSize = rcv.rxBufferSize
  rcvUser : rcv'.rcvUser.toNat = rcv.rcvUser.toNat + k
  rcvWnd : rcv'.rcvWnd.toNat + k = rcv.rcvWnd.toNat
  rxBuffer : rcv'.rxBuffer = (tcpWriteRxBuffer rcv (seq (rcv.irs + 1) a) segment.buffer
    (segment.offset + (seq (rcv.irs + 1) a - segment.seqNum).toNat) (b - a)).rxBuffer
  has : ∀ p, (n ≤ p ∧ p < n + k ∨ ∃ c ∈ spans', c.Has p) →
    (a ≤ p ∧ p < b) ∨ ∃ c ∈ spans, c.Has p

theorem tcpWriteRxBuffer_frame (rcv : ReceiveSide) (q : UInt32) (data : FlatBuffer) (o len : ℕ) :
    ∃ rxBuffer, tcpWriteRxBuffer rcv q data o len = { rcv with rxBuffer := rxBuffer } := by
  rw [tcpWriteRxBuffer]
  split
  · exact ⟨_, rfl⟩
  · exact ⟨_, rfl⟩

/-- **Incoming data is stored where it belongs in the stream.** -/
theorem receiveData_spec {rcv : ReceiveSide} {segment : Segment} {n : ℕ} {spans : List Span}
    (h : Reassembly rcv n spans) (hacc : acceptable rcv segment = true)
    (hlen : 0 < segment.length) :
    ∃ a b k spans', Reassembly (receiveData rcv segment) (n + k) spans' ∧
      Stored rcv segment n spans a b k spans' (receiveData rcv segment) := by
  obtain ⟨a, b, htrim, hleft, hright⟩ := receiveData_trimmed h.rcvNxt hacc hlen
  have hwnd16 := rcv.rcvWnd.toNat_lt
  have huser16 := rcv.rcvUser.toNat_lt
  have hroom := h.room
  have hsize := h.size
  rw [TCP_MAX_RX_BUFFER_SIZE] at hsize
  have ha : (⟨a, b⟩ : Span).Inside n (n + rcv.rcvWnd.toNat) :=
    ⟨htrim.left_ge, htrim.lt.le, htrim.right_le⟩
  have hab : (seq (rcv.irs + 1) b - seq (rcv.irs + 1) a).toNat = b - a :=
    sub_toNat _ htrim.lt.le (by have := htrim.left_ge; have := htrim.right_le; omega)
  obtain ⟨m, rest, hmerge, hm⟩ := mergeSackBlocks_spec (rcv.irs + 1) (by omega) spans
    (fun c hc => (h.inside c hc).2) ⟨a, b⟩ ha
  rw [← h.sackBlock] at hmerge
  obtain ⟨rxBuffer, hwrite⟩ := tcpWriteRxBuffer_frame rcv (seq (rcv.irs + 1) a) segment.buffer
    (segment.offset + (seq (rcv.irs + 1) a - segment.seqNum).toNat) (b - a)
  have hmin := hm.inside
  rw [Span.Inside] at hmin
  have hcmp : 0 < tcpCmpSeq (seq (rcv.irs + 1) m.left) rcv.rcvNxt ↔ n < m.left := by
    rw [h.rcvNxt, tcpCmpSeq, cmp_seq _ (by omega) (by omega)]
    omega
  have hrest : ∀ c ∈ rest, n < c.left ∧ c.Inside n (n + rcv.rcvWnd.toNat) := fun c hc =>
    h.inside c (hm.sublist.subset hc)
  have hpair : rest.Pairwise Span.Apart := h.apart.sublist hm.sublist
  have heq : receiveData rcv segment =
      if n < m.left then
        { rcv with
          rxBuffer := rxBuffer
          sackBlock := ((m :: rest).take TCP_MAX_SACK_BLOCKS).map (blockOf (rcv.irs + 1)) }
      else ReceiveSide.advance
        { rcv with rxBuffer := rxBuffer, sackBlock := rest.map (blockOf (rcv.irs + 1)) }
        (seq (rcv.irs + 1) m.right - seq (rcv.irs + 1) m.left) := by
    rw [receiveData]
    simp only [hleft, hright, hab, hwrite, tcpUpdateSackBlocks, hmerge, hcmp]
    split
    · rw [List.map_take, List.map_cons, blockOf]
    · rfl
  rw [heq]
  split
  case isTrue hgap =>
    refine ⟨a, b, 0, (m :: rest).take TCP_MAX_SACK_BLOCKS,
      ⟨h.rcvNxt, h.room, h.size, rfl, ?_, ?_⟩,
      ⟨htrim, rfl, rfl, rfl, rfl, by rw [hwrite], ?_⟩⟩
    · intro c hc
      rcases List.mem_cons.1 (List.mem_of_mem_take hc) with rfl | hc
      · exact ⟨hgap, hm.inside⟩
      · exact hrest c hc
    · refine List.Pairwise.sublist (List.take_sublist _ _) (List.pairwise_cons.2 ⟨?_, hpair⟩)
      exact hm.rest_apart h.apart
    · rintro p (hp | ⟨c, hc, hp⟩)
      · omega
      · rcases List.mem_cons.1 (List.mem_of_mem_take hc) with rfl | hc
        · exact hm.has p hp
        · exact .inr ⟨c, hm.sublist.subset hc, hp⟩
  case isFalse hgap =>
    have hn : m.left = n := by omega
    obtain ⟨k, hk⟩ := Nat.exists_eq_add_of_le (hn ▸ hmin.2.1 : n ≤ m.right)
    have hlength : (seq (rcv.irs + 1) m.right - seq (rcv.irs + 1) m.left).toNat = k := by
      rw [sub_toNat _ hmin.2.1 (by omega)]
      omega
    generalize hword : seq (rcv.irs + 1) m.right - seq (rcv.irs + 1) m.left = length at *
    have hlength16 : length.toUInt16.toNat = k := by
      rw [UInt32.toNat_toUInt16, hlength]
      omega
    have huser : (rcv.rcvUser + length.toUInt16).toNat = rcv.rcvUser.toNat + k := by
      rw [UInt16.toNat_add, hlength16]
      omega
    have hwnd : (rcv.rcvWnd - length.toUInt16).toNat + k = rcv.rcvWnd.toNat := by
      rw [UInt16.toNat_sub_of_le _ _ (by rw [UInt16.le_iff_toNat_le, hlength16]; omega), hlength16]
      omega
    refine ⟨a, b, k, rest, ⟨?_, ?_, h.size, rfl, ?_, hpair⟩,
      ⟨htrim, rfl, rfl, huser, hwnd, by rw [hwrite]; rfl, ?_⟩⟩
    · change rcv.rcvNxt + length = seq (rcv.irs + 1) (n + k)
      rw [← UInt32.ofNat_toNat (x := length), hlength, h.rcvNxt, seq_add]
    · change (rcv.rcvUser + length.toUInt16).toNat + (rcv.rcvWnd - length.toUInt16).toNat
        ≤ rcv.rxBufferSize
      omega
    · intro c hc
      change _ ∧ c.Inside (n + k) (n + k + (rcv.rcvWnd - length.toUInt16).toNat)
      have hc1 := hrest c hc
      have hc2 := hm.rest_apart h.apart c hc
      simp only [Span.Inside, Span.Apart, Span.Touches] at hc1 hc2 ⊢
      omega
    · rintro p (hp | ⟨c, hc, hp⟩)
      · exact hm.has p ⟨by omega, by omega⟩
      · exact .inr ⟨c, hm.sublist.subset hc, hp⟩

end Tcp
