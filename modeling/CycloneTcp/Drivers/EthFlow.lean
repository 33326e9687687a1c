import CycloneTcp.Drivers.EthTransmit

set_option autoImplicit false

/-! # Flow control of transmission

The descriptors that are owned by the DMA are the `k` ones from the descriptor of the DMA on, and
hold the frames that have been accepted and not completed. -/

namespace Msp432e4Eth

variable {count txBuffer : ℕ} {s s' : Driver} {e : Event count txBuffer} {p : Packet count txBuffer}
  {i j k n : ℕ}

/-! ## The flags -/

theorem owned_set (x : UInt32) : (x ||| (EMAC_TDES0_LS ||| EMAC_TDES0_FS) ||| EMAC_TDES0_OWN) &&&
    EMAC_TDES0_OWN ≠ 0 := by
  have h : (x ||| (EMAC_TDES0_LS ||| EMAC_TDES0_FS) ||| EMAC_TDES0_OWN) &&& EMAC_TDES0_OWN =
      EMAC_TDES0_OWN := by
    apply UInt32.toBitVec_inj.1
    ext i
    simp only [UInt32.toBitVec_and, UInt32.toBitVec_or, BitVec.getElem_and, BitVec.getElem_or]
    cases EMAC_TDES0_OWN.toBitVec[i] <;> simp
  rw [h]
  decide

theorem owned_clear (x : UInt32) : x &&& ~~~EMAC_TDES0_OWN &&& EMAC_TDES0_OWN = 0 := by
  apply UInt32.toBitVec_inj.1
  ext i
  simp

/-- The number of bytes is not cut off. -/
theorem length_mask (h : n ≤ MSP432E4_ETH_TX_BUFFER_SIZE) :
    (UInt32.ofNat n &&& EMAC_TDES1_TBS1).toNat = n := by
  have hmask : EMAC_TDES1_TBS1.toNat = 2 ^ 13 - 1 := by decide
  rw [UInt32.toNat_and, hmask, Nat.and_two_pow_sub_one_eq_mod, UInt32.toNat_ofNat']
  rw [MSP432E4_ETH_TX_BUFFER_SIZE] at h
  omega

/-! ## The frame -/

theorem Packet.frame_length (p : Packet count txBuffer) :
    p.frame.length = netBufferGetLength p.buffer - p.offset := by
  rw [Packet.frame, List.length_drop, netBufferGetLength_eq p.mem]

/-- The region of a buffer is part of that of all buffers. -/
theorem bufferEnd_le (hi : i < count) (hn : n ≤ MSP432E4_ETH_TX_BUFFER_SIZE) :
    txBuffer + i * MSP432E4_ETH_TX_BUFFER_SIZE + n ≤
      txBuffer + count * MSP432E4_ETH_TX_BUFFER_SIZE := by
  have hmul : (i + 1) * MSP432E4_ETH_TX_BUFFER_SIZE ≤ count * MSP432E4_ETH_TX_BUFFER_SIZE :=
    Nat.mul_le_mul_right _ hi
  rw [Nat.succ_mul] at hmul
  omega

/-- The frame is copied as it is. -/
theorem read_frame (p : Packet count txBuffer) (hi : i < count)
    (hfit : p.frame.length ≤ MSP432E4_ETH_TX_BUFFER_SIZE) :
    (netBufferRead p.mem (txBuffer + i * MSP432E4_ETH_TX_BUFFER_SIZE) p.buffer p.offset
      p.frame.length).2.read (txBuffer + i * MSP432E4_ETH_TX_BUFFER_SIZE) p.frame.length =
        p.frame := by
  have hapart : ∀ r ∈ p.buffer.regions,
      Region.Apart ⟨txBuffer + i * MSP432E4_ETH_TX_BUFFER_SIZE, p.frame.length⟩ r := by
    intro r hr a ha
    refine p.apart r hr a ⟨?_, ?_⟩
    · exact le_trans (Nat.le_add_right _ _) ha.1
    · exact lt_of_lt_of_le ha.2 (bufferEnd_le hi hfit)
  rw [netBufferRead_flat hapart]
  refine (Memory.read_write_of_length _ _ ?_).trans ?_
  · rw [List.length_take, Packet.frame, Nat.min_self]
  · rw [Packet.frame, List.take_length]

/-- The other buffers keep what they hold. -/
theorem read_write_buffer {m : Memory UInt8} {xs : List UInt8} (hij : i ≠ j)
    (hn : n ≤ MSP432E4_ETH_TX_BUFFER_SIZE) (hxs : xs.length ≤ MSP432E4_ETH_TX_BUFFER_SIZE) :
    (m.write (txBuffer + j * MSP432E4_ETH_TX_BUFFER_SIZE) xs).read
      (txBuffer + i * MSP432E4_ETH_TX_BUFFER_SIZE) n =
        m.read (txBuffer + i * MSP432E4_ETH_TX_BUFFER_SIZE) n := by
  rcases Nat.lt_or_gt_of_ne hij with hlt | hgt
  · exact Memory.read_write_of_le m xs (bufferEnd_le hlt hn)
  · exact Memory.read_write_of_ge m xs (bufferEnd_le hgt hxs)

/-! ## The chain of descriptors -/

/-- What holds of the descriptor `i`, whoever owns it. -/
structure DescOk (count txBuffer i : ℕ) (desc : TxDmaDesc) : Prop where
  size : (desc.tdes1 &&& EMAC_TDES1_TBS1).toNat ≤ MSP432E4_ETH_TX_BUFFER_SIZE
  buffer : desc.tdes2 = txBuffer + i * MSP432E4_ETH_TX_BUFFER_SIZE
  next : desc.tdes3 = (i + 1) % count

theorem descOk_update {txDmaDesc : ℕ → TxDmaDesc} {desc : TxDmaDesc}
    (h : ∀ i < count, DescOk count txBuffer i (txDmaDesc i))
    (hdesc : DescOk count txBuffer j desc) :
    ∀ i < count, DescOk count txBuffer i (Function.update txDmaDesc j desc i) := by
  intro i hi
  by_cases hij : i = j
  · subst hij
    rw [Function.update_self]
    exact hdesc
  · rw [Function.update_of_ne hij]
    exact h i hi

theorem index_ne {d : ℕ} (hi : i < count) (hj : j < count) (hij : i ≠ j) :
    (d + i) % count ≠ (d + j) % count :=
  Ring.mod_ne (by omega) (by omega) (by omega)

/-- The state of the chain, when `k` descriptors are owned by the DMA. -/
structure Chain (count txBuffer : ℕ) (s : Driver) (k : ℕ) : Prop where
  le : k ≤ count
  dma : s.dmaCurDesc < count
  cur : s.txCurDmaDesc = (s.dmaCurDesc + k) % count
  desc : ∀ i < count, DescOk count txBuffer i (s.txDmaDesc i)
  owned : ∀ j < count, (s.Owned ((s.dmaCurDesc + j) % count) ↔ j < k)
  frames : s.accepted =
    s.sent ++ (List.range k).map fun j => s.content ((s.dmaCurDesc + j) % count)

namespace Chain

theorem count_pos (h : Chain count txBuffer s k) : 0 < count := Nat.zero_lt_of_lt h.dma

theorem cur_lt (h : Chain count txBuffer s k) : s.txCurDmaDesc < count := by
  rw [h.cur]
  exact Nat.mod_lt _ h.count_pos

/-- The current descriptor is owned by the DMA when all of them are. -/
theorem owned_cur (h : Chain count txBuffer s k) : s.Owned s.txCurDmaDesc ↔ k = count := by
  rcases Nat.lt_or_eq_of_le h.le with hlt | heq
  · rw [h.cur, h.owned k hlt]
    simp [hlt.ne]
  · have hfirst := h.owned 0 h.count_pos
    rw [h.cur, heq, Nat.add_mod_right]
    rw [Nat.add_zero, heq] at hfirst
    exact iff_of_true (hfirst.2 h.count_pos) rfl

theorem owned_dma (h : Chain count txBuffer s k) : s.Owned s.dmaCurDesc ↔ 0 < k := by
  have hfirst := h.owned 0 h.count_pos
  rwa [Nat.add_zero, Nat.mod_eq_of_lt h.dma] at hfirst

/-- The descriptor behind the current one. -/
theorem owned_next (h : Chain count txBuffer s k) (hk : k < count) :
    s.Owned (s.txDmaDesc s.txCurDmaDesc).tdes3 ↔ 0 < k ∧ k + 1 = count := by
  have hmod : (s.txCurDmaDesc + 1) % count = (s.dmaCurDesc + (k + 1)) % count := by
    rw [h.cur, Nat.mod_add_mod, Nat.add_assoc]
  rw [(h.desc _ h.cur_lt).next, hmod]
  rcases Nat.lt_or_eq_of_le hk with hlt | heq
  · rw [h.owned (k + 1) hlt]
    omega
  · rw [← Nat.succ_eq_add_one, heq, Nat.add_mod_right, Nat.mod_eq_of_lt h.dma, h.owned_dma]
    simp

/-- What the interrupt handler and the first half of a call leave alone. -/
theorem of_eq (h : Chain count txBuffer s k) (hdesc : s'.txDmaDesc = s.txDmaDesc)
    (hcur : s'.txCurDmaDesc = s.txCurDmaDesc) (hram : s'.ram = s.ram)
    (hdma : s'.dmaCurDesc = s.dmaCurDesc) (haccepted : s'.accepted = s.accepted)
    (hsent : s'.sent = s.sent) : Chain count txBuffer s' k := by
  obtain ⟨desc, cur, ram, event, dma, ti, sending, accepted, sent⟩ := s
  obtain ⟨desc', cur', ram', event', dma', ti', sending', accepted', sent'⟩ := s'
  simp only at hdesc hcur hram hdma haccepted hsent
  subst hdesc hcur hram hdma haccepted hsent
  exact ⟨h.le, h.dma, h.cur, h.desc, h.owned, h.frames⟩

/-- The DMA completes a descriptor. -/
theorem complete (h : Chain count txBuffer s (k + 1)) (status : UInt32) :
    Chain count txBuffer (dmaComplete status s) k := by
  have hown : s.Owned s.dmaCurDesc := h.owned_dma.2 (Nat.succ_pos k)
  have hdesc := h.desc _ h.dma
  have hk := h.le
  have hmod : ∀ j, ((s.txDmaDesc s.dmaCurDesc).tdes3 + j) % count =
      (s.dmaCurDesc + (j + 1)) % count := by
    intro j
    rw [hdesc.next, Nat.mod_add_mod, Nat.add_assoc, Nat.add_comm 1 j]
  have hne : ∀ j < count, 0 < j → (s.dmaCurDesc + j) % count ≠ s.dmaCurDesc := by
    intro j hj hpos heq
    refine index_ne (d := s.dmaCurDesc) hj h.count_pos hpos.ne' ?_
    rw [heq, Nat.add_zero, Nat.mod_eq_of_lt h.dma]
  rw [dmaComplete, if_pos hown]
  refine ⟨by omega, ?_, ?_, descOk_update h.desc ⟨hdesc.size, hdesc.buffer, hdesc.next⟩, ?_, ?_⟩
  · show (s.txDmaDesc s.dmaCurDesc).tdes3 < count
    rw [hdesc.next]
    exact Nat.mod_lt _ h.count_pos
  · exact h.cur.trans (hmod k).symm
  · intro j hj
    simp only [hmod, Driver.Owned]
    rcases Nat.lt_or_eq_of_le (Nat.succ_le_of_lt hj) with hlt | heq
    · rw [Function.update_of_ne (hne _ hlt (Nat.succ_pos j))]
      exact (h.owned _ hlt).trans Nat.succ_lt_succ_iff
    · rw [← Nat.succ_eq_add_one, heq, Nat.add_mod_right, Nat.mod_eq_of_lt h.dma,
        Function.update_self, owned_clear]
      simp only [ne_eq, not_true_eq_false, false_iff]
      omega
  · have hfirst : (s.dmaCurDesc + 0) % count = s.dmaCurDesc := Nat.mod_eq_of_lt h.dma
    have hframes := h.frames
    rw [List.range_succ_eq_map, List.map_cons, hfirst, List.map_map] at hframes
    rw [hframes, List.append_assoc, List.singleton_append]
    congr 2
    refine List.map_congr_left fun j hj => ?_
    have hjk := List.mem_range.1 hj
    simp only [Driver.content, Function.comp_apply, hmod]
    rw [Function.update_of_ne (hne _ (by omega) (Nat.succ_pos j))]

/-- A frame that fits is put into a free descriptor. -/
theorem fill (h : Chain count txBuffer s k) (hk : k < count)
    (hfit : p.frame.length ≤ MSP432E4_ETH_TX_BUFFER_SIZE) :
    Chain count txBuffer { fillDesc p p.frame.length s with
      accepted := s.accepted ++ [p.frame] } (k + 1) := by
  have hdesc := h.desc _ h.cur_lt
  have hcopy := read_frame p h.cur_lt hfit
  have hlen : (UInt32.ofNat p.frame.length &&& EMAC_TDES1_TBS1 &&& EMAC_TDES1_TBS1).toNat =
      p.frame.length := by
    rw [UInt32.and_assoc, UInt32.and_self, length_mask hfit]
  rw [← hdesc.buffer] at hcopy
  have hne : ∀ j < count, j ≠ k → (s.dmaCurDesc + j) % count ≠ s.txCurDmaDesc := by
    intro j hj hjk
    rw [h.cur]
    exact index_ne hj hk hjk
  rw [fillDesc, hcopy]
  refine ⟨hk, h.dma, ?_, descOk_update h.desc ⟨?_, hdesc.buffer, hdesc.next⟩, ?_, ?_⟩
  · show (s.txDmaDesc s.txCurDmaDesc).tdes3 = _
    rw [hdesc.next, h.cur, Nat.mod_add_mod, Nat.add_assoc]
  · show (UInt32.ofNat p.frame.length &&& EMAC_TDES1_TBS1 &&& EMAC_TDES1_TBS1).toNat ≤ _
    rw [hlen]
    exact hfit
  · intro j hj
    simp only [Driver.Owned]
    by_cases hjk : j = k
    · subst hjk
      rw [← h.cur, Function.update_self]
      exact iff_of_true (owned_set _) (Nat.lt_succ_self j)
    · rw [Function.update_of_ne (hne j hj hjk)]
      refine (h.owned j hj).trans ?_
      omega
  · simp only [h.frames, List.range_succ, List.map_append, List.map_singleton, List.append_assoc]
    congr 1
    refine congrArg₂ (· ++ ·) (List.map_congr_left fun j hj => ?_) (congrArg ([·]) ?_)
    · have hjk := List.mem_range.1 hj
      have hjc : (s.dmaCurDesc + j) % count < count := Nat.mod_lt _ h.count_pos
      have hcur := hne j (by omega) hjk.ne
      simp only [Driver.content]
      rw [Function.update_of_ne hcur, (h.desc _ hjc).buffer, hdesc.buffer]
      exact (read_write_buffer hcur (h.desc _ hjc).size hfit).symm
    · simp only [Driver.content]
      rw [← h.cur, Function.update_self, hlen, Memory.read_write_self]

/-- The frames that are queued, along the chain. -/
theorem queuedFrom_eq (h : Chain count txBuffer s k) (hjn : j + n = count) :
    queuedFrom s n ((s.dmaCurDesc + j) % count) =
      (List.range' j (k - j)).map fun j => s.content ((s.dmaCurDesc + j) % count) := by
  induction n generalizing j with
  | zero =>
      have hk := h.le
      rw [queuedFrom, show k - j = 0 by omega]
      rfl
  | succ n ih =>
      have hlt : (s.dmaCurDesc + j) % count < count := Nat.mod_lt _ h.count_pos
      have hnext := ih (j := j + 1) (by omega)
      rw [queuedFrom, (h.desc _ hlt).next, Nat.mod_add_mod, Nat.add_assoc, hnext]
      by_cases hjk : j < k
      · rw [if_pos ((h.owned j (by omega)).2 hjk), show k - j = k - (j + 1) + 1 by omega,
          List.range'_succ, List.map_cons]
      · rw [if_neg fun hown => hjk ((h.owned j (by omega)).1 hown), show k - j = 0 by omega]
        rfl

/-- Accepted frames are completed or queued. -/
theorem order (h : Chain count txBuffer s k) :
    s.accepted = s.sent ++ queuedFrom s count s.dmaCurDesc := by
  have hqueued := h.queuedFrom_eq (Nat.zero_add count)
  rw [Nat.add_zero, Nat.mod_eq_of_lt h.dma, Nat.sub_zero, ← List.range_eq_range'] at hqueued
  rw [hqueued, h.frames]

end Chain

/-! ## One step -/

theorem send_long (h : MSP432E4_ETH_TX_BUFFER_SIZE < p.frame.length) :
    msp432e4EthSendPacket p s = (.invalidLength, { s with nicTxEvent := true }) := by
  rw [msp432e4EthSendPacket, ← p.frame_length]
  exact if_pos h

theorem send_busy (hfit : p.frame.length ≤ MSP432E4_ETH_TX_BUFFER_SIZE)
    (hown : s.Owned s.txCurDmaDesc) : msp432e4EthSendPacket p s = (.failure, s) := by
  rw [msp432e4EthSendPacket, ← p.frame_length]
  exact (if_neg (Nat.not_lt.2 hfit)).trans (if_pos hown)

theorem send_free (hfit : p.frame.length ≤ MSP432E4_ETH_TX_BUFFER_SIZE)
    (hfree : ¬ s.Owned s.txCurDmaDesc) : msp432e4EthSendPacket p s =
      (.noError, { fillDesc p p.frame.length s with
        nicTxEvent := s.nicTxEvent ||
          !decide ((fillDesc p p.frame.length s).Owned (s.txDmaDesc s.txCurDmaDesc).tdes3) }) := by
  rw [msp432e4EthSendPacket, ← p.frame_length]
  exact (if_neg (Nat.not_lt.2 hfit)).trans (if_neg hfree)

/-- What one event does: nothing, one of the two halves of a call, the completion of a descriptor or
an interrupt. -/
inductive Cases (count txBuffer : ℕ) (s : Driver) : Event count txBuffer → Driver → Prop
  | idle (e : Event count txBuffer) : Cases count txBuffer s e s
  | wait (hevent : s.nicTxEvent = true) :
      Cases count txBuffer s .wait { s with nicTxEvent := false, sending := true }
  | long (p : Packet count txBuffer) (hsending : s.sending = true)
      (hlong : MSP432E4_ETH_TX_BUFFER_SIZE < p.frame.length) :
      Cases count txBuffer s (.send p) { s with nicTxEvent := true, sending := false }
  | busy (p : Packet count txBuffer) (hsending : s.sending = true)
      (hfit : p.frame.length ≤ MSP432E4_ETH_TX_BUFFER_SIZE) (hown : s.Owned s.txCurDmaDesc) :
      Cases count txBuffer s (.send p) { s with sending := false }
  | accept (p : Packet count txBuffer) (hsending : s.sending = true)
      (hfit : p.frame.length ≤ MSP432E4_ETH_TX_BUFFER_SIZE) (hfree : ¬ s.Owned s.txCurDmaDesc) :
      Cases count txBuffer s (.send p) { fillDesc p p.frame.length s with
        nicTxEvent := s.nicTxEvent ||
          !decide ((fillDesc p p.frame.length s).Owned (s.txDmaDesc s.txCurDmaDesc).tdes3)
        sending := false
        accepted := s.accepted ++ [p.frame] }
  | complete (status : UInt32) (hown : s.Owned s.dmaCurDesc) :
      Cases count txBuffer s (.dma status) (dmaComplete status s)
  | interrupt (hti : s.ti = true) : Cases count txBuffer s .irq { s with
      ti := false
      nicTxEvent := s.nicTxEvent || !decide (s.Owned s.txCurDmaDesc) }

theorem step_cases (s : Driver) (e : Event count txBuffer) :
    Cases count txBuffer s e (step s e) := by
  cases e with
  | wait =>
      rw [step]
      split
      next h => exact .wait h.1
      next => exact .idle _
  | send p =>
      rw [step]
      split
      next hsending =>
        rcases Nat.lt_or_ge MSP432E4_ETH_TX_BUFFER_SIZE p.frame.length with hlong | hfit
        · rw [send_long hlong]
          exact .long p hsending hlong
        · by_cases hown : s.Owned s.txCurDmaDesc
          · rw [send_busy hfit hown]
            exact .busy p hsending hfit hown
          · rw [send_free hfit hown]
            exact .accept p hsending hfit hown
      next => exact .idle _
  | dma status =>
      by_cases hown : s.Owned s.dmaCurDesc
      · exact .complete status hown
      · rw [step, dmaComplete, if_neg hown]
        exact .idle _
  | irq =>
      rw [step, EMAC0_IRQHandler]
      split
      next hti => exact .interrupt hti
      next => exact .idle _

/-! ## Who writes and who waits -/

theorem fillDesc_owned_of_ne (hi : i ≠ s.txCurDmaDesc) :
    (fillDesc p n s).Owned i ↔ s.Owned i := by
  rw [Driver.Owned, Driver.Owned, fillDesc]
  simp only [Function.update_of_ne hi]

/-- The DMA only gives descriptors back. -/
theorem owned_of_complete {status : UInt32} (h : (dmaComplete status s).Owned i) : s.Owned i := by
  rw [dmaComplete] at h
  split at h
  next hown =>
    by_cases hi : i = s.dmaCurDesc
    · rw [hi]
      exact hown
    · rw [Driver.Owned] at h ⊢
      simpa only [Function.update_of_ne hi] using h
  next => exact h

/-- What holds in every state. Whenever `nicTxEvent` is not signalled and no call is between its
halves, the interrupt that signals it is to come. -/
structure Sound (count txBuffer : ℕ) (s : Driver) : Prop where
  chain : ∃ k, Chain count txBuffer s k
  live : s.nicTxEvent = false → s.sending = false → s.Owned s.txCurDmaDesc ∨ s.ti = true

/-- `nicTxEvent` stands for a free descriptor. -/
def Ready (s : Driver) : Prop :=
  s.nicTxEvent = true ∨ s.sending = true → ¬ s.Owned s.txCurDmaDesc

/-- A call that fills the last free descriptor does not find that `nicTxEvent` has been signalled
again since it took it. -/
def Room (s : Driver) : Event count txBuffer → Prop
  | .send p => s.sending = true → s.nicTxEvent = true →
      p.frame.length ≤ MSP432E4_ETH_TX_BUFFER_SIZE →
        (s.txDmaDesc s.txCurDmaDesc).tdes3 ≠ s.txCurDmaDesc ∧
          ¬ s.Owned (s.txDmaDesc s.txCurDmaDesc).tdes3
  | _ => True

theorem not_owned_init (ram : Memory UInt8) (i : ℕ) :
    ¬ (msp432e4EthInit count txBuffer ram).Owned i := by
  have hflags : (EMAC_TDES0_IC ||| EMAC_TDES0_TCH) &&& EMAC_TDES0_OWN = 0 := by decide
  exact not_not.2 hflags

theorem sound_init (txBuffer : ℕ) (hcount : 0 < count) (ram : Memory UInt8) :
    Sound count txBuffer (msp432e4EthInit count txBuffer ram) := by
  refine ⟨⟨0, Nat.zero_le _, hcount, ?_, ?_, ?_, rfl⟩, fun hevent => nomatch hevent⟩
  · exact (Nat.zero_mod count).symm
  · intro i hi
    have hsize : ((0 : UInt32) &&& EMAC_TDES1_TBS1).toNat ≤ MSP432E4_ETH_TX_BUFFER_SIZE := by decide
    refine ⟨hsize, rfl, ?_⟩
    show (if i + 1 = count then 0 else i + 1) = (i + 1) % count
    split
    next heq => rw [heq, Nat.mod_self]
    next hne => rw [Nat.mod_eq_of_lt (by omega)]
  · intro j hj
    exact iff_of_false (not_owned_init ram _) (Nat.not_lt_zero j)

theorem ready_init (count txBuffer : ℕ) (ram : Memory UInt8) :
    Ready (msp432e4EthInit count txBuffer ram) :=
  fun _ => not_owned_init ram _

theorem sound_step (h : Sound count txBuffer s) (e : Event count txBuffer) :
    Sound count txBuffer (step s e) := by
  obtain ⟨⟨k, hchain⟩, hlive⟩ := h
  have hcases := step_cases s e
  generalize step s e = s' at hcases ⊢
  cases hcases with
  | idle => exact ⟨⟨k, hchain⟩, hlive⟩
  | wait hevent =>
      exact ⟨⟨k, hchain.of_eq rfl rfl rfl rfl rfl rfl⟩, fun _ hsending => by cases hsending⟩
  | long p hsending hlong =>
      exact ⟨⟨k, hchain.of_eq rfl rfl rfl rfl rfl rfl⟩, fun hevent => by cases hevent⟩
  | busy p hsending hfit hown =>
      exact ⟨⟨k, hchain.of_eq rfl rfl rfl rfl rfl rfl⟩, fun _ _ => .inl hown⟩
  | accept p hsending hfit hfree =>
      have hk : k < count := lt_of_le_of_ne hchain.le fun heq => hfree (hchain.owned_cur.2 heq)
      refine ⟨⟨k + 1, (hchain.fill hk hfit).of_eq rfl rfl rfl rfl rfl rfl⟩, fun hevent _ => ?_⟩
      obtain ⟨-, hnext⟩ := (Bool.or_eq_false_iff ..).1 hevent
      rw [Bool.not_eq_false', decide_eq_true_iff] at hnext
      exact .inl hnext
  | complete status hown =>
      obtain ⟨k, rfl⟩ := Nat.exists_eq_add_of_lt (hchain.owned_dma.1 hown)
      rw [Nat.zero_add] at hchain
      refine ⟨⟨k, hchain.complete status⟩, fun _ _ => .inr ?_⟩
      rw [dmaComplete, if_pos hown]
  | interrupt hti =>
      refine ⟨⟨k, hchain.of_eq rfl rfl rfl rfl rfl rfl⟩, fun hevent _ => ?_⟩
      obtain ⟨-, hnext⟩ := (Bool.or_eq_false_iff ..).1 hevent
      rw [Bool.not_eq_false', decide_eq_true_iff] at hnext
      exact .inl hnext

theorem ready_step (h : Ready s) (hroom : Room s e) : Ready (step s e) := by
  have hcases := step_cases s e
  generalize step s e = s' at hcases ⊢
  cases hcases with
  | idle => exact h
  | wait hevent => exact fun _ => h (.inl hevent)
  | long p hsending hlong => exact fun _ => h (.inr hsending)
  | busy p hsending hfit hown => exact fun _ => h (.inr hsending)
  | accept p hsending hfit hfree =>
      rintro (hevent | hsending')
      · rcases (Bool.or_eq_true_iff ..).1 hevent with hbefore | hnext
        · obtain ⟨hne, hnotowned⟩ := hroom hsending hbefore hfit
          exact fun hown => hnotowned ((fillDesc_owned_of_ne (p := p) hne).1 hown)
        · rw [Bool.not_eq_true', decide_eq_false_iff_not] at hnext
          exact hnext
      · cases hsending'
  | complete status hown =>
      have hsame : (dmaComplete status s).nicTxEvent = s.nicTxEvent ∧
          (dmaComplete status s).sending = s.sending ∧
            (dmaComplete status s).txCurDmaDesc = s.txCurDmaDesc := by
        rw [dmaComplete, if_pos hown]
        exact ⟨rfl, rfl, rfl⟩
      rw [Ready, hsame.1, hsame.2.1, hsame.2.2]
      exact fun hready hcur => h hready (owned_of_complete hcur)
  | interrupt hti =>
      rintro (hevent | hsending)
      · rcases (Bool.or_eq_true_iff ..).1 hevent with hbefore | hfree
        · exact h (.inl hbefore)
        · rw [Bool.not_eq_true', decide_eq_false_iff_not] at hfree
          exact hfree
      · exact h (.inr hsending)

/-! ## Prompt interrupts -/

/-- No call begins while the interrupt is pending. -/
def Prompt (s : Driver) : Event count txBuffer → Prop
  | .wait => s.ti = false
  | _ => True

/-- A completion that the interrupt signals during a call has left two descriptors free. -/
structure Spare (count txBuffer : ℕ) (s : Driver) : Prop where
  ready : Ready s
  spare : ∃ k, Chain count txBuffer s k ∧
    (s.sending = true → s.ti = true ∨ s.nicTxEvent = true → k + 2 ≤ count)

theorem Spare.room (h : Spare count txBuffer s) (e : Event count txBuffer) : Room s e := by
  cases e with
  | send p =>
      intro hsending hevent hfit
      obtain ⟨k, hchain, hspare⟩ := h.spare
      have hk := hspare hsending (.inr hevent)
      refine ⟨?_, fun hown => ?_⟩
      · rw [(hchain.desc _ hchain.cur_lt).next, hchain.cur, Nat.mod_add_mod, Nat.add_assoc]
        exact index_ne (by omega) (by omega) (by omega)
      · have hnext := (hchain.owned_next (by omega)).1 hown
        omega
  | _ => exact trivial

theorem spare_step (h : Spare count txBuffer s) (hprompt : Prompt s e) :
    Spare count txBuffer (step s e) := by
  refine ⟨ready_step h.ready (h.room e), ?_⟩
  obtain ⟨hready, k, hchain, hspare⟩ := h
  have hcases := step_cases s e
  generalize step s e = s' at hcases ⊢
  cases hcases with
  | idle => exact ⟨k, hchain, hspare⟩
  | wait hevent =>
      refine ⟨k, hchain.of_eq rfl rfl rfl rfl rfl rfl, fun _ hset => ?_⟩
      rcases hset with hti | hevent'
      · exact absurd (hprompt.symm.trans hti) (by decide)
      · cases hevent'
  | long p hsending hlong =>
      exact ⟨k, hchain.of_eq rfl rfl rfl rfl rfl rfl, fun hsending' => by cases hsending'⟩
  | busy p hsending hfit hown =>
      exact ⟨k, hchain.of_eq rfl rfl rfl rfl rfl rfl, fun hsending' => by cases hsending'⟩
  | accept p hsending hfit hfree =>
      have hk : k < count := lt_of_le_of_ne hchain.le fun heq => hfree (hchain.owned_cur.2 heq)
      exact ⟨k + 1, (hchain.fill hk hfit).of_eq rfl rfl rfl rfl rfl rfl,
        fun hsending' => by cases hsending'⟩
  | complete status hown =>
      obtain ⟨k, rfl⟩ := Nat.exists_eq_add_of_lt (hchain.owned_dma.1 hown)
      rw [Nat.zero_add] at hchain hspare
      refine ⟨k, hchain.complete status, fun hsending _ => ?_⟩
      rw [dmaComplete, if_pos hown] at hsending
      -- one descriptor was free during the call
      have hfree := hready (.inr hsending)
      rw [hchain.owned_cur] at hfree
      have hle := hchain.le
      omega
  | interrupt hti =>
      exact ⟨k, hchain.of_eq rfl rfl rfl rfl rfl rfl, fun hsending _ => hspare hsending (.inl hti)⟩

/-- **Prompt interrupts leave room.** -/
theorem room_of_prompt (hcount : 0 < count) (ram : Memory UInt8)
    {es : List (Event count txBuffer)}
    (hes : Along Prompt step (msp432e4EthInit count txBuffer ram) es) :
    Along Room step (msp432e4EthInit count txBuffer ram) es := by
  obtain ⟨k, hchain⟩ := (sound_init txBuffer hcount ram).chain
  have hinit : Spare count txBuffer (msp432e4EthInit count txBuffer ram) :=
    ⟨ready_init count txBuffer ram, k, hchain, fun hsending => by cases hsending⟩
  exact hes.of_invariant (fun s e h hprompt => spare_step h hprompt)
    (fun s e h _ => h.room e) hinit

/-! ## Flow control -/

/-- What a step does. Only the DMA touches its descriptors, nobody their buffers, and a frame that
fits is accepted. -/
structure StepOk (s : Driver) (e : Event count txBuffer) : Prop where
  untouched : (∀ status, e ≠ .dma status) → ∀ i < count, s.Owned i →
    (step s e).txDmaDesc i = s.txDmaDesc i
  buffers : ∀ i < count, s.Owned i →
    (step s e).ram.read (txBuffer + i * MSP432E4_ETH_TX_BUFFER_SIZE) MSP432E4_ETH_TX_BUFFER_SIZE =
      s.ram.read (txBuffer + i * MSP432E4_ETH_TX_BUFFER_SIZE) MSP432E4_ETH_TX_BUFFER_SIZE
  accepted : ∀ p, e = .send p → s.sending = true →
    p.frame.length ≤ MSP432E4_ETH_TX_BUFFER_SIZE →
      (msp432e4EthSendPacket p s).1 = .noError ∧ (step s e).accepted = s.accepted ++ [p.frame]

/-- What holds in a state: the frames that have been accepted are those that have been completed and
those that are queued, in order; a call that has taken `nicTxEvent` finds a free descriptor; and
there is something to wait for. -/
structure FlowOk (count : ℕ) (s : Driver) : Prop where
  order : s.accepted = s.sent ++ queuedFrom s count s.dmaCurDesc
  ready : s.sending = true → ¬ s.Owned s.txCurDmaDesc
  live : s.nicTxEvent = false → s.sending = false → (∃ i < count, s.Owned i) ∨ s.ti = true

theorem flowOk (h : Sound count txBuffer s) (hready : Ready s) : FlowOk count s := by
  obtain ⟨k, hchain⟩ := h.chain
  refine ⟨hchain.order, fun hsending => hready (.inr hsending), fun hevent hsending => ?_⟩
  rcases h.live hevent hsending with hown | hti
  · exact .inl ⟨_, hchain.cur_lt, hown⟩
  · exact .inr hti

theorem stepOk (h : Sound count txBuffer s) (hready : Ready s) (e : Event count txBuffer) :
    StepOk s e := by
  obtain ⟨k, hchain⟩ := h.chain
  refine ⟨?_, ?_, ?_⟩
  · intro hdma i hi hown
    have hcases := step_cases s e
    generalize step s e = s' at hcases ⊢
    cases hcases with
    | accept p hsending hfit hfree =>
        have hne : i ≠ s.txCurDmaDesc := fun heq => hfree (heq ▸ hown)
        exact Function.update_of_ne hne _ _
    | complete status hown => exact absurd rfl (hdma status)
    | _ => rfl
  · intro i hi hown
    have hcases := step_cases s e
    generalize step s e = s' at hcases ⊢
    cases hcases with
    | accept p hsending hfit hfree =>
        have hne : i ≠ s.txCurDmaDesc := fun heq => hfree (heq ▸ hown)
        have hdesc := hchain.desc _ hchain.cur_lt
        simp only [fillDesc, hdesc.buffer]
        refine read_write_buffer hne le_rfl ?_
        rw [Memory.length_read]
        exact hfit
    | complete status hown' => rw [dmaComplete, if_pos hown']
    | _ => rfl
  · rintro p rfl hsending hfit
    have hfree := hready (.inr hsending)
    rw [step, if_pos hsending, send_free hfit hfree]
    exact ⟨rfl, rfl⟩

/-- In every run along which no call that fills the last free descriptor finds `nicTxEvent`
signalled again, every step and every state reached is as it should be. -/
theorem run_flow (hcount : 0 < count) (ram : Memory UInt8) (es : List (Event count txBuffer))
    (hes : Along Room step (msp432e4EthInit count txBuffer ram) es) :
    Along StepOk step (msp432e4EthInit count txBuffer ram) es ∧
      FlowOk count (run step (msp432e4EthInit count txBuffer ram) es) := by
  have hstep : ∀ (s : Driver) (e : Event count txBuffer), Sound count txBuffer s ∧ Ready s →
      Room s e → Sound count txBuffer (step s e) ∧ Ready (step s e) :=
    fun s e h hroom => ⟨sound_step h.1 e, ready_step h.2 hroom⟩
  have hinit := And.intro (sound_init txBuffer hcount ram) (ready_init count txBuffer ram)
  refine ⟨hes.of_invariant hstep (fun s e h _ => stepOk h.1 h.2 e) hinit, ?_⟩
  obtain ⟨hsound, hready⟩ := run_invariant hstep hinit hes
  exact flowOk hsound hready

/-- A frame of one byte, behind the three transmit buffers. -/
def onePacket : Packet 3 0 where
  mem := fun _ => 0xAA
  buffer := ⟨[⟨5000, 1, 1⟩], 1⟩
  offset := 0
  inside := by decide
  apart := by
    intro r hr a ha hin
    rw [List.mem_singleton.1 hr] at hin
    exact absurd (le_trans hin.1 (le_of_lt ha.2)) (by decide)

/-- A frame is sent, completed and signalled. -/
theorem run_flow_one : Along StepOk step (msp432e4EthInit 3 0 fun _ => 0)
      [.wait, .send onePacket, .dma 0, .irq] ∧
    FlowOk 3 (run step (msp432e4EthInit 3 0 fun _ => 0) [.wait, .send onePacket, .dma 0, .irq]) :=
  have hes : Along Room step (msp432e4EthInit 3 0 fun _ => 0)
      [.wait, .send onePacket, .dma 0, .irq] :=
    ⟨trivial, fun _ hevent _ => absurd hevent (by decide), trivial, trivial, trivial⟩
  run_flow (by decide) (fun _ => 0) _ hes

/-- The first descriptor is completed, but its interrupt comes only when the third one has been
filled and a call has begun that fills the first one again: the event that is signalled then stands
for no descriptor. -/
def lateInterrupt : List (Event 3 0) :=
  [.wait, .send onePacket, .wait, .send onePacket, .dma 0, .wait, .send onePacket, .wait, .irq,
    .send onePacket, .wait, .send onePacket]

/-- The last call finds its descriptor still owned by the DMA, and the frame is lost. -/
theorem run_flow_late : ¬ ∀ es : List (Event 3 0),
    Along StepOk step (msp432e4EthInit 3 0 fun _ => 0) es ∧
      FlowOk 3 (run step (msp432e4EthInit 3 0 fun _ => 0) es) := by
  intro h
  have hlast := (h lateInterrupt).1.2.2.2.2.2.2.2.2.2.2.2.1
  have haccepted := (hlast.accepted onePacket rfl (by decide) (by decide)).1
  exact absurd haccepted (by decide)

end Msp432e4Eth
