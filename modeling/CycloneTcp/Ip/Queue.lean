import CycloneTcp.Ip.Entry
import CycloneTcp.Lib.Runs

/-! # The reassembly queue

Datagrams are split, and their packets arrive in any order, any number of times, together with the
packets of other datagrams. For every datagram the specification remembers which blocks have arrived
since it was last handed over. The queue does the same as long as it has an entry for the packets:
an entry for every datagram of which some blocks have arrived, and a datagram handed over whenever
the last block of it arrives. Nothing is said about the packets of the other datagrams, but they
touch none of these entries. -/

set_option autoImplicit false

namespace Ip

open HoleList

variable {P H K ι : Type*} {n : ℕ}

/-! ## Sources -/

/-- Datagrams, their packets, and what the protocol sees in the packets. -/
structure Source (r : Protocol P H K) (ι : Type*) where
  split : ι → Split
  packet : ι → ℕ → P
  key : ι → K
  header : ι → H × ℕ
  fragment : ∀ d i, (split d).Has i → r.fragment (packet d i) = (split d).fragment i
  key_packet : ∀ d i, (split d).Has i → r.key (packet d i) = key d
  key_injective : Function.Injective key
  firstHeader : ∀ d, (split d).Has 0 → r.firstHeader (packet d 0) = header d
  newLength : ∀ d i, (split d).Has i → (r.newHeader (packet d i)).2 = (header d).2
  size : ∀ d, (header d).2 + (split d).len ≤ r.maxDatagramSize
  headerFits : ∀ d, (header d).2 ≤ NET_MEM_POOL_BUFFER_SIZE

/-- All blocks have arrived. -/
def Complete (d : Split) (received : Finset ℕ) : Prop := ∀ j, d.Has j → j ∈ received

theorem complete_iff (d : Split) (received : Finset ℕ) :
    Complete d received ↔ ∀ j ∈ Finset.range d.len, d.Has j → j ∈ received := by
  refine ⟨fun h j _ hj => h j hj, fun h j hj => h j (Finset.mem_range.2 ?_) hj⟩
  have hlt : j * d.size < d.len := hj
  exact Nat.lt_of_le_of_lt (Nat.le_mul_of_pos_right j d.size_pos) hlt

instance (d : Split) (received : Finset ℕ) : Decidable (Complete d received) :=
  decidable_of_iff _ (complete_iff d received).symm

section Entries

variable {r : Protocol P H K} (src : Source r ι)

/-- The datagram with its reconstructed header. -/
def Source.datagram (d : ι) : H × List UInt8 :=
  (r.fixHeader (src.header d).1 (src.header d).2 (src.split d).len, (src.split d).payload)

/-- The entry is in use, and it is that of the datagram with this key. -/
def FragDesc.Of (r : Protocol P H K) (frag : FragDesc H) (key : K) : Prop :=
  frag.used = true ∧ r.headerKey frag.header = key

instance [DecidableEq K] (frag : FragDesc H) (key : K) : Decidable (frag.Of r key) :=
  inferInstanceAs (Decidable (_ ∧ _))

/-- The entry of a datagram of which some blocks have arrived. -/
structure Keeps (frag : FragDesc H) (d : ι) (received : Finset ℕ) : Prop where
  is_of : frag.Of r (src.key d)
  headerLength : frag.headerLength = (src.header d).2
  header : 0 ∈ received → frag.header = (src.header d).1
  holds : ∃ hs, (src.split d).Holds frag.holes frag.dataLen received hs

variable {src}

/-- A new entry has no block. -/
theorem keeps_create (pool : Pool) {d : ι} {i : ℕ} (hi : (src.split d).Has i) :
    Keeps src (FragDesc.create r pool (src.packet d i)) d ∅ where
  is_of := ⟨rfl, (r.headerKey_newHeader _).trans (src.key_packet d i hi)⟩
  headerLength := src.newLength d i hi
  header h := absurd h (Finset.notMem_empty 0)
  holds := ⟨_, Split.holds_create hi.zero pool.contents⟩

/-- The first fragment supplies the header. -/
theorem Keeps.first {frag : FragDesc H} {d : ι} {received : Finset ℕ}
    (h : Keeps src frag d received) (hzero : (src.split d).Has 0) :
    Keeps src (firstFragment r frag (src.packet d 0)) d received ∧
      (firstFragment r frag (src.packet d 0)).header = (src.header d).1 := by
  obtain ⟨hs, hholds⟩ := h.holds
  have hsize := src.size d
  have hle := hholds.dataLen_le
  have hfits := src.headerFits d
  have heq : firstFragment r frag (src.packet d 0)
      = { frag with headerLength := (src.header d).2, header := (src.header d).1 } := by
    simp only [firstFragment, src.firstHeader d hzero]
    rw [if_neg (by omega), if_neg (by omega)]
  have hkey : r.headerKey (src.header d).1 = src.key d := by
    rw [← src.firstHeader d hzero, r.headerKey_firstHeader, src.key_packet d 0 hzero]
  rw [heq]
  exact ⟨⟨⟨h.is_of.1, hkey⟩, rfl, fun _ => rfl, hs, hholds⟩, rfl⟩

/-- The buffer is made large enough for a block. -/
theorem Keeps.grow {frag : FragDesc H} {d : ι} {received : Finset ℕ}
    (h : Keeps src frag d received) {pool : Pool} (hpool : pool.grow = true) {dataLast : UInt16}
    (hlast : dataLast.toNat ≤ (src.split d).len) :
    Keeps src (growBuffer r pool frag dataLast) d received ∧
      (growBuffer r pool frag dataLast).header = frag.header ∧
      dataLast.toNat ≤ (growBuffer r pool frag dataLast).dataLen := by
  obtain ⟨hs, hholds⟩ := h.holds
  have hsize := src.size d
  have hhl := h.headerLength
  unfold growBuffer
  split
  case isTrue hgt =>
    rw [if_neg (by omega)]
    exact ⟨⟨h.is_of, h.headerLength, h.header, hs, hholds.grow (Nat.le_of_lt hgt) hlast⟩, rfl,
      Nat.le_refl _⟩
  case isFalse hle => exact ⟨h, rfl, Nat.le_of_not_lt hle⟩

/-- A packet of the datagram: the block is put in place, or the datagram is handed over. -/
theorem Keeps.process {frag : FragDesc H} {d : ι} {received : Finset ℕ}
    (h : Keeps src frag d received) {pool : Pool} (hpool : pool.grow = true) {i : ℕ}
    (hi : (src.split d).Has i) :
    ∃ frag', processFragment r pool frag (src.packet d i) = some (frag',
        if Complete (src.split d) (insert i received) then some (src.datagram d) else none) ∧
      if Complete (src.split d) (insert i received) then frag'.used = false
      else Keeps src frag' d (insert i received) := by
  have hfragment := src.fragment d i hi
  -- the header
  obtain ⟨frag1, hfrag1, hkeeps1, hheader1⟩ : ∃ frag1,
      (if ((src.split d).fragment i).dataFirst = 0 then firstFragment r frag (src.packet d i)
        else frag) = frag1 ∧ Keeps src frag1 d received ∧
      (0 ∈ insert i received → frag1.header = (src.header d).1) := by
    by_cases hzero : i = 0
    · subst hzero
      have hfirst : ((src.split d).fragment 0).dataFirst = 0 := by
        apply UInt16.toNat_inj.1
        rw [hi.first_toNat, Nat.zero_mul]
        rfl
      obtain ⟨hkeeps, hheader⟩ := h.first hi
      exact ⟨_, if_pos hfirst, hkeeps, fun _ => hheader⟩
    · have hfirst : ¬ ((src.split d).fragment i).dataFirst = 0 := by
        intro heq
        have := hi.first_toNat
        rw [heq] at this
        have hpos := Nat.mul_pos (Nat.pos_of_ne_zero hzero) (src.split d).size_pos
        have : (0 : UInt16).toNat = 0 := rfl
        omega
      refine ⟨_, if_neg hfirst, h, fun hmem => h.header ?_⟩
      exact (Finset.mem_insert.1 hmem).resolve_left (Ne.symm hzero)
  -- the size of the buffer
  have hlast := hi.last_toNat
  set dataLast : UInt16 := ((src.split d).fragment i).dataFirst
    + UInt16.ofNat ((src.split d).fragment i).data.length with hdataLast
  obtain ⟨hkeeps2, hheader2, hroom⟩ := hkeeps1.grow hpool
    (by rw [hlast]; exact Split.blockEnd_le i : dataLast.toNat ≤ _)
  have hprocess : processFragment r pool frag (src.packet d i)
      = insertFragment r (growBuffer r pool frag1 dataLast) ((src.split d).fragment i)
          dataLast := by
    simp only [processFragment, hfragment, hfrag1]
    rw [if_pos hkeeps1.is_of.1, if_pos hkeeps2.is_of.1]
  rw [hprocess]
  generalize growBuffer r pool frag1 dataLast = frag2 at hkeeps2 hheader2 hroom ⊢
  -- the block
  obtain ⟨hs, hholds⟩ := hkeeps2.holds
  obtain ⟨holes, hupdate, hs', hplaced⟩ := hholds.place hi (by rw [← hlast]; exact hroom)
  obtain ⟨hnone, hpayload⟩ := hplaced.complete
  rw [← hdataLast] at hupdate
  simp only [insertFragment, hupdate]
  by_cases hall : Complete (src.split d) (insert i received)
  · have hlen : frag2.dataLen = (src.split d).len := by
      have := congrArg List.length (hpayload hall)
      rwa [Memory.length_read] at this
    rw [if_pos (hnone.2 hall), if_pos hall, hpayload hall, hheader2,
      hheader1 (hall 0 hi.zero), hkeeps2.headerLength, hlen]
    refine ⟨_, rfl, ?_⟩
    rw [if_pos hall]
    rfl
  · rw [if_neg fun h => hall (hnone.1 h), if_neg hall]
    refine ⟨_, rfl, ?_⟩
    rw [if_neg hall]
    refine ⟨hkeeps2.is_of, hkeeps2.headerLength, ?_, hs', hplaced⟩
    exact fun hmem => hheader2.trans (hheader1 hmem)

end Entries

/-! ## Entries of other datagrams -/

section Keys

variable {r : Protocol P H K} {queue queue' : Fin n → FragDesc H} {pool : Pool}
  {packet : P}

/-- Is there an entry for the datagram of the packet, or a free one? -/
def HasSlot (r : Protocol P H K) (queue : Fin n → FragDesc H) (packet : P) : Prop :=
  (∃ k, (queue k).Of r (r.key packet)) ∨ ∃ k, (queue k).used = false

instance [DecidableEq K] : Decidable (HasSlot r queue packet) := inferInstanceAs (Decidable (_ ∨ _))

theorem of_iff [DecidableEq K] (frag : FragDesc H) :
    (frag.used && decide (r.headerKey frag.header = r.key packet)) = true ↔
      frag.Of r (r.key packet) := by
  rw [Bool.and_eq_true, decide_eq_true_eq]
  rfl

/-- The search finds an entry of the datagram, or it makes one if there is none. -/
theorem search_cases [DecidableEq K] {k : Fin n}
    (h : searchFragQueue r pool queue packet = some (k, queue')) :
    (queue' = queue ∧ (queue k).Of r (r.key packet)) ∨
      (queue' = Function.update queue k (FragDesc.create r pool packet) ∧ (queue k).used = false ∧
        ∀ k', ¬ (queue k').Of r (r.key packet)) := by
  unfold searchFragQueue at h
  split at h
  case h_1 k' hfind =>
    cases h
    exact Or.inl ⟨rfl, (of_iff _).1 (List.find?_some (p := fun k' => (queue k').used &&
      decide (r.headerKey (queue k').header = r.key packet)) hfind)⟩
  case h_2 hfind =>
    split at h
    case h_2 => cases h
    case h_1 k' hfree =>
      split at h
      case isFalse => cases h
      case isTrue =>
        cases h
        have hunused : (!(queue k).used) = true :=
          List.find?_some (p := fun k => !(queue k).used) hfree
        refine Or.inr ⟨rfl, by simpa using hunused, fun k' hk' => ?_⟩
        exact List.find?_eq_none.1 hfind k' (List.mem_finRange k') ((of_iff _).2 hk')

/-- There is an entry for the packet. -/
theorem search_some [DecidableEq K] (hpool : pool.create = true) (hslot : HasSlot r queue packet) :
    ∃ k queue', searchFragQueue r pool queue packet = some (k, queue') := by
  unfold searchFragQueue
  split
  case h_1 k _ => exact ⟨k, queue, rfl⟩
  case h_2 hfind =>
    obtain ⟨free, hfree⟩ : ∃ k, (queue k).used = false := by
      rcases hslot with ⟨k, hk⟩ | hfree
      · exact absurd ((of_iff _).2 hk) (List.find?_eq_none.1 hfind k (List.mem_finRange k))
      · exact hfree
    split
    case h_1 k _ => exact ⟨k, _, if_pos hpool⟩
    case h_2 hfind' =>
      refine absurd (List.find?_eq_none.1 hfind' free (List.mem_finRange free)) ?_
      rw [hfree]
      decide

/-- An entry keeps its key. -/
theorem processFragment_key {frag frag' : FragDesc H} {out : Option (H × List UInt8)}
    (hkey : r.headerKey frag.header = r.key packet)
    (h : processFragment r pool frag packet = some (frag', out)) :
    r.headerKey frag'.header = r.key packet ∧
      ∀ datagram ∈ out, r.headerKey datagram.1 = r.key packet := by
  have hfirst : r.headerKey (if (r.fragment packet).dataFirst = 0 then firstFragment r frag packet
      else frag).header = r.key packet := by
    split
    · unfold firstFragment
      dsimp only
      split
      · exact hkey
      · split
        · exact hkey
        · exact r.headerKey_firstHeader packet
    · exact hkey
  have hgrow : ∀ (frag : FragDesc H) (dataLast : UInt16),
      (growBuffer r pool frag dataLast).header = frag.header := by
    intro frag dataLast
    unfold growBuffer
    split
    · split
      · rfl
      · split <;> rfl
    · rfl
  unfold processFragment at h
  dsimp only at h
  generalize (if (r.fragment packet).dataFirst = 0 then firstFragment r frag packet else frag)
    = frag1 at h hfirst
  by_cases hused : frag1.used = true
  case neg =>
    rw [if_neg hused] at h
    cases h
    exact ⟨hfirst, fun _ hmem => by cases hmem⟩
  case pos =>
    rw [if_pos hused] at h
    have hkey2 := hfirst
    rw [← hgrow frag1 ((r.fragment packet).dataFirst
      + UInt16.ofNat (r.fragment packet).data.length)] at hkey2
    generalize growBuffer r pool frag1 _ = frag2 at h hkey2
    by_cases hused2 : frag2.used = true
    case neg =>
      rw [if_neg hused2] at h
      cases h
      exact ⟨hkey2, fun _ hmem => by cases hmem⟩
    case pos =>
      rw [if_pos hused2] at h
      unfold insertFragment at h
      split at h
      · cases h
      · dsimp only at h
        split at h
        · cases h
          refine ⟨hkey2, fun datagram hmem => ?_⟩
          cases hmem
          exact (r.headerKey_fixHeader _ _ _).trans hkey2
        · cases h
          exact ⟨hkey2, fun _ hmem => by cases hmem⟩

/-- What the keys of all entries and of the packet have in common holds of the keys after the packet,
too, and a datagram that is handed over has the key of the packet. -/
theorem reassemble_keys [DecidableEq K] {Q : K → Prop} {out : Option (H × List UInt8)}
    (hqueue : ∀ k, (queue k).used = true → Q (r.headerKey (queue k).header))
    (hpacket : Q (r.key packet)) (h : reassemble r pool queue packet = some (queue', out)) :
    (∀ k, (queue' k).used = true → Q (r.headerKey (queue' k).header)) ∧
      ∀ datagram ∈ out, r.headerKey datagram.1 = r.key packet := by
  unfold reassemble at h
  dsimp only at h
  split at h
  case isTrue =>
    cases h
    exact ⟨hqueue, fun _ hmem => by cases hmem⟩
  case isFalse =>
    split at h
    case h_1 =>
      cases h
      exact ⟨hqueue, fun _ hmem => by cases hmem⟩
    case h_2 k queue1 hsearch =>
      split at h
      case h_1 => cases h
      case h_2 frag out' hprocess =>
        cases h
        have hentry : r.headerKey (queue1 k).header = r.key packet ∧
            ∀ k', k' ≠ k → queue1 k' = queue k' := by
          rcases search_cases hsearch with ⟨rfl, hof⟩ | ⟨rfl, -, -⟩
          · exact ⟨hof.2, fun _ _ => rfl⟩
          · refine ⟨?_, fun k' hk => Function.update_of_ne hk _ _⟩
            rw [Function.update_self]
            exact r.headerKey_newHeader packet
        obtain ⟨hkey, hout⟩ := processFragment_key hentry.1 hprocess
        refine ⟨?_, hout⟩
        intro k' hused
        by_cases hk : k' = k
        · subst hk
          rw [Function.update_self, hkey]
          exact hpacket
        · rw [Function.update_of_ne hk, hentry.2 k' hk] at hused ⊢
          exact hqueue k' hused

end Keys

/-! ## The whole queue -/

section Queue

variable {r : Protocol P H K} {src : Source r ι} {queue queue' : Fin n → FragDesc H}
  {received : ι → Finset ℕ}

variable (src) in
/-- There is one entry for every datagram of which some blocks have arrived. -/
structure Represents (queue : Fin n → FragDesc H) (received : ι → Finset ℕ) : Prop where
  keeps : ∀ k d, (queue k).Of r (src.key d) → Keeps src (queue k) d (received d)
  unique : ∀ k k' d, (queue k).Of r (src.key d) → (queue k').Of r (src.key d) → k = k'
  entry : ∀ d, received d ≠ ∅ → ∃ k, (queue k).Of r (src.key d)

/-- A queue without entries of the datagrams. -/
theorem represents_empty (h : ∀ k d, ¬ (queue k).Of r (src.key d)) :
    Represents src queue fun _ => ∅ :=
  ⟨fun k d hk => absurd hk (h k d), fun k _ d hk => absurd hk (h k d), fun _ hne => absurd rfl hne⟩

/-- The entry that the search finds or makes is that of the datagram; the others stay. -/
theorem Represents.search [DecidableEq K] (h : Represents src queue received) {pool : Pool}
    {d : ι} {i : ℕ} (hi : (src.split d).Has i) {k : Fin n}
    (hsearch : searchFragQueue r pool queue (src.packet d i) = some (k, queue')) :
    Keeps src (queue' k) d (received d) ∧ (∀ k', k' ≠ k → queue' k' = queue k') ∧
      (∀ k', k' ≠ k → ¬ (queue k').Of r (src.key d)) ∧
      ∀ d', (queue k).Of r (src.key d') → d' = d := by
  have hkey := src.key_packet d i hi
  rcases search_cases hsearch with ⟨rfl, hk⟩ | ⟨rfl, hunused, hno⟩
  · rw [hkey] at hk
    refine ⟨h.keeps k d hk, fun _ _ => rfl, fun k' hne hk' => hne (h.unique k' k d hk' hk),
      fun d' hk' => src.key_injective (hk'.2.symm.trans hk.2)⟩
  · rw [hkey] at hno
    have hempty : received d = ∅ := by
      by_contra hne
      obtain ⟨k', hk'⟩ := h.entry d hne
      exact hno k' hk'
    refine ⟨?_, fun k' hne => Function.update_of_ne hne _ _, fun k' _ => hno k', fun d' hk' => ?_⟩
    · rw [Function.update_self, hempty]
      exact keeps_create pool hi
    · rw [hk'.1] at hunused
      cases hunused

/-- One entry has changed, the others have not. -/
theorem Represents.update [DecidableEq ι] (h : Represents src queue received) {k : Fin n}
    {frag : FragDesc H} {d : ι} {received' : Finset ℕ}
    (hfrag : if received' = ∅ then ¬ frag.Of r (src.key d) else Keeps src frag d received')
    (hno : ∀ k', k' ≠ k → ¬ (queue k').Of r (src.key d))
    (hown : ∀ d', (queue k).Of r (src.key d') → d' = d)
    (hown' : ∀ d', frag.Of r (src.key d') → d' = d)
    (hothers : ∀ k', k' ≠ k → queue' k' = queue k') (hk : queue' k = frag) :
    Represents src queue' (Function.update received d received') := by
  have hof : frag.Of r (src.key d) → Keeps src frag d received' := by
    intro hof
    split at hfrag
    · exact absurd hof hfrag
    · exact hfrag
  refine ⟨fun k' d' hk' => ?_, fun k1 k2 d' h1 h2 => ?_, fun d' hne => ?_⟩
  · by_cases hkk : k' = k
    · subst hkk
      rw [hk] at hk' ⊢
      obtain rfl := hown' d' hk'
      rw [Function.update_self]
      exact hof hk'
    · rw [hothers k' hkk] at hk' ⊢
      have hd : d' ≠ d := by
        rintro rfl
        exact hno k' hkk hk'
      rw [Function.update_of_ne hd]
      exact h.keeps k' d' hk'
  · by_cases hk1 : k1 = k
    · by_cases hk2 : k2 = k
      · rw [hk1, hk2]
      · rw [hk1, hk] at h1
        rw [hothers k2 hk2] at h2
        exact absurd (hown' d' h1 ▸ h2) (hno k2 hk2)
    · rw [hothers k1 hk1] at h1
      by_cases hk2 : k2 = k
      · rw [hk2, hk] at h2
        exact absurd (hown' d' h2 ▸ h1) (hno k1 hk1)
      · rw [hothers k2 hk2] at h2
        exact h.unique k1 k2 d' h1 h2
  · by_cases hd : d' = d
    · subst hd
      rw [Function.update_self] at hne
      rw [if_neg hne] at hfrag
      exact ⟨k, hk ▸ hfrag.is_of⟩
    · rw [Function.update_of_ne hd] at hne
      obtain ⟨k', hk'⟩ := h.entry d' hne
      have hkk : k' ≠ k := by
        rintro rfl
        exact hd (hown d' hk')
      exact ⟨k', (hothers k' hkk).symm ▸ hk'⟩

/-- The entry of another datagram has changed. -/
theorem Represents.frame (h : Represents src queue received) {k : Fin n}
    (hold : ∀ d, ¬ (queue k).Of r (src.key d)) (hnew : ∀ d, ¬ (queue' k).Of r (src.key d))
    (hothers : ∀ k', k' ≠ k → queue' k' = queue k') : Represents src queue' received := by
  have hiff : ∀ k' d, (queue' k').Of r (src.key d) → (queue k').Of r (src.key d) ∧
      queue' k' = queue k' := by
    intro k' d hk'
    have hkk : k' ≠ k := by
      rintro rfl
      exact hnew d hk'
    exact ⟨hothers k' hkk ▸ hk', hothers k' hkk⟩
  refine ⟨fun k' d hk' => ?_, fun k1 k2 d h1 h2 => ?_, fun d hne => ?_⟩
  · obtain ⟨hof, heq⟩ := hiff k' d hk'
    rw [heq]
    exact h.keeps k' d hof
  · exact h.unique k1 k2 d (hiff k1 d h1).1 (hiff k2 d h2).1
  · obtain ⟨k', hk'⟩ := h.entry d hne
    have hkk : k' ≠ k := by
      rintro rfl
      exact hold d hk'
    exact ⟨k', (hothers k' hkk).symm ▸ hk'⟩

/-! ## Arrivals -/

/-- The blocks of a datagram that have arrived since it was last handed over. -/
def arrive [DecidableEq ι] (src : Source r ι) (received : ι → Finset ℕ) (d : ι) (i : ℕ) :
    ι → Finset ℕ :=
  Function.update received d
    (if Complete (src.split d) (insert i (received d)) then ∅ else insert i (received d))

/-- The datagram that is handed over when a block arrives. -/
def handedOver (src : Source r ι) (received : ι → Finset ℕ) (d : ι) (i : ℕ) :
    Option (H × List UInt8) :=
  if Complete (src.split d) (insert i (received d)) then some (src.datagram d) else none

variable [DecidableEq K]

/-- A block of one of the datagrams arrives. -/
theorem Represents.block [DecidableEq ι] (h : Represents src queue received) {pool : Pool}
    (hcreate : pool.create = true) (hgrow : pool.grow = true) {d : ι} {i : ℕ}
    (hi : (src.split d).Has i) (hslot : HasSlot r queue (src.packet d i)) :
    ∃ queue', reassemble r pool queue (src.packet d i)
        = some (queue', handedOver src received d i) ∧
      Represents src queue' (arrive src received d i) ∧
      ∀ k, (queue' k).used = true → (queue' k).Of r (src.key d) ∨ queue' k = queue k := by
  obtain ⟨k, queue1, hsearch⟩ := search_some hcreate hslot
  obtain ⟨hkeeps, hothers, hno, hown⟩ := h.search hi hsearch
  obtain ⟨frag, hprocess, hfrag⟩ := hkeeps.process hgrow hi
  have hdrop : ¬ (((src.split d).fragment i).more = true ∧
      ((src.split d).fragment i).data.length % 8 ≠ 0) := by
    rintro ⟨hmore, hne⟩
    obtain ⟨hend, _⟩ := Split.blockEnd_of_more hmore
    have hlen := hi.length_data
    rw [hend, Nat.add_mul, Nat.one_mul] at hlen
    have := Nat.dvd_iff_mod_eq_zero.1 (src.split d).aligned
    exact hne (by omega)
  have hkey := (processFragment_key (hkeeps.is_of.2.trans (src.key_packet d i hi).symm) hprocess).1
  rw [src.key_packet d i hi] at hkey
  refine ⟨Function.update queue1 k frag, ?_, ?_, fun k' hused => ?_⟩
  · simp only [reassemble, src.fragment d i hi]
    rw [if_neg hdrop, hsearch]
    simp only [hprocess]
    rfl
  · refine h.update ?_ hno hown (fun d' hd' => ?_)
      (fun k' hne => (Function.update_of_ne hne _ _).trans (hothers k' hne))
      (Function.update_self _ _ _)
    · split at hfrag
      case isTrue hall =>
        rw [if_pos hall, if_pos rfl, FragDesc.Of, hfrag]
        simp
      case isFalse hall =>
        rw [if_neg hall, if_neg (Finset.insert_ne_empty _ _)]
        exact hfrag
    · exact src.key_injective (hd'.2.symm.trans hkey)
  · by_cases hk : k' = k
    · subst hk
      rw [Function.update_self] at hused ⊢
      exact Or.inl ⟨hused, hkey⟩
    · exact Or.inr ((Function.update_of_ne hk _ _).trans (hothers k' hk))

/-- A packet of another datagram arrives, and the code returns. -/
theorem Represents.other (h : Represents src queue received) {pool : Pool} {packet : P}
    (hkey : ∀ d, r.key packet ≠ src.key d) {out : Option (H × List UInt8)}
    (hout : reassemble r pool queue packet = some (queue', out)) :
    Represents src queue' received ∧ ∀ datagram ∈ out, ∀ d, r.headerKey datagram.1 ≠ src.key d := by
  unfold reassemble at hout
  dsimp only at hout
  split at hout
  case isTrue =>
    cases hout
    exact ⟨h, fun _ hmem => by cases hmem⟩
  case isFalse =>
    split at hout
    case h_1 =>
      cases hout
      exact ⟨h, fun _ hmem => by cases hmem⟩
    case h_2 k queue1 hsearch =>
      split at hout
      case h_1 => cases hout
      case h_2 frag out' hprocess =>
        cases hout
        -- the entry was that of the other datagram, or it was free
        obtain ⟨hof1, hold, hothers⟩ : (queue1 k).Of r (r.key packet) ∧
            (∀ d, ¬ (queue k).Of r (src.key d)) ∧ ∀ k', k' ≠ k → queue1 k' = queue k' := by
          rcases search_cases hsearch with ⟨rfl, hk⟩ | ⟨rfl, hunused, _⟩
          · exact ⟨hk, fun d hd => hkey d (hk.2.symm.trans hd.2), fun _ _ => rfl⟩
          · refine ⟨?_, fun d hd => ?_, fun k' hne => Function.update_of_ne hne _ _⟩
            · rw [Function.update_self]
              exact ⟨rfl, r.headerKey_newHeader packet⟩
            · rw [hd.1] at hunused
              cases hunused
        obtain ⟨hkey', hout⟩ := processFragment_key hof1.2 hprocess
        refine ⟨h.frame hold (fun d hd => ?_) fun k' hne => ?_, fun datagram hmem d hd => ?_⟩
        · rw [Function.update_self] at hd
          exact hkey d (hkey'.symm.trans hd.2)
        · exact (Function.update_of_ne hne _ _).trans (hothers k' hne)
        · exact hkey d ((hout datagram hmem).symm.trans hd)

/-! ## Runs -/

/-- The queue and the datagrams after a list of packets. -/
def reassembleAll (r : Protocol P H K) :
    (Fin n → FragDesc H) → List (Pool × P) →
      Option ((Fin n → FragDesc H) × List (Option (H × List UInt8)))
  | queue, [] => some (queue, [])
  | queue, (pool, packet) :: packets =>
      match reassemble r pool queue packet with
      | none => none
      | some (queue, out) =>
          (reassembleAll r queue packets).map fun (queue, outs) => (queue, out :: outs)

/-- What arrives: a block of one of the datagrams, or a packet of another one. -/
inductive Arrival (ι P : Type*) where
  | block (d : ι) (i : ℕ)
  | other (packet : P)

/-- The packet that arrives. -/
def Arrival.packet (src : Source r ι) : Arrival ι P → P
  | .block d i => src.packet d i
  | .other packet => packet

/-- The queue after a packet. -/
def queueAfter (src : Source r ι) (queue : Fin n → FragDesc H) (e : Pool × Arrival ι P) :
    Fin n → FragDesc H :=
  match reassemble r e.1 queue (e.2.packet src) with
  | some (queue, _) => queue
  | none => queue

/-- There is an entry and memory for a block; the code returns from a packet of another datagram. -/
def Served (src : Source r ι) (queue : Fin n → FragDesc H) (e : Pool × Arrival ι P) : Prop :=
  match e.2 with
  | .block d i => (src.split d).Has i ∧ e.1.create = true ∧ e.1.grow = true ∧
      HasSlot r queue (src.packet d i)
  | .other packet => (∀ d, r.key packet ≠ src.key d) ∧
      (reassemble r e.1 queue packet).isSome = true

instance [Fintype ι] (src : Source r ι) (queue : Fin n → FragDesc H) :
    (e : Pool × Arrival ι P) → Decidable (Served src queue e)
  | (_, .block _ _) => inferInstanceAs (Decidable (_ ∧ _ ∧ _ ∧ _))
  | (_, .other _) => inferInstanceAs (Decidable (_ ∧ _))

/-- The datagrams that are handed over: the one of a block that was the last to arrive, and with a
packet of another datagram none of these. -/
def Answers [DecidableEq ι] (src : Source r ι) :
    (ι → Finset ℕ) → List (Pool × Arrival ι P) → List (Option (H × List UInt8)) → Prop
  | _, [], outs => outs = []
  | _, _ :: _, [] => False
  | received, (_, .block d i) :: arrivals, out :: outs =>
      out = handedOver src received d i ∧ Answers src (arrive src received d i) arrivals outs
  | received, (_, .other _) :: arrivals, out :: outs =>
      (∀ datagram ∈ out, ∀ d, r.headerKey datagram.1 ≠ src.key d) ∧
        Answers src received arrivals outs

/-- The queue answers any list of arrivals. -/
theorem Represents.run [DecidableEq ι] (h : Represents src queue received)
    {arrivals : List (Pool × Arrival ι P)}
    (hserved : Along (Served src) (queueAfter src) queue arrivals) :
    ∃ queue' outs, reassembleAll r queue (arrivals.map fun e => (e.1, e.2.packet src))
        = some (queue', outs) ∧ Answers src received arrivals outs := by
  induction arrivals generalizing queue received with
  | nil => exact ⟨queue, [], rfl, rfl⟩
  | cons e arrivals ih =>
      obtain ⟨hnow, hrest⟩ := hserved
      obtain ⟨pool, arrival⟩ := e
      -- the code returns, and the queue goes on to represent what has arrived
      have hstep : ∀ (queue1 : Fin n → FragDesc H) (out : Option (H × List UInt8))
          (received' : ι → Finset ℕ),
          reassemble r pool queue (arrival.packet src) = some (queue1, out) →
          Represents src queue1 received' →
          ∃ queue' outs, reassembleAll r queue
              (((pool, arrival) :: arrivals).map fun e => (e.1, e.2.packet src))
                = some (queue', out :: outs) ∧ Answers src received' arrivals outs := by
        intro queue1 out received' hout hrep
        have hafter : queueAfter src queue (pool, arrival) = queue1 := by
          simp only [queueAfter, hout]
        rw [hafter] at hrest
        obtain ⟨queue', outs, hall, hanswers⟩ := ih hrep hrest
        refine ⟨queue', outs, ?_, hanswers⟩
        simp only [List.map_cons, reassembleAll, hout, hall]
        rfl
      cases arrival with
      | block d i =>
          obtain ⟨hi, hcreate, hgrow, hslot⟩ := hnow
          obtain ⟨queue1, hout, hrep, _⟩ := h.block hcreate hgrow hi hslot
          obtain ⟨queue', outs, hall, hanswers⟩ := hstep queue1 _ _ hout hrep
          exact ⟨queue', _, hall, rfl, hanswers⟩
      | other packet =>
          obtain ⟨hkey, hsome⟩ := hnow
          obtain ⟨⟨queue1, out⟩, hout⟩ := Option.isSome_iff_exists.1 hsome
          obtain ⟨hrep, hnone⟩ := h.other hkey hout
          obtain ⟨queue', outs, hall, hanswers⟩ := hstep queue1 _ _ hout hrep
          exact ⟨queue', _, hall, hnone, hanswers⟩

/-! ## Slots -/

/-- If there are no more datagrams than entries, and no packets of others, there is always a slot.
-/
theorem Represents.hasSlot [Fintype ι] (h : Represents src queue received)
    (hown : ∀ k, (queue k).used = true → ∃ d, (queue k).Of r (src.key d))
    (hcard : Fintype.card ι ≤ n) {d : ι} {i : ℕ} (hi : (src.split d).Has i) :
    HasSlot r queue (src.packet d i) := by
  by_contra hno
  rw [HasSlot, src.key_packet d i hi, not_or, not_exists, not_exists] at hno
  obtain ⟨hmiss, hfull⟩ := hno
  -- every entry is that of another datagram
  choose owner howner using fun k => hown k (by simpa using hfull k)
  have hinj : Function.Injective owner := fun k k' heq =>
    h.unique k k' (owner k) (howner k) (heq ▸ howner k')
  have hsurj : Function.Surjective owner :=
    ((Fintype.bijective_iff_injective_and_card owner).2 ⟨hinj, Nat.le_antisymm
      (Fintype.card_le_of_injective owner hinj) (by rwa [Fintype.card_fin])⟩).2
  obtain ⟨k, rfl⟩ := hsurj d
  exact hmiss k (howner k)

/-- So all blocks are served while there is memory. -/
theorem Represents.along [Fintype ι] [DecidableEq ι] (h : Represents src queue received)
    (hown : ∀ k, (queue k).used = true → ∃ d, (queue k).Of r (src.key d))
    (hcard : Fintype.card ι ≤ n) {pool : Pool} (hcreate : pool.create = true)
    (hgrow : pool.grow = true) {blocks : List (ι × ℕ)}
    (hblocks : ∀ b ∈ blocks, (src.split b.1).Has b.2) :
    Along (Served src) (queueAfter src) queue
      (blocks.map fun b => (pool, Arrival.block b.1 b.2)) := by
  induction blocks generalizing queue received with
  | nil => trivial
  | cons b blocks ih =>
      have hi := hblocks b (List.mem_cons_self ..)
      have hslot := h.hasSlot hown hcard hi
      obtain ⟨queue1, hout, hrep, hframe⟩ := h.block hcreate hgrow hi hslot
      have hafter : queueAfter src queue (pool, Arrival.block b.1 b.2) = queue1 := by
        simp only [queueAfter, Arrival.packet, hout]
      refine ⟨⟨hi, hcreate, hgrow, hslot⟩, ?_⟩
      rw [hafter]
      refine ih hrep (fun k hused => ?_) fun b' hb' => hblocks b' (List.mem_cons_of_mem _ hb')
      rcases hframe k hused with hof | heq
      · exact ⟨b.1, hof⟩
      · rw [heq] at hused ⊢
        exact hown k hused

end Queue

/-! ## Samples -/

/-- A queue without entries. -/
def emptyQueue (n : ℕ) (header : H) : Fin n → FragDesc H := fun _ =>
  { used := false
    header := header
    headerLength := 0
    dataLen := 0
    holes := ⟨0, fun _ => 0, 0⟩ }

/-- Memory that has not run out. -/
def freshMemory : Pool := ⟨true, true, fun _ => 0⟩

end Ip
