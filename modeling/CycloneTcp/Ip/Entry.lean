import CycloneTcp.Ip.Reassembly

/-! # One datagram in the reassembly queue

A payload that is split into blocks of `size` bytes, the last one maybe shorter, and an entry that
has received some of the blocks. The holes begin and end at blocks, and they are exactly the missing
ones; the bytes of the others are in place. A block that arrives, for the first time or again, keeps
that. -/

set_option autoImplicit false

namespace Ip

open HoleList

/-! ## Blocks -/

/-- A payload and the size of the blocks it is split into. -/
structure Split where
  payload : List UInt8
  size : ℕ
  size_pos : 0 < size
  aligned : 8 ∣ size
  short : payload.length + holeDescSize ≤ INFINITY.toNat

namespace Split

variable (d : Split)

/-- The number of bytes. -/
def len : ℕ := d.payload.length

/-- Block `i` has a first byte. -/
def Has (i : ℕ) : Prop := i * d.size < d.len

instance (i : ℕ) : Decidable (d.Has i) := inferInstanceAs (Decidable (_ < _))

/-- The end of block `i`. -/
def blockEnd (i : ℕ) : ℕ := min ((i + 1) * d.size) d.len

/-- The fragment that carries block `i`. -/
def fragment (i : ℕ) : Fragment where
  dataFirst := UInt16.ofNat (i * d.size)
  more := decide ((i + 1) * d.size < d.len)
  data := (d.payload.drop (i * d.size)).take d.size

variable {d}

theorem size_ge : 8 ≤ d.size := Nat.le_of_dvd d.size_pos d.aligned

theorem len_lt : d.len + 6 ≤ 65535 := d.short

theorem Has.first_toNat {i : ℕ} (h : d.Has i) :
    (d.fragment i).dataFirst.toNat = i * d.size := by
  have hlt : i * d.size < d.len := h
  have := d.len_lt
  rw [fragment, UInt16.toNat_ofNat']
  exact Nat.mod_eq_of_lt (by omega)

theorem Has.length_data {i : ℕ} (h : d.Has i) :
    i * d.size + (d.fragment i).data.length = d.blockEnd i := by
  have hlt : i * d.size < d.len := h
  rw [fragment, List.length_take, List.length_drop, blockEnd, Nat.add_mul, Nat.one_mul]
  show _ + min _ (d.len - _) = _
  omega

/-- The end of the block as the code computes it. -/
theorem Has.last_toNat {i : ℕ} (h : d.Has i) :
    ((d.fragment i).dataFirst + UInt16.ofNat (d.fragment i).data.length).toNat = d.blockEnd i := by
  have hlt : i * d.size < d.len := h
  have hend : d.blockEnd i ≤ d.len := Nat.min_le_right _ _
  have := d.len_lt
  have hlen := h.length_data
  rw [UInt16.toNat_add, h.first_toNat, UInt16.toNat_ofNat']
  omega

theorem Has.zero {i : ℕ} (h : d.Has i) : d.Has 0 := by
  have hlt : i * d.size < d.len := h
  show 0 * d.size < d.len
  omega

theorem blockEnd_le (i : ℕ) : d.blockEnd i ≤ d.len := Nat.min_le_right _ _

theorem Has.lt_end {i : ℕ} (h : d.Has i) : i * d.size < d.blockEnd i := by
  have hlt : i * d.size < d.len := h
  have := d.size_pos
  rw [blockEnd, Nat.add_mul, Nat.one_mul]
  omega

/-- All blocks but the last are full. -/
theorem blockEnd_of_more {i : ℕ} (h : (d.fragment i).more = true) :
    d.blockEnd i = (i + 1) * d.size ∧ (i + 1) * d.size < d.len := by
  have hlt : (i + 1) * d.size < d.len := of_decide_eq_true h
  exact ⟨Nat.min_eq_left (Nat.le_of_lt hlt), hlt⟩

theorem mul_le_of_lt {i j : ℕ} (h : i < j) : i * d.size + d.size ≤ j * d.size := by
  have := Nat.mul_le_mul_right d.size (Nat.succ_le_of_lt h)
  rwa [Nat.succ_mul] at this

theorem lt_of_mul_lt {i j : ℕ} (h : i * d.size < j * d.size) : i < j :=
  Nat.lt_of_mul_lt_mul_right h

/-- A block ends before the next one begins. -/
theorem blockEnd_le_mul {i j : ℕ} (h : i < j) : d.blockEnd i ≤ j * d.size :=
  (Nat.min_le_left _ _).trans (Nat.mul_le_mul_right _ (Nat.succ_le_of_lt h))

/-- A position is in one block at most. -/
theorem outside_of_ne {i j x : ℕ} (hne : j ≠ i) (hlo : j * d.size ≤ x) (hhi : x < d.blockEnd j) :
    x < i * d.size ∨ d.blockEnd i ≤ x := by
  rcases Nat.lt_or_gt_of_ne hne with hlt | hgt
  · exact .inl (hhi.trans_le (blockEnd_le_mul hlt))
  · exact .inr ((blockEnd_le_mul hgt).trans hlo)

/-- What the fragment carries. -/
theorem fragment_getElem? {i k : ℕ} (hk : k < (d.fragment i).data.length) :
    (d.fragment i).data[k]? = d.payload[i * d.size + k]? := by
  have hsize : k < d.size := by
    rw [fragment, List.length_take] at hk
    omega
  rw [fragment, List.getElem?_take_of_lt hsize, List.getElem?_drop]

/-! ## Holes between blocks -/

variable (d) in
/-- A hole begins at a block, and it ends at one, or it is the last. -/
def Fits (hole : UInt16 × UInt16) : Prop :=
  (∃ j, d.Has j ∧ hole.1.toNat = j * d.size) ∧
    (hole.2 = INFINITY ∨ ∃ j, d.Has j ∧ hole.2.toNat = j * d.size)

variable (d) in
/-- Block `i` is in the hole. -/
def InBlock (hole : UInt16 × UInt16) (i : ℕ) : Prop :=
  hole.1.toNat ≤ i * d.size ∧ i * d.size < hole.2.toNat

/-- A position of a block is in a hole if its block is. -/
theorem Fits.inBlock {hole : UInt16 × UInt16} (h : d.Fits hole) {i x : ℕ} (hi : d.Has i)
    (hlo : i * d.size ≤ x) (hhi : x < d.blockEnd i) (hx : hole.1.toNat ≤ x ∧ x < hole.2.toNat) :
    d.InBlock hole i := by
  obtain ⟨⟨j, hj, hfirst⟩, hlast⟩ := h
  have hx' : x < (i + 1) * d.size := Nat.lt_of_lt_of_le hhi (Nat.min_le_left _ _)
  refine ⟨?_, ?_⟩
  · rw [hfirst]
    have hji : j * d.size < (i + 1) * d.size := by omega
    exact Nat.mul_le_mul_right _ (Nat.le_of_lt_succ (lt_of_mul_lt hji))
  · have hlt : i * d.size < d.len := hi
    have := d.len_lt
    rcases hlast with hinf | ⟨k, hk, hlast⟩
    · rw [hinf]
      show _ < 65535
      omega
    · omega

/-- A block that is not in a hole lies before or behind it. -/
theorem Fits.outside {hole : UInt16 × UInt16} (h : d.Fits hole) {i : ℕ}
    (hout : ¬ d.InBlock hole i) :
    d.blockEnd i ≤ hole.1.toNat ∨ hole.2.toNat ≤ i * d.size := by
  obtain ⟨⟨j, hj, hfirst⟩, hlast⟩ := h
  by_cases hlt : i * d.size < hole.1.toNat
  · left
    rw [hfirst] at hlt ⊢
    exact blockEnd_le_mul (lt_of_mul_lt hlt)
  · right
    exact Nat.le_of_not_lt fun hlt' => hout ⟨Nat.le_of_not_lt hlt, hlt'⟩

/-- The fragment of a block interacts with the holes that the block is in. -/
theorem Fits.hit_iff {hole : UInt16 × UInt16} (h : d.Fits hole) {i : ℕ} (hi : d.Has i)
    {dataFirst dataLast : UInt16} (hfirst : dataFirst.toNat = i * d.size)
    (hlast : dataLast.toNat = d.blockEnd i) :
    dataFirst < hole.2 ∧ dataLast > hole.1 ↔ d.InBlock hole i := by
  have hlt := hi.lt_end
  constructor
  · rintro ⟨h1, h2⟩
    have h1 := UInt16.lt_iff_toNat_lt.1 h1
    have h2 := UInt16.lt_iff_toNat_lt.1 h2
    by_contra hout
    rcases h.outside hout with hle | hle <;> omega
  · rintro ⟨h1, h2⟩
    refine ⟨UInt16.lt_iff_toNat_lt.2 (by omega), UInt16.lt_iff_toNat_lt.2 (by omega)⟩

section Cut

variable {hole : UInt16 × UInt16} {i : ℕ} {dataFirst dataLast : UInt16} {more : Bool}

/-- Block `i` as the code sees it. -/
structure IsBlock (d : Split) (i : ℕ) (dataFirst dataLast : UInt16) (more : Bool) : Prop where
  has : d.Has i
  first : dataFirst.toNat = i * d.size
  last : dataLast.toNat = d.blockEnd i
  more : more = decide ((i + 1) * d.size < d.len)

theorem Has.isBlock (h : d.Has i) : IsBlock d i (d.fragment i).dataFirst
    ((d.fragment i).dataFirst + UInt16.ofNat (d.fragment i).data.length) (d.fragment i).more :=
  ⟨h, h.first_toNat, h.last_toNat, rfl⟩

theorem IsBlock.last_of_more (h : IsBlock d i dataFirst dataLast more) (hmore : more = true) :
    dataLast.toNat = (i + 1) * d.size ∧ d.Has (i + 1) := by
  have hlt : (i + 1) * d.size < d.len := of_decide_eq_true (h.more ▸ hmore)
  exact ⟨h.last.trans (Nat.min_eq_left (Nat.le_of_lt hlt)), hlt⟩

/-- There is room for the descriptors of what a block leaves. -/
theorem Fits.room (hfit : d.Fits hole) (h : IsBlock d i dataFirst dataLast more) {length : ℕ}
    (hlen : d.blockEnd i + holeDescSize ≤ length) :
    Room length dataFirst dataLast more hole := by
  intro _ _
  obtain ⟨⟨j, hj, hfirst⟩, hlast⟩ := hfit
  have h8 := d.size_ge
  have hdesc : holeDescSize = 6 := rfl
  refine ⟨fun hgt => ?_, fun hlt hmore => ?_⟩
  · have hgt := UInt16.lt_iff_toNat_lt.1 hgt
    rw [hfirst, h.first] at hgt
    have := mul_le_of_lt (d := d) (lt_of_mul_lt hgt)
    rw [hfirst, h.first]
    omega
  · have hlt := UInt16.lt_iff_toNat_lt.1 hlt
    obtain ⟨hend, hhas⟩ := h.last_of_more hmore
    have hhas' : (i + 1) * d.size < d.len := hhas
    have := d.len_lt
    refine ⟨?_, by rw [h.last]; omega⟩
    rcases hlast with hinf | ⟨k, _, hk⟩
    · rw [hinf, hend]
      show _ ≤ 65535
      omega
    · rw [hk, hend] at hlt ⊢
      have := mul_le_of_lt (d := d) (lt_of_mul_lt hlt)
      omega

/-- What is left of a hole begins and ends at blocks. -/
theorem Fits.cut (hfit : d.Fits hole) (h : IsBlock d i dataFirst dataLast more) :
    ∀ piece ∈ HoleList.cut dataFirst dataLast more hole, d.Fits piece := by
  intro piece hmem
  rw [HoleList.cut] at hmem
  split at hmem
  case isFalse =>
    rw [List.mem_singleton.1 hmem]
    exact hfit
  case isTrue =>
    rcases List.mem_append.1 hmem with hmem | hmem
    · split at hmem
      · rw [List.mem_singleton.1 hmem]
        exact ⟨hfit.1, Or.inr ⟨i, h.has, h.first⟩⟩
      · cases hmem
    · split at hmem
      case isTrue hc =>
        rw [List.mem_singleton.1 hmem]
        obtain ⟨hend, hhas⟩ := h.last_of_more hc.2
        exact ⟨⟨i + 1, hhas, hend⟩, hfit.2⟩
      case isFalse => cases hmem

/-- What is left of a hole has the other blocks. -/
theorem Fits.mem_cut (hfit : d.Fits hole) (h : IsBlock d i dataFirst dataLast more) {j : ℕ}
    (hj : d.Has j) :
    (∃ piece ∈ HoleList.cut dataFirst dataLast more hole, d.InBlock piece j) ↔
      d.InBlock hole j ∧ j ≠ i := by
  have hhit := hfit.hit_iff h.has h.first h.last
  have hjlen : j * d.size < d.len := hj
  have hi := h.has.lt_end
  rw [HoleList.cut]
  split
  case isFalse hmiss =>
    rw [hhit] at hmiss
    constructor
    · rintro ⟨piece, hmem, hin⟩
      rw [List.mem_singleton.1 hmem] at hin
      exact ⟨hin, fun hji => hmiss (hji ▸ hin)⟩
    · rintro ⟨hin, _⟩
      exact ⟨hole, List.mem_singleton_self _, hin⟩
  case isTrue hin' =>
    obtain ⟨hlo, hhi⟩ := hhit.1 hin'
    constructor
    · rintro ⟨piece, hmem, hin⟩
      rcases List.mem_append.1 hmem with hmem | hmem
      · split at hmem
        · rw [List.mem_singleton.1 hmem] at hin
          obtain ⟨h1, h2⟩ : hole.1.toNat ≤ j * d.size ∧ j * d.size < dataFirst.toNat := hin
          rw [h.first] at h2
          exact ⟨⟨h1, by omega⟩, fun hji => by rw [hji] at h2; omega⟩
        · cases hmem
      · split at hmem
        · rw [List.mem_singleton.1 hmem] at hin
          obtain ⟨h1, h2⟩ : dataLast.toNat ≤ j * d.size ∧ j * d.size < hole.2.toNat := hin
          rw [h.last] at h1
          exact ⟨⟨by omega, h2⟩, fun hji => by rw [hji] at h1; omega⟩
        · cases hmem
    · rintro ⟨⟨h1, h2⟩, hne⟩
      rcases Nat.lt_or_gt_of_ne hne with hlt | hgt
      · have hlt' : j * d.size < i * d.size := Nat.mul_lt_mul_of_pos_right hlt d.size_pos
        refine ⟨(hole.1, dataFirst), List.mem_append_left _ ?_, h1, by rw [h.first]; exact hlt'⟩
        rw [if_pos (UInt16.lt_iff_toNat_lt.2 (by rw [h.first]; omega))]
        exact List.mem_singleton_self _
      · have hle : (i + 1) * d.size ≤ j * d.size := Nat.mul_le_mul_right _ hgt
        have hmore : more = true := by
          rw [h.more]
          exact decide_eq_true (by omega)
        obtain ⟨hend, _⟩ := h.last_of_more hmore
        refine ⟨(dataLast, hole.2), List.mem_append_right _ ?_, by rw [hend]; exact hle, h2⟩
        rw [if_pos ⟨UInt16.lt_iff_toNat_lt.2 (by omega), hmore⟩]
        exact List.mem_singleton_self _

/-- What is left of the holes has the other blocks. -/
theorem mem_flatMap_cut {hs : List (UInt16 × UInt16)} (hfits : ∀ hole ∈ hs, d.Fits hole)
    (h : IsBlock d i dataFirst dataLast more) {j : ℕ} (hj : d.Has j) :
    (∃ piece ∈ hs.flatMap (HoleList.cut dataFirst dataLast more), d.InBlock piece j) ↔
      j ≠ i ∧ ∃ hole ∈ hs, d.InBlock hole j := by
  constructor
  · rintro ⟨piece, hmem, hin⟩
    obtain ⟨hole, hhole, hpiece⟩ := List.mem_flatMap.1 hmem
    obtain ⟨hin', hne⟩ := ((hfits hole hhole).mem_cut h hj).1 ⟨piece, hpiece, hin⟩
    exact ⟨hne, hole, hhole, hin'⟩
  · rintro ⟨hne, hole, hmem, hin⟩
    obtain ⟨piece, hpiece, hin'⟩ := ((hfits hole hmem).mem_cut h hj).2 ⟨hin, hne⟩
    exact ⟨piece, List.mem_flatMap.2 ⟨hole, hmem, hpiece⟩, hin'⟩

end Cut

/-! ## The buffer -/

variable (d) in
/-- The holes are the missing blocks, and the bytes of the others are in place. -/
structure Holds (holes : HoleList) (dataLen : ℕ) (received : Finset ℕ)
    (hs : List (UInt16 × UInt16)) : Prop where
  linked : holes.Linked none hs
  apart : Apart holes.length 0 hs
  fits : ∀ hole ∈ hs, d.Fits hole
  missing : ∀ j, d.Has j → (j ∉ received ↔ ∃ hole ∈ hs, d.InBlock hole j)
  length : holes.length = dataLen + holeDescSize
  dataLen_le : dataLen ≤ d.len
  covered : ∀ j ∈ received, d.Has j ∧ d.blockEnd j ≤ dataLen
  data : ∀ j ∈ received, ∀ x, j * d.size ≤ x → x < d.blockEnd j →
    some (holes.data x) = d.payload[x]?

section Buffer

variable {holes : HoleList} {dataLen i : ℕ} {received : Finset ℕ} {hs : List (UInt16 × UInt16)}

theorem Holds.length_le (h : d.Holds holes dataLen received hs) :
    holes.length ≤ INFINITY.toNat := by
  have := d.short
  have := h.dataLen_le
  have := h.length
  unfold len at *
  omega

/-- A new entry. -/
theorem holds_create (hd : d.Has 0) (mem : Memory UInt8) :
    d.Holds (((⟨0, mem, holeDescSize⟩ : HoleList).setBounds 0 0 INFINITY).setNext (some 0) INFINITY)
      0 ∅ [(0, INFINITY)] := by
  have hlen := d.len_lt
  have hsame : ∀ i, i < 4 →
      (((⟨0, mem, holeDescSize⟩ : HoleList).setBounds 0 0 INFINITY).setNext
          (some 0) INFINITY).data i
        = ((⟨0, mem, holeDescSize⟩ : HoleList).setBounds 0 0 INFINITY).data i := fun i hi =>
    setNext_data _ fun h => by
      have := h.bounds
      omega
  refine ⟨⟨rfl, ?_, ?_, next_setNext_self _ _⟩,
    ⟨Nat.le_refl _, by decide, Nat.le_refl 6, trivial⟩, ?_, fun j hj => ?_, rfl, Nat.zero_le _, ?_, ?_⟩
  · refine (Memory.getU16_congr (hsame 0 (by omega)) (hsame 1 (by omega))).trans ?_
    show ((mem.setU16 0 0).setU16 2 INFINITY).getU16 0 = 0
    rw [Memory.getU16_setU16_of_ne _ _ (by omega), Memory.getU16_setU16_self]
  · refine (Memory.getU16_congr (hsame 2 (by omega)) (hsame 3 (by omega))).trans ?_
    exact Memory.getU16_setU16_self _ _ _
  · intro hole hmem
    rw [List.mem_singleton.1 hmem]
    exact ⟨⟨0, hd, (Nat.zero_mul _).symm⟩, Or.inl rfl⟩
  · have hlt : j * d.size < d.len := hj
    refine iff_of_true (Finset.notMem_empty j) ⟨_, List.mem_singleton_self _, Nat.zero_le _, ?_⟩
    show _ < 65535
    omega
  · intro j hj
    exact absurd hj (Finset.notMem_empty j)
  · intro j hj
    exact absurd hj (Finset.notMem_empty j)

/-- More room behind the data. -/
theorem Holds.grow (h : d.Holds holes dataLen received hs) {dataLast : ℕ} (hge : dataLen ≤ dataLast)
    (hle : dataLast ≤ d.len) :
    d.Holds { holes with length := dataLast + holeDescSize } dataLast received hs := by
  have hlonger : holes.length ≤ dataLast + holeDescSize := by
    rw [h.length]
    omega
  exact ⟨h.linked.congr rfl fun _ _ _ _ _ => rfl, h.apart.longer hlonger, h.fits, h.missing, rfl, hle,
    fun j hj => ⟨(h.covered j hj).1, Nat.le_trans (h.covered j hj).2 hge⟩, h.data⟩

/-- A block is put in place. -/
theorem Holds.place (h : d.Holds holes dataLen received hs) (hi : d.Has i)
    (hroom : d.blockEnd i ≤ dataLen) :
    ∃ holes', holes.updateHoles (d.fragment i).dataFirst
        ((d.fragment i).dataFirst + UInt16.ofNat (d.fragment i).data.length) (d.fragment i).more
          = some holes' ∧
      ∃ hs', d.Holds (copyData holes' (d.fragment i)) dataLen (insert i received) hs' := by
  have hblock := hi.isBlock
  have hlen := hi.length_data
  have hfirst := hi.first_toNat
  set dataFirst := (d.fragment i).dataFirst
  set dataLast := dataFirst + UInt16.ofNat (d.fragment i).data.length
  set more := (d.fragment i).more
  have hfit : ∀ hole ∈ hs, Room holes.length dataFirst dataLast more hole := fun hole hmem =>
    (h.fits hole hmem).room hblock (by rw [h.length]; omega)
  obtain ⟨holes', hupdate, hlinked, hapart, hlength, hsame⟩ := updateHoles_spec more
    (fun _ _ _ _ _ => by rw [hfirst, hblock.last]; exact Nat.le_of_lt hi.lt_end) h.length_le
    h.linked h.apart hfit
  refine ⟨holes', hupdate, hs.flatMap (HoleList.cut dataFirst dataLast more), ?_⟩
  -- all of the block is written
  have htake : (d.fragment i).data.take (holes'.length - dataFirst.toNat)
      = (d.fragment i).data := by
    apply List.take_of_length_le
    have := h.length
    omega
  have hfits : ∀ piece ∈ hs.flatMap (HoleList.cut dataFirst dataLast more), d.Fits piece := by
    intro piece hmem
    obtain ⟨hole, hhole, hpiece⟩ := List.mem_flatMap.1 hmem
    exact (h.fits hole hhole).cut hblock piece hpiece
  have hmissing : ∀ j, d.Has j → (j ∉ insert i received ↔
      ∃ piece ∈ hs.flatMap (HoleList.cut dataFirst dataLast more), d.InBlock piece j) := by
    intro j hj
    rw [Finset.mem_insert, not_or, h.missing j hj, mem_flatMap_cut h.fits hblock hj]
  have hwrite : ∀ x, x < i * d.size ∨ d.blockEnd i ≤ x →
      holes'.data.write dataFirst.toNat (d.fragment i).data x = holes'.data x := by
    intro x hx
    rcases hx with hlt | hge
    · exact Memory.write_of_lt _ _ (by omega)
    · exact Memory.write_of_ge _ _ (by omega)
  rw [copyData, htake]
  refine ⟨?_, ?_, hfits, hmissing, ?_, h.dataLen_le, ?_, ?_⟩
  · -- the block is not written over a descriptor
    refine hlinked.congr rfl fun piece hmem x hlo hhi => hwrite x ?_
    have hout : ¬ d.InBlock piece i := fun hin =>
      (hmissing i hi).2 ⟨piece, hmem, hin⟩ (Finset.mem_insert_self _ _)
    obtain ⟨_, h6, _⟩ := hapart.mem hmem
    rcases (hfits piece hmem).outside hout with hle | hle <;> omega
  · show Apart holes'.length 0 _
    rw [hlength]
    exact hapart
  · exact hlength.trans h.length
  · intro j hj
    rcases Finset.mem_insert.1 hj with rfl | hj
    · exact ⟨hi, hroom⟩
    · exact h.covered j hj
  · intro j hj x hlo hhi
    show some (holes'.data.write dataFirst.toNat (d.fragment i).data x) = _
    by_cases hji : j = i
    · subst hji
      obtain ⟨k, rfl⟩ : ∃ k, x = j * d.size + k := ⟨x - j * d.size, by omega⟩
      have hk : k < (d.fragment j).data.length := by omega
      rw [hfirst, Memory.write_add _ _ _ hk, ← List.getElem?_eq_getElem, fragment_getElem? hk]
    · have hj' := (Finset.mem_insert.1 hj).resolve_left hji
      have hhas := (h.covered j hj').1
      rw [hwrite x (outside_of_ne hji hlo hhi), hsame x ?_]
      · exact h.data j hj' x hlo hhi
      · rintro ⟨hole, hmem, hin⟩
        exact (h.missing j hhas).2 ⟨hole, hmem, (h.fits hole hmem).inBlock hhas hlo hhi hin⟩ hj'

/-- No hole is left when every block has arrived, and the data is the payload then. -/
theorem Holds.complete (h : d.Holds holes dataLen received hs) :
    (holes.findHole holes.firstHole = none ↔ ∀ j, d.Has j → j ∈ received) ∧
      ((∀ j, d.Has j → j ∈ received) → holes.data.read 0 dataLen = d.payload) := by
  constructor
  · constructor
    · intro hnone j hj
      by_contra hnot
      obtain ⟨hole, hmem, _⟩ := (h.missing j hj).1 hnot
      cases hs with
      | nil => cases hmem
      | cons x hs =>
          have hfirst : holes.firstHole = x.1 := h.linked.1
          have hlt : x.1.toNat < holes.length := by
            have := h.apart.2.2.1
            omega
          rw [hfirst, findHole_of_lt hlt] at hnone
          cases hnone
    · intro hall
      cases hs with
      | nil =>
          have hfirst : holes.firstHole = INFINITY := h.linked
          rw [hfirst]
          exact findHole_of_ge h.length_le
      | cons x hs =>
          obtain ⟨⟨j, hj, hfirst⟩, hlast⟩ := h.fits x (List.mem_cons_self ..)
          have h6 := h.apart.2.1
          exact absurd (hall j hj) ((h.missing j hj).2 ⟨x, List.mem_cons_self ..,
            by rw [hfirst], by omega⟩)
  · intro hall
    have hbyte : ∀ x, x < d.len → some (holes.data x) = d.payload[x]? := by
      intro x hx
      have hle : x / d.size * d.size ≤ x := Nat.div_mul_le_self x d.size
      have hlt : x < (x / d.size + 1) * d.size := by
        rw [Nat.mul_comm]
        exact Nat.lt_mul_div_succ x d.size_pos
      have hhas : d.Has (x / d.size) := Nat.lt_of_le_of_lt hle hx
      exact h.data _ (hall _ hhas) x hle (Nat.lt_min.2 ⟨hlt, hx⟩)
    have hlen : dataLen = d.len := by
      refine Nat.le_antisymm h.dataLen_le ?_
      rcases Nat.eq_zero_or_pos d.len with hzero | hpos
      · omega
      · -- the last block
        have hle : (d.len - 1) / d.size * d.size ≤ d.len - 1 := Nat.div_mul_le_self _ _
        have hlt : d.len - 1 < ((d.len - 1) / d.size + 1) * d.size := by
          rw [Nat.mul_comm]
          exact Nat.lt_mul_div_succ _ d.size_pos
        have hhas : d.Has ((d.len - 1) / d.size) := by
          show _ < d.len
          omega
        have hcov := (h.covered _ (hall _ hhas)).2
        rw [blockEnd] at hcov
        omega
    rw [hlen]
    apply List.ext_getElem?
    intro x
    by_cases hx : x < d.len
    · rw [← hbyte x hx, List.getElem?_eq_getElem (by simpa using hx), Memory.getElem_read,
        Nat.zero_add]
    · rw [List.getElem?_eq_none (by simpa using Nat.le_of_not_lt hx),
        List.getElem?_eq_none (Nat.le_of_not_lt hx)]

end Buffer

end Split

end Ip
