import CycloneTcp.Ip.Queue

/-! # Reassembly of arbitrary fragments

Nothing is known about the fragments here: they overlap, contradict each other, or belong to no
datagram at all. The holes of an entry are still apart and their descriptors inside the buffer, and
what is not in a hole has been received, as long as every fragment is consistent with what the entry
has of the datagram: it does not lie behind the end of a datagram whose last fragment has come, a
last fragment does not end in front of data that the entry has while some of it is missing, and a
fragment whose end is computed modulo 2^16 is not written over descriptors. -/

set_option autoImplicit false

namespace Ip

open HoleList

variable {P H K : Type*}

/-! ## Fragments -/

namespace Fragment

/-- The index immediately following the last byte, as the code computes it. -/
def dataLast (f : Fragment) : UInt16 := f.dataFirst + UInt16.ofNat f.data.length

/-- The index immediately following the last byte. -/
def dataEnd (f : Fragment) : ℕ := f.dataFirst.toNat + f.data.length

/-- The fragment interacts with the hole. -/
def Hits (f : Fragment) (hole : UInt16 × UInt16) : Prop :=
  f.dataFirst < hole.2 ∧ f.dataLast > hole.1

/-- The fragment carries `byte` at position `i`. -/
def Carries (f : Fragment) (i : ℕ) (byte : UInt8) : Prop :=
  f.dataFirst.toNat ≤ i ∧ f.data[i - f.dataFirst.toNat]? = some byte

/-- A fragment begins at a multiple of eight bytes, and all but the last have such a length. -/
structure Aligned (f : Fragment) : Prop where
  first : 8 ∣ f.dataFirst.toNat
  length : f.more = true → 8 ∣ f.data.length

instance (f : Fragment) (hole : UInt16 × UInt16) : Decidable (f.Hits hole) :=
  inferInstanceAs (Decidable (_ ∧ _))

instance (f : Fragment) (i : ℕ) (byte : UInt8) : Decidable (f.Carries i byte) :=
  inferInstanceAs (Decidable (_ ∧ _))

variable {f : Fragment}

theorem dataLast_toNat (h : f.dataEnd < 2 ^ 16) : f.dataLast.toNat = f.dataEnd := by
  have hlt : f.dataFirst.toNat + f.data.length < 2 ^ 16 := h
  rw [dataLast, UInt16.toNat_add, UInt16.toNat_ofNat', dataEnd]
  omega

end Fragment

/-! ## The list of an entry -/

namespace HoleList

/-- The holes that the descriptors describe, from the one at `hole` on. -/
def walk (s : HoleList) : ℕ → Option ℕ → List (UInt16 × UInt16)
  | _, none => []
  | 0, some _ => []
  | fuel + 1, some hole =>
      (s.first hole, s.last hole) :: s.walk fuel (s.findHole (s.next (some hole)))

/-- The holes, as `ipv4DumpHoleList` lists them. -/
def holeList (s : HoleList) : List (UInt16 × UInt16) := s.walk (2 ^ 16) (s.findHole s.firstHole)

theorem walk_linked {s : HoleList} (hlen : s.length ≤ INFINITY.toNat) {hs : List (UInt16 × UInt16)}
    {prevHole : Option ℕ} {lo fuel : ℕ} (hlinked : s.Linked prevHole hs)
    (hapart : Apart s.length lo hs) (hfuel : hs.length ≤ fuel) :
    s.walk fuel (s.findHole (s.next prevHole)) = hs := by
  induction hs generalizing prevHole lo fuel with
  | nil =>
      rw [show s.next prevHole = INFINITY from hlinked, findHole_of_ge hlen]
      cases fuel <;> rfl
  | cons hole hs ih =>
      obtain ⟨a, b⟩ := hole
      obtain ⟨hptr, hfirst, hlast, hrest⟩ := hlinked
      obtain ⟨-, -, halen, hapart'⟩ := hapart
      rw [List.length_cons] at hfuel
      obtain ⟨fuel, rfl⟩ : ∃ k, fuel = k + 1 := ⟨fuel - 1, by omega⟩
      rw [hptr, findHole_of_lt (by omega : a.toNat < s.length), walk, hfirst, hlast,
        ih hrest hapart' (by omega)]

theorem holeList_linked {s : HoleList} (hlen : s.length ≤ INFINITY.toNat)
    {hs : List (UInt16 × UInt16)} (hlinked : s.Linked none hs) (hapart : Apart s.length 0 hs) :
    s.holeList = hs := by
  refine walk_linked hlen hlinked hapart ?_
  have hle := hapart.length_le (Nat.zero_le _)
  have hinf : INFINITY.toNat = 2 ^ 16 - 1 := rfl
  omega

/-- The holes are disjoint. -/
theorem Apart.pairwise {length lo : ℕ} {hs : List (UInt16 × UInt16)} (h : Apart length lo hs) :
    hs.Pairwise fun x y => x.2 ≤ y.1 := by
  induction hs generalizing lo with
  | nil => exact List.Pairwise.nil
  | cons hole hs ih =>
      obtain ⟨-, -, -, hrest⟩ := h
      refine List.pairwise_cons.2 ⟨fun y hy => ?_, ih hrest⟩
      exact UInt16.le_iff_toNat_le.2 (hrest.mem hy).1

/-- What can be left of a hole: the hole itself, its beginning or its end. -/
theorem mem_cut {dataFirst dataLast : UInt16} {more : Bool} {hole piece : UInt16 × UInt16} :
    piece ∈ cut dataFirst dataLast more hole ↔
      (¬ (dataFirst < hole.2 ∧ dataLast > hole.1) ∧ piece = hole) ∨
        ((dataFirst < hole.2 ∧ dataLast > hole.1) ∧
          ((dataFirst > hole.1 ∧ piece = (hole.1, dataFirst)) ∨
            ((dataLast < hole.2 ∧ more = true) ∧ piece = (dataLast, hole.2)))) := by
  rw [cut]
  by_cases hhit : dataFirst < hole.2 ∧ dataLast > hole.1
  · rw [if_pos hhit, List.mem_append]
    have hif : ∀ (c : Prop) [Decidable c] (x : UInt16 × UInt16),
        piece ∈ (if c then [x] else []) ↔ c ∧ piece = x := by
      intro c _ x
      by_cases hc : c
      · rw [if_pos hc, List.mem_singleton]
        exact ⟨fun h => ⟨hc, h⟩, fun h => h.2⟩
      · rw [if_neg hc]
        exact ⟨by simp, fun h => absurd h.1 hc⟩
    rw [hif, hif]
    exact ⟨fun h => .inr ⟨hhit, h⟩, fun h => (h.resolve_left fun hno => hno.1 hhit).2⟩
  · rw [if_neg hhit, List.mem_singleton]
    exact ⟨fun h => .inl ⟨hhit, h⟩, fun h => (h.resolve_right fun hno => hhit hno.1).2⟩

end HoleList

/-! ## Consistent fragments -/

/-- The fragment is consistent with what the entry has of the datagram. -/
structure Consistent (frag : FragDesc H) (f : Fragment) : Prop where
  /-- It does not lie behind the end of a datagram whose last fragment has come. -/
  notBehind : frag.dataLen < f.dataFirst.toNat → frag.dataLen < f.dataLast.toNat →
    ∃ hole ∈ frag.holes.holeList, hole.2 = INFINITY
  /-- A last fragment does not end inside a hole, unless at the end of what the entry has. -/
  endsLast : f.more = false → ∀ hole ∈ frag.holes.holeList, f.Hits hole →
    hole.2.toNat ≤ f.dataEnd ∨ frag.dataLen ≤ f.dataEnd
  /-- If the computation of its end overflows, no hole begins behind it, and if it is not the last
  fragment, it does not interact with any hole. -/
  wraps : 2 ^ 16 ≤ f.dataEnd → ∀ hole ∈ frag.holes.holeList,
    hole.1 < f.dataFirst ∧ (f.Hits hole → f.more = false)

instance (frag : FragDesc H) (f : Fragment) : Decidable (Consistent frag f) :=
  @decidable_of_iff _ ((frag.dataLen < f.dataFirst.toNat → frag.dataLen < f.dataLast.toNat →
      ∃ hole ∈ frag.holes.holeList, hole.2 = INFINITY) ∧
    (f.more = false → ∀ hole ∈ frag.holes.holeList, f.Hits hole →
      hole.2.toNat ≤ f.dataEnd ∨ frag.dataLen ≤ f.dataEnd) ∧
    (2 ^ 16 ≤ f.dataEnd → ∀ hole ∈ frag.holes.holeList,
      hole.1 < f.dataFirst ∧ (f.Hits hole → f.more = false)))
    ⟨fun h => ⟨h.1, h.2.1, h.2.2⟩, fun h => ⟨h.1, h.2, h.3⟩⟩
    -- the list is gone through, not the type of the holes
    (@instDecidableAnd _ _
      (@instDecidableForall _ _ _ (@instDecidableForall _ _ _ (List.decidableBEx _ _)))
      (@instDecidableAnd _ _ (@instDecidableForall _ _ _ (List.decidableBAll _ _))
        (@instDecidableForall _ _ _ (List.decidableBAll _ _))))

/-! ## The layout of an entry -/

/-- The holes `hs` of an entry are apart, and their descriptors lie inside the buffer and are not
divided between two chunks. -/
structure Layout (frag : FragDesc H) (hs : List (UInt16 × UInt16)) : Prop where
  linked : frag.holes.Linked none hs
  apart : Apart frag.holes.length 0 hs
  aligned : ∀ hole ∈ hs, 8 ∣ hole.1.toNat ∧ (hole.2 = INFINITY ∨ 8 ∣ hole.2.toNat)
  last : ∀ hole ∈ hs, hole.2 = INFINITY → hole.1.toNat = frag.dataLen
  length : frag.holes.length = frag.dataLen + holeDescSize
  dataLen_le : frag.dataLen + holeDescSize ≤ INFINITY.toNat

/-- If the computation of its end overflows, no hole begins behind the fragment, and if it is not
the last, it does not interact with any hole. -/
def Fragment.Wraps (f : Fragment) (hs : List (UInt16 × UInt16)) : Prop :=
  2 ^ 16 ≤ f.dataEnd → ∀ hole ∈ hs, hole.1 < f.dataFirst ∧ (f.Hits hole → f.more = false)

/-- An aligned position does not carry the mark of the open end. -/
theorem ne_infinity {x : UInt16} (h : 8 ∣ x.toNat) : x ≠ INFINITY := by
  rintro rfl
  exact absurd h (by decide)

/-- Only a fragment that is not the last keeps the end of a hole, and then it does not wrap. -/
theorem Fragment.Wraps.noWrap {f : Fragment} {hs : List (UInt16 × UInt16)} (h : f.Wraps hs)
    {hole : UInt16 × UInt16} (hmem : hole ∈ hs) (hhit : f.Hits hole) (hmore : f.more = true) :
    f.dataEnd < 2 ^ 16 := by
  by_contra hge
  have hlast := (h (not_lt.1 hge) hole hmem).2 hhit
  rw [hmore] at hlast
  cases hlast

namespace Layout

variable {frag : FragDesc H} {hs : List (UInt16 × UInt16)}

theorem length_le (h : Layout frag hs) : frag.holes.length ≤ INFINITY.toNat := by
  rw [h.length]
  exact h.dataLen_le

theorem holeList (h : Layout frag hs) : frag.holes.holeList = hs :=
  holeList_linked h.length_le h.linked h.apart

/-- If no hole is found, there is none. -/
theorem eq_nil (h : Layout frag hs) (hnone : frag.holes.findHole frag.holes.firstHole = none) :
    hs = [] := by
  cases hs with
  | nil => rfl
  | cons hole hs =>
      have hfirst : frag.holes.firstHole = hole.1 := h.linked.1
      have hlt := (h.apart.mem (List.mem_cons_self ..)).2.2
      rw [hfirst, findHole_of_lt (by omega)] at hnone
      cases hnone

/-- A new entry. -/
theorem create (r : Protocol P H K) (pool : Pool) (packet : P) :
    Layout (FragDesc.create r pool packet) [(0, INFINITY)] := by
  let s : HoleList := (⟨0, pool.contents, holeDescSize⟩ : HoleList).setBounds 0 0 INFINITY
  have hsame : ∀ i, i < 4 → (s.setNext (some 0) INFINITY).data i = s.data i := fun i hi =>
    setNext_data _ (by rintro ⟨p, hp, hle, _⟩; cases hp; omega)
  have hend : (s.setNext (some 0) INFINITY).next (some 0) = INFINITY := next_setNext_self _ _
  refine ⟨⟨rfl, ?_, ?_, hend⟩, ⟨Nat.le_refl _, by decide, Nat.le_refl 6, trivial⟩, ?_, ?_, rfl, ?_⟩
  · refine (Memory.getU16_congr (hsame 0 (by omega)) (hsame 1 (by omega))).trans ?_
    show ((pool.contents.setU16 0 0).setU16 2 INFINITY).getU16 0 = 0
    rw [Memory.getU16_setU16_of_ne _ _ (by omega), Memory.getU16_setU16_self]
  · refine (Memory.getU16_congr (hsame 2 (by omega)) (hsame 3 (by omega))).trans ?_
    exact Memory.getU16_setU16_self _ _ _
  · intro hole hmem
    rw [List.mem_singleton.1 hmem]
    exact ⟨Nat.dvd_zero 8, .inl rfl⟩
  · intro hole hmem _
    rw [List.mem_singleton.1 hmem]
    rfl
  · have hinf : INFINITY.toNat = 65535 := rfl
    simp only [FragDesc.create, holeDescSize, hinf]
    omega

section Insert

variable {f : Fragment}

/-- The list is the same in a larger buffer. -/
theorem grow (h : Layout frag hs) {grown : FragDesc H} (hle : frag.dataLen ≤ grown.dataLen)
    (hholes : grown.holes = { frag.holes with length := grown.dataLen + holeDescSize }) :
    grown.holes.Linked none hs ∧ Apart grown.holes.length 0 hs := by
  rw [hholes]
  refine ⟨h.linked.congr rfl fun _ _ _ _ _ => rfl, h.apart.longer ?_⟩
  rw [h.length]
  exact Nat.add_le_add_right hle _

theorem forward (hw : f.Wraps hs) :
    ∀ hole ∈ hs, Forward f.dataFirst f.dataLast f.more hole := by
  intro hole hmem hlt hgt hmore
  rw [f.dataLast_toNat (hw.noWrap hmem ⟨hlt, hgt⟩ hmore)]
  exact Nat.le_add_right _ _

/-- There is room for the descriptors of what is left of a hole. -/
theorem room (h : Layout frag hs) (hf : f.Aligned) (hw : f.Wraps hs) {dataLen : ℕ}
    (hlast : f.dataLast.toNat ≤ dataLen) :
    ∀ hole ∈ hs, Room (dataLen + holeDescSize) f.dataFirst f.dataLast f.more hole := by
  intro hole hmem hhit1 hhit2
  obtain ⟨hfirst8, hlast8⟩ := h.aligned hole hmem
  have h8 := hf.first
  have hdesc : holeDescSize = 6 := rfl
  refine ⟨fun hgt => ?_, fun hlt hmore => ?_⟩
  · have hgt := UInt16.lt_iff_toNat_lt.1 hgt
    omega
  · have hd := f.dataLast_toNat (hw.noWrap hmem ⟨hhit1, hhit2⟩ hmore)
    have hend : f.dataEnd = f.dataFirst.toNat + f.data.length := rfl
    have hlt := UInt16.lt_iff_toNat_lt.1 hlt
    have hlen8 := hf.length hmore
    refine ⟨?_, by omega⟩
    rcases hlast8 with hinf | hb
    · have h65535 : hole.2.toNat = 65535 := by
        rw [hinf]
        rfl
      omega
    · omega

/-- What is left of a hole has its descriptor outside the fragment. -/
theorem cut_outside (h : Layout frag hs) (hf : f.Aligned) (hw : f.Wraps hs)
    {piece : UInt16 × UInt16} (hmem : piece ∈ hs.flatMap (cut f.dataFirst f.dataLast f.more))
    (hroom : piece.1.toNat + 6 ≤ piece.2.toNat) :
    piece.1.toNat + 6 ≤ f.dataFirst.toNat ∨ f.dataEnd ≤ piece.1.toNat := by
  obtain ⟨hole, hhole, hpiece⟩ := List.mem_flatMap.1 hmem
  have h8 := hf.first
  have hfirst8 := (h.aligned hole hhole).1
  rcases mem_cut.1 hpiece with ⟨hmiss, rfl⟩ | ⟨hhit, ⟨-, rfl⟩ | ⟨⟨-, hmore⟩, rfl⟩⟩
  · by_cases hwrap : f.dataEnd < 2 ^ 16
    · have hd := f.dataLast_toNat hwrap
      rw [UInt16.lt_iff_toNat_lt, gt_iff_lt, UInt16.lt_iff_toNat_lt] at hmiss
      omega
    · have hbefore := UInt16.lt_iff_toNat_lt.1 (hw (not_lt.1 hwrap) piece hhole).1
      omega
  · exact .inl hroom
  · refine .inr ?_
    rw [f.dataLast_toNat (hw.noWrap hhole hhit hmore)]

/-- The open hole begins at the new end of the data. -/
theorem last_cut (h : Layout frag hs) (hf : f.Aligned) {piece : UInt16 × UInt16}
    (hmem : piece ∈ hs.flatMap (cut f.dataFirst f.dataLast f.more)) (hinf : piece.2 = INFINITY) :
    piece.1.toNat = max frag.dataLen f.dataLast.toNat := by
  obtain ⟨hole, hhole, hpiece⟩ := List.mem_flatMap.1 hmem
  have hfirst : f.dataFirst < INFINITY := by
    rw [UInt16.lt_iff_toNat_lt]
    have h16 := f.dataFirst.toNat_lt
    have h8 := hf.first
    show _ < 65535
    omega
  rcases mem_cut.1 hpiece with ⟨hmiss, rfl⟩ | ⟨hhit, ⟨-, rfl⟩ | ⟨-, rfl⟩⟩
  · have hopen := h.last piece hhole hinf
    rw [hinf] at hmiss
    have hle : f.dataLast ≤ piece.1 := UInt16.not_lt.1 fun hlt => hmiss ⟨hfirst, hlt⟩
    have hle := UInt16.le_iff_toNat_le.1 hle
    omega
  · exact absurd hinf (ne_infinity hf.first)
  · have hopen := h.last hole hhole hinf
    have hgt := UInt16.lt_iff_toNat_lt.1 hhit.2
    show f.dataLast.toNat = _
    omega

theorem aligned_cut (h : Layout frag hs) (hf : f.Aligned) (hw : f.Wraps hs)
    {piece : UInt16 × UInt16} (hmem : piece ∈ hs.flatMap (cut f.dataFirst f.dataLast f.more)) :
    8 ∣ piece.1.toNat ∧ (piece.2 = INFINITY ∨ 8 ∣ piece.2.toNat) := by
  obtain ⟨hole, hhole, hpiece⟩ := List.mem_flatMap.1 hmem
  rcases mem_cut.1 hpiece with ⟨-, rfl⟩ | ⟨hhit, ⟨-, rfl⟩ | ⟨⟨-, hmore⟩, rfl⟩⟩
  · exact h.aligned piece hhole
  · exact ⟨(h.aligned hole hhole).1, .inr hf.first⟩
  · refine ⟨?_, (h.aligned hole hhole).2⟩
    rw [f.dataLast_toNat (hw.noWrap hhole hhit hmore)]
    exact Nat.dvd_add hf.first (hf.length hmore)

/-- A fragment is put in place, once the buffer is large enough: what it covers is its data, and
nothing else changes outside the holes. -/
theorem insert (h : Layout frag hs) (hf : f.Aligned) (hw : f.Wraps hs) {grown : FragDesc H}
    (hlen : grown.dataLen = max frag.dataLen f.dataLast.toNat)
    (hholes : grown.holes = { frag.holes with length := grown.dataLen + holeDescSize })
    (hle : grown.dataLen + holeDescSize ≤ INFINITY.toNat) :
    ∃ holes, grown.holes.updateHoles f.dataFirst f.dataLast f.more = some holes ∧
      Layout { grown with holes := copyData holes f }
        (hs.flatMap (cut f.dataFirst f.dataLast f.more)) ∧
      (∀ i < grown.dataLen, f.dataFirst.toNat ≤ i → i < f.dataEnd →
        f.Carries i ((copyData holes f).data i)) ∧
      ∀ i, i < f.dataFirst.toNat ∨ f.dataEnd ≤ i → ¬ InHole hs i →
        (copyData holes f).data i = frag.holes.data i := by
  have hlength : grown.holes.length = grown.dataLen + holeDescSize := by rw [hholes]
  obtain ⟨hlinked, hapart⟩ := h.grow (by omega) hholes
  obtain ⟨holes, hupdate, hlinked', hapart', hlength', hsame⟩ := updateHoles_spec f.more
    (forward hw) (hlength ▸ hle) hlinked hapart
    (by rw [hlength]; exact h.room hf hw (by omega))
  have hwrite : ∀ i, i < f.dataFirst.toNat ∨ f.dataEnd ≤ i →
      (copyData holes f).data i = holes.data i := by
    rintro i (hlt | hge)
    · exact Memory.write_of_lt _ _ hlt
    · refine Memory.write_of_ge _ _ ?_
      rw [List.length_take]
      exact (Nat.add_le_add_left (Nat.min_le_right _ _) _).trans hge
  refine ⟨holes, hupdate, ⟨?_, ?_, fun _ => h.aligned_cut hf hw, fun piece hmem hinf => ?_, ?_, hle⟩,
    fun i hi hfirst hend => ⟨hfirst, ?_⟩, fun i hout hold => ?_⟩
  · -- the data is not written over a descriptor
    refine hlinked'.congr rfl fun piece hmem i hlo hhi => hwrite i ?_
    rcases h.cut_outside hf hw hmem (hapart'.mem hmem).2.1 with hle | hle
    · exact .inl (by omega)
    · exact .inr (by omega)
  · show Apart holes.length 0 _
    rw [hlength']
    exact hapart'
  · exact (h.last_cut hf hmem hinf).trans hlen.symm
  · exact hlength'.trans hlength
  · obtain ⟨k, rfl⟩ := Nat.exists_eq_add_of_le hfirst
    have hend : f.dataFirst.toNat + k < f.dataFirst.toNat + f.data.length := hend
    have htake : k < (f.data.take (holes.length - f.dataFirst.toNat)).length := by
      rw [List.length_take, hlength', hlength]
      omega
    have hdata : (copyData holes f).data (f.dataFirst.toNat + k) = _ :=
      Memory.write_add holes.data f.dataFirst.toNat _ htake
    rw [hdata, Nat.add_sub_cancel_left, List.getElem_take]
    exact List.getElem?_eq_getElem _
  · rw [hwrite i hout, hsame i hold, hholes]

end Insert

end Layout

/-! ## One entry -/

/-- The holes `hs` of an entry are apart, their descriptors lie inside the buffer and are not
divided between two chunks, and all that is not in a hole has come with one of the fragments `fs`.
-/
structure Sound (frag : FragDesc H) (fs : List Fragment) (hs : List (UInt16 × UInt16)) : Prop where
  linked : frag.holes.Linked none hs
  apart : Apart frag.holes.length 0 hs
  aligned : ∀ hole ∈ hs, 8 ∣ hole.1.toNat ∧ (hole.2 = INFINITY ∨ 8 ∣ hole.2.toNat)
  last : ∀ hole ∈ hs, hole.2 = INFINITY → hole.1.toNat = frag.dataLen
  length : frag.holes.length = frag.dataLen + holeDescSize
  dataLen_le : frag.dataLen + holeDescSize ≤ INFINITY.toNat
  data : ∀ i < frag.dataLen, ¬ InHole hs i → ∃ f ∈ fs, f.Carries i (frag.holes.data i)

section Sound

variable {frag : FragDesc H} {fs : List Fragment} {hs : List (UInt16 × UInt16)}

theorem Layout.sound (h : Layout frag hs)
    (hdata : ∀ i < frag.dataLen, ¬ InHole hs i → ∃ f ∈ fs, f.Carries i (frag.holes.data i)) :
    Sound frag fs hs :=
  ⟨h.linked, h.apart, h.aligned, h.last, h.length, h.dataLen_le, hdata⟩

namespace Sound

theorem layout (h : Sound frag fs hs) : Layout frag hs :=
  ⟨h.linked, h.apart, h.aligned, h.last, h.length, h.dataLen_le⟩

theorem holeList (h : Sound frag fs hs) : frag.holes.holeList = hs := h.layout.holeList

/-- A new entry. -/
theorem create (r : Protocol P H K) (pool : Pool) (packet : P) :
    Sound (FragDesc.create r pool packet) [] [(0, INFINITY)] :=
  (Layout.create r pool packet).sound fun i hi => absurd hi (Nat.not_lt_zero i)

section Insert

variable {f : Fragment}

/-- Positions outside the fragment that were missing are still missing, unless they lie behind the
end of the datagram. -/
theorem inHole_cut (h : Sound frag fs hs) (hc : Consistent frag f) {i : ℕ} (hi : InHole hs i)
    (hout : i < f.dataFirst.toNat ∨ f.dataEnd ≤ i)
    (hend : i < max frag.dataLen f.dataLast.toNat) :
    InHole (hs.flatMap (cut f.dataFirst f.dataLast f.more)) i := by
  obtain ⟨hole, hmem, hle, hlt⟩ := hi
  have hpiece : ∀ piece, piece ∈ cut f.dataFirst f.dataLast f.more hole →
      piece.1.toNat ≤ i → i < piece.2.toNat →
      InHole (hs.flatMap (cut f.dataFirst f.dataLast f.more)) i := fun piece hp h1 h2 =>
    ⟨piece, List.mem_flatMap.2 ⟨hole, hmem, hp⟩, h1, h2⟩
  by_cases hhit : f.Hits hole
  case neg => exact hpiece hole (mem_cut.2 (.inl ⟨hhit, rfl⟩)) hle hlt
  case pos =>
    rcases hout with hbefore | hafter
    · refine hpiece (hole.1, f.dataFirst) (mem_cut.2 (.inr ⟨hhit, .inl ⟨?_, rfl⟩⟩)) hle hbefore
      exact UInt16.lt_iff_toNat_lt.2 (lt_of_le_of_lt hle hbefore)
    · have h16 := hole.2.toNat_lt
      have hd := f.dataLast_toNat (by omega)
      rw [← hd] at hafter
      have hinside : f.dataLast < hole.2 :=
        UInt16.lt_iff_toNat_lt.2 (lt_of_le_of_lt hafter hlt)
      cases hmore : f.more with
      | true =>
          rw [hmore] at hpiece
          refine hpiece (f.dataLast, hole.2) ?_ hafter hlt
          exact mem_cut.2 (.inr ⟨hhit, .inr ⟨⟨hinside, rfl⟩, rfl⟩⟩)
      | false =>
          -- the last fragment ends inside the hole, so nothing is missing behind it
          rcases hc.endsLast hmore hole (h.holeList.symm ▸ hmem) hhit with hle' | hle' <;> omega

/-- A fragment is put in place, once the buffer is large enough. -/
theorem insert (h : Sound frag fs hs) (hf : f.Aligned) (hc : Consistent frag f)
    {grown : FragDesc H} (hlen : grown.dataLen = max frag.dataLen f.dataLast.toNat)
    (hholes : grown.holes = { frag.holes with length := grown.dataLen + holeDescSize })
    (hle : grown.dataLen + holeDescSize ≤ INFINITY.toNat) :
    ∃ holes, grown.holes.updateHoles f.dataFirst f.dataLast f.more = some holes ∧
      Sound { grown with holes := copyData holes f } (f :: fs)
        (hs.flatMap (cut f.dataFirst f.dataLast f.more)) := by
  have hw : f.Wraps hs := h.holeList ▸ hc.wraps
  obtain ⟨holes, hupdate, hlayout, hwritten, hkept⟩ := h.layout.insert hf hw hlen hholes hle
  refine ⟨holes, hupdate, hlayout.sound fun i hi hout => ?_⟩
  have hi : i < grown.dataLen := hi
  by_cases hin : f.dataFirst.toNat ≤ i ∧ i < f.dataEnd
  · exact ⟨f, List.mem_cons_self .., hwritten i hi hin.1 hin.2⟩
  · have hout' : i < f.dataFirst.toNat ∨ f.dataEnd ≤ i := by omega
    have hold : ¬ InHole hs i := fun hin => hout (h.inHole_cut hc hin hout' (hlen ▸ hi))
    have hlt : i < frag.dataLen := by
      by_contra hge
      have h16 := f.dataLast.toNat_lt
      have hfirst : i < f.dataFirst.toNat := by
        refine hout'.resolve_right fun hend => ?_
        have := f.dataLast_toNat (by omega)
        omega
      -- a fragment that does not reach the data: the rest is missing
      obtain ⟨hole, hmem, hinf⟩ := hc.notBehind (by omega) (by omega)
      rw [h.holeList] at hmem
      refine hold ⟨hole, hmem, (h.last hole hmem hinf).trans_le (not_lt.1 hge), ?_⟩
      have h16' := f.dataFirst.toNat_lt
      rw [hinf]
      show i < 65535
      omega
    obtain ⟨f', hmem, hcarries⟩ := h.data i hlt hold
    exact ⟨f', List.mem_cons_of_mem _ hmem, (hkept i hout' hold).symm ▸ hcarries⟩

end Insert

/-- If no hole is found, all bytes have been received. -/
theorem complete (h : Sound frag fs hs) (hnone : frag.holes.findHole frag.holes.firstHole = none)
    {i : ℕ} {byte : UInt8} (hbyte : (frag.holes.data.read 0 frag.dataLen)[i]? = some byte) :
    ∃ f ∈ fs, f.Carries i byte := by
  obtain ⟨hi, rfl⟩ := List.getElem?_eq_some_iff.1 hbyte
  rw [Memory.length_read] at hi
  rw [Memory.getElem_read, Nat.zero_add]
  refine h.data i hi ?_
  rw [h.layout.eq_nil hnone]
  rintro ⟨_, hmem, _⟩
  cases hmem

end Sound

end Sound

/-! ## A fragment -/

/-- The entry whose holes are updated: its header is the one that the first fragment supplies, and
its buffer is large enough; or it is dropped. -/
def prepare (r : Protocol P H K) (pool : Pool) (frag : FragDesc H) (packet : P) : FragDesc H :=
  let f := r.fragment packet
  let frag := if f.dataFirst = 0 then firstFragment r frag packet else frag
  if frag.used = true then growBuffer r pool frag f.dataLast else frag

/-- A fragment that is dealt with by `insert`, unless the datagram is dropped. -/
theorem prepare_split {α : Type*} (r : Protocol P H K) (pool : Pool) (frag : FragDesc H) (packet : P)
    (insert drop : FragDesc H → α) :
    (let f := r.fragment packet
      let frag := if f.dataFirst = 0 then firstFragment r frag packet else frag
      if frag.used = true then
        let frag := growBuffer r pool frag f.dataLast
        if frag.used = true then insert frag else drop frag
      else drop frag) =
      if (prepare r pool frag packet).used = true then insert (prepare r pool frag packet)
      else drop (prepare r pool frag packet) := by
  rw [prepare]
  dsimp only
  generalize (if (r.fragment packet).dataFirst = 0 then firstFragment r frag packet else frag)
    = frag1
  by_cases hused : frag1.used = true
  · simp only [if_pos hused]
  · simp only [if_neg hused]

/-- The length of the header once the fragment has been seen. -/
def headerLengthWith (r : Protocol P H K) (frag : FragDesc H) (packet : P) : ℕ :=
  if (r.fragment packet).dataFirst = 0 then (r.firstHeader packet).2 else frag.headerLength

/-- The datagram is not dropped when the packet arrives: it is not too large, and there is memory.
-/
structure Taken (r : Protocol P H K) (pool : Pool) (frag : FragDesc H) (packet : P) : Prop where
  first : (r.fragment packet).dataFirst = 0 →
    (r.firstHeader packet).2 + frag.dataLen ≤ r.maxDatagramSize ∧
      (r.firstHeader packet).2 ≤ NET_MEM_POOL_BUFFER_SIZE
  grows : frag.dataLen < (r.fragment packet).dataLast.toNat →
    headerLengthWith r frag packet + (r.fragment packet).dataLast.toNat ≤ r.maxDatagramSize ∧
      pool.grow = true

instance (r : Protocol P H K) (pool : Pool) (frag : FragDesc H) (packet : P) :
    Decidable (Taken r pool frag packet) :=
  decidable_of_iff (((r.fragment packet).dataFirst = 0 →
      (r.firstHeader packet).2 + frag.dataLen ≤ r.maxDatagramSize ∧
        (r.firstHeader packet).2 ≤ NET_MEM_POOL_BUFFER_SIZE) ∧
    (frag.dataLen < (r.fragment packet).dataLast.toNat →
      headerLengthWith r frag packet + (r.fragment packet).dataLast.toNat ≤ r.maxDatagramSize ∧
        pool.grow = true))
    ⟨fun h => ⟨h.1, h.2⟩, fun h => ⟨h.1, h.2⟩⟩

section Fragments

variable {r : Protocol P H K} {pool : Pool} {frag : FragDesc H} {packet : P}

/-- The first fragment changes the header only, or the datagram is dropped. -/
theorem firstFragment_cases (r : Protocol P H K) (packet : P) (hused : frag.used = true) :
    let frag1 := if (r.fragment packet).dataFirst = 0 then firstFragment r frag packet else frag
    frag1.used = false ∨
      (((r.fragment packet).dataFirst = 0 →
        (r.firstHeader packet).2 + frag.dataLen ≤ r.maxDatagramSize ∧
          (r.firstHeader packet).2 ≤ NET_MEM_POOL_BUFFER_SIZE) ∧
        frag1.used = true ∧ frag1.headerLength = headerLengthWith r frag packet ∧
        frag1.dataLen = frag.dataLen ∧ frag1.holes = frag.holes) := by
  intro frag1
  by_cases hfirst : (r.fragment packet).dataFirst = 0
  case neg =>
    have hfrag1 : frag1 = frag := if_neg hfirst
    rw [hfrag1, headerLengthWith, if_neg hfirst]
    exact .inr ⟨fun h => absurd h hfirst, hused, rfl, rfl, rfl⟩
  case pos =>
    have hfrag1 : frag1 = firstFragment r frag packet := if_pos hfirst
    rw [hfrag1, headerLengthWith, if_pos hfirst, firstFragment]
    dsimp only
    split
    · exact .inl rfl
    case isFalse hsize =>
      split
      · exact .inl rfl
      case isFalse hheader =>
        exact .inr ⟨fun _ => ⟨not_lt.1 hsize, not_lt.1 hheader⟩, hused, rfl, rfl, rfl⟩

/-- The buffer becomes large enough, or the datagram is dropped. -/
theorem growBuffer_cases (r : Protocol P H K) (pool : Pool) (dataLast : UInt16)
    (hused : frag.used = true) (hlength : frag.holes.length = frag.dataLen + holeDescSize) :
    (growBuffer r pool frag dataLast).used = false ∨
      ((frag.dataLen < dataLast.toNat →
        frag.headerLength + dataLast.toNat ≤ r.maxDatagramSize ∧ pool.grow = true) ∧
        (growBuffer r pool frag dataLast).used = true ∧
        (growBuffer r pool frag dataLast).dataLen = max frag.dataLen dataLast.toNat ∧
        (growBuffer r pool frag dataLast).holes = { frag.holes with
          length := (growBuffer r pool frag dataLast).dataLen + holeDescSize }) := by
  rw [growBuffer]
  by_cases hgt : dataLast.toNat > frag.dataLen
  case neg =>
    rw [if_neg hgt]
    refine .inr ⟨fun h => absurd h hgt, hused, by omega, ?_⟩
    rw [← hlength]
  case pos =>
    rw [if_pos hgt]
    split
    · exact .inl rfl
    case isFalse hsize =>
      by_cases hgrow : pool.grow = true
      · rw [if_pos hgrow]
        refine .inr ⟨fun _ => ⟨not_lt.1 hsize, hgrow⟩, hused, ?_, rfl⟩
        exact (Nat.max_eq_right hgt.le).symm
      · rw [if_neg hgrow]
        exact .inl rfl

/-- The datagram is dropped, or the buffer is large enough. -/
theorem prepare_cases (r : Protocol P H K) (pool : Pool) (packet : P) (hused : frag.used = true)
    (hlength : frag.holes.length = frag.dataLen + holeDescSize) :
    (prepare r pool frag packet).used = false ∨
      Taken r pool frag packet ∧ (prepare r pool frag packet).used = true ∧
        (prepare r pool frag packet).dataLen
          = max frag.dataLen (r.fragment packet).dataLast.toNat ∧
        (prepare r pool frag packet).holes = { frag.holes with
          length := (prepare r pool frag packet).dataLen + holeDescSize } := by
  rw [prepare]
  dsimp only
  have hfirst := firstFragment_cases r packet hused
  generalize (if (r.fragment packet).dataFirst = 0 then firstFragment r frag packet else frag)
    = frag1 at hfirst ⊢
  rcases hfirst with hdrop | ⟨hfirst, hused1, hheader, hdataLen, hholes⟩
  · rw [if_neg (by rw [hdrop]; exact Bool.false_ne_true)]
    exact .inl hdrop
  rw [if_pos hused1]
  have hgrow := growBuffer_cases r pool (r.fragment packet).dataLast hused1
    (by rw [hholes, hdataLen, hlength])
  rw [hheader, hdataLen, hholes] at hgrow
  exact hgrow.imp_right fun ⟨hgrows, hused2, hlen, hgrown⟩ => ⟨⟨hfirst, hgrows⟩, hused2, hlen, hgrown⟩

theorem processFragment_eq :
    processFragment r pool frag packet =
      if (prepare r pool frag packet).used = true then
        insertFragment r (prepare r pool frag packet) (r.fragment packet)
          (r.fragment packet).dataLast
      else some (prepare r pool frag packet, none) :=
  prepare_split r pool frag packet
    (fun frag => insertFragment r frag (r.fragment packet) (r.fragment packet).dataLast)
    fun frag => some (frag, none)

/-- The datagram is dropped, or the fragment is put in place in a buffer that is large enough. -/
theorem processFragment_cases (r : Protocol P H K) (pool : Pool) (packet : P)
    (hused : frag.used = true) (hlength : frag.holes.length = frag.dataLen + holeDescSize) :
    (∃ frag', processFragment r pool frag packet = some (frag', none) ∧ frag'.used = false) ∨
      Taken r pool frag packet ∧ ∃ grown : FragDesc H,
        processFragment r pool frag packet
          = insertFragment r grown (r.fragment packet) (r.fragment packet).dataLast ∧
        grown.dataLen = max frag.dataLen (r.fragment packet).dataLast.toNat ∧
        grown.holes = { frag.holes with length := grown.dataLen + holeDescSize } := by
  rw [processFragment_eq]
  rcases prepare_cases r pool packet hused hlength with hdrop | ⟨htaken, hused', hlen, hholes⟩
  · exact .inl ⟨_, if_neg (by rw [hdrop]; exact Bool.false_ne_true), hdrop⟩
  · exact .inr ⟨htaken, _, if_pos hused', hlen, hholes⟩

/-- A buffer that is large enough is not too large. -/
theorem Taken.dataLen_le (h : Taken r pool frag packet)
    (hmax : r.maxDatagramSize + holeDescSize ≤ INFINITY.toNat)
    (hle : frag.dataLen + holeDescSize ≤ INFINITY.toNat) :
    max frag.dataLen (r.fragment packet).dataLast.toNat + holeDescSize ≤ INFINITY.toNat := by
  by_cases hgt : frag.dataLen < (r.fragment packet).dataLast.toNat
  · have hsize := (h.grows hgt).1
    omega
  · omega

/-- A fragment that is consistent with the entry: the code returns, and a datagram that is handed
over has come with the fragments. -/
theorem Sound.process {fs : List Fragment} {hs : List (UInt16 × UInt16)} (h : Sound frag fs hs)
    (hused : frag.used = true) (hmax : r.maxDatagramSize + holeDescSize ≤ INFINITY.toNat)
    (hf : (r.fragment packet).Aligned)
    (hc : Taken r pool frag packet → Consistent frag (r.fragment packet)) :
    ∃ frag' out, processFragment r pool frag packet = some (frag', out) ∧
      (frag'.used = true → ∃ hs', Sound frag' (r.fragment packet :: fs) hs') ∧
      ∀ datagram ∈ out, ∀ i byte, datagram.2[i]? = some byte →
        ∃ f ∈ r.fragment packet :: fs, f.Carries i byte := by
  rcases processFragment_cases r pool packet hused h.length with
    ⟨frag', hprocess, hdrop⟩ | ⟨htaken, grown, hprocess, hlen, hholes⟩
  · refine ⟨frag', none, hprocess, fun hused' => ?_, by simp⟩
    rw [hdrop] at hused'
    cases hused'
  have hle := htaken.dataLen_le hmax h.dataLen_le
  rw [← hlen] at hle
  obtain ⟨holes, hupdate, hsound⟩ := h.insert hf (hc htaken) hlen hholes hle
  rw [hprocess, insertFragment, hupdate]
  dsimp only
  by_cases hnone : (copyData holes (r.fragment packet)).findHole
      (copyData holes (r.fragment packet)).firstHole = none
  · rw [if_pos hnone]
    refine ⟨_, _, rfl, by simp [FragDesc.drop], fun datagram hmem i byte hbyte => ?_⟩
    cases hmem
    exact hsound.complete hnone hbyte
  · rw [if_neg hnone]
    exact ⟨_, _, rfl, fun _ => ⟨_, hsound⟩, by simp⟩

end Fragments

/-! ## The queue -/

/-- What a reader of the hole list finds: it ends, the holes are disjoint, and every descriptor lies
inside the buffer. -/
structure FragDesc.Safe (frag : FragDesc H) : Prop where
  finite : frag.holes.Linked none frag.holes.holeList
  disjoint : frag.holes.holeList.Pairwise fun x y => x.2 ≤ y.1
  inside : ∀ hole ∈ frag.holes.holeList, hole.1.toNat + holeDescSize ≤ frag.holes.length

theorem Sound.safe {frag : FragDesc H} {fs : List Fragment} {hs : List (UInt16 × UInt16)}
    (h : Sound frag fs hs) : frag.Safe := by
  refine ⟨?_, ?_, ?_⟩ <;> rw [h.holeList]
  · exact h.linked
  · exact h.apart.pairwise
  · exact fun hole hmem => (h.apart.mem hmem).2.2

/-- The reassembly queue, the packets that have come for every entry since it was made, and the
datagrams that have been handed over, each with the packets of its entry. -/
structure Receiver (P H : Type*) (n : ℕ) where
  queue : Fin n → FragDesc H
  received : Fin n → List P
  delivered : List ((H × List UInt8) × List P)

/-- A packet arrives, or the time of an entry is over. -/
inductive Input (P : Type*) (n : ℕ) where
  | packet (pool : Pool) (packet : P)
  | expire (k : Fin n)

variable {n : ℕ} [DecidableEq K]

/-- The entry that a packet goes to, if it is not dropped before. -/
def entryFor (r : Protocol P H K) (pool : Pool) (queue : Fin n → FragDesc H) (packet : P) :
    Option (Fin n × (Fin n → FragDesc H)) :=
  if (r.fragment packet).more = true ∧ (r.fragment packet).data.length % 8 ≠ 0 then none
  else searchFragQueue r pool queue packet

theorem reassemble_none {r : Protocol P H K} {pool : Pool} {queue : Fin n → FragDesc H} {packet : P}
    (h : entryFor r pool queue packet = none) :
    reassemble r pool queue packet = some (queue, none) := by
  rw [entryFor] at h
  rw [reassemble]
  split at h
  case isTrue hlen => exact if_pos hlen
  case isFalse hlen =>
    rw [if_neg hlen]
    simp only [h]

theorem reassemble_some {r : Protocol P H K} {pool : Pool} {queue queue1 : Fin n → FragDesc H}
    {packet : P} {k : Fin n} {frag : FragDesc H} {out : Option (H × List UInt8)}
    (h : entryFor r pool queue packet = some (k, queue1))
    (hprocess : processFragment r pool (queue1 k) packet = some (frag, out)) :
    reassemble r pool queue packet = some (Function.update queue1 k frag, out) := by
  rw [entryFor] at h
  rw [reassemble]
  split at h
  case isTrue => cases h
  case isFalse hlen =>
    rw [if_neg hlen]
    simp only [h, hprocess]

/-- The packets of an entry with one that arrives. -/
def Receiver.packets (s : Receiver P H n) (k : Fin n) (packet : P) : List P :=
  packet :: if (s.queue k).used = true then s.received k else []

/-- One step of the queue. There is no state after a step from which the code does not return. -/
def Receiver.step (r : Protocol P H K) : Option (Receiver P H n) → Input P n →
    Option (Receiver P H n)
  | none, _ => none
  | some s, .expire k => some { s with queue := Function.update s.queue k (s.queue k).drop }
  | some s, .packet pool packet =>
      match reassemble r pool s.queue packet with
      | none => none
      | some (queue, datagram) =>
          match entryFor r pool s.queue packet with
          | none => some { s with queue := queue }
          | some (k, _) =>
              some {
                queue := queue
                received := Function.update s.received k (s.packets k packet)
                delivered := s.delivered ++ datagram.toList.map fun d => (d, s.packets k packet) }

/-- The packet is consistent with its entry, or the entry is dropped. -/
def Receiver.Admits (r : Protocol P H K) : Option (Receiver P H n) → Input P n → Prop
  | some s, .packet pool packet =>
      ∀ found ∈ entryFor r pool s.queue packet, Taken r pool (found.2 found.1) packet →
        Consistent (found.2 found.1) (r.fragment packet)
  | _, _ => True

instance (r : Protocol P H K) :
    (s : Option (Receiver P H n)) → (e : Input P n) → Decidable (Receiver.Admits r s e)
  | none, _ => isTrue trivial
  | some _, .expire _ => isTrue trivial
  | some s, .packet pool packet =>
      match h : entryFor r pool s.queue packet with
      | none => isTrue fun found hmem => by simp [h] at hmem
      | some found => decidable_of_iff (Taken r pool (found.2 found.1) packet →
          Consistent (found.2 found.1) (r.fragment packet))
          ⟨fun hc found' hmem => by
            rw [h] at hmem
            cases hmem
            exact hc, fun hc => hc found h⟩

/-- The datagram has come with the packets. -/
def Received (r : Protocol P H K) (packets : List P) (datagram : H × List UInt8) : Prop :=
  ∀ i byte, datagram.2[i]? = some byte →
    ∃ packet ∈ packets, r.key packet = r.headerKey datagram.1 ∧
      (r.fragment packet).Carries i byte

/-- All entries are sound, with the packets of one datagram, and so are the datagrams that have been
handed over. -/
structure Receiver.Kept (r : Protocol P H K) (s : Receiver P H n) : Prop where
  sound : ∀ k, (s.queue k).used = true →
    ∃ hs, Sound (s.queue k) ((s.received k).map r.fragment) hs
  key : ∀ k, (s.queue k).used = true →
    ∀ packet ∈ s.received k, r.key packet = r.headerKey (s.queue k).header
  delivered : ∀ d ∈ s.delivered, Received r d.2 d.1

section Runs

variable {r : Protocol P H K} {s : Receiver P H n}

omit [DecidableEq K] in
theorem Receiver.Kept.expire (h : s.Kept r) (k : Fin n) :
    ({ s with queue := Function.update s.queue k (s.queue k).drop } : Receiver P H n).Kept r := by
  have hothers : ∀ k', (Function.update s.queue k (s.queue k).drop k').used = true →
      Function.update s.queue k (s.queue k).drop k' = s.queue k' := by
    intro k' hused
    by_cases hk : k' = k
    · subst hk
      rw [Function.update_self] at hused
      cases hused
    · exact Function.update_of_ne hk _ _
  refine ⟨fun k' hused => ?_, fun k' hused => ?_, h.delivered⟩
  · have hsame := hothers k' hused
    dsimp only at hused ⊢
    rw [hsame] at hused ⊢
    exact h.sound k' hused
  · have hsame := hothers k' hused
    dsimp only at hused ⊢
    rw [hsame] at hused ⊢
    exact h.key k' hused

theorem entryFor_aligned {pool : Pool} {queue : Fin n → FragDesc H} {packet : P}
    {found : Fin n × (Fin n → FragDesc H)} (h : entryFor r pool queue packet = some found) :
    ((r.fragment packet).more = true → 8 ∣ (r.fragment packet).data.length) ∧
      searchFragQueue r pool queue packet = some found := by
  rw [entryFor] at h
  split at h
  case isTrue => cases h
  case isFalse hlen =>
    refine ⟨fun hmore => ?_, h⟩
    by_contra hno
    exact hlen ⟨hmore, fun h0 => hno (Nat.dvd_of_mod_eq_zero h0)⟩

/-- The entry of a packet, found or new, is sound, and the others are as they were. -/
theorem Receiver.Kept.entry (h : s.Kept r) {pool : Pool} {packet : P} {k : Fin n}
    {queue : Fin n → FragDesc H} (hfound : searchFragQueue r pool s.queue packet = some (k, queue)) :
    ∃ before hs, s.packets k packet = packet :: before ∧
      Sound (queue k) (before.map r.fragment) hs ∧ (queue k).Of r (r.key packet) ∧
      (∀ p ∈ before, r.key p = r.key packet) ∧ ∀ k', k' ≠ k → queue k' = s.queue k' := by
  rcases search_cases hfound with ⟨rfl, hof⟩ | ⟨rfl, hunused, -⟩
  · obtain ⟨hs, hsound⟩ := h.sound k hof.1
    refine ⟨s.received k, hs, ?_, hsound, hof, fun p hp => (h.key k hof.1 p hp).trans hof.2,
      fun _ _ => rfl⟩
    rw [Receiver.packets, if_pos hof.1]
  · refine ⟨[], [(0, INFINITY)], ?_, ?_, ?_, nofun, fun k' hne => Function.update_of_ne hne _ _⟩
    · rw [Receiver.packets, hunused, if_neg Bool.false_ne_true]
    · rw [Function.update_self]
      exact Sound.create r pool packet
    · rw [Function.update_self]
      exact ⟨rfl, r.headerKey_newHeader packet⟩

/-- One step: the code returns, and what has been received is kept. -/
theorem Receiver.Kept.step (h : s.Kept r)
    (hmax : r.maxDatagramSize + holeDescSize ≤ INFINITY.toNat)
    (hfirst : ∀ packet, 8 ∣ (r.fragment packet).dataFirst.toNat) {e : Input P n}
    (he : Receiver.Admits r (some s) e) : ∃ s', Receiver.step r (some s) e = some s' ∧ s'.Kept r := by
  cases e with
  | expire k => exact ⟨_, rfl, h.expire k⟩
  | packet pool packet =>
      cases hfound : entryFor r pool s.queue packet with
      | none =>
          refine ⟨s, ?_, h⟩
          simp only [Receiver.step, reassemble_none hfound, hfound]
      | some found =>
          obtain ⟨k, queue⟩ := found
          obtain ⟨hlen, hsearch⟩ := entryFor_aligned hfound
          obtain ⟨before, hs, hpackets, hsound, hof, hbefore, hothers⟩ := h.entry hsearch
          obtain ⟨frag, out, hprocess, hfrag, hout⟩ :=
            hsound.process hof.1 hmax ⟨hfirst packet, hlen⟩ (he _ hfound)
          obtain ⟨hkey, houtkey⟩ := processFragment_key hof.2 hprocess
          have hkeys : ∀ p ∈ packet :: before, r.key p = r.key packet := by
            intro p hp
            rcases List.mem_cons.1 hp with rfl | hp
            · rfl
            · exact hbefore p hp
          refine ⟨{ queue := Function.update queue k frag
                    received := Function.update s.received k (packet :: before)
                    delivered := s.delivered ++ out.toList.map fun d => (d, packet :: before) },
            ?_, ?_, ?_, ?_⟩
          · simp only [Receiver.step, reassemble_some hfound hprocess, hfound, hpackets]
          · intro k' hused
            by_cases hk : k' = k
            · subst hk
              simp only [Function.update_self] at hused ⊢
              exact hfrag hused
            · simp only [Function.update_of_ne hk] at hused ⊢
              rw [hothers k' hk] at hused ⊢
              exact h.sound k' hused
          · intro k' hused
            by_cases hk : k' = k
            · subst hk
              simp only [Function.update_self]
              exact fun p hp => (hkeys p hp).trans hkey.symm
            · simp only [Function.update_of_ne hk] at hused ⊢
              rw [hothers k' hk] at hused ⊢
              exact h.key k' hused
          · intro d hd
            rcases List.mem_append.1 hd with hd | hd
            · exact h.delivered d hd
            · obtain ⟨datagram, hmem, rfl⟩ := List.mem_map.1 hd
              have hmem : datagram ∈ out := Option.mem_toList.1 hmem
              intro i byte hbyte
              obtain ⟨f, hf, hcarries⟩ := hout datagram hmem i byte hbyte
              rw [← List.map_cons] at hf
              obtain ⟨p, hp, rfl⟩ := List.mem_map.1 hf
              exact ⟨p, hp, (hkeys p hp).trans (houtkey datagram hmem).symm, hcarries⟩

omit [DecidableEq K] in
/-- A queue without entries. -/
theorem Receiver.Kept.empty (hqueue : ∀ k, (s.queue k).used = false)
    (hdelivered : s.delivered = []) : s.Kept r := by
  refine ⟨fun k hused => ?_, fun k hused => ?_, fun d hd => ?_⟩
  · rw [hqueue k] at hused
    cases hused
  · rw [hqueue k] at hused
    cases hused
  · rw [hdelivered] at hd
    cases hd

/-- Every run whose packets are consistent with their entries. -/
theorem Receiver.Kept.run (h : s.Kept r)
    (hmax : r.maxDatagramSize + holeDescSize ≤ INFINITY.toNat)
    (hfirst : ∀ packet, 8 ∣ (r.fragment packet).dataFirst.toNat) {es : List (Input P n)}
    (hes : Along (Receiver.Admits r) (Receiver.step r) (some s) es) :
    ∃ s', run (Receiver.step r) (some s) es = some s' ∧ s'.Kept r := by
  refine run_invariant (I := fun s => ∃ s', s = some s' ∧ s'.Kept r) ?_ ⟨s, rfl, h⟩ hes
  rintro _ e ⟨s, rfl, h⟩ he
  exact h.step hmax hfirst he

end Runs

end Ip
