import CycloneTcp.Ip.Ipv6Frag
import CycloneTcp.Ip.Soundness

/-! # Overlapping IPv6 fragments

Reassembly as it is compiled if `IPV6_OVERLAPPING_FRAG_SUPPORT` is disabled: the datagram is dropped
if a fragment interacts with a hole and does not lie inside it. The holes are what is missing. So a
fragment that overlaps another one is found as long as it also has something that is missing; one
that has nothing new is put over the data that has been received. And once a datagram has been
dropped, nothing is left of it that the next fragments could be compared with. -/

set_option autoImplicit false

namespace Ip

open HoleList

variable {P H K : Type*} {n : ℕ}

/-! ## The functions -/

namespace Strict

/-- The loop over the hole descriptors. There is no list if an overlapping fragment is found. -/
def holeLoop (dataFirst dataLast : UInt16) (more : Bool) :
    ℕ → Option ℕ → Option ℕ → HoleList → Option (Option HoleList)
  | _, _, none, s => some (some s)
  | 0, _, some _, _ => none
  | fuel + 1, prevHole, some hole, s =>
      let holeFirst := s.first hole
      let holeLast := s.last hole
      if dataFirst < holeLast ∧ dataLast > holeFirst then
        if dataFirst < holeFirst ∨ dataLast > holeLast then some none
        else
          -- the current descriptor is destroyed
          let s := s.setNext prevHole (s.next (some hole))
          match if dataFirst > holeFirst then s.insertHole prevHole holeFirst dataFirst
              else some (prevHole, s) with
          | none => none
          | some (prevHole, s) =>
              match if dataLast < holeLast ∧ more = true then
                    s.insertHole prevHole dataLast holeLast
                  else some (prevHole, s) with
              | none => none
              | some (prevHole, s) =>
                  holeLoop dataFirst dataLast more fuel prevHole (s.findHole (s.next prevHole)) s
      else
        holeLoop dataFirst dataLast more fuel (some hole) (s.findHole (s.next (some hole))) s

/-- One pass through the list. -/
def updateHoles (s : HoleList) (dataFirst dataLast : UInt16) (more : Bool) :
    Option (Option HoleList) :=
  holeLoop dataFirst dataLast more (2 ^ 16) none (s.findHole s.firstHole) s

variable (r : Protocol P H K)

/-- Update the holes, copy the data, and hand the datagram over if no hole is left. The datagram is
dropped if the fragment is overlapping. -/
def insertFragment (frag : FragDesc H) (f : Fragment) (dataLast : UInt16) :
    Option (FragDesc H × Option (H × List UInt8)) :=
  match updateHoles frag.holes f.dataFirst dataLast f.more with
  | none => none
  | some none => some (frag.drop, none)
  | some (some holes) =>
      let holes := copyData holes f
      let frag := { frag with holes := holes }
      if holes.findHole holes.firstHole = none then
        some (frag.drop, some
          (r.fixHeader frag.header frag.headerLength frag.dataLen, holes.data.read 0 frag.dataLen))
      else some (frag, none)

/-- What happens to the entry of the fragment. -/
def processFragment (pool : Pool) (frag : FragDesc H) (packet : P) :
    Option (FragDesc H × Option (H × List UInt8)) :=
  let f := r.fragment packet
  let dataLast := f.dataFirst + UInt16.ofNat f.data.length
  let frag := if f.dataFirst = 0 then firstFragment r frag packet else frag
  if frag.used = true then
    let frag := growBuffer r pool frag dataLast
    if frag.used = true then insertFragment r frag f dataLast else some (frag, none)
  else some (frag, none)

/-- Reassembly: the queue after a packet, and the header and payload of the datagram that is
complete. There is no result if the code does not return. -/
def reassemble [DecidableEq K] (pool : Pool) (queue : Fin n → FragDesc H) (packet : P) :
    Option ((Fin n → FragDesc H) × Option (H × List UInt8)) :=
  match entryFor r pool queue packet with
  | none => some (queue, none)
  | some (i, queue) =>
      match processFragment r pool (queue i) packet with
      | none => none
      | some (frag, datagram) => some (Function.update queue i frag, datagram)

end Strict

/-! ## Overlaps -/

namespace Fragment

/-- The fragment interacts with the hole, and does not lie inside it. -/
def Overlaps (f : Fragment) (hole : UInt16 × UInt16) : Prop :=
  f.Hits hole ∧ (f.dataFirst < hole.1 ∨ f.dataLast > hole.2)

/-- The fragment has a byte for position `i`. -/
def Covers (f : Fragment) (i : ℕ) : Prop := f.dataFirst.toNat ≤ i ∧ i < f.dataEnd

/-- Two fragments have no position in common, or they are identical. -/
def Compatible (f g : Fragment) : Prop := ∀ i, f.Covers i → g.Covers i → f = g

instance (f : Fragment) (hole : UInt16 × UInt16) : Decidable (f.Overlaps hole) :=
  inferInstanceAs (Decidable (_ ∧ _))

instance (f g : Fragment) : Decidable (f.Compatible g) :=
  decidable_of_iff
    (max f.dataFirst.toNat g.dataFirst.toNat < min f.dataEnd g.dataEnd → f = g)
    ⟨fun h _ hf hg => h (lt_of_le_of_lt (max_le hf.1 hg.1) (lt_min hf.2 hg.2)), fun h hlt =>
      h _ ⟨le_max_left _ _, hlt.trans_le (min_le_left _ _)⟩
        ⟨le_max_right _ _, hlt.trans_le (min_le_right _ _)⟩⟩

variable {f : Fragment} {i : ℕ} {byte byte' : UInt8}

theorem Carries.covers (h : f.Carries i byte) : f.Covers i := by
  obtain ⟨hlt, -⟩ := List.getElem?_eq_some_iff.1 h.2
  refine ⟨h.1, ?_⟩
  show i < f.dataFirst.toNat + f.data.length
  have := h.1
  omega

theorem Carries.unique (h : f.Carries i byte) (h' : f.Carries i byte') : byte = byte' :=
  Option.some.inj (h.2.symm.trans h'.2)

end Fragment

/-- Any two of the packets that have a position in common carry the same fragment. -/
def Coherent (r : Protocol P H K) (packets : List P) : Prop :=
  ∀ p ∈ packets, ∀ q ∈ packets, (r.fragment p).Compatible (r.fragment q)

instance (r : Protocol P H K) (packets : List P) : Decidable (Coherent r packets) :=
  @List.decidableBAll _ _ (fun _ => List.decidableBAll _ _) packets

/-! ## The pass through the holes -/

namespace Strict

/-- A fragment that overlaps a hole of the list is found; otherwise the pass is the same as when
overlapping fragments are supported. -/
theorem holeLoop_cases {f : Fragment} (hs : List (UInt16 × UInt16)) :
    ∀ (fuel : ℕ) (s : HoleList) (prevHole : Option ℕ) (lo : ℕ), hs.length ≤ fuel →
      s.length ≤ INFINITY.toNat → s.Linked prevHole hs → Apart s.length lo hs →
      Before prevHole lo → (∀ hole ∈ hs, Forward f.dataFirst f.dataLast f.more hole) →
      (∀ hole ∈ hs, Room s.length f.dataFirst f.dataLast f.more hole) →
      let hole := s.findHole (s.next prevHole)
      (∃ hole ∈ hs, f.Overlaps hole) ∧
          holeLoop f.dataFirst f.dataLast f.more fuel prevHole hole s = some none ∨
        (∀ hole ∈ hs, ¬ f.Overlaps hole) ∧
          holeLoop f.dataFirst f.dataLast f.more fuel prevHole hole s
            = (HoleList.holeLoop f.dataFirst f.dataLast f.more fuel prevHole hole s).map some := by
  induction hs with
  | nil =>
      intro fuel s prevHole lo _ hlen hlinked _ _ _ _
      refine .inr ⟨nofun, ?_⟩
      rw [findHole_of_ge (by rw [show s.next prevHole = INFINITY from hlinked]; exact hlen)]
      cases fuel <;> rfl
  | cons hole hs ih =>
      obtain ⟨a, b⟩ := hole
      intro fuel s prevHole lo hfuel hlen hlinked hapart hprev hforward hroom
      obtain ⟨hptr, hfirst, hlast, hrest⟩ := hlinked
      obtain ⟨hlo, hab, halen, hapart'⟩ := hapart
      obtain ⟨fuel, rfl⟩ : ∃ k, fuel = k + 1 :=
        ⟨fuel - 1, by rw [List.length_cons] at hfuel; omega⟩
      have hfuel' : hs.length ≤ fuel := Nat.le_of_succ_le_succ hfuel
      have hforward' : ∀ hole ∈ hs, Forward f.dataFirst f.dataLast f.more hole :=
        fun x hx => hforward x (List.mem_cons_of_mem _ hx)
      have hroom' : ∀ hole ∈ hs, Room s.length f.dataFirst f.dataLast f.more hole :=
        fun x hx => hroom x (List.mem_cons_of_mem _ hx)
      -- what is found in the rest of the list is found in the list
      have hlift : ∀ {x y : Option (Option HoleList)}, ¬ f.Overlaps (a, b) →
          (∃ hole ∈ hs, f.Overlaps hole) ∧ x = some none ∨
            (∀ hole ∈ hs, ¬ f.Overlaps hole) ∧ x = y →
          (∃ hole ∈ (a, b) :: hs, f.Overlaps hole) ∧ x = some none ∨
            (∀ hole ∈ (a, b) :: hs, ¬ f.Overlaps hole) ∧ x = y := by
        rintro x y hhere (⟨⟨hole, hmem, hover⟩, hx⟩ | ⟨hno, hx⟩)
        · exact .inl ⟨⟨hole, List.mem_cons_of_mem _ hmem, hover⟩, hx⟩
        · exact .inr ⟨List.forall_mem_cons.2 ⟨hhere, hno⟩, hx⟩
      dsimp only
      rw [hptr, findHole_of_lt (by omega : a.toNat < s.length), holeLoop, HoleList.holeLoop, hfirst,
        hlast]
      dsimp only
      by_cases hhit : f.dataFirst < b ∧ f.dataLast > a
      case neg =>
        rw [if_neg hhit, if_neg hhit]
        exact hlift (fun hover => hhit hover.1)
          (ih fuel s (some a.toNat) b.toNat hfuel' hlen hrest hapart' (Before.some hab) hforward'
            hroom')
      case pos =>
        rw [if_pos hhit, if_pos hhit]
        by_cases hout : f.dataFirst < a ∨ f.dataLast > b
        case pos =>
          rw [if_pos hout]
          exact .inl ⟨⟨(a, b), List.mem_cons_self .., hhit, hout⟩, rfl⟩
        case neg =>
          rw [if_neg hout]
          obtain ⟨prev2, s2, prev3, s3, hins2, hins3, hlen3, hlinked3, hbefore3, -⟩ :=
            cutHole_spec (hprev.mono hlo) ⟨le_refl _, hab, halen, hapart'⟩ hrest hhit
              (hforward (a, b) (List.mem_cons_self ..)) (hroom (a, b) (List.mem_cons_self ..))
          rw [hins2]
          dsimp only
          rw [hins3]
          exact hlift (fun hover => hout hover.2)
            (ih fuel s3 prev3 b.toNat hfuel' (by rw [hlen3]; exact hlen) hlinked3
              (by rw [hlen3]; exact hapart') hbefore3 hforward' (by rw [hlen3]; exact hroom'))

variable {r : Protocol P H K} {pool : Pool} {frag : FragDesc H} {packet : P}

theorem processFragment_eq :
    processFragment r pool frag packet =
      if (prepare r pool frag packet).used = true then
        insertFragment r (prepare r pool frag packet) (r.fragment packet)
          (r.fragment packet).dataLast
      else some (prepare r pool frag packet, none) :=
  prepare_split r pool frag packet
    (fun frag => insertFragment r frag (r.fragment packet) (r.fragment packet).dataLast)
    fun frag => some (frag, none)

/-- The datagram is dropped, or the fragment overlaps no hole, and the entry becomes what it becomes
when overlapping fragments are supported. -/
theorem processFragment_cases {hs : List (UInt16 × UInt16)} (h : Layout frag hs)
    (hused : frag.used = true) (hmax : r.maxDatagramSize + holeDescSize ≤ INFINITY.toNat)
    (hf : (r.fragment packet).Aligned)
    (hw : Taken r pool frag packet → (r.fragment packet).Wraps hs) :
    (∃ frag', processFragment r pool frag packet = some (frag', none) ∧ frag'.used = false) ∨
      Taken r pool frag packet ∧ (∀ hole ∈ hs, ¬ (r.fragment packet).Overlaps hole) ∧
        processFragment r pool frag packet = Ip.processFragment r pool frag packet := by
  rw [processFragment_eq, Ip.processFragment_eq]
  rcases prepare_cases r pool packet hused h.length with hdrop | ⟨htaken, hused', hlen, hholes⟩
  · rw [if_neg (by rw [hdrop]; exact Bool.false_ne_true)]
    exact .inl ⟨_, rfl, hdrop⟩
  rw [if_pos hused', if_pos hused']
  generalize prepare r pool frag packet = grown at hlen hholes ⊢
  have hle := htaken.dataLen_le hmax h.dataLen_le
  rw [← hlen] at hle
  obtain ⟨hlinked, hapart⟩ := h.grow (by omega) hholes
  have hlength : grown.holes.length = grown.dataLen + holeDescSize := by rw [hholes]
  have hcount := hapart.length_le (Nat.zero_le _)
  have hinf : INFINITY.toNat = 2 ^ 16 - 1 := rfl
  rcases holeLoop_cases hs (2 ^ 16) grown.holes none 0 (by omega) (hlength ▸ hle) hlinked hapart
      (fun p hp => by cases hp) (Layout.forward (hw htaken))
      (by rw [hlength]; exact h.room hf (hw htaken) (by omega)) with
    ⟨-, hloop⟩ | ⟨hno, hloop⟩
  · refine .inl ⟨grown.drop, ?_, rfl⟩
    rw [insertFragment, show updateHoles grown.holes _ _ _ = some none from hloop]
  · refine .inr ⟨htaken, hno, ?_⟩
    rw [insertFragment, Ip.insertFragment,
      show updateHoles grown.holes _ _ _ = (grown.holes.updateHoles _ _ _).map some from hloop]
    cases grown.holes.updateHoles _ _ _ <;> rfl

end Strict

/-! ## One entry -/

/-- An entry that has all bytes of the fragments `fs`. -/
structure Intact (frag : FragDesc H) (fs : List Fragment) (hs : List (UInt16 × UInt16)) : Prop
    extends Layout frag hs where
  data : ∀ f ∈ fs, ∀ i byte, f.Carries i byte →
    i < frag.dataLen ∧ ¬ InHole hs i ∧ frag.holes.data i = byte

/-- All that the entry does not miss has come with one of the fragments. -/
def Filled (frag : FragDesc H) (fs : List Fragment) : Prop :=
  ∀ i < frag.dataLen, ¬ InHole frag.holes.holeList i → ∃ f ∈ fs, f.Carries i (frag.holes.data i)

instance (hs : List (UInt16 × UInt16)) (i : ℕ) : Decidable (InHole hs i) :=
  List.decidableBEx (fun hole : UInt16 × UInt16 => hole.1.toNat ≤ i ∧ i < hole.2.toNat) hs

instance (frag : FragDesc H) (fs : List Fragment) : Decidable (Filled frag fs) :=
  @Nat.decidableBallLT _ _ fun i _ =>
    @instDecidableForall _ _ _
      (List.decidableBEx (fun f : Fragment => f.Carries i (frag.holes.data i)) fs)

/-- What is left of the holes lies inside them. -/
theorem inHole_of_cut {hs : List (UInt16 × UInt16)} {dataFirst dataLast : UInt16} {more : Bool}
    {i : ℕ} (h : InHole (hs.flatMap (cut dataFirst dataLast more)) i) : InHole hs i := by
  obtain ⟨piece, hmem, hle, hlt⟩ := h
  obtain ⟨hole, hhole, hpiece⟩ := List.mem_flatMap.1 hmem
  refine ⟨hole, hhole, ?_⟩
  rcases mem_cut.1 hpiece with ⟨-, rfl⟩ | ⟨hhit, ⟨-, rfl⟩ | ⟨-, rfl⟩⟩
  · exact ⟨hle, hlt⟩
  · exact ⟨hle, hlt.trans (UInt16.lt_iff_toNat_lt.1 hhit.1)⟩
  · exact ⟨(UInt16.lt_iff_toNat_lt.1 hhit.2).le.trans hle, hlt⟩

/-- Nothing that a fragment covers is missing any more. -/
theorem Fragment.Covers.not_inHole {f : Fragment} {hs : List (UInt16 × UInt16)} {i : ℕ}
    (h : f.Covers i) (hend : f.dataEnd < 2 ^ 16) :
    ¬ InHole (hs.flatMap (cut f.dataFirst f.dataLast f.more)) i := by
  rintro ⟨piece, hmem, hle, hlt⟩
  obtain ⟨hole, -, hpiece⟩ := List.mem_flatMap.1 hmem
  obtain ⟨hfirst, hbefore⟩ := h
  rw [← f.dataLast_toNat hend] at hbefore
  rcases mem_cut.1 hpiece with ⟨hmiss, rfl⟩ | ⟨-, ⟨-, rfl⟩ | ⟨-, rfl⟩⟩
  · exact hmiss ⟨UInt16.lt_iff_toNat_lt.2 (hfirst.trans_lt hlt),
      UInt16.lt_iff_toNat_lt.2 (hle.trans_lt hbefore)⟩
  · exact absurd hlt (not_lt.2 hfirst)
  · exact absurd hbefore (not_lt.2 hle)

namespace Intact

variable {frag : FragDesc H} {hs : List (UInt16 × UInt16)}

/-- A fragment that is compatible with those that have come is put in place. -/
theorem insert {fs : List Fragment} {f : Fragment} (h : Intact frag fs hs) (hf : f.Aligned)
    (hend : f.dataEnd < 2 ^ 16) (hc : ∀ g ∈ fs, f.Compatible g) {grown : FragDesc H}
    (hlen : grown.dataLen = max frag.dataLen f.dataLast.toNat)
    (hholes : grown.holes = { frag.holes with length := grown.dataLen + holeDescSize })
    (hle : grown.dataLen + holeDescSize ≤ INFINITY.toNat) :
    ∃ holes, grown.holes.updateHoles f.dataFirst f.dataLast f.more = some holes ∧
      Intact { grown with holes := copyData holes f } (f :: fs)
        (hs.flatMap (cut f.dataFirst f.dataLast f.more)) := by
  obtain ⟨holes, hupdate, hlayout, hwritten, hkept⟩ :=
    h.toLayout.insert hf (fun hge => absurd hend (not_lt.2 hge)) hlen hholes hle
  have hlast := f.dataLast_toNat hend
  have hown : ∀ i byte, f.Carries i byte → (copyData holes f).data i = byte := by
    intro i byte hcarries
    obtain ⟨hfirst, hbefore⟩ := hcarries.covers
    exact (hwritten i (by omega) hfirst hbefore).unique hcarries
  refine ⟨holes, hupdate, hlayout, fun g hg i byte hcarries => ?_⟩
  rcases List.mem_cons.1 hg with rfl | hg
  · have hcovers := hcarries.covers
    refine ⟨?_, hcovers.not_inHole hend, hown i byte hcarries⟩
    have := hcovers.2
    show i < grown.dataLen
    omega
  · obtain ⟨hi, hout, hdata⟩ := h.data g hg i byte hcarries
    refine ⟨?_, fun hin => hout (inHole_of_cut hin), ?_⟩
    · show i < grown.dataLen
      omega
    · by_cases hcovers : f.Covers i
      · obtain rfl := hc g hg i hcovers hcarries.covers
        exact hown i byte hcarries
      · exact (hkept i (by unfold Fragment.Covers at hcovers; omega) hout).trans hdata

variable {r : Protocol P H K} {packet : P}

/-- A datagram that is handed over has the bytes of all fragments of the entry. -/
theorem process {fs : List Fragment} (h : Intact frag fs hs) (pool : Pool)
    (hused : frag.used = true) (hmax : r.maxDatagramSize + holeDescSize ≤ INFINITY.toNat)
    (hf : (r.fragment packet).Aligned)
    (hend : (r.fragment packet).dataEnd < 2 ^ 16)
    (hc : ∀ g ∈ fs, (r.fragment packet).Compatible g) :
    ∃ frag' out, processFragment r pool frag packet = some (frag', out) ∧
      (frag'.used = true → out = none ∧ ∃ hs', Intact frag' (r.fragment packet :: fs) hs') ∧
      ∀ datagram ∈ out, ∀ f ∈ r.fragment packet :: fs, ∀ i byte, f.Carries i byte →
        ∀ byte' ∈ datagram.2[i]?, byte' = byte := by
  rcases processFragment_cases r pool packet hused h.length with
    ⟨frag', hprocess, hdrop⟩ | ⟨htaken, grown, hprocess, hlen, hholes⟩
  · refine ⟨frag', none, hprocess, fun hused' => ?_, by simp⟩
    rw [hdrop] at hused'
    cases hused'
  have hle := htaken.dataLen_le hmax h.dataLen_le
  rw [← hlen] at hle
  obtain ⟨holes, hupdate, hintact⟩ := h.insert hf hend hc hlen hholes hle
  rw [hprocess, insertFragment, hupdate]
  dsimp only
  by_cases hnone : (copyData holes (r.fragment packet)).findHole
      (copyData holes (r.fragment packet)).firstHole = none
  · rw [if_pos hnone]
    refine ⟨_, _, rfl, by simp [FragDesc.drop], fun datagram hmem f hfs i byte hcarries byte' hbyte' => ?_⟩
    cases hmem
    obtain ⟨-, -, hdata⟩ := hintact.data f hfs i byte hcarries
    obtain ⟨hi, rfl⟩ := List.getElem?_eq_some_iff.1 hbyte'
    rw [Memory.getElem_read, Nat.zero_add]
    exact hdata
  · rw [if_neg hnone]
    exact ⟨_, _, rfl, fun _ => ⟨rfl, _, hintact⟩, by simp⟩

end Intact

/-! ## Runs -/

/-- No two of the packets contradict each other, and each byte of the datagram has the value that it
has in every packet that covers its position. -/
def Faithful (r : Protocol P H K) (datagram : H × List UInt8) (packets : List P) : Prop :=
  Coherent r packets ∧ ∀ p ∈ packets, ∀ i byte, (r.fragment p).Carries i byte →
    ∀ byte' ∈ datagram.2[i]?, byte' = byte

namespace Strict

/-- A packet that is put into an entry, where `held` are the packets that the entry has, and `seen`
all that have come since the datagram began. Its end fits into 16 bits; if two of the packets
contradict each other, it overlaps a hole; and if the entry does not have all of them, it has been
filled by those that it has, and the packet is consistent with it. -/
structure Admitted (r : Protocol P H K) (held seen : List P) (frag : FragDesc H) (packet : P) :
    Prop where
  noWrap : (r.fragment packet).dataEnd < 2 ^ 16
  found : ¬ Coherent r (packet :: seen) →
    ∃ hole ∈ frag.holes.holeList, (r.fragment packet).Overlaps hole
  filled : seen ≠ held → Filled frag (held.map r.fragment) ∧ Consistent frag (r.fragment packet)

instance [DecidableEq P] (r : Protocol P H K) (held seen : List P) (frag : FragDesc H)
    (packet : P) : Decidable (Admitted r held seen frag packet) :=
  @decidable_of_iff _ ((r.fragment packet).dataEnd < 2 ^ 16 ∧
    (¬ Coherent r (packet :: seen) →
      ∃ hole ∈ frag.holes.holeList, (r.fragment packet).Overlaps hole) ∧
    (seen ≠ held → Filled frag (held.map r.fragment) ∧ Consistent frag (r.fragment packet)))
    ⟨fun h => ⟨h.1, h.2.1, h.2.2⟩, fun h => ⟨h.1, h.2, h.3⟩⟩
    (@instDecidableAnd _ _ _ (@instDecidableAnd _ _
      (@instDecidableForall _ _ _ (List.decidableBEx _ _)) _))

section Process

variable {r : Protocol P H K} {pool : Pool} {frag : FragDesc H} {packet : P}
  {hs : List (UInt16 × UInt16)} {held seen : List P}

/-- The code returns, packets that contradict each other leave no entry, and a datagram that is
handed over is faithful to the packets. -/
theorem process (h : Intact frag (held.map r.fragment) hs) (hof : frag.Of r (r.key packet))
    (hmax : r.maxDatagramSize + holeDescSize ≤ INFINITY.toNat) (hf : (r.fragment packet).Aligned)
    (hsub : ∀ p ∈ held, p ∈ seen)
    (ha : Taken r pool frag packet → Admitted r held seen frag packet) :
    ∃ frag' out, processFragment r pool frag packet = some (frag', out) ∧
      (frag'.used = true → out = none ∧ frag'.Of r (r.key packet) ∧ Coherent r (packet :: seen) ∧
        ∃ hs', Intact frag' ((packet :: held).map r.fragment) hs') ∧
      ∀ datagram ∈ out, Faithful r datagram (packet :: seen) := by
  rcases processFragment_cases h.toLayout hof.1 hmax hf
      (fun htaken hge => absurd (ha htaken).noWrap (not_lt.2 hge)) with
    ⟨frag', hprocess, hdrop⟩ | ⟨htaken, hno, hprocess⟩
  · refine ⟨frag', none, hprocess, fun hused' => ?_, nofun⟩
    rw [hdrop] at hused'
    cases hused'
  have hadmitted := ha htaken
  have hcoherent : Coherent r (packet :: seen) := by
    by_contra hcontra
    obtain ⟨hole, hmem, hover⟩ := hadmitted.found hcontra
    rw [h.toLayout.holeList] at hmem
    exact hno hole hmem hover
  have hmem : ∀ p ∈ packet :: held, p ∈ packet :: seen := fun p hp =>
    List.mem_cons.2 ((List.mem_cons.1 hp).imp_right (hsub p))
  obtain ⟨frag', out, hplain, hkept, hout⟩ := h.process pool hof.1 hmax hf
    hadmitted.noWrap fun g hg => by
      obtain ⟨p, hp, rfl⟩ := List.mem_map.1 hg
      exact hcoherent packet (List.mem_cons_self ..) p (List.mem_cons_of_mem _ (hsub p hp))
  refine ⟨frag', out, hprocess.trans hplain, fun hused' => ?_, fun datagram hdatagram =>
    ⟨hcoherent, fun p hp i byte hcarries byte' hbyte' => ?_⟩⟩
  · obtain ⟨hnone, hintact⟩ := hkept hused'
    exact ⟨hnone, ⟨hused', (processFragment_key hof.2 hplain).1⟩, hcoherent, hintact⟩
  · by_cases hlost : seen = held
    case pos =>
      refine hout datagram hdatagram (r.fragment p) ?_ i byte hcarries byte' hbyte'
      rw [← List.map_cons, ← hlost]
      exact List.mem_map_of_mem hp
    case neg =>
      -- the byte has come with a packet of the entry, and that one does not contradict `p`
      obtain ⟨hfilled, hconsistent⟩ := hadmitted.filled hlost
      rw [Filled, h.toLayout.holeList] at hfilled
      obtain ⟨frag'', out', hplain', -, hreceived⟩ := (h.toLayout.sound hfilled).process hof.1 hmax
        hf fun _ : Taken r pool frag packet => hconsistent
      obtain ⟨rfl, rfl⟩ := Prod.ext_iff.1 (Option.some.inj (hplain.symm.trans hplain'))
      obtain ⟨f, hfs, hbyte⟩ := hreceived datagram hdatagram i byte' hbyte'
      rw [← List.map_cons] at hfs
      obtain ⟨q, hq, rfl⟩ := List.mem_map.1 hfs
      have hsame := hcoherent q (hmem q hq) p hp i hbyte.covers hcarries.covers
      rw [hsame] at hbyte
      exact hbyte.unique hcarries

end Process

/-- The reassembly queue, for every datagram the packets that its entry has and all that have come
since it began, and the datagrams that have been handed over with the packets that had come. A
datagram begins again once it has been handed over or the time of its entry is over. -/
structure Receiver (P H K : Type*) (n : ℕ) where
  queue : Fin n → FragDesc H
  held : K → List P
  seen : K → List P
  delivered : List ((H × List UInt8) × List P)

/-- Nothing has come. -/
def Receiver.idle (queue : Fin n → FragDesc H) : Receiver P H K n where
  queue := queue
  held _ := []
  seen _ := []
  delivered := []

variable [DecidableEq K]

/-- One step of the queue. There is no state after a step from which the code does not return. -/
def Receiver.step (r : Protocol P H K) : Option (Receiver P H K n) → Input P n →
    Option (Receiver P H K n)
  | none, _ => none
  | some s, .expire k =>
      let key := r.headerKey (s.queue k).header
      if (s.queue k).used = true then
        some {
          queue := Function.update s.queue k (s.queue k).drop
          held := Function.update s.held key []
          seen := Function.update s.seen key []
          delivered := s.delivered }
      else some s
  | some s, .packet pool packet =>
      let key := r.key packet
      match reassemble r pool s.queue packet with
      | none => none
      | some (queue, datagram) =>
          some {
            queue := queue
            held := Function.update s.held key
              (match entryFor r pool s.queue packet with
              | none => s.held key
              | some (k, _) => if (queue k).used = true then packet :: s.held key else [])
            seen := Function.update s.seen key
              (if datagram.isNone = true then packet :: s.seen key else [])
            delivered := s.delivered ++ datagram.toList.map fun d => (d, packet :: s.seen key) }

/-- The packet is admitted to its entry, or the entry is dropped. If it has no entry, it contradicts
no packet of the datagram, or there is nothing of the datagram in the queue. -/
def Receiver.Admits (r : Protocol P H K) : Option (Receiver P H K n) → Input P n → Prop
  | some s, .packet pool packet =>
      match entryFor r pool s.queue packet with
      | none =>
          Coherent r (packet :: s.seen (r.key packet)) ∨ ∀ k, ¬ (s.queue k).Of r (r.key packet)
      | some (k, queue) =>
          Taken r pool (queue k) packet →
            Admitted r (s.held (r.key packet)) (s.seen (r.key packet)) (queue k) packet
  | _, _ => True

instance [DecidableEq P] (r : Protocol P H K) :
    (s : Option (Receiver P H K n)) → (e : Input P n) → Decidable (Receiver.Admits r s e)
  | none, _ => isTrue trivial
  | some _, .expire _ => isTrue trivial
  | some s, .packet pool packet =>
      match h : entryFor r pool s.queue packet with
      | none => decidable_of_iff (Coherent r (packet :: s.seen (r.key packet)) ∨
          ∀ k, ¬ (s.queue k).Of r (r.key packet)) (by rw [Receiver.Admits, h])
      | some (k, queue) => decidable_of_iff (Taken r pool (queue k) packet →
          Admitted r (s.held (r.key packet)) (s.seen (r.key packet)) (queue k) packet)
          (by rw [Receiver.Admits, h])

/-- There is one entry for a datagram; it has the bytes of the packets that it holds; and packets
that contradict each other have no entry. -/
structure Receiver.Kept (r : Protocol P H K) (s : Receiver P H K n) : Prop where
  unique : ∀ k k' key, (s.queue k).Of r key → (s.queue k').Of r key → k = k'
  intact : ∀ k key, (s.queue k).Of r key → ∃ hs, Intact (s.queue k) ((s.held key).map r.fragment) hs
  coherent : ∀ k key, (s.queue k).Of r key → Coherent r (s.seen key)
  nothing : ∀ key, (∀ k, ¬ (s.queue k).Of r key) → s.held key = []
  held : ∀ key, ∀ p ∈ s.held key, p ∈ s.seen key
  delivered : ∀ d ∈ s.delivered, Faithful r d.1 d.2

section Runs

variable {r : Protocol P H K} {s : Receiver P H K n} {pool : Pool} {packet : P}

omit [DecidableEq K] in
theorem Receiver.Kept.idle {queue : Fin n → FragDesc H} (hqueue : ∀ k, (queue k).used = false) :
    (Receiver.idle queue : Receiver P H K n).Kept r := by
  have hno : ∀ k key, ¬ (queue k).Of r key := by
    rintro k key ⟨hused, -⟩
    rw [hqueue k] at hused
    cases hused
  exact ⟨fun k _ key hk => absurd hk (hno k key), fun k key hk => absurd hk (hno k key),
    fun k key hk => absurd hk (hno k key), fun _ _ => rfl, fun _ _ hp => hp, nofun⟩

/-- The entry of a datagram becomes another one of it, or it is dropped. -/
theorem Receiver.Kept.replace (h : s.Kept r) {queue : Fin n → FragDesc H} {k : Fin n} {key : K}
    (hown : ∀ key', (s.queue k).Of r key' → key' = key)
    (hothers : ∀ k', k' ≠ k → queue k' = s.queue k' ∧ ¬ (s.queue k').Of r key)
    {frag : FragDesc H} {held seen : List P} {delivered : List ((H × List UInt8) × List P)}
    (hused : frag.used = true → frag.Of r key ∧ Coherent r seen ∧
      ∃ hs, Intact frag (held.map r.fragment) hs)
    (hunused : frag.used = false → held = []) (hsub : ∀ p ∈ held, p ∈ seen)
    (hdelivered : ∀ d ∈ delivered, Faithful r d.1 d.2) :
    Receiver.Kept r ⟨Function.update queue k frag, Function.update s.held key held,
      Function.update s.seen key seen, delivered⟩ := by
  have hcases : ∀ k' key', (Function.update queue k frag k').Of r key' →
      (k' = k ∧ key' = key ∧ frag.used = true) ∨
        (k' ≠ k ∧ key' ≠ key ∧ (s.queue k').Of r key') := by
    intro k' key' hof
    by_cases hk : k' = k
    · subst hk
      rw [Function.update_self] at hof
      exact .inl ⟨rfl, hof.2.symm.trans (hused hof.1).1.2, hof.1⟩
    · rw [Function.update_of_ne hk, (hothers k' hk).1] at hof
      exact .inr ⟨hk, fun hkey => (hothers k' hk).2 (hkey ▸ hof), hof⟩
  refine ⟨fun k1 k2 key' h1 h2 => ?_, fun k' key' hof => ?_, fun k' key' hof => ?_,
    fun key' hno => ?_, fun key' p hp => ?_, hdelivered⟩
  · rcases hcases k1 key' h1 with ⟨hk1, hkey, -⟩ | ⟨-, hkey, hof1⟩
    · rcases hcases k2 key' h2 with ⟨hk2, -, -⟩ | ⟨-, hne, -⟩
      · exact hk1.trans hk2.symm
      · exact absurd hkey hne
    · rcases hcases k2 key' h2 with ⟨-, heq, -⟩ | ⟨-, -, hof2⟩
      · exact absurd heq hkey
      · exact h.unique k1 k2 key' hof1 hof2
  · rcases hcases k' key' hof with ⟨rfl, rfl, hu⟩ | ⟨hk, hkey, hof'⟩
    · simp only [Function.update_self]
      exact (hused hu).2.2
    · simp only [Function.update_of_ne hk, Function.update_of_ne hkey, (hothers k' hk).1]
      exact h.intact k' key' hof'
  · rcases hcases k' key' hof with ⟨rfl, rfl, hu⟩ | ⟨-, hkey, hof'⟩
    · simp only [Function.update_self]
      exact (hused hu).2.1
    · simp only [Function.update_of_ne hkey]
      exact h.coherent k' key' hof'
  · by_cases hkey : key' = key
    · subst hkey
      simp only [Function.update_self]
      refine hunused (Bool.eq_false_iff.2 fun hu => hno k ?_)
      simp only [Function.update_self]
      exact (hused hu).1
    · simp only [Function.update_of_ne hkey]
      refine h.nothing key' fun k' hof => hno k' ?_
      have hk : k' ≠ k := by
        rintro rfl
        exact hkey (hown key' hof)
      simp only [Function.update_of_ne hk, (hothers k' hk).1]
      exact hof
  · by_cases hkey : key' = key
    · subst hkey
      simp only [Function.update_self] at hp ⊢
      exact hsub p hp
    · simp only [Function.update_of_ne hkey] at hp ⊢
      exact h.held key' p hp

/-- A packet that goes to no entry. -/
theorem Receiver.Kept.refuse (h : s.Kept r)
    (hno : Coherent r (packet :: s.seen (r.key packet)) ∨
      ∀ k, ¬ (s.queue k).Of r (r.key packet)) :
    Receiver.Kept r { s with
      seen := Function.update s.seen (r.key packet) (packet :: s.seen (r.key packet)) } := by
  refine ⟨h.unique, h.intact, fun k key hof => ?_, h.nothing, fun key p hp => ?_, h.delivered⟩
  · by_cases hkey : key = r.key packet
    · subst hkey
      simp only [Function.update_self]
      exact hno.resolve_right fun hnone => hnone k hof
    · simp only [Function.update_of_ne hkey]
      exact h.coherent k key hof
  · by_cases hkey : key = r.key packet
    · subst hkey
      simp only [Function.update_self]
      exact List.mem_cons_of_mem _ (h.held _ p hp)
    · simp only [Function.update_of_ne hkey]
      exact h.held key p hp

/-- The entry of a packet, found or new, and what there was in the queue before. -/
theorem Receiver.Kept.entry (h : s.Kept r) {k : Fin n} {queue : Fin n → FragDesc H}
    (hfound : searchFragQueue r pool s.queue packet = some (k, queue)) :
    (queue k).Of r (r.key packet) ∧
      (∃ hs, Intact (queue k) ((s.held (r.key packet)).map r.fragment) hs) ∧
      (∀ key, (s.queue k).Of r key → key = r.key packet) ∧
      ∀ k', k' ≠ k → queue k' = s.queue k' ∧ ¬ (s.queue k').Of r (r.key packet) := by
  rcases search_cases hfound with ⟨rfl, hof⟩ | ⟨rfl, hunused, hno⟩
  · exact ⟨hof, h.intact k _ hof, fun key hk => hk.2.symm.trans hof.2,
      fun k' hne => ⟨rfl, fun hk' => hne (h.unique k' k _ hk' hof)⟩⟩
  · rw [Function.update_self, h.nothing _ hno]
    refine ⟨⟨rfl, r.headerKey_newHeader packet⟩, ⟨_, Layout.create r pool packet, nofun⟩,
      fun key hk => ?_, fun k' hne => ⟨Function.update_of_ne hne _ _, hno k'⟩⟩
    rw [hk.1] at hunused
    cases hunused

/-- One step: the code returns, and the entries are kept. -/
theorem Receiver.Kept.step (h : s.Kept r)
    (hmax : r.maxDatagramSize + holeDescSize ≤ INFINITY.toNat)
    (hfirst : ∀ packet, 8 ∣ (r.fragment packet).dataFirst.toNat) {e : Input P n}
    (he : Receiver.Admits r (some s) e) :
    ∃ s', Receiver.step r (some s) e = some s' ∧ s'.Kept r := by
  cases e with
  | expire k =>
      by_cases hused : (s.queue k).used = true
      case neg => exact ⟨s, if_neg hused, h⟩
      case pos =>
        refine ⟨_, if_pos hused, h.replace (fun key hof => hof.2.symm) (fun k' hne => ⟨rfl, ?_⟩)
          nofun (fun _ => rfl) nofun h.delivered⟩
        exact fun hof => hne (h.unique k' k _ hof ⟨hused, rfl⟩)
  | packet pool packet =>
      rw [Receiver.Admits] at he
      cases hfound : entryFor r pool s.queue packet with
      | none =>
          rw [hfound] at he
          refine ⟨_, ?_, h.refuse he⟩
          simp only [Receiver.step, reassemble, hfound, Function.update_eq_self, Option.isNone_none,
            if_true, Option.toList_none, List.map_nil, List.append_nil]
      | some found =>
          obtain ⟨k, queue⟩ := found
          rw [hfound] at he
          obtain ⟨hlen, hsearch⟩ := entryFor_aligned hfound
          obtain ⟨hof, ⟨hs, hintact⟩, hown, hothers⟩ := h.entry hsearch
          obtain ⟨frag, out, hprocess, hkept, hout⟩ :=
            process hintact hof hmax ⟨hfirst packet, hlen⟩ (h.held _) he
          refine ⟨⟨Function.update queue k frag, Function.update s.held (r.key packet)
              (if frag.used = true then packet :: s.held (r.key packet) else []),
            Function.update s.seen (r.key packet)
              (if out.isNone = true then packet :: s.seen (r.key packet) else []),
            s.delivered ++ out.toList.map fun d => (d, packet :: s.seen (r.key packet))⟩, ?_, ?_⟩
          · simp only [Receiver.step, reassemble, hfound, hprocess, Function.update_self]
          · refine h.replace hown hothers (fun hused => ?_) (fun hunused => ?_) (fun p hp => ?_)
              fun d hd => ?_
            · obtain ⟨rfl, hof', hcoherent, hintact'⟩ := hkept hused
              rw [if_pos hused]
              exact ⟨hof', hcoherent, hintact'⟩
            · rw [if_neg (by rw [hunused]; exact Bool.false_ne_true)]
            · split at hp
              case isFalse => cases hp
              case isTrue hused =>
                obtain ⟨rfl, -⟩ := hkept hused
                exact List.mem_cons.2 ((List.mem_cons.1 hp).imp_right (h.held _ p))
            · rcases List.mem_append.1 hd with hd | hd
              · exact h.delivered d hd
              · obtain ⟨datagram, hmem, rfl⟩ := List.mem_map.1 hd
                exact hout datagram (Option.mem_toList.1 hmem)

end Runs

/-- Parse Fragment header and reassemble original datagram. -/
abbrev ipv6ParseFragmentHeader (pool : Pool) (queue : Fin n → FragDesc Ipv6Unfragmentable)
    (packet : Ipv6Fragment) :
    Option ((Fin n → FragDesc Ipv6Unfragmentable) × Option (Ipv6Unfragmentable × List UInt8)) :=
  reassemble ipv6 pool queue packet

/-- A fragment offset is a multiple of eight bytes. -/
theorem ipv6_dataFirst_dvd (packet : Ipv6Fragment) : 8 ∣ (ipv6.fragment packet).dataFirst.toNat := by
  show 8 ∣ (packet.fragHeader.fragmentOffset &&& IPV6_OFFSET_MASK).toNat
  rw [UInt16.toNat_and]
  apply Nat.dvd_of_mod_eq_zero
  show (packet.fragHeader.fragmentOffset.toNat &&& 65528) % 2 ^ 3 = 0
  rw [Nat.and_mod_two_pow]
  exact Nat.and_zero _

/-- The queue of the IPv6 fragments. -/
abbrev Ipv6Receiver : Type :=
  Receiver Ipv6Fragment Ipv6Unfragmentable (BitVec 128 × BitVec 128 × UInt32)
    IPV6_MAX_FRAG_DATAGRAMS

/-- **Overlapping fragments never contribute to a datagram** along every run whose packets are
admitted: the code returns from every packet, a datagram of which packets contradict each other has
no entry, and the packets of a datagram that is handed over do not contradict each other, nor the
datagram. -/
theorem ipv6_overlap_discarded {queue : Fin IPV6_MAX_FRAG_DATAGRAMS → FragDesc Ipv6Unfragmentable}
    (hqueue : ∀ k, (queue k).used = false)
    {es : List (Input Ipv6Fragment IPV6_MAX_FRAG_DATAGRAMS)}
    (hes : Along (Receiver.Admits ipv6) (Receiver.step ipv6) (some (.idle queue)) es) :
    ∃ s' : Ipv6Receiver, run (Receiver.step ipv6) (some (.idle queue)) es = some s' ∧
      (∀ k, (s'.queue k).used = true →
        Coherent ipv6 (s'.seen (ipv6.headerKey (s'.queue k).header))) ∧
      ∀ d ∈ s'.delivered, Faithful ipv6 d.1 d.2 := by
  have hmax : ipv6.maxDatagramSize + holeDescSize ≤ INFINITY.toNat := show 8192 + 6 ≤ 65535 by omega
  obtain ⟨s', hrun, hkept⟩ : ∃ s' : Ipv6Receiver,
      run (Receiver.step ipv6) (some (.idle queue)) es = some s' ∧ s'.Kept ipv6 := by
    refine run_invariant (I := fun s => ∃ s' : Ipv6Receiver, s = some s' ∧ s'.Kept ipv6) ?_
      ⟨_, rfl, .idle hqueue⟩ hes
    rintro _ e ⟨s, rfl, h⟩ he
    exact h.step hmax ipv6_dataFirst_dvd he
  exact ⟨s', hrun, fun k hused => hkept.coherent k _ ⟨hused, rfl⟩, hkept.delivered⟩

/-! ## Samples -/

/-- A fragment with equal bytes. -/
def sampleFragment (identification : UInt32) (fragmentOffset : UInt16) (length : ℕ) (byte : UInt8) :
    Ipv6Fragment where
  header :=
    { version := 6, trafficClass := 0, flowLabel := 0
      payloadLen := UInt16.ofNat (ipv6FragmentHeaderSize + length)
      nextHeader := IPV6_FRAGMENT_HEADER, hopLimit := 64, srcAddr := 1, destAddr := 2 }
  extension := []
  nextHeaderOffset := none
  fragHeader :=
    { nextHeader := 17, reserved := 0, fragmentOffset := fragmentOffset
      identification := identification }
  data := List.replicate length byte

/-- The queue before anything has arrived. -/
def sampleQueue : Fin IPV6_MAX_FRAG_DATAGRAMS → FragDesc Ipv6Unfragmentable :=
  emptyQueue IPV6_MAX_FRAG_DATAGRAMS ⟨(sampleFragment 0 0 0 0).header, [], 0⟩

/-- Packets that all find memory. -/
def arriving (packets : List Ipv6Fragment) : List (Input Ipv6Fragment IPV6_MAX_FRAG_DATAGRAMS) :=
  packets.map (.packet freshMemory)

/-- A fragment that begins where another one does and goes on behind its end, and then the two
fragments of another datagram. -/
theorem ipv6_overlap_discarded_longer :
    let es := arriving [sampleFragment 7 1 8 1, sampleFragment 7 1 16 2, sampleFragment 8 1 8 3,
      sampleFragment 8 8 8 4]
    ∃ s' : Ipv6Receiver, run (Receiver.step ipv6) (some (.idle sampleQueue)) es = some s' ∧
      (∀ k, (s'.queue k).used = true →
        Coherent ipv6 (s'.seen (ipv6.headerKey (s'.queue k).header))) ∧
      ∀ d ∈ s'.delivered, Faithful ipv6 d.1 d.2 :=
  ipv6_overlap_discarded (fun _ => rfl) (by decide +kernel)

/-- A fragment that another one covers with other bytes is overwritten; and a datagram that has been
dropped for an overlap is handed over when its fragments come again. -/
theorem ipv6_overlap_delivered :
    (run (Receiver.step ipv6) (some (.idle sampleQueue)) (arriving [sampleFragment 7 1 8 1,
        sampleFragment 7 1 8 2, sampleFragment 7 8 8 3])).map
          (fun s : Ipv6Receiver => s.delivered.map fun d => (d.1.2, d.2))
      = some [(List.replicate 8 2 ++ List.replicate 8 3, [sampleFragment 7 8 8 3,
          sampleFragment 7 1 8 2, sampleFragment 7 1 8 1])] ∧
    (run (Receiver.step ipv6) (some (.idle sampleQueue)) (arriving [sampleFragment 7 1 8 1,
        sampleFragment 7 1 16 2, sampleFragment 7 1 8 1, sampleFragment 7 8 8 3])).map
          (fun s : Ipv6Receiver => s.delivered.map fun d => (d.1.2, d.2))
      = some [(List.replicate 8 1 ++ List.replicate 8 3, [sampleFragment 7 8 8 3,
          sampleFragment 7 1 8 1, sampleFragment 7 1 16 2, sampleFragment 7 1 8 1])] ∧
    ¬ ∀ (queue : Fin IPV6_MAX_FRAG_DATAGRAMS → FragDesc Ipv6Unfragmentable)
        (es : List (Input Ipv6Fragment IPV6_MAX_FRAG_DATAGRAMS)), (∀ k, (queue k).used = false) →
      ∀ s' : Ipv6Receiver, run (Receiver.step ipv6) (some (.idle queue)) es = some s' →
        ∀ d ∈ s'.delivered, Faithful ipv6 d.1 d.2 := by
  have hrun : (run (Receiver.step ipv6) (some (.idle sampleQueue)) (arriving [sampleFragment 7 1 8 1,
        sampleFragment 7 1 8 2, sampleFragment 7 8 8 3])).map
          (fun s : Ipv6Receiver => s.delivered.map fun d => (d.1.2, d.2))
      = some [(List.replicate 8 2 ++ List.replicate 8 3, [sampleFragment 7 8 8 3,
          sampleFragment 7 1 8 2, sampleFragment 7 1 8 1])] := by
    decide +kernel
  refine ⟨hrun, by decide +kernel, fun hall => ?_⟩
  cases hend : run (Receiver.step ipv6) (some (.idle sampleQueue)) (arriving [sampleFragment 7 1 8 1,
      sampleFragment 7 1 8 2, sampleFragment 7 8 8 3]) with
  | none =>
      rw [hend] at hrun
      cases hrun
  | some s' =>
      rw [hend, Option.map_some, Option.some_inj] at hrun
      obtain ⟨d, hd, hpair⟩ : ∃ d ∈ s'.delivered, (d.1.2, d.2) = _ :=
        List.mem_map.1 (hrun ▸ List.mem_singleton_self _)
      obtain ⟨-, hpackets⟩ := Prod.ext_iff.1 hpair
      obtain ⟨hcoherent, -⟩ := hall sampleQueue _ (fun _ => rfl) s' hend d hd
      rw [show d.2 = _ from hpackets] at hcoherent
      exact absurd hcoherent (by decide)

end Strict

end Ip
