import CycloneTcp.Lib.Memory

/-! # Hole descriptors

The reassembly of IPv4 and that of IPv6 keep track of the missing parts of a datagram in the same
way: every hole is described by a structure of three 16-bit words that lies in the reassembly
buffer, at the beginning of the hole, and the structures are linked. A pointer to a descriptor is
its position in the buffer; positions count from the end of the header on. The descriptors lie at
multiples of eight bytes, as do the ends of the chunks of the buffer, so no descriptor is divided
between two chunks. -/

set_option autoImplicit false

namespace Ip

/-! ## The list -/

/-- What follows the header in the reassembly buffer, its length, and the first hole. -/
structure HoleList where
  firstHole : UInt16
  data : Memory UInt8
  length : ℕ

namespace HoleList

/-- `ipv4FindHole(frag, offset)`: `netBufferAt` fails from the end of the buffer on. -/
def findHole (s : HoleList) (offset : UInt16) : Option ℕ :=
  if offset.toNat < s.length then some offset.toNat else none

/-- `hole->first`. -/
def first (s : HoleList) (hole : ℕ) : UInt16 := s.data.getU16 hole

/-- `hole->last`. -/
def last (s : HoleList) (hole : ℕ) : UInt16 := s.data.getU16 (hole + 2)

/-- `prevHole ? prevHole->next : frag->firstHole`. -/
def next (s : HoleList) : Option ℕ → UInt16
  | none => s.firstHole
  | some hole => s.data.getU16 (hole + 4)

/-- Store `hole->first` and `hole->last`. -/
def setBounds (s : HoleList) (hole : ℕ) (first last : UInt16) : HoleList :=
  { s with data := (s.data.setU16 hole first).setU16 (hole + 2) last }

/-- Store `prevHole->next`, or `frag->firstHole` if there is no previous hole. -/
def setNext (s : HoleList) (prevHole : Option ℕ) (next : UInt16) : HoleList :=
  match prevHole with
  | none => { s with firstHole := next }
  | some hole => { s with data := s.data.setU16 (hole + 4) next }

/-- Create the entry of a hole, and insert it after `prevHole`. Without an entry at that position
the code dereferences a null pointer. -/
def insertHole (s : HoleList) (prevHole : Option ℕ) (first last : UInt16) :
    Option (Option ℕ × HoleList) :=
  match s.findHole first with
  | none => none
  | some hole =>
      let s := s.setBounds hole first last
      let s := s.setNext (some hole) (s.next prevHole)
      let s := s.setNext prevHole (s.first hole)
      some (some hole, s)

/-- The loop over the hole descriptors, for a fragment with the bytes from `dataFirst` to
`dataLast`. There is no result if a null pointer is dereferenced, or if the fuel does not last. -/
def holeLoop (dataFirst dataLast : UInt16) (more : Bool) :
    ℕ → Option ℕ → Option ℕ → HoleList → Option HoleList
  | _, _, none, s => some s
  | 0, _, some _, _ => none
  | fuel + 1, prevHole, some hole, s =>
      let holeFirst := s.first hole
      let holeLast := s.last hole
      if dataFirst < holeLast ∧ dataLast > holeFirst then
        -- the current descriptor is destroyed
        let s := s.setNext prevHole (s.next (some hole))
        match if dataFirst > holeFirst then s.insertHole prevHole holeFirst dataFirst
            else some (prevHole, s) with
        | none => none
        | some (prevHole, s) =>
            match if dataLast < holeLast ∧ more = true then s.insertHole prevHole dataLast holeLast
                else some (prevHole, s) with
            | none => none
            | some (prevHole, s) =>
                holeLoop dataFirst dataLast more fuel prevHole (s.findHole (s.next prevHole)) s
      else
        holeLoop dataFirst dataLast more fuel (some hole) (s.findHole (s.next (some hole))) s

/-- One pass through the list; every hole begins at another 16-bit position. -/
def updateHoles (s : HoleList) (dataFirst dataLast : UInt16) (more : Bool) : Option HoleList :=
  holeLoop dataFirst dataLast more (2 ^ 16) none (s.findHole s.firstHole) s

/-! ## Small facts -/

variable {s : HoleList}

@[simp] theorem length_setBounds (hole : ℕ) (f l : UInt16) :
    (s.setBounds hole f l).length = s.length := rfl

@[simp] theorem length_setNext (prevHole : Option ℕ) (n : UInt16) :
    (s.setNext prevHole n).length = s.length := by
  cases prevHole <;> rfl

theorem findHole_of_lt {offset : UInt16} (h : offset.toNat < s.length) :
    s.findHole offset = some offset.toNat := if_pos h

theorem findHole_of_ge {offset : UInt16} (h : s.length ≤ offset.toNat) :
    s.findHole offset = none := if_neg (Nat.not_lt_of_le h)

/-- The bytes of `prevHole->next`. -/
def NextField (prevHole : Option ℕ) (i : ℕ) : Prop :=
  ∃ p, prevHole = some p ∧ p + 4 ≤ i ∧ i < p + 6

theorem setNext_data {prevHole : Option ℕ} (n : UInt16) {i : ℕ} (h : ¬ NextField prevHole i) :
    (s.setNext prevHole n).data i = s.data i := by
  cases prevHole with
  | none => rfl
  | some p =>
      have hp : ¬ (p + 4 ≤ i ∧ i < p + 6) := fun hi => h ⟨p, rfl, hi⟩
      show Memory.setU16 s.data (p + 4) n i = _
      rw [Memory.setU16_apply, if_neg (by omega), if_neg (by omega)]

theorem setBounds_data {hole i : ℕ} (f l : UInt16) (h : ¬ (hole ≤ i ∧ i < hole + 4)) :
    (s.setBounds hole f l).data i = s.data i := by
  show Memory.setU16 _ (hole + 2) l i = _
  rw [Memory.setU16_apply, if_neg (by omega), if_neg (by omega), Memory.setU16_apply,
    if_neg (by omega), if_neg (by omega)]

@[simp] theorem next_setNext_self (prevHole : Option ℕ) (n : UInt16) :
    (s.setNext prevHole n).next prevHole = n := by
  cases prevHole with
  | none => rfl
  | some p => exact Memory.getU16_setU16_self _ _ _

theorem firstHole_setNext {prevHole : Option ℕ} (n : UInt16) (h : prevHole ≠ none) :
    (s.setNext prevHole n).firstHole = s.firstHole := by
  cases prevHole with
  | none => exact absurd rfl h
  | some p => rfl

/-! ## Lists of holes -/

/-- `IPV4_INFINITY`, `IPV6_INFINITY`: the end of the last hole, and of the list. -/
def INFINITY : UInt16 := 0xFFFF

/-- The list that starts at `prevHole->next` describes these holes. -/
def Linked (s : HoleList) : Option ℕ → List (UInt16 × UInt16) → Prop
  | prevHole, [] => s.next prevHole = INFINITY
  | prevHole, (a, b) :: hs =>
      s.next prevHole = a ∧ s.first a.toNat = a ∧ s.last a.toNat = b ∧ Linked s (some a.toNat) hs

/-- The holes are in order, from `lo` on, and each has room for its descriptor. -/
def Apart (length : ℕ) : ℕ → List (UInt16 × UInt16) → Prop
  | _, [] => True
  | lo, (a, b) :: hs =>
      lo ≤ a.toNat ∧ a.toNat + 6 ≤ b.toNat ∧ a.toNat + 6 ≤ length ∧ Apart length b.toNat hs

/-- What a fragment leaves of a hole. -/
def cut (dataFirst dataLast : UInt16) (more : Bool) (hole : UInt16 × UInt16) :
    List (UInt16 × UInt16) :=
  if dataFirst < hole.2 ∧ dataLast > hole.1 then
    (if dataFirst > hole.1 then [(hole.1, dataFirst)] else []) ++
      (if dataLast < hole.2 ∧ more = true then [(dataLast, hole.2)] else [])
  else [hole]

/-- The position is in one of the holes. -/
def InHole (hs : List (UInt16 × UInt16)) (i : ℕ) : Prop :=
  ∃ h ∈ hs, h.1.toNat ≤ i ∧ i < h.2.toNat

theorem Apart.mono {length lo lo' : ℕ} {hs : List (UInt16 × UInt16)} (h : Apart length lo hs)
    (hlo : lo' ≤ lo) : Apart length lo' hs := by
  cases hs with
  | nil => trivial
  | cons hole hs => exact ⟨Nat.le_trans hlo h.1, h.2⟩

/-- There is more room behind the holes. -/
theorem Apart.longer {length length' lo : ℕ} {hs : List (UInt16 × UInt16)} (h : Apart length lo hs)
    (hle : length ≤ length') : Apart length' lo hs := by
  induction hs generalizing lo with
  | nil => trivial
  | cons hole hs ih =>
      obtain ⟨hlo, hroom, hlen, hrest⟩ := h
      exact ⟨hlo, hroom, hlen.trans hle, ih hrest⟩

theorem Apart.mem {length lo : ℕ} {hs : List (UInt16 × UInt16)} {hole : UInt16 × UInt16}
    (h : Apart length lo hs) (hmem : hole ∈ hs) :
    lo ≤ hole.1.toNat ∧ hole.1.toNat + 6 ≤ hole.2.toNat ∧ hole.1.toNat + 6 ≤ length := by
  induction hs generalizing lo with
  | nil => cases hmem
  | cons x hs ih =>
      obtain ⟨hle, hroom, hlen, hrest⟩ := h
      rcases List.mem_cons.1 hmem with rfl | hmem
      · exact ⟨hle, hroom, hlen⟩
      · obtain ⟨hlo, hrest'⟩ := ih hrest hmem
        exact ⟨by omega, hrest'⟩

theorem Apart.inHole {length lo i : ℕ} {hs : List (UInt16 × UInt16)} (h : Apart length lo hs)
    (hi : InHole hs i) : lo ≤ i := by
  obtain ⟨hole, hmem, hle, _⟩ := hi
  exact Nat.le_trans (h.mem hmem).1 hle

/-- A list depends on the word that points to it and on its own descriptors. -/
theorem Linked.congr {s s' : HoleList} {prevHole prevHole' : Option ℕ}
    {hs : List (UInt16 × UInt16)} (h : s.Linked prevHole hs)
    (hnext : s'.next prevHole' = s.next prevHole)
    (hdata : ∀ hole ∈ hs, ∀ i, hole.1.toNat ≤ i → i < hole.1.toNat + 6 → s'.data i = s.data i) :
    s'.Linked prevHole' hs := by
  induction hs generalizing prevHole prevHole' with
  | nil => exact hnext.trans h
  | cons hole hs ih =>
      obtain ⟨hptr, hfirst, hlast, hrest⟩ := h
      have hown := hdata hole (List.mem_cons_self ..)
      have hword : ∀ k, k + 2 ≤ 6 →
          s'.data.getU16 (hole.1.toNat + k) = s.data.getU16 (hole.1.toNat + k) := fun k hk =>
        Memory.getU16_congr (hown _ (by omega) (by omega)) (hown _ (by omega) (by omega))
      exact ⟨hnext.trans hptr, (hword 0 (by omega)).trans hfirst, (hword 2 (by omega)).trans hlast,
        ih hrest (hword 4 (by omega)) fun x hx => hdata x (List.mem_cons_of_mem _ hx)⟩

/-- A pointer whose descriptor, if there is one, ends before `lo`. -/
def Before (prevHole : Option ℕ) (lo : ℕ) : Prop := ∀ p, prevHole = some p → p + 6 ≤ lo

theorem Before.mono {prevHole : Option ℕ} {lo lo' : ℕ} (h : Before prevHole lo) (hlo : lo ≤ lo') :
    Before prevHole lo' := fun p hp => Nat.le_trans (h p hp) hlo

theorem Before.nextField {prevHole : Option ℕ} {lo i : ℕ} (h : Before prevHole lo) (hi : lo ≤ i) :
    ¬ NextField prevHole i := by
  rintro ⟨p, hp, _, hlt⟩
  have := h p hp
  omega

theorem Before.some {a lo : ℕ} (h : a + 6 ≤ lo) : Before (some a) lo := by
  intro p hp
  cases hp
  exact h

theorem next_congr {s s' : HoleList} {prevHole : Option ℕ}
    (hfirst : s'.firstHole = s.firstHole)
    (hdata : ∀ i, NextField prevHole i → s'.data i = s.data i) :
    s'.next prevHole = s.next prevHole := by
  cases prevHole with
  | none => exact hfirst
  | some p =>
      exact Memory.getU16_congr (hdata _ ⟨p, rfl, by omega, by omega⟩)
        (hdata _ ⟨p, rfl, by omega, by omega⟩)

/-- What a change of the list has left alone: everything but the positions `P`. The first hole
changes only if there is no previous hole. -/
structure SameBut (s s' : HoleList) (prevHole : Option ℕ) (P : ℕ → Prop) : Prop where
  length : s'.length = s.length
  firstHole : prevHole ≠ none → s'.firstHole = s.firstHole
  data : ∀ i, ¬ P i → ¬ NextField prevHole i → s'.data i = s.data i

/-- An entry that is inserted in front of the rest of the list. -/
theorem insertHole_spec {s : HoleList} {prevHole : Option ℕ} {f : UInt16} (l : UInt16) {lo : ℕ}
    {hs : List (UInt16 × UInt16)} (hlinked : s.Linked prevHole hs) (hapart : Apart s.length lo hs)
    (hlt : f.toNat < s.length) (hlo : f.toNat + 6 ≤ lo) (hprev : Before prevHole f.toNat) :
    ∃ s', s.insertHole prevHole f l = some (some f.toNat, s') ∧ s'.next prevHole = f ∧
      s'.first f.toNat = f ∧ s'.last f.toNat = l ∧ s'.Linked (some f.toNat) hs ∧
      SameBut s s' prevHole (fun i => f.toNat ≤ i ∧ i < f.toNat + 6) := by
  set h := f.toNat with hh
  let s1 := s.setBounds h f l
  let s2 := s1.setNext (some h) (s1.next prevHole)
  let s3 := s2.setNext prevHole f
  -- the descriptor of the previous hole ends before the new one
  have hown : ∀ i, h ≤ i → s3.data i = s2.data i := fun i hi =>
    setNext_data f (hprev.nextField hi)
  have hbounds : ∀ i, i < h + 4 → s2.data i = s1.data i := fun i hi =>
    setNext_data _ (by rintro ⟨p, hp, hle, _⟩; cases hp; omega)
  have hfirst : s2.first h = f := by
    have hne : s1.first h = f := by
      show ((s.data.setU16 h f).setU16 (h + 2) l).getU16 h = f
      rw [Memory.getU16_setU16_of_ne _ _ (by omega), Memory.getU16_setU16_self]
    rw [← hne]
    exact Memory.getU16_congr (hbounds _ (by omega)) (hbounds _ (by omega))
  have hlast : s2.last h = l := by
    have hne : s1.last h = l := Memory.getU16_setU16_self _ _ _
    rw [← hne]
    exact Memory.getU16_congr (hbounds _ (by omega)) (hbounds _ (by omega))
  have hkeep : s1.next prevHole = s.next prevHole :=
    next_congr rfl fun i ⟨p, hp, _, hi⟩ => setBounds_data f l (by have := hprev p hp; omega)
  have hinsert : s.insertHole prevHole f l = some (some h, s3) := by
    rw [insertHole, findHole_of_lt hlt]
    show some (some h, s2.setNext prevHole (s2.first h)) = _
    rw [hfirst]
  have hdata : ∀ i, ¬ (h ≤ i ∧ i < h + 6) → ¬ NextField prevHole i → s3.data i = s.data i := by
    intro i hi hn
    rw [setNext_data f hn, setNext_data _ (by rintro ⟨p, hp, hle, hlt'⟩; cases hp; omega),
      setBounds_data f l (by omega)]
  refine ⟨s3, hinsert, next_setNext_self _ _, ?_, ?_, ?_, ?_, ?_, hdata⟩
  · rw [← hfirst]
    exact Memory.getU16_congr (hown _ (by omega)) (hown _ (by omega))
  · rw [← hlast]
    exact Memory.getU16_congr (hown _ (by omega)) (hown _ (by omega))
  · refine hlinked.congr ?_ fun hole hmem i hle hlt' => ?_
    · have hptr : s3.next (some h) = s2.next (some h) :=
        Memory.getU16_congr (hown _ (by omega)) (hown _ (by omega))
      rw [hptr, next_setNext_self, hkeep]
    · have hle' := (hapart.mem hmem).1
      exact hdata i (by omega) (hprev.nextField (by omega))
  · rw [length_setNext, length_setNext, length_setBounds]
  · intro hne
    rw [firstHole_setNext _ hne, firstHole_setNext _ (by simp)]
    rfl

/-- Changes behind an entry leave the entry in the list. -/
theorem Linked.attach {s s' : HoleList} {prevHole : Option ℕ} {f l : UInt16} {P : ℕ → Prop}
    {tail : List (UInt16 × UInt16)} (hnext : s.next prevHole = f) (hfirst : s.first f.toNat = f)
    (hlast : s.last f.toNat = l) (hprev : Before prevHole f.toNat)
    (hsame : SameBut s s' (some f.toNat) P) (hP : ∀ i, P i → f.toNat + 6 ≤ i)
    (htail : s'.Linked (some f.toNat) tail) : s'.Linked prevHole ((f, l) :: tail) := by
  have hdata : ∀ i, i < f.toNat + 4 → s'.data i = s.data i := fun i hi =>
    hsame.data i (fun hi' => by have := hP i hi'; omega)
      (by rintro ⟨p, hp, hle, _⟩; cases hp; omega)
  refine ⟨?_, ?_, ?_, htail⟩
  · refine (next_congr (hsame.firstHole (by simp)) fun i hi => hdata i ?_).trans hnext
    obtain ⟨p, hp, _, hlt⟩ := hi
    have := hprev p hp
    omega
  · exact (Memory.getU16_congr (hdata _ (by omega)) (hdata _ (by omega))).trans hfirst
  · exact (Memory.getU16_congr (hdata _ (by omega)) (hdata _ (by omega))).trans hlast

/-- A change followed by another one, of the same list or of one that starts inside the change. -/
theorem SameBut.trans {s s' s'' : HoleList} {prevHole prevHole' : Option ℕ} {P Q R : ℕ → Prop}
    (h : SameBut s s' prevHole P) (h' : SameBut s' s'' prevHole' Q)
    (hprev : prevHole' = prevHole ∨ (prevHole' ≠ none ∧ ∀ i, NextField prevHole' i → R i))
    (hP : ∀ i, P i → R i) (hQ : ∀ i, Q i → R i) : SameBut s s'' prevHole R := by
  refine ⟨h'.length.trans h.length, fun hne => ?_, fun i hi hn => ?_⟩
  · have hne' : prevHole' ≠ none := by
      rcases hprev with rfl | ⟨hne', _⟩
      · exact hne
      · exact hne'
    exact (h'.firstHole hne').trans (h.firstHole hne)
  · have hn' : ¬ NextField prevHole' i := by
      rcases hprev with rfl | ⟨_, hin⟩
      · exact hn
      · exact fun hf => hi (hin i hf)
    exact (h'.data i (fun hq => hi (hQ i hq)) hn').trans (h.data i (fun hp => hi (hP i hp)) hn)

/-- An entry that is inserted if there is a hole to describe. -/
theorem insert_if {c : Prop} [Decidable c] {s : HoleList} {prevHole : Option ℕ} {f l : UInt16}
    {lo : ℕ} {hs : List (UInt16 × UInt16)} (hlinked : s.Linked prevHole hs)
    (hapart : Apart s.length lo hs)
    (hc : c → f.toNat < s.length ∧ f.toNat + 6 ≤ lo ∧ Before prevHole f.toNat) :
    ∃ prevHole' s', (if c then s.insertHole prevHole f l else some (prevHole, s))
        = some (prevHole', s') ∧ s'.Linked prevHole' hs ∧
      SameBut s s' prevHole (fun i => c ∧ f.toNat ≤ i ∧ i < f.toNat + 6) ∧
      (prevHole' = prevHole ∨ (c ∧ prevHole' = some f.toNat)) ∧
      ∀ (s'' : HoleList) (P : ℕ → Prop) (tail : List (UInt16 × UInt16)),
        SameBut s' s'' prevHole' P → (c → ∀ i, P i → f.toNat + 6 ≤ i) →
        s''.Linked prevHole' tail → s''.Linked prevHole ((if c then [(f, l)] else []) ++ tail) := by
  by_cases h : c
  case pos =>
    obtain ⟨hlt, hroom, hprev⟩ := hc h
    obtain ⟨s', hinsert, hnext, hfirst, hlast, hlinked', hsame⟩ :=
      insertHole_spec l hlinked hapart hlt hroom hprev
    refine ⟨some f.toNat, s', by rw [if_pos h, hinsert], hlinked',
      ⟨hsame.length, hsame.firstHole, fun i hi => hsame.data i fun hi' => hi ⟨h, hi'⟩⟩,
      Or.inr ⟨h, rfl⟩, fun s'' P tail hsame' hP htail => ?_⟩
    rw [if_pos h]
    exact htail.attach hnext hfirst hlast hprev hsame' (hP h)
  case neg =>
    refine ⟨prevHole, s, if_neg h, hlinked, ⟨rfl, fun _ => rfl, fun _ _ _ => rfl⟩, Or.inl rfl,
      fun s'' P tail _ _ htail => ?_⟩
    rw [if_neg h]
    exact htail

/-- There is room for the descriptors of what a fragment leaves of a hole. -/
def Room (length : ℕ) (dataFirst dataLast : UInt16) (more : Bool) (hole : UInt16 × UInt16) : Prop :=
  dataFirst < hole.2 → dataLast > hole.1 →
    (dataFirst > hole.1 → hole.1.toNat + 6 ≤ dataFirst.toNat) ∧
      (dataLast < hole.2 → more = true →
        dataLast.toNat + 6 ≤ hole.2.toNat ∧ dataLast.toNat + 6 ≤ length)

/-- The fragment begins before it ends, as far as that matters: the end of a hole is only kept if more
fragments follow. -/
def Forward (dataFirst dataLast : UInt16) (more : Bool) (hole : UInt16 × UInt16) : Prop :=
  dataFirst < hole.2 → dataLast > hole.1 → more = true → dataFirst.toNat ≤ dataLast.toNat

theorem InHole.tail {hole : UInt16 × UInt16} {hs : List (UInt16 × UInt16)} {i : ℕ}
    (h : InHole hs i) : InHole (hole :: hs) i := by
  obtain ⟨x, hx, hi⟩ := h
  exact ⟨x, List.mem_cons_of_mem _ hx, hi⟩

theorem InHole.head {a b : UInt16} {hs : List (UInt16 × UInt16)} {i : ℕ} (hle : a.toNat ≤ i)
    (hlt : i < b.toNat) : InHole ((a, b) :: hs) i :=
  ⟨(a, b), List.mem_cons_self .., hle, hlt⟩

theorem NextField.bounds {a i : ℕ} (h : NextField (some a) i) : a + 4 ≤ i ∧ i < a + 6 := by
  obtain ⟨p, hp, hle, hlt⟩ := h
  cases hp
  exact ⟨hle, hlt⟩

/-- The body of the loop for a hole that the fragment overlaps: what the fragment leaves of it takes
its place before the rest of the list, whatever the loop makes of that rest. -/
theorem cutHole_spec {s : HoleList} {prevHole : Option ℕ} {dataFirst dataLast a b : UInt16}
    {more : Bool} {hs : List (UInt16 × UInt16)} (hprev : Before prevHole a.toNat)
    (hapart : Apart s.length a.toNat ((a, b) :: hs)) (hrest : s.Linked (some a.toNat) hs)
    (hhit : dataFirst < b ∧ dataLast > a) (hforward : Forward dataFirst dataLast more (a, b))
    (hroom : Room s.length dataFirst dataLast more (a, b)) :
    ∃ prev2 s2 prev3 s3,
      (if dataFirst > a then
        (s.setNext prevHole (s.next (some a.toNat))).insertHole prevHole a dataFirst
        else some (prevHole, s.setNext prevHole (s.next (some a.toNat)))) = some (prev2, s2) ∧
      (if dataLast < b ∧ more = true then s2.insertHole prev2 dataLast b else some (prev2, s2))
        = some (prev3, s3) ∧
      s3.length = s.length ∧ s3.Linked prev3 hs ∧ Before prev3 b.toNat ∧
      ∀ (s' : HoleList) (tail : List (UInt16 × UInt16)), s'.Linked prev3 tail →
        SameBut s3 s' prev3 (InHole hs) →
        s'.Linked prevHole (cut dataFirst dataLast more (a, b) ++ tail) ∧
          SameBut s s' prevHole (InHole ((a, b) :: hs)) := by
  obtain ⟨-, hab, halen, hapart'⟩ := hapart
  rw [show cut dataFirst dataLast more (a, b) = _ from if_pos hhit]
  obtain ⟨hbegin, hend⟩ : (dataFirst > a → a.toNat + 6 ≤ dataFirst.toNat) ∧
      (dataLast < b → more = true →
        dataLast.toNat + 6 ≤ b.toNat ∧ dataLast.toNat + 6 ≤ s.length) := hroom hhit.1 hhit.2
  have hdata : more = true → dataFirst.toNat ≤ dataLast.toNat := hforward hhit.1 hhit.2
  have hgt : a.toNat < dataLast.toNat := UInt16.lt_iff_toNat_lt.1 hhit.2
  have hinRest : ∀ i, InHole hs i → b.toNat ≤ i := fun i hi => hapart'.inHole hi
  -- the descriptor is unlinked
  have hunlink : SameBut s (s.setNext prevHole (s.next (some a.toNat))) prevHole
      (fun _ => False) :=
    ⟨length_setNext _ _, firstHole_setNext _, fun i _ hn => setNext_data _ hn⟩
  have hlinked1 : (s.setNext prevHole (s.next (some a.toNat))).Linked prevHole hs := by
    refine hrest.congr (next_setNext_self _ _) fun x hx i hle _ => ?_
    have := (hapart'.mem hx).1
    exact setNext_data _ (hprev.nextField (by omega))
  generalize s.setNext prevHole (s.next (some a.toNat)) = s1 at hunlink hlinked1
  have hapart1 : Apart s1.length (a.toNat + 6) hs := by
    rw [hunlink.length]
    exact hapart'.mono hab
  -- the beginning of the hole
  obtain ⟨prev2, s2, hins2, hlinked2, hsame2, hprev2, hattach2⟩ :=
    insert_if (c := dataFirst > a) (f := a) (l := dataFirst) hlinked1 hapart1 fun _ =>
      ⟨by rw [hunlink.length]; omega, Nat.le_refl _, hprev⟩
  have hlen2 : s2.length = s.length := hsame2.length.trans hunlink.length
  have hbefore2 : more = true → Before prev2 dataLast.toNat := by
    intro hmore
    rcases hprev2 with rfl | ⟨hc, rfl⟩
    · exact hprev.mono (Nat.le_of_lt hgt)
    · exact Before.some (Nat.le_trans (hbegin hc) (hdata hmore))
  -- the end of the hole
  obtain ⟨prev3, s3, hins3, hlinked3, hsame3, hprev3, hattach3⟩ :=
    insert_if (c := dataLast < b ∧ more = true) (f := dataLast) (l := b) hlinked2
      (by rw [hlen2]; exact hapart') fun hc => by
        obtain ⟨h1, h2⟩ := hend hc.1 hc.2
        exact ⟨by rw [hlen2]; omega, h1, hbefore2 hc.2⟩
  have hbefore3 : Before prev3 b.toNat := by
    rcases hprev3 with rfl | ⟨hc, rfl⟩
    · rcases hprev2 with rfl | ⟨hc, rfl⟩
      · exact hprev.mono (by omega)
      · exact Before.some hab
    · exact Before.some (hend hc.1 hc.2).1
  refine ⟨prev2, s2, prev3, s3, hins2, hins3, hsame3.length.trans hlen2, hlinked3, hbefore3,
    fun s' tail htail hsame' => ?_⟩
  -- the rest of the list
  have hsame23 : SameBut s2 s' prev2
      (fun i => (dataLast < b ∧ more = true ∧ dataLast.toNat ≤ i ∧ i < dataLast.toNat + 6) ∨
        InHole hs i) := by
    refine hsame3.trans hsame' ?_ (fun i ⟨hc, hi⟩ => Or.inl ⟨hc.1, hc.2, hi⟩)
      (fun i hi => Or.inr hi)
    rcases hprev3 with rfl | ⟨hc, rfl⟩
    · exact Or.inl rfl
    · refine Or.inr ⟨by simp, fun i hi => ?_⟩
      have := hi.bounds
      exact Or.inl ⟨hc.1, hc.2, by omega, this.2⟩
  refine ⟨?_, ?_⟩
  · rw [List.append_assoc]
    refine hattach2 s' _ _ hsame23 (fun hc i hi => ?_) ?_
    · have hroom1 := hbegin hc
      rcases hi with ⟨_, hmore, hle, _⟩ | hi
      · have := hdata hmore
        omega
      · have := hinRest i hi
        omega
    · exact hattach3 s' _ _ hsame' (fun hc i hi => by
        have := hinRest i hi
        have := (hend hc.1 hc.2).1
        omega) htail
  · refine hunlink.trans (hsame2.trans hsame23 ?_ (fun i hi => .head hi.2.1 (by omega))
      fun i hi => ?_) (Or.inl rfl) (fun _ h => h.elim) fun _ hi => hi
    · rcases hprev2 with rfl | ⟨hc, rfl⟩
      · exact Or.inl rfl
      · refine Or.inr ⟨by simp, fun i hi => ?_⟩
        have := hi.bounds
        exact .head (by omega) (by omega)
    · rcases hi with ⟨hlt, hmore, hle, hlt'⟩ | hi
      · have := (hend hlt hmore).1
        exact .head (by omega) (by omega)
      · exact hi.tail

/-- The loop ends, and it leaves the list of what the fragment leaves of the holes; nothing but
descriptors inside the holes is written. -/
theorem holeLoop_spec {dataFirst dataLast : UInt16} (more : Bool) (hs : List (UInt16 × UInt16)) :
    ∀ (fuel : ℕ) (s : HoleList) (prevHole : Option ℕ) (lo : ℕ), hs.length ≤ fuel →
      s.length ≤ INFINITY.toNat → s.Linked prevHole hs → Apart s.length lo hs →
      Before prevHole lo → (∀ hole ∈ hs, Forward dataFirst dataLast more hole) →
      (∀ hole ∈ hs, Room s.length dataFirst dataLast more hole) →
      ∃ s', holeLoop dataFirst dataLast more fuel prevHole (s.findHole (s.next prevHole)) s
          = some s' ∧
        s'.Linked prevHole (hs.flatMap (cut dataFirst dataLast more)) ∧
        SameBut s s' prevHole (InHole hs) := by
  induction hs with
  | nil =>
    intro fuel s prevHole lo _ hlen hlinked _ _ _ _
    refine ⟨s, ?_, hlinked, ⟨rfl, fun _ => rfl, fun _ _ _ => rfl⟩⟩
    rw [findHole_of_ge (by rw [show s.next prevHole = INFINITY from hlinked]; exact hlen)]
    cases fuel <;> rfl
  | cons hole hs ih =>
      obtain ⟨a, b⟩ := hole
      intro fuel s prevHole lo hfuel hlen hlinked hapart hprev hforward hroom
      obtain ⟨hptr, hfirst, hlast, hrest⟩ := hlinked
      obtain ⟨hlo, hab, halen, hapart'⟩ := hapart
      obtain ⟨fuel, rfl⟩ : ∃ k, fuel = k + 1 :=
        ⟨fuel - 1, by rw [List.length_cons] at hfuel; omega⟩
      have hfuel' : hs.length ≤ fuel := by
        rw [List.length_cons] at hfuel
        omega
      have hforward' : ∀ hole ∈ hs, Forward dataFirst dataLast more hole :=
        fun x hx => hforward x (List.mem_cons_of_mem _ hx)
      have hroom' : ∀ hole ∈ hs, Room s.length dataFirst dataLast more hole :=
        fun x hx => hroom x (List.mem_cons_of_mem _ hx)
      have hbefore : Before prevHole a.toNat := hprev.mono hlo
      rw [hptr, findHole_of_lt (by omega : a.toNat < s.length), holeLoop, hfirst, hlast]
      dsimp only
      rw [List.flatMap_cons]
      by_cases hhit : dataFirst < b ∧ dataLast > a
      case neg =>
        rw [if_neg hhit, show cut dataFirst dataLast more (a, b) = [(a, b)] from if_neg hhit]
        obtain ⟨s', hloop, htail, hsame⟩ := ih fuel s (some a.toNat) b.toNat hfuel' hlen hrest
          hapart' (Before.some hab) hforward' hroom'
        refine ⟨s', hloop, ?_, ?_⟩
        · exact htail.attach hptr hfirst hlast hbefore hsame fun i hi => by
            have := hapart'.inHole hi
            omega
        · refine SameBut.trans ⟨rfl, fun _ => rfl, fun _ _ _ => rfl⟩ hsame
            (P := fun _ => False) (Or.inr ⟨by simp, fun i hi => ?_⟩) (fun _ h => h.elim)
            fun _ hi => hi.tail
          have := hi.bounds
          exact .head (by omega) (by omega)
      case pos =>
        rw [if_pos hhit]
        obtain ⟨prev2, s2, prev3, s3, hins2, hins3, hlen3, hlinked3, hbefore3, hcut⟩ :=
          cutHole_spec hbefore ⟨le_refl _, hab, halen, hapart'⟩ hrest hhit
            (hforward (a, b) (List.mem_cons_self ..)) (hroom (a, b) (List.mem_cons_self ..))
        rw [hins2]
        dsimp only
        rw [hins3]
        dsimp only
        obtain ⟨s', hloop, htail, hsame'⟩ := ih fuel s3 prev3 b.toNat hfuel'
          (by rw [hlen3]; exact hlen) hlinked3 (by rw [hlen3]; exact hapart') hbefore3
          hforward' (by rw [hlen3]; exact hroom')
        exact ⟨s', hloop, hcut s' _ htail hsame'⟩

/-- There are no more holes than 16-bit positions. -/
theorem Apart.length_le {length lo : ℕ} {hs : List (UInt16 × UInt16)} (h : Apart length lo hs)
    (hlo : lo ≤ INFINITY.toNat) : lo + 6 * hs.length ≤ INFINITY.toNat := by
  induction hs generalizing lo with
  | nil => simpa using hlo
  | cons hole hs ih =>
      obtain ⟨hle, hroom, _, hrest⟩ := h
      have hb : hole.2.toNat < 2 ^ 16 := hole.2.toNat_lt
      have hinf : INFINITY.toNat = 2 ^ 16 - 1 := rfl
      have := ih hrest (by omega)
      rw [List.length_cons]
      omega

/-- What is left of holes that are apart is apart. -/
theorem Apart.cut {length lo : ℕ} {hs : List (UInt16 × UInt16)} {dataFirst dataLast : UInt16}
    {more : Bool} (h : Apart length lo hs)
    (hforward : ∀ hole ∈ hs, Forward dataFirst dataLast more hole)
    (hroom : ∀ hole ∈ hs, Room length dataFirst dataLast more hole) :
    Apart length lo (hs.flatMap (HoleList.cut dataFirst dataLast more)) := by
  induction hs generalizing lo with
  | nil => trivial
  | cons hole hs ih =>
      obtain ⟨a, b⟩ := hole
      obtain ⟨hlo, hab, hlen, hrest⟩ := h
      have htail := ih hrest (fun x hx => hforward x (List.mem_cons_of_mem _ hx))
        fun x hx => hroom x (List.mem_cons_of_mem _ hx)
      have hown : Room length dataFirst dataLast more (a, b) := hroom _ (List.mem_cons_self ..)
      rw [List.flatMap_cons, HoleList.cut]
      split
      case isFalse => exact ⟨hlo, hab, hlen, htail⟩
      case isTrue hhit =>
        obtain ⟨hbegin, hend⟩ := hown hhit.1 hhit.2
        have hfb : dataFirst.toNat < b.toNat := UInt16.lt_iff_toNat_lt.1 hhit.1
        have hal : a.toNat < dataLast.toNat := UInt16.lt_iff_toNat_lt.1 hhit.2
        have hdata : more = true → dataFirst.toNat ≤ dataLast.toNat :=
          hforward (a, b) (List.mem_cons_self ..) hhit.1 hhit.2
        have hlast : ∀ lo', (more = true → lo' ≤ dataLast.toNat) → lo' ≤ b.toNat → Apart length lo'
            ((if dataLast < b ∧ more = true then [(dataLast, b)] else [])
              ++ hs.flatMap (HoleList.cut dataFirst dataLast more)) := by
          intro lo' hlo' hlob
          split
          case isTrue hc =>
            obtain ⟨h1, h2⟩ := hend hc.1 hc.2
            exact ⟨hlo' hc.2, h1, h2, htail⟩
          case isFalse => exact htail.mono hlob
        rw [List.append_assoc]
        split
        case isTrue hc => exact ⟨hlo, hbegin hc, hlen, hlast _ hdata (Nat.le_of_lt hfb)⟩
        case isFalse => exact hlast lo (fun _ => by omega) (by omega)

/-- One pass through the list. -/
theorem updateHoles_spec {s : HoleList} {dataFirst dataLast : UInt16} (more : Bool)
    {hs : List (UInt16 × UInt16)} (hforward : ∀ hole ∈ hs, Forward dataFirst dataLast more hole)
    (hlen : s.length ≤ INFINITY.toNat) (hlinked : s.Linked none hs) (hapart : Apart s.length 0 hs)
    (hroom : ∀ hole ∈ hs, Room s.length dataFirst dataLast more hole) :
    ∃ s', s.updateHoles dataFirst dataLast more = some s' ∧
      s'.Linked none (hs.flatMap (cut dataFirst dataLast more)) ∧
      Apart s.length 0 (hs.flatMap (cut dataFirst dataLast more)) ∧
      s'.length = s.length ∧ ∀ i, ¬ InHole hs i → s'.data i = s.data i := by
  have hfuel : hs.length ≤ 2 ^ 16 := by
    have := hapart.length_le (Nat.zero_le _)
    have hinf : INFINITY.toNat = 2 ^ 16 - 1 := rfl
    omega
  obtain ⟨s', hloop, hlinked', hsame⟩ := holeLoop_spec more hs (2 ^ 16) s none 0 hfuel hlen
    hlinked hapart (fun p hp => by cases hp) hforward hroom
  refine ⟨s', hloop, hlinked', hapart.cut hforward hroom, hsame.length, fun i hi => ?_⟩
  exact hsame.data i hi (by rintro ⟨p, hp, _⟩; cases hp)

end HoleList

end Ip
