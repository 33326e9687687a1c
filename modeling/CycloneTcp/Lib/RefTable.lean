import Mathlib.Algebra.BigOperators.Group.List.Basic
import Mathlib.Data.List.GetD
import Mathlib.Data.List.Pairwise
import Mathlib.Data.Set.Card
import Mathlib.Tactic

set_option autoImplicit false

/-! # Tables of reference counts

A table of fixed size whose entries count references to names. An entry is free when its count is
zero. A reference to a name that is in the table is counted there, otherwise a free entry is taken;
the count is a 32-bit number. `refs` is the total count of a name, and `joined` the number of
entries in use whose name has a property: the operations add and subtract one. -/

structure RefEntry (A : Type*) where
  addr : A
  refCount : ℕ
  deriving DecidableEq

namespace RefTable

variable {A : Type*}

/-! ## Operations -/

section Operations

variable [DecidableEq A]

/-- The entry of a name. -/
def find (a : A) (t : List (RefEntry A)) : Option ℕ :=
  t.findIdx? fun e => 0 < e.refCount ∧ e.addr = a

/-- The first free entry. -/
def firstFree (t : List (RefEntry A)) : Option ℕ := t.findIdx? fun e => e.refCount = 0

/-- The count of an entry is incremented. -/
def retain (i : ℕ) (t : List (RefEntry A)) : List (RefEntry A) :=
  t.modify i fun e => { e with refCount := (e.refCount + 1) % 2 ^ 32 }

/-- A new entry is written, with one reference. -/
def insert (i : ℕ) (a : A) (t : List (RefEntry A)) : List (RefEntry A) :=
  t.set i { addr := a, refCount := 1 }

/-- The count of an entry is decremented. `unspecified` is the name of an entry that gets free. -/
def release (unspecified : A) (i : ℕ) (t : List (RefEntry A)) : List (RefEntry A) :=
  t.modify i fun e =>
    if e.refCount - 1 = 0 then { addr := unspecified, refCount := 0 }
    else { e with refCount := e.refCount - 1 }

/-- A reference to a name is added. There is none when the table is full. -/
def accept (a : A) (t : List (RefEntry A)) : Option (List (RefEntry A)) :=
  match find a t with
  | some i => some (retain i t)
  | none => (firstFree t).map fun i => insert i a t

/-- There is room for a reference to a name: it has an entry, or an entry is free. -/
def HasRoom (a : A) (t : List (RefEntry A)) : Prop := (find a t).isSome ∨ (firstFree t).isSome

instance (a : A) (t : List (RefEntry A)) : Decidable (HasRoom a t) :=
  inferInstanceAs (Decidable (_ ∨ _))

/-- A reference to a name is removed. -/
def drop (unspecified a : A) (t : List (RefEntry A)) : Option (List (RefEntry A)) :=
  (find a t).map fun i => release unspecified i t

/-! ## Counts -/

/-- The references that an entry counts for a name. -/
def weight (a : A) (e : RefEntry A) : ℕ := if e.addr = a then e.refCount else 0

/-- The references to a name. -/
def refs (a : A) (t : List (RefEntry A)) : ℕ := (t.map (weight a)).sum

end Operations

/-- The number of entries in use whose name has a property. -/
def joined (p : A → Bool) (t : List (RefEntry A)) : ℕ := t.countP fun e => 0 < e.refCount ∧ p e.addr

/-- No two entries in use have the same name. -/
def Distinct (t : List (RefEntry A)) : Prop :=
  t.Pairwise fun d e => 0 < d.refCount → 0 < e.refCount → d.addr ≠ e.addr

section Entries

variable {t pre post : List (RefEntry A)} {e e' : RefEntry A} {i : ℕ}

theorem joined_split (p : A → Bool) (pre post : List (RefEntry A)) (e : RefEntry A) :
    joined p (pre ++ e :: post) =
      joined p (pre ++ post) + if 0 < e.refCount ∧ p e.addr then 1 else 0 := by
  simp only [joined, List.countP_append, List.countP_cons, decide_eq_true_eq]
  omega

/-- An index splits the table. -/
theorem split_at {B : Type*} {t : List B} {e : B} (h : t[i]? = some e) :
    ∃ pre post, t = pre ++ e :: post ∧
      (∀ e', t.set i e' = pre ++ e' :: post) ∧ ∀ f, t.modify i f = pre ++ f e :: post := by
  obtain ⟨hi, rfl⟩ := List.getElem?_eq_some_iff.1 h
  have hset : ∀ e', t.set i e' = t.take i ++ e' :: t.drop (i + 1) := fun e' => by
    rw [List.set_eq_take_append_cons_drop, if_pos hi]
  refine ⟨t.take i, t.drop (i + 1), ?_, hset, fun f => ?_⟩
  · rw [← List.drop_eq_getElem_cons hi, List.take_append_drop]
  · rw [List.modify_eq_set_getElem? , List.getElem?_eq_getElem hi]
    exact hset _

theorem firstFree_some (h : firstFree t = some i) : ∃ e, t[i]? = some e ∧ e.refCount = 0 := by
  obtain ⟨hi, hfound, -⟩ := List.findIdx?_eq_some_iff_getElem.1 h
  exact ⟨_, List.getElem?_eq_getElem hi, of_decide_eq_true hfound⟩

theorem firstFree_isSome_iff : (firstFree t).isSome ↔ ∃ e ∈ t, e.refCount = 0 := by
  rw [firstFree, List.findIdx?_isSome, List.any_eq_true]
  simp only [decide_eq_true_eq]

theorem Distinct.others (h : Distinct (pre ++ e :: post)) (hpos : 0 < e.refCount) :
    ∀ d ∈ pre ++ post, 0 < d.refCount → d.addr ≠ e.addr := by
  obtain ⟨-, hpost, hcross⟩ := List.pairwise_append.1 h
  intro d hd hdpos
  rcases List.mem_append.1 hd with hd | hd
  · exact hcross d hd e List.mem_cons_self hdpos hpos
  · exact ((List.pairwise_cons.1 hpost).1 d hd hpos hdpos).symm

theorem Distinct.replace (h : Distinct (pre ++ e :: post))
    (hother : 0 < e'.refCount → ∀ d ∈ pre ++ post, 0 < d.refCount → d.addr ≠ e'.addr) :
    Distinct (pre ++ e' :: post) := by
  obtain ⟨hpre, hpost, hcross⟩ := List.pairwise_append.1 h
  refine List.pairwise_append.2 ⟨hpre, List.pairwise_cons.2
    ⟨fun d hd hpos hdpos => ?_, (List.pairwise_cons.1 hpost).2⟩, fun d hd c hc => ?_⟩
  · exact (hother hpos d (List.mem_append_right _ hd) hdpos).symm
  · rcases List.mem_cons.1 hc with rfl | hc
    · exact fun hdpos hpos => hother hpos d (List.mem_append_left _ hd) hdpos
    · exact hcross d hd c (List.mem_cons_of_mem _ hc)

end Entries

section Lemmas

variable [DecidableEq A] {t pre post : List (RefEntry A)} {e : RefEntry A} {a : A} {i : ℕ}

theorem refs_split (b : A) (pre post : List (RefEntry A)) (e : RefEntry A) :
    refs b (pre ++ e :: post) = refs b (pre ++ post) + weight b e := by
  simp only [refs, List.map_append, List.map_cons, List.sum_append, List.sum_cons]
  omega

theorem find_some (h : find a t = some i) :
    ∃ e, t[i]? = some e ∧ 0 < e.refCount ∧ e.addr = a := by
  obtain ⟨hi, hfound, -⟩ := List.findIdx?_eq_some_iff_getElem.1 h
  exact ⟨_, List.getElem?_eq_getElem hi, of_decide_eq_true hfound⟩

theorem find_none (h : find a t = none) : ∀ e ∈ t, 0 < e.refCount → e.addr ≠ a := by
  intro e he hpos haddr
  exact absurd (List.findIdx?_eq_none_iff.1 h e he) (by simp [hpos, haddr])

/-- A name has references if and only if it has an entry. -/
theorem refs_eq_zero_iff : refs a t = 0 ↔ find a t = none := by
  rw [refs, List.sum_eq_zero_iff, find, List.findIdx?_eq_none_iff]
  simp only [List.mem_map, forall_exists_index, and_imp, forall_apply_eq_imp_iff₂, weight,
    decide_eq_false_iff_not, not_and]
  refine forall₂_congr fun e _ => ?_
  split
  · rename_i haddr
    simp only [haddr, not_true_eq_false, imp_false, Nat.pos_iff_ne_zero, ne_eq, not_not]
  · rename_i haddr
    exact iff_of_true rfl fun _ => haddr

theorem find_isSome_iff : (find a t).isSome ↔ 0 < refs a t := by
  rw [Nat.pos_iff_ne_zero, ne_eq, refs_eq_zero_iff, Option.isSome_iff_ne_none]

/-- The references to a name are those of its only entry. -/
theorem Distinct.refs_eq (h : Distinct (pre ++ e :: post)) (hpos : 0 < e.refCount) :
    refs e.addr (pre ++ e :: post) = e.refCount := by
  have hzero : refs e.addr (pre ++ post) = 0 := by
    rw [refs_eq_zero_iff, find, List.findIdx?_eq_none_iff]
    intro d hd
    simpa using fun hdpos => h.others hpos d hd hdpos
  rw [refs_split, hzero, weight, if_pos rfl, Nat.zero_add]

theorem Distinct.refs_of_getElem (h : Distinct t) (he : t[i]? = some e) (hpos : 0 < e.refCount) :
    refs e.addr t = e.refCount := by
  obtain ⟨pre, post, rfl, -, -⟩ := split_at he
  exact h.refs_eq hpos

/-- A name has references if and only if an entry in use has the name. -/
theorem refs_pos_iff : 0 < refs a t ↔ ∃ e ∈ t, 0 < e.refCount ∧ e.addr = a := by
  constructor
  · intro hpos
    obtain ⟨i, hi⟩ := Option.isSome_iff_exists.1 (find_isSome_iff.2 hpos)
    obtain ⟨e, he, hused⟩ := find_some hi
    exact ⟨e, List.mem_of_getElem? he, hused⟩
  · rintro ⟨e, he, hpos, haddr⟩
    by_contra hzero
    exact find_none (refs_eq_zero_iff.1 (Nat.eq_zero_of_not_pos hzero)) e he hpos haddr

/-- An entry in use counts references to its name. -/
theorem joined_pos_iff {p : A → Bool} : 0 < joined p t ↔ ∃ a, 0 < refs a t ∧ p a := by
  rw [joined, List.countP_pos_iff]
  constructor
  · rintro ⟨e, he, hused⟩
    obtain ⟨hpos, hp⟩ := of_decide_eq_true hused
    exact ⟨e.addr, refs_pos_iff.2 ⟨e, he, hpos, rfl⟩, hp⟩
  · rintro ⟨a, hpos, hp⟩
    obtain ⟨e, he, hepos, rfl⟩ := refs_pos_iff.1 hpos
    exact ⟨e, he, decide_eq_true ⟨hepos, hp⟩⟩

/-- The entries in use are as many as the names that have references. -/
theorem Distinct.joined_eq (h : Distinct t) (p : A → Bool) :
    joined p t = {a | 0 < refs a t ∧ p a}.ncard := by
  set names := (t.filter fun e => 0 < e.refCount ∧ p e.addr).map RefEntry.addr with hnames
  have hnodup : names.Nodup := by
    rw [hnames, List.Nodup, List.pairwise_map, List.pairwise_filter]
    refine h.imp fun hne hd he => ?_
    exact hne (of_decide_eq_true hd).1 (of_decide_eq_true he).1
  have hset : {a | 0 < refs a t ∧ p a} = (names.toFinset : Set A) := by
    ext a
    rw [Finset.mem_coe, List.mem_toFinset, hnames, List.mem_map, Set.mem_ofPred_eq, refs_pos_iff]
    constructor
    · rintro ⟨⟨e, he, hpos, rfl⟩, hp⟩
      exact ⟨e, List.mem_filter.2 ⟨he, decide_eq_true ⟨hpos, hp⟩⟩, rfl⟩
    · rintro ⟨e, he, rfl⟩
      obtain ⟨he, hused⟩ := List.mem_filter.1 he
      obtain ⟨hpos, hp⟩ := of_decide_eq_true hused
      exact ⟨⟨e, he, hpos, rfl⟩, hp⟩
  rw [hset, Set.ncard_coe_finset, List.toFinset_card_of_nodup hnodup, hnames, List.length_map,
    joined, List.countP_eq_length_filter]

/-! ## A table with no references -/

omit [DecidableEq A] in
theorem distinct_of_free (h : ∀ e ∈ t, e.refCount = 0) : Distinct t :=
  List.pairwise_of_forall_mem_list fun d hd _ _ hpos _ =>
    absurd (h d hd) (Nat.pos_iff_ne_zero.1 hpos)

theorem refs_of_free (h : ∀ e ∈ t, e.refCount = 0) (a : A) : refs a t = 0 := by
  by_contra hne
  obtain ⟨e, he, hpos, -⟩ := refs_pos_iff.1 (Nat.pos_of_ne_zero hne)
  exact absurd (h e he) (Nat.pos_iff_ne_zero.1 hpos)

theorem joined_of_free (h : ∀ e ∈ t, e.refCount = 0) (p : A → Bool) : joined p t = 0 := by
  by_contra hne
  obtain ⟨a, hpos, -⟩ := joined_pos_iff.1 (Nat.pos_of_ne_zero hne)
  exact absurd (refs_of_free h a) (Nat.pos_iff_ne_zero.1 hpos)

/-! ## What the operations do to the counts -/

/-- The table `t'` is `t` with `d` more references to `a`, which take `n` more entries. -/
structure Adds (a : A) (d n : ℕ) (t t' : List (RefEntry A)) : Prop where
  distinct : Distinct t'
  refs : ∀ b, refs b t' = refs b t + if b = a then d else 0
  joined : ∀ p, joined p t' = joined p t + if p a then n else 0

theorem retain_adds (h : Distinct t) (hfind : find a t = some i) (hlt : refs a t + 1 < 2 ^ 32) :
    Adds a 1 0 t (retain i t) := by
  obtain ⟨e, he, hpos, rfl⟩ := find_some hfind
  obtain ⟨pre, post, rfl, -, hmodify⟩ := split_at he
  rw [h.refs_eq hpos] at hlt
  have hcount : (e.refCount + 1) % 2 ^ 32 = e.refCount + 1 := Nat.mod_eq_of_lt hlt
  rw [retain, hmodify, hcount]
  refine ⟨h.replace fun _ => h.others hpos, fun b => ?_, fun p => ?_⟩
  · rw [refs_split, refs_split, weight, weight]
    dsimp only
    by_cases hb : b = e.addr
    · rw [if_pos hb.symm, if_pos hb.symm, if_pos hb]
      omega
    · rw [if_neg (Ne.symm hb), if_neg (Ne.symm hb), if_neg hb]
  · rw [joined_split, joined_split, ite_self]
    simp only [Nat.succ_pos, hpos, Nat.add_zero]

theorem insert_adds (h : Distinct t) (hfind : find a t = none) (hfree : firstFree t = some i) :
    Adds a 1 1 t (insert i a t) := by
  obtain ⟨e, he, hzero⟩ := firstFree_some hfree
  obtain ⟨pre, post, rfl, hset, -⟩ := split_at he
  rw [insert, hset]
  refine ⟨h.replace fun _ d hd hdpos => ?_, fun b => ?_, fun p => ?_⟩
  · refine find_none hfind d ?_ hdpos
    rcases List.mem_append.1 hd with hd | hd
    · exact List.mem_append_left _ hd
    · exact List.mem_append_right _ (List.mem_cons_of_mem _ hd)
  · rw [refs_split, refs_split, weight, weight, hzero, ite_self]
    simp only [eq_comm, Nat.add_zero]
  · rw [joined_split, joined_split, hzero]
    simp

theorem release_adds (h : Distinct t) (hfind : find a t = some i) (unspecified : A) :
    Adds a 1 (if refs a t = 1 then 1 else 0) (release unspecified i t) t := by
  obtain ⟨e, he, hpos, rfl⟩ := find_some hfind
  obtain ⟨pre, post, rfl, -, hmodify⟩ := split_at he
  rw [h.refs_eq hpos, release, hmodify]
  refine ⟨h, fun b => ?_, fun p => ?_⟩
  · rw [refs_split, refs_split, weight, weight]
    by_cases hlast : e.refCount - 1 = 0
    · rw [if_pos hlast]
      dsimp only
      rw [ite_self]
      by_cases hb : b = e.addr
      · rw [if_pos hb.symm, if_pos hb]
        omega
      · rw [if_neg (Ne.symm hb), if_neg hb]
    · rw [if_neg hlast]
      dsimp only
      by_cases hb : b = e.addr
      · rw [if_pos hb.symm, if_pos hb.symm, if_pos hb]
        omega
      · rw [if_neg (Ne.symm hb), if_neg (Ne.symm hb), if_neg hb]
  · rw [joined_split, joined_split]
    by_cases hlast : e.refCount - 1 = 0
    · rw [if_pos hlast, if_pos (show e.refCount = 1 by omega)]
      simp [hpos]
    · rw [if_neg hlast, if_neg (show e.refCount ≠ 1 by omega), ite_self, Nat.add_zero]
      simp [hpos, Nat.pos_of_ne_zero hlast]

theorem release_distinct (h : Distinct t) (hfind : find a t = some i) (unspecified : A) :
    Distinct (release unspecified i t) := by
  obtain ⟨e, he, hpos, rfl⟩ := find_some hfind
  obtain ⟨pre, post, rfl, -, hmodify⟩ := split_at he
  rw [release, hmodify]
  split
  · exact h.replace fun hzero => absurd hzero (lt_irrefl 0)
  · exact h.replace fun _ => h.others hpos

/-! ## Adding and removing a reference -/

theorem accept_isSome_iff : (accept a t).isSome ↔ HasRoom a t := by
  unfold accept HasRoom
  cases find a t <;> simp

/-- An entry that is released for the last time gets free, and those that are free stay free. -/
theorem release_firstFree (h : Distinct t) (hfind : find a t = some i) (unspecified : A)
    (hfree : (firstFree t).isSome ∨ refs a t = 1) :
    (firstFree (release unspecified i t)).isSome := by
  obtain ⟨e, he, hpos, rfl⟩ := find_some hfind
  obtain ⟨pre, post, rfl, -, hmodify⟩ := split_at he
  rw [h.refs_eq hpos] at hfree
  rw [release, hmodify, firstFree_isSome_iff]
  rcases hfree with hfree | hlast
  · obtain ⟨d, hd, hzero⟩ := firstFree_isSome_iff.1 hfree
    rcases List.mem_append.1 hd with hd | hd
    · exact ⟨d, List.mem_append_left _ hd, hzero⟩
    · rcases List.mem_cons.1 hd with rfl | hd
      · exact absurd hzero (Nat.pos_iff_ne_zero.1 hpos)
      · exact ⟨d, List.mem_append_right _ (List.mem_cons_of_mem _ hd), hzero⟩
  · refine ⟨_, List.mem_append_right _ List.mem_cons_self, ?_⟩
    rw [if_pos (by omega)]

/-- When a reference is removed, there is still room where there was. -/
theorem release_hasRoom {b : A} (h : Distinct t) (hfind : find b t = some i) (unspecified : A)
    (hroom : HasRoom a t ∨ refs b t = 1) : HasRoom a (release unspecified i t) := by
  by_cases hlast : refs b t = 1
  · exact Or.inr (release_firstFree h hfind unspecified (Or.inr hlast))
  rcases hroom.resolve_right hlast with ha | hfree
  · have hrefs := (release_adds h hfind unspecified).refs a
    have hpos := find_isSome_iff.1 ha
    refine Or.inl (find_isSome_iff.2 ?_)
    split_ifs at hrefs with hab
    · subst hab
      omega
    · omega
  · exact Or.inr (release_firstFree h hfind unspecified (Or.inl hfree))

theorem accept_some {t' : List (RefEntry A)} (h : Distinct t) (hlt : refs a t + 1 < 2 ^ 32)
    (haccept : accept a t = some t') :
    Distinct t' ∧ ∀ b, refs b t' = refs b t + if b = a then 1 else 0 := by
  unfold accept at haccept
  cases hfind : find a t with
  | some i =>
      rw [hfind] at haccept
      obtain rfl := Option.some.inj haccept
      have hadds := retain_adds h hfind hlt
      exact ⟨hadds.distinct, hadds.refs⟩
  | none =>
      rw [hfind] at haccept
      obtain ⟨i, hfree, rfl⟩ := Option.map_eq_some_iff.1 haccept
      have hadds := insert_adds h hfind hfree
      exact ⟨hadds.distinct, hadds.refs⟩

theorem drop_eq_some {b : A} (h : Distinct t) (hpos : 0 < refs b t) (unspecified : A) :
    ∃ t', drop unspecified b t = some t' ∧ Distinct t' ∧
      (∀ c, refs c t = refs c t' + if c = b then 1 else 0) ∧
      ∀ a, HasRoom a t ∨ refs b t = 1 → HasRoom a t' := by
  obtain ⟨i, hfind⟩ := Option.isSome_iff_exists.1 (find_isSome_iff.2 hpos)
  refine ⟨release unspecified i t, ?_, release_distinct h hfind unspecified,
    (release_adds h hfind unspecified).refs, fun a => release_hasRoom h hfind unspecified⟩
  rw [drop, hfind, Option.map_some]

end Lemmas

end RefTable
