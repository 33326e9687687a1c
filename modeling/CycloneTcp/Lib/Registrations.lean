import Mathlib.Data.List.Perm.Basic
import Mathlib.Data.List.Nodup
import Mathlib.Tactic

set_option autoImplicit false

/-! # Registrations

A table of slots, some of which have a registration in another table, under a key. `Matched` says
that the registrations belong to the slots one by one; it is kept when a slot changes without
touching its registration, when it gives it up, and when it gets one under a new key. -/

variable {E D K : Type*}

/-- How slots and registrations belong together. -/
structure Registrar (E D K : Type*) where
  holds : E → Prop
  key : E → K
  taken : D → Prop
  name : D → K

namespace Registrar

/-- The slots with a registration and the registrations are the same, by their keys. -/
structure Matched (r : Registrar E D K) (slots : List E) (table : List D) : Prop where
  slots_apart : slots.Pairwise fun d e => r.holds d → r.holds e → r.key d ≠ r.key e
  table_apart : table.Pairwise fun c d => r.taken c → r.taken d → r.name c ≠ r.name d
  same : ∀ k, (∃ e ∈ slots, r.holds e ∧ r.key e = k) ↔ ∃ d ∈ table, r.taken d ∧ r.name d = k

section Lists

variable {α : Type*} {R : α → α → Prop} {pre post : List α} {a a' : α}

/-- An element is replaced by one that is related to whatever the old one was. -/
theorem pairwise_replace (h : (pre ++ a :: post).Pairwise R)
    (hpre : ∀ b ∈ pre, R b a → R b a') (hpost : ∀ b ∈ post, R a b → R a' b) :
    (pre ++ a' :: post).Pairwise R := by
  obtain ⟨hleft, hright, hcross⟩ := List.pairwise_append.1 h
  obtain ⟨hhead, htail⟩ := List.pairwise_cons.1 hright
  refine List.pairwise_append.2 ⟨hleft, List.pairwise_cons.2
    ⟨fun b hb => hpost b hb (hhead b hb), htail⟩, fun b hb c hc => ?_⟩
  rcases List.mem_cons.1 hc with rfl | hc
  · exact hpre b hb (hcross b hb a List.mem_cons_self)
  · exact hcross b hb c (List.mem_cons_of_mem _ hc)

/-- The other elements are related to an element of the list. -/
theorem pairwise_others (hsymm : ∀ b c, R b c → R c b) (h : (pre ++ a :: post).Pairwise R) :
    ∀ b ∈ pre ++ post, R b a := by
  obtain ⟨-, hright, hcross⟩ := List.pairwise_append.1 h
  intro b hb
  rcases List.mem_append.1 hb with hb | hb
  · exact hcross b hb a List.mem_cons_self
  · exact hsymm _ _ ((List.pairwise_cons.1 hright).1 b hb)

theorem mem_middle {b : α} : b ∈ pre ++ a :: post ↔ b = a ∨ b ∈ pre ++ post := by
  simp only [List.mem_append, List.mem_cons]
  tauto

end Lists

section Matched

variable {r : Registrar E D K} {pre post : List E} {e e' : E} {table : List D}

/-- Keys of slots with a registration, and of the registrations. -/
theorem Matched.perm [DecidablePred r.holds] [DecidablePred r.taken] {slots : List E}
    (h : r.Matched slots table) :
    ((slots.filter fun e => r.holds e).map r.key).Perm
      ((table.filter fun d => r.taken d).map r.name) ∧
    ((slots.filter fun e => r.holds e).map r.key).Nodup := by
  have hslots : ((slots.filter fun e => r.holds e).map r.key).Nodup := by
    rw [List.Nodup, List.pairwise_map, List.pairwise_filter]
    exact h.slots_apart.imp fun hne hd he => hne (of_decide_eq_true hd) (of_decide_eq_true he)
  have htable : ((table.filter fun d => r.taken d).map r.name).Nodup := by
    rw [List.Nodup, List.pairwise_map, List.pairwise_filter]
    exact h.table_apart.imp fun hne hd he => hne (of_decide_eq_true hd) (of_decide_eq_true he)
  refine ⟨(List.perm_ext_iff_of_nodup hslots htable).2 fun k => ?_, hslots⟩
  have hsame := h.same k
  simp only [List.mem_map, List.mem_filter, decide_eq_true_eq, and_assoc]
  exact hsame

/-- The registration of a slot. -/
theorem Matched.holder {d : D} {slots : List E} (h : r.Matched slots table) (hd : d ∈ table)
    (htaken : r.taken d) : ∃ e ∈ slots, r.holds e ∧ r.key e = r.name d :=
  (h.same _).2 ⟨d, hd, htaken, rfl⟩

/-- A slot changes, and its registration stays. -/
theorem Matched.keep (h : r.Matched (pre ++ e :: post) table) (hholds : r.holds e' ↔ r.holds e)
    (hkey : r.holds e → r.key e' = r.key e) : r.Matched (pre ++ e' :: post) table := by
  refine ⟨pairwise_replace h.slots_apart ?_ ?_, h.table_apart, fun k => ?_⟩
  · intro b _ hb hbholds he'
    rw [hkey (hholds.1 he')]
    exact hb hbholds (hholds.1 he')
  · intro b _ hb he'
    rw [hkey (hholds.1 he')]
    exact hb (hholds.1 he')
  · rw [← h.same k]
    constructor
    · rintro ⟨d, hd, hdholds, rfl⟩
      rcases mem_middle.1 hd with rfl | hd
      · exact ⟨e, mem_middle.2 (Or.inl rfl), hholds.1 hdholds, (hkey (hholds.1 hdholds)).symm⟩
      · exact ⟨d, mem_middle.2 (Or.inr hd), hdholds, rfl⟩
    · rintro ⟨d, hd, hdholds, rfl⟩
      rcases mem_middle.1 hd with rfl | hd
      · exact ⟨e', mem_middle.2 (Or.inl rfl), hholds.2 hdholds, hkey hdholds⟩
      · exact ⟨d, mem_middle.2 (Or.inr hd), hdholds, rfl⟩

/-- A slot gives up its registration: those with its key are removed from the table. -/
theorem Matched.release (h : r.Matched (pre ++ e :: post) table) (he : r.holds e)
    (he' : ¬ r.holds e') {f : D → D}
    (hf : ∀ d, r.taken (f d) ↔ r.taken d ∧ r.name d ≠ r.key e)
    (hname : ∀ d, r.name (f d) = r.name d) : r.Matched (pre ++ e' :: post) (table.map f) := by
  refine ⟨pairwise_replace h.slots_apart ?_ ?_, ?_, fun k => ?_⟩
  · exact fun b _ _ _ hholds => absurd hholds he'
  · exact fun b _ _ hholds => absurd hholds he'
  · rw [List.pairwise_map]
    refine h.table_apart.imp fun {c d} hcd hc hd => ?_
    rw [hname, hname]
    exact hcd ((hf c).1 hc).1 ((hf d).1 hd).1
  · have hothers := pairwise_others (fun b c hbc hc hb => (hbc hb hc).symm) h.slots_apart
    constructor
    · rintro ⟨d, hd, hdholds, rfl⟩
      have hd : d ∈ pre ++ post := (mem_middle.1 hd).resolve_left fun heq => he' (heq ▸ hdholds)
      obtain ⟨c, hc, htaken, hck⟩ := (h.same (r.key d)).1 ⟨d, mem_middle.2 (Or.inr hd), hdholds, rfl⟩
      refine ⟨f c, List.mem_map_of_mem hc, (hf c).2 ⟨htaken, ?_⟩, (hname c).trans hck⟩
      rw [hck]
      exact hothers d hd hdholds he
    · rintro ⟨c, hc, htaken, rfl⟩
      obtain ⟨d, hd, rfl⟩ := List.mem_map.1 hc
      obtain ⟨hdtaken, hne⟩ := (hf d).1 htaken
      obtain ⟨b, hb, hbholds, hbk⟩ := h.holder hd hdtaken
      refine ⟨b, mem_middle.2 (Or.inr ((mem_middle.1 hb).resolve_left fun heq => ?_)), hbholds,
        hbk.trans (hname d).symm⟩
      exact hne (by rw [← hbk, heq])

/-- A slot gets a registration under a key that is not in use, in a free entry of the table. -/
theorem Matched.register {tpre tpost : List D} {d d' : D}
    (h : r.Matched (pre ++ e :: post) (tpre ++ d :: tpost)) (he : ¬ r.holds e)
    (he' : r.holds e') (hfresh : ∀ b ∈ pre ++ post, r.holds b → r.key b ≠ r.key e')
    (hd : ¬ r.taken d) (hd' : r.taken d') (hname : r.name d' = r.key e') :
    r.Matched (pre ++ e' :: post) (tpre ++ d' :: tpost) := by
  have hkeys : ∀ c ∈ tpre ++ tpost, r.taken c → r.name c ≠ r.key e' := by
    intro c hc htaken heq
    obtain ⟨b, hb, hbholds, hbk⟩ := h.holder (mem_middle.2 (Or.inr hc)) htaken
    exact hfresh b ((mem_middle.1 hb).resolve_left fun hbe => he (hbe ▸ hbholds)) hbholds
      (hbk.trans heq)
  refine ⟨pairwise_replace h.slots_apart ?_ ?_, pairwise_replace h.table_apart ?_ ?_,
    fun k => ?_⟩
  · exact fun b hb _ hbholds _ => hfresh b (List.mem_append_left _ hb) hbholds
  · exact fun b hb _ _ hbholds => (hfresh b (List.mem_append_right _ hb) hbholds).symm
  · intro c hc _ htaken _
    rw [hname]
    exact hkeys c (List.mem_append_left _ hc) htaken
  · intro c hc _ _ htaken
    rw [hname]
    exact (hkeys c (List.mem_append_right _ hc) htaken).symm
  · constructor
    · rintro ⟨b, hb, hbholds, rfl⟩
      rcases mem_middle.1 hb with rfl | hb
      · exact ⟨d', mem_middle.2 (Or.inl rfl), hd', hname⟩
      · obtain ⟨c, hc, htaken, hck⟩ :=
          (h.same (r.key b)).1 ⟨b, mem_middle.2 (Or.inr hb), hbholds, rfl⟩
        exact ⟨c, mem_middle.2 (Or.inr ((mem_middle.1 hc).resolve_left fun hcd =>
          hd (hcd ▸ htaken))), htaken, hck⟩
    · rintro ⟨c, hc, htaken, rfl⟩
      rcases mem_middle.1 hc with rfl | hc
      · exact ⟨e', mem_middle.2 (Or.inl rfl), he', hname.symm⟩
      · obtain ⟨b, hb, hbholds, hbk⟩ := h.holder (mem_middle.2 (Or.inr hc)) htaken
        exact ⟨b, mem_middle.2 (Or.inr ((mem_middle.1 hb).resolve_left fun hbe =>
          he (hbe ▸ hbholds))), hbholds, hbk⟩

end Matched

end Registrar
