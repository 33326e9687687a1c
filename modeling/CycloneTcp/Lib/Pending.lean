import Mathlib.Data.List.GetD
import Mathlib.Data.List.Pairwise
import Mathlib.Tactic

set_option autoImplicit false

/-! # Items that wait in the slots of a table

A table of slots, each of which may be in use for a key and hold a queue of items that wait for that
key. Of every key, what has been accepted is what has been released, followed by what waits: this
stays true as long as no two slots are in use for the same key, whatever becomes of single slots.

The logs of what has been accepted and released are lists of items with their keys. -/

variable {E K P : Type*}

/-- How the slots of a table hold items. Only a slot that is waiting may hold any. -/
structure Slots (E K P : Type*) where
  used : E → Prop
  key : E → K
  queue : E → List P
  waiting : E → Prop
  used_of_waiting : ∀ e, waiting e → used e
  bound : ℕ

namespace Slots

/-! ## Lists of which one element counts -/

section Lists

variable {α β γ : Type*}

/-- One element is replaced. -/
theorem conserve_replace {f : α → List γ} {pre post : List α} {a a' : α} {out added : List γ}
    (h : out ++ f a' = f a ++ added)
    (halone : f a = [] ∧ added = [] ∨ ∀ b ∈ pre ++ post, f b = []) :
    out ++ (pre ++ a' :: post).flatMap f = (pre ++ a :: post).flatMap f ++ added := by
  simp only [List.flatMap_append, List.flatMap_cons]
  rcases halone with ⟨hf, rfl⟩ | hrest
  · rw [hf, List.append_nil, List.append_eq_nil_iff] at h
    rw [hf, h.1, h.2, List.append_nil]
    rfl
  · have hpre : pre.flatMap f = [] :=
      List.flatMap_eq_nil_iff.2 fun b hb => hrest b (List.mem_append_left _ hb)
    have hpost : post.flatMap f = [] :=
      List.flatMap_eq_nil_iff.2 fun b hb => hrest b (List.mem_append_right _ hb)
    simpa [hpre, hpost] using h

/-- Every element is replaced. -/
theorem conserve_map {f g r : β → List γ} {l : List β} (h : ∀ b ∈ l, r b ++ g b = f b)
    (halone : l.Pairwise fun b c => f b = [] ∨ f c = []) :
    l.flatMap r ++ l.flatMap g = l.flatMap f := by
  induction l with
  | nil => rfl
  | cons b l ih =>
      have hb := h b List.mem_cons_self
      have hl := ih (fun c hc => h c (List.mem_cons_of_mem _ hc)) halone.of_cons
      simp only [List.flatMap_cons]
      by_cases hf : f b = []
      · rw [hf, List.append_eq_nil_iff] at hb
        rw [hf, hb.1, hb.2]
        exact hl
      · have hrest : l.flatMap f = [] := List.flatMap_eq_nil_iff.2 fun c hc =>
          ((List.pairwise_cons.1 halone).1 c hc).resolve_left hf
        rw [hrest, List.append_eq_nil_iff] at hl
        rw [hrest, hl.1, hl.2, List.append_nil, List.append_nil, List.append_nil]
        exact hb

/-- An index splits the list. -/
theorem set_at {l : List α} {i : ℕ} (d : α) (hi : i < l.length) :
    ∃ pre post, l = pre ++ l.getD i d :: post ∧ ∀ a, l.set i a = pre ++ a :: post := by
  refine ⟨l.take i, l.drop (i + 1), ?_, fun a => ?_⟩
  · rw [List.getD_eq_getElem _ _ hi, ← List.drop_eq_getElem_cons hi, List.take_append_drop]
  · rw [List.set_eq_take_append_cons_drop, if_pos hi]

/-- A map that takes no account of the index. -/
theorem mapIdx_const (f : α → β) (l : List α) : (l.mapIdx fun _ a => f a) = l.map f :=
  List.ext_getElem? fun i => by simp

end Lists

/-! ## Logs -/

section Logs

variable [DecidableEq K]

/-- The items of a log that have a key. -/
def forKey (k : K) (log : List (K × P)) : List P := (log.filter (·.1 = k)).map Prod.snd

@[simp] theorem forKey_append (k : K) (log log' : List (K × P)) :
    forKey k (log ++ log') = forKey k log ++ forKey k log' := by
  rw [forKey, forKey, forKey, List.filter_append, List.map_append]

/-- Items that all have one key. -/
theorem forKey_map (k key : K) (items : List P) :
    forKey k (items.map fun item => (key, item)) = if key = k then items else [] := by
  rw [forKey]
  split
  · rename_i heq
    rw [List.filter_eq_self.2, List.map_map]
    · exact List.map_id' items
    · intro a ha
      obtain ⟨item, -, rfl⟩ := List.mem_map.1 ha
      exact decide_eq_true heq
  · rename_i hne
    rw [List.filter_eq_nil_iff.2, List.map_nil]
    intro a ha
    obtain ⟨item, -, rfl⟩ := List.mem_map.1 ha
    simpa using hne

theorem forKey_flatMap {β : Type*} (k : K) (r : β → List (K × P)) (l : List β) :
    forKey k (l.flatMap r) = l.flatMap fun b => forKey k (r b) := by
  induction l with
  | nil => rfl
  | cons b l ih => rw [List.flatMap_cons, List.flatMap_cons, forKey_append, ih]

end Logs

/-! ## The invariant -/

variable (v : Slots E K P)

/-- A slot holds items only while it is waiting, and not too many. -/
structure Owns (e : E) : Prop where
  waiting : v.queue e ≠ [] → v.waiting e
  length_le : (v.queue e).length ≤ v.bound

/-- No two slots are in use for one key. -/
def Unique (entries : List E) : Prop :=
  entries.Pairwise fun a b => v.used a → v.used b → v.key a ≠ v.key b

section Unique

variable {v} {e e' : E} {pre post : List E}

/-- The other slots in use have other keys. -/
theorem Unique.others (h : v.Unique (pre ++ e :: post)) (hused : v.used e) :
    ∀ b ∈ pre ++ post, v.used b → v.key b ≠ v.key e := by
  obtain ⟨-, hpost, hcross⟩ := List.pairwise_append.1 h
  intro b hb hbused
  rcases List.mem_append.1 hb with hb | hb
  · exact hcross b hb e List.mem_cons_self hbused hused
  · exact ((List.pairwise_cons.1 hpost).1 b hb hused hbused).symm

theorem Unique.replace (h : v.Unique (pre ++ e :: post))
    (hother : v.used e' → ∀ b ∈ pre ++ post, v.used b → v.key b ≠ v.key e') :
    v.Unique (pre ++ e' :: post) := by
  obtain ⟨hpre, hpost, hcross⟩ := List.pairwise_append.1 h
  refine List.pairwise_append.2 ⟨hpre, List.pairwise_cons.2
    ⟨fun b hb hused hbused => ?_, (List.pairwise_cons.1 hpost).2⟩, fun b hb c hc => ?_⟩
  · exact (hother hused b (List.mem_append_right _ hb) hbused).symm
  · rcases List.mem_cons.1 hc with rfl | hc
    · exact fun hbused hused => hother hused b (List.mem_append_left _ hb) hbused
    · exact hcross b hb c (List.mem_cons_of_mem _ hc)

end Unique

section Pending

variable [DecidableEq K]

/-- The items of a slot that wait for a key. -/
def pendingIn (k : K) (e : E) : List P := if v.key e = k then v.queue e else []

/-- The items that wait for a key. -/
def pendingFor (k : K) (entries : List E) : List P := entries.flatMap (v.pendingIn k)

/-- What holds of the table and of the logs at any time. -/
structure Invariant (entries : List E) (accepted released : List (K × P)) : Prop where
  unique : v.Unique entries
  owns : ∀ e ∈ entries, v.Owns e
  fifo : ∀ k, forKey k accepted = forKey k released ++ v.pendingFor k entries

/-- What becomes of a slot on its own: it keeps its key or goes out of use, and the items that leave
its queue are released. -/
structure EntryStep (e e' : E) (released : List (K × P)) : Prop where
  same : v.used e' → v.used e ∧ v.key e' = v.key e
  owns : v.Owns e'
  fifo : ∀ k, forKey k released ++ v.pendingIn k e' = v.pendingIn k e

variable {v} {e e' : E} {k : K} {pre post entries : List E} {accepted released added gone : List (K × P)}

theorem pendingIn_of_nil (h : v.queue e = []) : v.pendingIn k e = [] := by
  rw [pendingIn, h, ite_self]

/-- Items wait in a slot that is in use for their key. -/
theorem Owns.of_pending (h : v.Owns e) (hne : v.pendingIn k e ≠ []) : v.used e ∧ v.key e = k := by
  rw [pendingIn] at hne
  split at hne
  · rename_i hkey
    exact ⟨v.used_of_waiting e (h.waiting hne), hkey⟩
  · exact absurd rfl hne

theorem Owns.pendingIn_eq_nil (h : v.Owns e) (hnot : v.used e → v.key e ≠ k) :
    v.pendingIn k e = [] := by
  by_contra hne
  obtain ⟨hused, hkey⟩ := h.of_pending hne
  exact hnot hused hkey

/-- Emptying a queue releases all items that wait in the slot. -/
theorem forKey_queue (k : K) (e : E) :
    forKey k ((v.queue e).map fun item => (v.key e, item)) = v.pendingIn k e := forKey_map k _ _

/-- The queue is left alone. -/
theorem EntryStep.of_queue (h : v.Owns e) (hqueue : v.queue e' = v.queue e)
    (hkey : v.key e' = v.key e) (hused : v.used e' → v.used e) (hwaiting : v.waiting e → v.waiting e') :
    v.EntryStep e e' [] := by
  refine ⟨fun hu => ⟨hused hu, hkey⟩, ⟨fun hne => ?_, by rw [hqueue]; exact h.length_le⟩, fun k => ?_⟩
  · rw [hqueue] at hne
    exact hwaiting (h.waiting hne)
  · rw [pendingIn, hkey, hqueue]
    rfl

/-- One slot is replaced. Items are accepted for its key only. -/
theorem Invariant.replace (h : v.Invariant (pre ++ e :: post) accepted released) (howns : v.Owns e')
    (hother : v.used e' → ∀ b ∈ pre ++ post, v.used b → v.key b ≠ v.key e')
    (hadded : ∀ k, forKey k added ≠ [] → v.used e ∧ v.key e = k)
    (hfifo : ∀ k, forKey k gone ++ v.pendingIn k e' = v.pendingIn k e ++ forKey k added) :
    v.Invariant (pre ++ e' :: post) (accepted ++ added) (released ++ gone) := by
  have hmem : ∀ b ∈ pre ++ post, b ∈ pre ++ e :: post := fun b hb =>
    (List.mem_append.1 hb).elim (List.mem_append_left _) fun hb =>
      List.mem_append_right _ (List.mem_cons_of_mem _ hb)
  refine ⟨h.unique.replace hother, fun b hb => ?_, fun k => ?_⟩
  · rcases List.mem_append.1 hb with hb | hb
    · exact h.owns b (List.mem_append_left _ hb)
    · rcases List.mem_cons.1 hb with rfl | hb
      · exact howns
      · exact h.owns b (List.mem_append_right _ (List.mem_cons_of_mem _ hb))
  · have hconserve : forKey k gone ++ v.pendingFor k (pre ++ e' :: post) =
        v.pendingFor k (pre ++ e :: post) ++ forKey k added := by
      refine conserve_replace (hfifo k) ?_
      by_cases hnone : v.pendingIn k e = [] ∧ forKey k added = []
      · exact .inl hnone
      · -- the slot is in use for this key, and so no other one is
        have hentry : v.used e ∧ v.key e = k := by
          by_cases hpending : v.pendingIn k e = []
          · exact hadded k fun hnil => hnone ⟨hpending, hnil⟩
          · exact (h.owns e (List.mem_append_right _ List.mem_cons_self)).of_pending hpending
        refine .inr fun b hb => (h.owns b (hmem b hb)).pendingIn_eq_nil fun hbused => ?_
        rw [← hentry.2]
        exact h.unique.others hentry.1 b hb hbused
    rw [forKey_append, h.fifo, List.append_assoc, ← hconserve, forKey_append, List.append_assoc]

/-- One slot takes a step of its own. -/
theorem Invariant.entryStep (h : v.Invariant (pre ++ e :: post) accepted released)
    (hstep : v.EntryStep e e' gone) :
    v.Invariant (pre ++ e' :: post) accepted (released ++ gone) := by
  have hreplace : v.Invariant (pre ++ e' :: post) (accepted ++ []) (released ++ gone) := by
    refine h.replace hstep.owns (fun hused b hb hbused => ?_) (fun k hne => absurd rfl hne)
      fun k => ?_
    · obtain ⟨hold, hkey⟩ := hstep.same hused
      rw [hkey]
      exact h.unique.others hold b hb hbused
    · rw [hstep.fifo]
      exact (List.append_nil _).symm
  rwa [List.append_nil] at hreplace

/-- Every slot takes a step of its own. -/
theorem Invariant.entrySteps {l : List (E × E × List (K × P))}
    (h : v.Invariant (l.map Prod.fst) accepted released)
    (hstep : ∀ b ∈ l, v.EntryStep b.1 b.2.1 b.2.2) :
    v.Invariant (l.map fun b => b.2.1) accepted (released ++ l.flatMap fun b => b.2.2) := by
  have hunique := h.unique
  rw [Unique, List.pairwise_map] at hunique
  have howns : ∀ b ∈ l, v.Owns b.1 := fun b hb => h.owns b.1 (List.mem_map_of_mem hb)
  have hpair := hunique.imp_of_mem (S := fun b c => ∀ k, v.pendingIn k b.1 = [] ∨
      v.pendingIn k c.1 = []) fun {b c} hb hc hne k => by
    by_contra hboth
    rw [not_or] at hboth
    obtain ⟨hb1, hb2⟩ := (howns b hb).of_pending hboth.1
    obtain ⟨hc1, hc2⟩ := (howns c hc).of_pending hboth.2
    exact hne hb1 hc1 (hb2.trans hc2.symm)
  refine ⟨?_, fun e he => ?_, fun k => ?_⟩
  · rw [Unique, List.pairwise_map]
    refine hunique.imp_of_mem fun {b c} hb hc hne hbused hcused => ?_
    obtain ⟨hb1, hb2⟩ := (hstep b hb).same hbused
    obtain ⟨hc1, hc2⟩ := (hstep c hc).same hcused
    rw [hb2, hc2]
    exact hne hb1 hc1
  · obtain ⟨b, hb, rfl⟩ := List.mem_map.1 he
    exact (hstep b hb).owns
  · have hconserve := conserve_map (fun b hb => (hstep b hb).fifo k) (hpair.imp fun h => h k)
    rw [h.fifo, forKey_append, forKey_flatMap, List.append_assoc, pendingFor, pendingFor,
      List.flatMap_map, List.flatMap_map, ← hconserve]

/-- No slot is in use, and nothing has been accepted. -/
theorem invariant_replicate (n : ℕ) (hused : ¬ v.used e) (hqueue : v.queue e = []) :
    v.Invariant (List.replicate n e) [] [] := by
  refine ⟨List.pairwise_replicate.2 (.inr fun h => absurd h hused), fun b hb => ?_, fun k => ?_⟩
  · obtain rfl := List.eq_of_mem_replicate hb
    exact ⟨fun hne => absurd hqueue hne, by rw [hqueue]; exact Nat.zero_le _⟩
  · have hnil : v.pendingFor k (List.replicate n e) = [] :=
      List.flatMap_eq_nil_iff.2 fun b hb => by
        obtain rfl := List.eq_of_mem_replicate hb
        exact pendingIn_of_nil hqueue
    rw [hnil]
    rfl

/-! ## Slots by their index -/

section Index

variable {i : ℕ} {d : E}

/-- The slot that an index stands for. -/
theorem Invariant.owns_getD (h : v.Invariant entries accepted released) (hi : i < entries.length) :
    v.Owns (entries.getD i d) := by
  rw [List.getD_eq_getElem _ _ hi]
  exact h.owns _ (List.getElem_mem hi)

/-- The slot at an index takes a step of its own. -/
theorem Invariant.set (h : v.Invariant entries accepted released) (hi : i < entries.length)
    (hstep : v.EntryStep (entries.getD i d) e' gone) :
    v.Invariant (entries.set i e') accepted (released ++ gone) := by
  obtain ⟨pre, post, hsplit, hset⟩ := set_at d hi
  rw [hsplit] at h
  rw [hset]
  exact h.entryStep hstep

/-- A new slot, for a key that no slot is in use for, takes the place of one whose items are
released. -/
theorem Invariant.create (h : v.Invariant entries accepted released) (hi : i < entries.length)
    (hqueue : v.queue e' = []) (hnew : ∀ b ∈ entries, v.used b → v.key b ≠ v.key e')
    (hgone : ∀ k, forKey k gone = v.pendingIn k (entries.getD i d)) :
    v.Invariant (entries.set i e') accepted (released ++ gone) := by
  obtain ⟨pre, post, hsplit, hset⟩ := set_at d hi
  have hinvariant := h
  rw [hsplit] at hinvariant
  have hothers : ∀ b ∈ pre ++ post, v.used b → v.key b ≠ v.key e' := fun b hb =>
    hnew b (by
      rw [hsplit]
      rcases List.mem_append.1 hb with hb | hb
      · exact List.mem_append_left _ hb
      · exact List.mem_append_right _ (List.mem_cons_of_mem _ hb))
  have hreplace : v.Invariant (pre ++ e' :: post) (accepted ++ []) (released ++ gone) :=
    hinvariant.replace ⟨fun hne => absurd hqueue hne, by rw [hqueue]; exact Nat.zero_le _⟩ (fun _ => hothers)
    (fun k hne => absurd rfl hne) fun k => by
      rw [hgone, pendingIn_of_nil hqueue]
      rfl
  rw [List.append_nil] at hreplace
  rwa [hset]

/-- Items are added to the queue of a waiting slot, and others leave it for them. -/
theorem Invariant.enqueue (h : v.Invariant entries accepted released) (hi : i < entries.length)
    (hwaiting : v.waiting (entries.getD i d)) (hwaiting' : v.waiting e')
    (hkey : v.key e' = v.key (entries.getD i d)) (hlen : (v.queue e').length ≤ v.bound)
    {left items : List P} (hqueue : left ++ v.queue e' = v.queue (entries.getD i d) ++ items) :
    v.Invariant (entries.set i e') (accepted ++ items.map fun item => (v.key e', item))
      (released ++ left.map fun item => (v.key e', item)) := by
  obtain ⟨pre, post, hsplit, hset⟩ := set_at d hi
  rw [hsplit] at h
  rw [hset]
  have hused := v.used_of_waiting _ hwaiting
  refine h.replace ⟨fun _ => hwaiting', hlen⟩ (fun _ => ?_) (fun k hne => ⟨hused, ?_⟩) fun k => ?_
  · rw [hkey]
    exact h.unique.others hused
  · by_contra hdiff
    rw [forKey_map, hkey, if_neg hdiff] at hne
    exact hne rfl
  · rw [forKey_map, forKey_map, pendingIn, pendingIn, hkey]
    split
    · exact hqueue
    · rfl

/-- Every slot takes a step of its own, which depends on its index. -/
theorem Invariant.mapIdx {R : Type*} (h : v.Invariant entries accepted released)
    (f : ℕ → E → E × List R) (item : R → K × P)
    (hstep : ∀ i, ∀ e ∈ entries, v.EntryStep e (f i e).1 ((f i e).2.map item)) :
    v.Invariant ((entries.mapIdx f).map Prod.fst) accepted
      (released ++ ((entries.mapIdx f).flatMap Prod.snd).map item) := by
  -- every slot with what becomes of it
  let l := entries.mapIdx fun i e => (e, (f i e).1, (f i e).2.map item)
  have hfst : l.map Prod.fst = entries := List.ext_getElem? fun i => by simp [l, Function.comp_def]
  have hsnd : l.map (fun b => b.2.1) = (entries.mapIdx f).map Prod.fst :=
    List.ext_getElem? fun i => by simp [l, Function.comp_def]
  have hthird : l.map (fun b => b.2.2) = (entries.mapIdx f).map fun b => b.2.map item :=
    List.ext_getElem? fun i => by simp [l, Function.comp_def]
  have hreleased : l.flatMap (fun b => b.2.2) = ((entries.mapIdx f).flatMap Prod.snd).map item := by
    rw [List.flatMap_def, hthird, List.map_flatMap, List.flatMap_def]
  rw [← hfst] at h
  have hsteps := h.entrySteps fun b hb => by
    obtain ⟨i, hi, rfl⟩ := List.mem_mapIdx.1 hb
    exact hstep i _ (List.getElem_mem hi)
  rwa [hsnd, hreleased] at hsteps

end Index

/-! ## Items that are released together -/

section Release

variable (v) in
/-- The items that a slot gives when its queue is emptied: only a waiting slot has any. -/
def release [DecidablePred v.waiting] (e : E) : List (K × P) :=
  if v.waiting e then (v.queue e).map fun item => (v.key e, item) else []

variable [DecidablePred v.waiting]

/-- They are all items that wait in the slot. -/
theorem forKey_release (h : v.Owns e) (k : K) : forKey k (v.release e) = v.pendingIn k e := by
  rw [release]
  split
  · exact forKey_queue k e
  · rename_i hwaiting
    have hnil : v.queue e = [] := by
      by_contra hne
      exact hwaiting (h.waiting hne)
    exact (pendingIn_of_nil hnil).symm

/-- The queue is emptied. -/
theorem EntryStep.of_release (h : v.Owns e) (hqueue : v.queue e' = []) (hkey : v.key e' = v.key e)
    (hused : v.used e' → v.used e) : v.EntryStep e e' (v.release e) := by
  refine ⟨fun hu => ⟨hused hu, hkey⟩,
    ⟨fun hne => absurd hqueue hne, by rw [hqueue]; exact Nat.zero_le _⟩, fun k => ?_⟩
  rw [forKey_release h, pendingIn_of_nil hqueue, List.append_nil]

end Release

end Pending

/-! ## Room in a queue -/

section Room

variable {bound : ℕ} {queue : List P} {item : P}

/-- Room is made for an item: what stays in the queue, and what leaves it. -/
def makeRoom (bound : ℕ) (queue : List P) : List P × List P :=
  if bound ≤ queue.length then (queue.drop 1, queue.take 1) else (queue, [])

theorem makeRoom_append (bound : ℕ) (queue : List P) :
    (makeRoom bound queue).2 ++ (makeRoom bound queue).1 = queue := by
  rw [makeRoom]
  split
  · exact List.take_append_drop 1 queue
  · rfl

theorem makeRoom_length (hlen : queue.length ≤ bound) (hpos : 0 < bound) :
    (makeRoom bound queue).1.length < bound := by
  rw [makeRoom]
  split
  · show (queue.drop 1).length < _
    rw [List.length_drop]
    omega
  · rename_i hfull
    exact Nat.not_le.1 hfull

/-- The oldest item leaves a full queue. -/
theorem mem_makeRoom (hlen : queue.length ≤ bound) (h : item ∈ (makeRoom bound queue).2) :
    queue.length = bound ∧ queue.head? = some item := by
  rw [makeRoom] at h
  split at h
  · rename_i hfull
    refine ⟨le_antisymm hlen hfull, ?_⟩
    cases queue with
    | nil => cases h
    | cons x queue => exact congrArg some (List.mem_singleton.1 h).symm
  · cases h

end Room

/-! ## Where a new entry is made -/

section Recycling

variable (free : E → Bool) (timestamp : E → UInt32) (time : UInt32)

/-- The loop for a new entry: the first slot that is free, else the one with the oldest timestamp;
and whether it is in use. -/
def recycleLoop (oldest : ℕ) (oldestTimestamp : UInt32) : ℕ → List E → ℕ × Bool
  | _, [] => (oldest, true)
  | i, e :: entries =>
      if free e then (i, false)
      else if time - timestamp e > time - oldestTimestamp then
        recycleLoop i (timestamp e) (i + 1) entries
      else recycleLoop oldest oldestTimestamp (i + 1) entries

/-- The loop stops at a slot that is free, or takes one that is in use as all others are. -/
theorem recycleLoop_cases (oldest : ℕ) (oldestTimestamp : UInt32) (i : ℕ) (entries : List E) :
    (∃ k e, recycleLoop free timestamp time oldest oldestTimestamp i entries = (i + k, false) ∧
        entries[k]? = some e ∧ free e) ∨
      ∃ j, recycleLoop free timestamp time oldest oldestTimestamp i entries = (j, true) ∧
        (∀ b ∈ entries, ¬ free b) ∧ (j = oldest ∨ j < i + entries.length) := by
  induction entries generalizing oldest oldestTimestamp i with
  | nil => exact .inr ⟨oldest, rfl, fun b hb => absurd hb List.not_mem_nil, .inl rfl⟩
  | cons e entries ih =>
      rw [recycleLoop]
      by_cases hfree : free e
      · rw [if_pos hfree]
        exact .inl ⟨0, e, rfl, rfl, hfree⟩
      · rw [if_neg hfree]
        have htail : ∀ oldest' oldestTimestamp', (oldest' = i ∨ oldest' = oldest) →
            (∃ k e', recycleLoop free timestamp time oldest' oldestTimestamp' (i + 1) entries =
                (i + k, false) ∧ (e :: entries)[k]? = some e' ∧ free e') ∨
              ∃ j, recycleLoop free timestamp time oldest' oldestTimestamp' (i + 1) entries =
                  (j, true) ∧ (∀ b ∈ e :: entries, ¬ free b) ∧
                (j = oldest ∨ j < i + (e :: entries).length) := by
          intro oldest' oldestTimestamp' holdest
          rcases ih oldest' oldestTimestamp' (i + 1) with ⟨k, e', heq, hget, hfree'⟩ |
            ⟨j, heq, hall, hj⟩
          · exact .inl ⟨k + 1, e', by rw [heq, Nat.add_assoc, Nat.add_comm 1 k], hget, hfree'⟩
          · refine .inr ⟨j, heq, List.forall_mem_cons.2 ⟨hfree, hall⟩, ?_⟩
            rw [List.length_cons]
            omega
        split
        · exact htail i _ (.inl rfl)
        · exact htail oldest _ (.inr rfl)

/-- Where an entry is made in a table that is not empty. -/
theorem recycleLoop_spec {entries : List E} (d : E) (hne : entries ≠ []) (oldestTimestamp : UInt32) :
    ∃ i, i < entries.length ∧
      (recycleLoop free timestamp time 0 oldestTimestamp 0 entries = (i, false) ∧
          free (entries.getD i d) ∨
        recycleLoop free timestamp time 0 oldestTimestamp 0 entries = (i, true) ∧
          ∀ b ∈ entries, ¬ free b) := by
  have hpos := List.length_pos_iff.2 hne
  rcases recycleLoop_cases free timestamp time 0 oldestTimestamp 0 entries with
    ⟨k, e, heq, hget, hfree⟩ | ⟨j, heq, hall, hj⟩
  · rw [Nat.zero_add] at heq
    obtain ⟨hk, rfl⟩ := List.getElem?_eq_some_iff.1 hget
    exact ⟨k, hk, .inl ⟨heq, by rwa [List.getD_eq_getElem _ _ hk]⟩⟩
  · exact ⟨j, by omega, .inr ⟨heq, hall⟩⟩

end Recycling

end Slots
