import Mathlib.Data.Set.Insert
import Mathlib.Logic.Function.Basic
import Mathlib.Tactic

/-! # Handles and the slots that hold them

A program acquires and releases handles of some resource. The record of these uses determines which
handles are held; it is *disciplined* if only handles that are not held are acquired and only handles
that are held are released. A table of slots holds a set of handles *exactly* if every handle of the
set is in one slot and nothing else is in any slot. The two rules at the end keep a table exact. -/

set_option autoImplicit false

namespace Handles

variable {α ι : Type*}

/-- One use of a handle. -/
inductive Use (α : Type*) where
  | acquire (h : α)
  | release (h : α)
  deriving DecidableEq

/-- What is held after one more use. -/
def Use.apply (held : Set α) : Use α → Set α
  | .acquire h => insert h held
  | .release h => held \ {h}

/-- The use is allowed. -/
def Use.Allowed (held : Set α) : Use α → Prop
  | .acquire h => h ∉ held
  | .release h => h ∈ held

/-- The handles that are held after the uses `log`. -/
def held (log : List (Use α)) : Set α := log.foldl Use.apply ∅

/-- Every use of the record is allowed when it happens. -/
def Disciplined : Set α → List (Use α) → Prop
  | _, [] => True
  | S, u :: log => u.Allowed S ∧ Disciplined (u.apply S) log

@[simp] theorem held_nil : held ([] : List (Use α)) = ∅ := rfl

@[simp] theorem held_concat (log : List (Use α)) (u : Use α) :
    held (log ++ [u]) = u.apply (held log) := by
  simp [held]

theorem disciplined_append {S : Set α} {log log' : List (Use α)} :
    Disciplined S (log ++ log') ↔
      Disciplined S log ∧ Disciplined (log.foldl Use.apply S) log' := by
  induction log generalizing S with
  | nil => simp [Disciplined]
  | cons u log ih => simp only [List.cons_append, Disciplined, ih, and_assoc, List.foldl_cons]

theorem disciplined_concat {log : List (Use α)} {u : Use α} (h : Disciplined ∅ log)
    (hu : u.Allowed (held log)) : Disciplined ∅ (log ++ [u]) :=
  disciplined_append.2 ⟨h, hu, trivial⟩

/-- In a disciplined record a handle is released at most as often as it is acquired, and it is held
if it was acquired once more. -/
theorem count_acquire [DecidableEq α] {log : List (Use α)} (hlog : Disciplined ∅ log) (h : α) :
    (h ∈ held log → log.count (.acquire h) = log.count (.release h) + 1) ∧
      (h ∉ held log → log.count (.acquire h) = log.count (.release h)) := by
  induction log using List.reverseRecOn with
  | nil => exact ⟨fun hh => absurd hh (Set.notMem_empty h), fun _ => rfl⟩
  | append_singleton log u ih =>
      obtain ⟨hlog, hu, -⟩ := disciplined_append.1 hlog
      obtain ⟨hheld, hfree⟩ := ih hlog
      cases u with
      | acquire g =>
          rw [held_concat]
          by_cases hg : g = h
          · subst hg
            have hcount := hfree hu
            simp [Use.apply, hcount]
          · have hne : h ≠ g := fun heq => hg heq.symm
            simp only [Use.apply, Set.mem_insert_iff, hne, false_or]
            simpa [hg] using ⟨hheld, hfree⟩
      | release g =>
          rw [held_concat]
          by_cases hg : g = h
          · subst hg
            have hcount := hheld hu
            simp [Use.apply, hcount]
          · have hne : h ≠ g := fun heq => hg heq.symm
            simp only [Use.apply, Set.mem_sdiff, Set.mem_singleton_iff, hne, not_false_eq_true,
              and_true]
            simpa [hg] using ⟨hheld, hfree⟩

/-- The handles that have been acquired, in order. -/
def acquired (log : List (Use α)) : List α :=
  log.filterMap fun
    | .acquire h => some h
    | .release _ => none

/-- The handles that have been released, in order. -/
def released (log : List (Use α)) : List α :=
  log.filterMap fun
    | .acquire _ => none
    | .release h => some h

theorem acquired_concat (log : List (Use α)) (u : Use α) :
    acquired (log ++ [u]) = acquired log ++ acquired [u] := List.filterMap_append

theorem released_concat (log : List (Use α)) (u : Use α) :
    released (log ++ [u]) = released log ++ released [u] := List.filterMap_append

/-! ## Tables of slots -/

/-- The slots hold the handles of `S`, each of them once, and nothing else. -/
structure Exact (slot : ι → Option α) (S : Set α) : Prop where
  distinct : ∀ {i j : ι} {h : α}, slot i = some h → slot j = some h → i = j
  mem_iff : ∀ h, h ∈ S ↔ ∃ i, slot i = some h

theorem Exact.empty : Exact (fun _ : ι => (none : Option α)) ∅ :=
  ⟨nofun, fun _ => ⟨fun h => absurd h (Set.notMem_empty _), nofun⟩⟩

variable [DecidableEq ι] {slot : ι → Option α} {S : Set α}

/-- Release the handle of a slot. -/
theorem Exact.release (hslot : Exact slot S) {i : ι} {h : α} (hi : slot i = some h) :
    Exact (Function.update slot i none) (S \ {h}) := by
  have hother : ∀ {j : ι} {g : α}, Function.update slot i none j = some g →
      j ≠ i ∧ slot j = some g := by
    intro j g hj
    by_cases hji : j = i
    · rw [hji, Function.update_self] at hj
      cases hj
    · rw [Function.update_of_ne hji] at hj
      exact ⟨hji, hj⟩
  refine ⟨fun hj hk => hslot.distinct (hother hj).2 (hother hk).2, fun g => ?_⟩
  constructor
  · rintro ⟨hg, hne⟩
    obtain ⟨j, hj⟩ := (hslot.mem_iff g).1 hg
    refine ⟨j, ?_⟩
    rw [Function.update_of_ne, hj]
    rintro rfl
    exact hne (Option.some.inj (hj.symm.trans hi))
  · rintro ⟨j, hj⟩
    obtain ⟨hji, hj⟩ := hother hj
    refine ⟨(hslot.mem_iff g).2 ⟨j, hj⟩, fun hgh => hji ?_⟩
    have hgh' : g = h := hgh
    exact hslot.distinct hj (hgh' ▸ hi)

/-- Acquire a handle into an empty slot. -/
theorem Exact.acquire (hslot : Exact slot S) {i : ι} {h : α} (hi : slot i = none) (hh : h ∉ S) :
    Exact (Function.update slot i (some h)) (insert h S) := by
  have hfresh : ∀ j, slot j ≠ some h := fun j hj => hh ((hslot.mem_iff h).2 ⟨j, hj⟩)
  have hcases : ∀ {j : ι} {g : α}, Function.update slot i (some h) j = some g →
      (j = i ∧ g = h) ∨ (j ≠ i ∧ slot j = some g) := by
    intro j g hj
    by_cases hji : j = i
    · rw [hji, Function.update_self] at hj
      exact .inl ⟨hji, (Option.some.inj hj).symm⟩
    · rw [Function.update_of_ne hji] at hj
      exact .inr ⟨hji, hj⟩
  refine ⟨fun {j k g} hj hk => ?_, fun g => ?_⟩
  · rcases hcases hj with ⟨hji, hg⟩ | ⟨-, hold⟩
    · rcases hcases hk with ⟨hki, -⟩ | ⟨-, hold'⟩
      · exact hji.trans hki.symm
      · exact absurd (hg ▸ hold') (hfresh k)
    · rcases hcases hk with ⟨-, hg⟩ | ⟨-, hold'⟩
      · exact absurd (hg ▸ hold) (hfresh j)
      · exact hslot.distinct hold hold'
  · constructor
    · rintro (rfl | hg)
      · exact ⟨i, Function.update_self ..⟩
      · obtain ⟨j, hj⟩ := (hslot.mem_iff g).1 hg
        refine ⟨j, ?_⟩
        rw [Function.update_of_ne, hj]
        rintro rfl
        exact absurd hi (by rw [hj]; nofun)
    · rintro ⟨j, hj⟩
      rcases hcases hj with ⟨-, rfl⟩ | ⟨-, hj⟩
      · exact .inl rfl
      · exact .inr ((hslot.mem_iff g).2 ⟨j, hj⟩)

end Handles
