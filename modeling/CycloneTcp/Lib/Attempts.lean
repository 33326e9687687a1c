import Mathlib.Data.List.GetD
import Mathlib.Tactic

set_option autoImplicit false

/-! # Attempts before an entry is given up

The entries of a table that try to reach somebody, each with a counter of its retries. What makes the
counter good for a limit on the attempts is that it counts all of them but the first one. -/

/-- How the entries of a table make attempts. -/
structure Attempts (E : Type*) where
  trying : E → Prop
  sent : E → ℕ
  retries : E → ℕ

namespace Attempts

variable {E R : Type*} (v : Attempts E)

/-- While attempts are made, the counter counts all of them but the first one. -/
def Counted (e : E) : Prop := v.trying e → v.sent e = v.retries e + 1

/-- The attempts of all entries are counted. -/
def AllCounted (entries : List E) : Prop := ∀ e ∈ entries, v.Counted e

variable {v} {e e' d : E} {entries : List E} {limit : ℕ}

/-- Where no attempts are made, nothing is counted. -/
theorem counted_of_not (h : ¬ v.trying e) : v.Counted e := fun htrying => absurd htrying h

/-- One more attempt. -/
theorem Counted.next (h : v.Counted e) (htrying : v.trying e) (hsent : v.sent e' = v.sent e + 1)
    (hretries : v.retries e' = v.retries e + 1) : v.Counted e' := by
  intro _
  rw [hsent, hretries, h htrying]

/-- The counter reaches its limit after as many attempts. -/
theorem Counted.le_sent (h : v.Counted e) (htrying : v.trying e) (hlimit : limit ≤ v.retries e + 1) :
    limit ≤ v.sent e := by
  rw [h htrying]
  exact hlimit

theorem AllCounted.getD (h : v.AllCounted entries) (hd : v.Counted d) (i : ℕ) :
    v.Counted (entries.getD i d) := by
  rcases Nat.lt_or_ge i entries.length with hi | hi
  · rw [List.getD_eq_getElem _ _ hi]
    exact h _ (List.getElem_mem hi)
  · rwa [List.getD_eq_default _ _ hi]

theorem AllCounted.set (h : v.AllCounted entries) (he : v.Counted e) (i : ℕ) :
    v.AllCounted (entries.set i e) := by
  intro b hb
  rcases List.mem_or_eq_of_mem_set hb with hb | rfl
  · exact h b hb
  · exact he

/-- Every entry takes a step of its own, with a result. -/
theorem allCounted_mapIdx (f : ℕ → E → E × R) (hstep : ∀ i, ∀ e ∈ entries, v.Counted (f i e).1) :
    v.AllCounted ((entries.mapIdx f).map Prod.fst) := by
  intro b hb
  obtain ⟨c, hc, rfl⟩ := List.mem_map.1 hb
  obtain ⟨i, hi, rfl⟩ := List.mem_mapIdx.1 hc
  exact hstep i _ (List.getElem_mem hi)

theorem allCounted_map (f : E → E × R) (hstep : ∀ e ∈ entries, v.Counted (f e).1) :
    v.AllCounted ((entries.map f).map Prod.fst) := by
  intro b hb
  obtain ⟨c, hc, rfl⟩ := List.mem_map.1 hb
  obtain ⟨e, he, rfl⟩ := List.mem_map.1 hc
  exact hstep e he

theorem allCounted_replicate (n : ℕ) (he : v.Counted e) : v.AllCounted (List.replicate n e) := by
  intro b hb
  obtain rfl := List.eq_of_mem_replicate hb
  exact he

end Attempts
