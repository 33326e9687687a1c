import Mathlib.Data.Nat.Notation

/-! # Loops that stop at the first error

`for(i = first; i < first + k && !error; i++) error = body(i)`: the loop runs its body with increasing
`i` on a state, and ends with the first status other than `ok`. Such a loop keeps what its body keeps
(`loop_invariant`); it succeeds if its body succeeds at every index (`loop_progress`), and once it has
succeeded, the body has succeeded at every index (`loop_ok`). -/

set_option autoImplicit false

namespace Loops

variable {E S : Type*} [DecidableEq E] (ok : E)

/-- `k` iterations are left, and `i` is the loop variable. -/
def loop (body : ℕ → S → E × S) : ℕ → ℕ → S → E × S
  | 0, _, s => (ok, s)
  | k + 1, i, s =>
      let r := body i s
      if r.1 = ok then loop body k (i + 1) r.2 else r

variable {ok} {body : ℕ → S → E × S}

theorem loop_succ_of_ok {k i : ℕ} {s : S} (h : (body i s).1 = ok) :
    loop ok body (k + 1) i s = loop ok body k (i + 1) (body i s).2 := by
  rw [loop]
  exact if_pos h

theorem loop_succ_of_ne {k i : ℕ} {s : S} (h : (body i s).1 ≠ ok) :
    loop ok body (k + 1) i s = body i s := by
  rw [loop]
  exact if_neg h

/-- What every iteration keeps, the loop keeps, however it ends. -/
theorem loop_invariant {I : S → Prop} {k i : ℕ}
    (hbody : ∀ j s, i ≤ j → j < i + k → I s → I (body j s).2) {s : S} (hs : I s) :
    I (loop ok body k i s).2 := by
  induction k generalizing i s with
  | zero => exact hs
  | succ k ih =>
      have hnext : I (body i s).2 := hbody i s (Nat.le_refl i) (by omega) hs
      by_cases hok : (body i s).1 = ok
      · rw [loop_succ_of_ok hok]
        refine ih (fun j t hlo hhi ht => ?_) hnext
        exact hbody j t (by omega) (by omega) ht
      · rw [loop_succ_of_ne hok]
        exact hnext

/-- A loop whose body succeeds at every index succeeds, and takes the invariant to its last index. -/
theorem loop_progress {I : ℕ → S → Prop} {k i : ℕ}
    (hbody : ∀ j s, i ≤ j → j < i + k → I j s → (body j s).1 = ok ∧ I (j + 1) (body j s).2) {s : S}
    (hs : I i s) : (loop ok body k i s).1 = ok ∧ I (i + k) (loop ok body k i s).2 := by
  induction k generalizing i s with
  | zero => exact ⟨rfl, hs⟩
  | succ k ih =>
      obtain ⟨hok, hnext⟩ := hbody i s (Nat.le_refl i) (by omega) hs
      rw [loop_succ_of_ok hok]
      have hrest := ih (i := i + 1)
        (fun j t hlo hhi ht => hbody j t (by omega) (by omega) ht) hnext
      rwa [show i + 1 + k = i + (k + 1) by omega] at hrest

/-- Once the loop has succeeded, its body has succeeded at every index. -/
theorem loop_ok {k i : ℕ} {s : S} (h : (loop ok body k i s).1 = ok) {j : ℕ} (hlo : i ≤ j)
    (hhi : j < i + k) : ∃ t, (body j t).1 = ok := by
  induction k generalizing i s with
  | zero => omega
  | succ k ih =>
      by_cases hok : (body i s).1 = ok
      · by_cases hij : i = j
        · exact ⟨s, hij ▸ hok⟩
        · rw [loop_succ_of_ok hok] at h
          exact ih h (by omega) (by omega)
      · rw [loop_succ_of_ne hok] at h
        exact absurd h hok

/-- A loop whose body can only fail with one status, at indices that do not depend on the state. -/
theorem loop_status {good : ℕ → Prop} [DecidablePred good] {e : E}
    (hbody : ∀ j s, (body j s).1 = if good j then ok else e) (he : e ≠ ok) (k i : ℕ) (s : S) :
    (loop ok body k i s).1 = if ∀ j < k, good (i + j) then ok else e := by
  induction k generalizing i s with
  | zero => exact (if_pos fun j hj => absurd hj (Nat.not_lt_zero j)).symm
  | succ k ih =>
      by_cases hi : good i
      · have hok : (body i s).1 = ok := (hbody i s).trans (if_pos hi)
        rw [loop_succ_of_ok hok, ih]
        have hiff : (∀ j < k + 1, good (i + j)) ↔ ∀ j < k, good (i + 1 + j) := by
          rw [Nat.forall_lt_succ_left]
          simp only [Nat.add_zero, hi, true_and, Nat.add_comm, Nat.add_left_comm]
        simp only [hiff]
      · have hfail : (body i s).1 = e := (hbody i s).trans (if_neg hi)
        rw [loop_succ_of_ne fun hok => he (hfail.symm.trans hok), hfail]
        exact (if_neg fun hall => hi (hall 0 (Nat.zero_lt_succ k))).symm

end Loops
