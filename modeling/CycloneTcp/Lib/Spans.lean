import Mathlib.Tactic

set_option autoImplicit false

/-! # Spans of a stream

A span is a run of positions, maybe an empty one. Two spans touch if no position lies between them.
Whoever merges touching spans may lose some of what they cover, but a span with the ends of the two
covers nothing else and comes close to nothing else. -/

/-- The positions from `left` to `right`, the latter excluded. -/
structure Span where
  left : ℕ
  right : ℕ
  deriving DecidableEq, Repr

namespace Span

/-- The position is in the span. -/
def Has (a : Span) (p : ℕ) : Prop := a.left ≤ p ∧ p < a.right

/-- The spans overlap or are adjacent. -/
def Touches (a b : Span) : Prop := b.left ≤ a.right ∧ a.left ≤ b.right

instance (a b : Span) : Decidable (a.Touches b) := inferInstanceAs (Decidable (_ ∧ _))

/-- There is a position between the spans. -/
def Apart (a b : Span) : Prop := ¬ a.Touches b

/-- A span of the window from `lo` to `hi`. -/
def Inside (lo hi : ℕ) (a : Span) : Prop := lo ≤ a.left ∧ a.left ≤ a.right ∧ a.right ≤ hi

/-- The ends of `m` are ends of `a` or `b`. -/
def Between (a b m : Span) : Prop :=
  (m.left = a.left ∨ m.left = b.left) ∧ (m.right = a.right ∨ m.right = b.right)

theorem Touches.symm {a b : Span} (h : a.Touches b) : b.Touches a := ⟨h.2, h.1⟩

theorem Apart.symm {a b : Span} (h : a.Apart b) : b.Apart a := fun htouch => h htouch.symm

/-- The ends of touching spans make a span, whichever are taken. -/
theorem inside_of_between {lo hi : ℕ} {a b m : Span} (ha : a.Inside lo hi) (hb : b.Inside lo hi)
    (htouch : a.Touches b) (hm : Between a b m) : m.Inside lo hi := by
  obtain ⟨hl | hl, hr | hr⟩ := hm <;> rw [Inside, hl, hr]
  · exact ha
  · exact ⟨ha.1, htouch.2, hb.2.2⟩
  · exact ⟨hb.1, htouch.1, ha.2.2⟩
  · exact hb

/-- It has nothing that the two do not have. -/
theorem has_of_between {a b m : Span} (htouch : a.Touches b) (hm : Between a b m) {p : ℕ}
    (hp : m.Has p) : a.Has p ∨ b.Has p := by
  obtain ⟨h1, h2⟩ := htouch
  obtain ⟨hl, hr⟩ := hm
  simp only [Has] at hp ⊢
  rcases hl with hl | hl <;> rcases hr with hr | hr <;> omega

/-- It is apart from everything that the two are apart from. -/
theorem apart_of_between {a b c m : Span} (hc : c.left ≤ c.right) (htouch : a.Touches b)
    (hm : Between a b m) (hac : a.Apart c) (hbc : b.Apart c) : m.Apart c := by
  intro hmc
  obtain ⟨hl, hr⟩ := hm
  simp only [Touches, Apart] at *
  rcases hl with hl | hl <;> rcases hr with hr | hr <;> omega

end Span
