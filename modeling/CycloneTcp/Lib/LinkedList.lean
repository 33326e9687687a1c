import Mathlib.Data.List.Nodup
import Mathlib.Logic.Function.Basic

/-! # Linked lists in memory

Nodes at addresses, each with a pointer to the next one. `Chain` says which nodes a pointer leads to;
nodes elsewhere do not matter, and a fresh node can be hung behind the last one. -/

set_option autoImplicit false

namespace LinkedList

variable {A α : Type*}

/-- What a node holds, and the pointer to the next node. -/
structure Node (A α : Type*) where
  value : α
  next : Option A

variable {nodes nodes' : A → Node A α} {pointer : Option A} {xs : List (A × α)}

/-- The pointer leads to these nodes, in this order, and no further. -/
def Chain (nodes : A → Node A α) : Option A → List (A × α) → Prop
  | pointer, [] => pointer = none
  | pointer, (a, x) :: xs => pointer = some a ∧ (nodes a).value = x ∧ Chain nodes (nodes a).next xs

/-- The nodes that a loop comes to. There is no result if the fuel does not last. -/
def follow (nodes : A → Node A α) : ℕ → Option A → Option (List (A × α))
  | _, none => some []
  | 0, some _ => none
  | fuel + 1, some a => (follow nodes fuel (nodes a).next).map ((a, (nodes a).value) :: ·)

/-- The loop comes to the nodes of the chain. -/
theorem Chain.follow (h : Chain nodes pointer xs) {fuel : ℕ} (hfuel : xs.length ≤ fuel) :
    follow nodes fuel pointer = some xs := by
  induction xs generalizing pointer fuel with
  | nil =>
      rw [show pointer = none from h]
      cases fuel <;> rfl
  | cons node xs ih =>
      obtain ⟨rfl, hvalue, hrest⟩ := h
      rw [List.length_cons] at hfuel
      obtain ⟨fuel, rfl⟩ : ∃ k, fuel = k + 1 := ⟨fuel - 1, by omega⟩
      rw [LinkedList.follow, ih hrest (by omega), hvalue]
      rfl

/-- The last node has no next one. -/
theorem Chain.next_last {a : A} {x : α} (h : Chain nodes pointer (xs ++ [(a, x)])) :
    (nodes a).next = none := by
  induction xs generalizing pointer with
  | nil => exact h.2.2
  | cons node xs ih => exact ih h.2.2

variable [DecidableEq A]

/-- Store the pointer to the next node. -/
def setNext (nodes : A → Node A α) (a : A) (next : Option A) : A → Node A α :=
  Function.update nodes a { nodes a with next := next }

theorem setNext_self {a : A} {next : Option A} (h : (nodes a).next = next) :
    setNext nodes a next = nodes := by
  subst h
  exact Function.update_eq_self a nodes

/-- A fresh node is hung behind the last one. -/
theorem Chain.concat {a b : A} {x : α} (h : Chain nodes pointer (xs ++ [(a, x)]))
    (hnodup : ((xs ++ [(a, x)]).map Prod.fst).Nodup) (hb : b ∉ (xs ++ [(a, x)]).map Prod.fst)
    (y : α) :
    Chain (Function.update (setNext nodes a (some b)) b ⟨y, none⟩) pointer
      (xs ++ [(a, x)] ++ [(b, y)]) := by
  induction xs generalizing pointer with
  | nil =>
      obtain ⟨hpointer, hvalue, -⟩ := h
      have hab : a ≠ b := fun hab => hb (hab ▸ List.mem_cons_self ..)
      refine ⟨hpointer, ?_⟩
      rw [Function.update_of_ne hab, setNext, Function.update_self]
      refine ⟨hvalue, rfl, ?_⟩
      rw [Function.update_self]
      exact ⟨rfl, rfl⟩
  | cons node xs ih =>
      obtain ⟨hpointer, hvalue, hrest⟩ := h
      rw [List.cons_append, List.map_cons] at hnodup hb
      obtain ⟨hfirst, hnodup⟩ := List.nodup_cons.1 hnodup
      rw [List.mem_cons, not_or] at hb
      have hna : node.1 ≠ a := fun heq => hfirst (by simp [heq])
      have hsame : Function.update (setNext nodes a (some b)) b ⟨y, none⟩ node.1 = nodes node.1 := by
        rw [Function.update_of_ne (Ne.symm hb.1), setNext, Function.update_of_ne hna]
      refine ⟨hpointer, by rw [hsame]; exact hvalue, ?_⟩
      rw [hsame]
      exact ih hrest hnodup hb.2

end LinkedList
