import CycloneTcp.Lib.Memory

set_option autoImplicit false

/-! # Contents scattered over a memory

A `Region` is a range of addresses. `gather m rs` is the contents of the regions `rs`, one after the
other; it is what a scatter-gather buffer holds. Stores away from all regions do not change it, and
a store inside one region of a family of separate regions replaces one slice of it: `splice`.

## Lists with a slice replaced -/

/-- `xs` with the elements from `o` on replaced by `ys`. -/
def splice {α : Type*} (xs : List α) (o : ℕ) (ys : List α) : List α :=
  xs.take o ++ ys ++ xs.drop (o + ys.length)

section Splice

variable {α : Type*}

@[simp] theorem splice_nil (xs : List α) (o : ℕ) : splice xs o [] = xs := by
  simp [splice]

theorem length_splice {xs ys : List α} {o : ℕ} (h : o + ys.length ≤ xs.length) :
    (splice xs o ys).length = xs.length := by
  simp only [splice, List.length_append, List.length_take, List.length_drop]
  omega

theorem take_splice {xs : List α} {o : ℕ} (h : o ≤ xs.length) (ys : List α) :
    (splice xs o ys).take o = xs.take o := by
  rw [splice, List.append_assoc, List.take_left' (by rw [List.length_take, Nat.min_eq_left h])]

theorem drop_splice {xs : List α} {o : ℕ} (h : o ≤ xs.length) (ys : List α) :
    (splice xs o ys).drop o = ys ++ xs.drop (o + ys.length) := by
  rw [splice, List.append_assoc, List.drop_left' (by rw [List.length_take, Nat.min_eq_left h])]

/-- The slice lies behind the first part. -/
theorem splice_append_right {xs zs ys : List α} {o : ℕ} (h : xs.length ≤ o) :
    splice (xs ++ zs) o ys = xs ++ splice zs (o - xs.length) ys := by
  have hdrop : o + ys.length - xs.length = o - xs.length + ys.length := by omega
  simp only [splice, List.take_append, List.drop_append, List.take_of_length_le h,
    List.drop_eq_nil_of_le (show xs.length ≤ o + ys.length by omega), List.nil_append,
    List.append_assoc, hdrop]

/-- The slice lies in the first part. -/
theorem splice_append_left {xs zs ys : List α} {o : ℕ} (h : o + ys.length ≤ xs.length) :
    splice (xs ++ zs) o ys = splice xs o ys ++ zs := by
  simp only [splice, List.take_append_of_le_length (show o ≤ xs.length by omega),
    List.drop_append_of_le_length h, List.append_assoc]

/-- The slice crosses from the first part into the second. -/
theorem splice_append_cross {xs zs ys ys' : List α} {o : ℕ} (h : o + ys.length = xs.length) :
    splice (xs ++ zs) o (ys ++ ys') = splice xs o ys ++ splice zs 0 ys' := by
  have hdrop : o + (ys ++ ys').length = xs.length + ys'.length := by
    rw [List.length_append]
    omega
  simp only [splice, hdrop, List.drop_append, h, List.drop_length, List.take_zero,
    List.take_append_of_le_length (show o ≤ xs.length by omega), List.nil_append,
    List.append_nil, List.append_assoc, Nat.add_sub_cancel_left, Nat.zero_add,
    List.drop_eq_nil_of_le (show xs.length ≤ xs.length + ys'.length by omega)]

/-- Adjacent slices. -/
theorem splice_splice {xs ys ys' : List α} {o : ℕ} (h : o + ys.length ≤ xs.length) :
    splice (splice xs o ys) (o + ys.length) ys' = splice xs o (ys ++ ys') := by
  have htake : (xs.take o ++ ys).length = o + ys.length := by
    rw [List.length_append, List.length_take]
    omega
  simp only [splice]
  rw [List.take_left' htake, List.drop_append, htake, Nat.add_sub_cancel_left,
    List.drop_eq_nil_of_le (by omega), List.drop_drop, List.length_append, Nat.add_assoc]
  simp only [List.nil_append, List.append_assoc]

end Splice

/-! ## Regions -/

/-- The addresses `start`, …, `start + len - 1`. -/
structure Region where
  start : ℕ
  len : ℕ

namespace Region

variable {α : Type*}

/-- The address lies in the region. -/
def Has (r : Region) (a : ℕ) : Prop := r.start ≤ a ∧ a < r.start + r.len

/-- No address lies in both. -/
def Apart (r r' : Region) : Prop := ∀ a, r.Has a → ¬ r'.Has a

theorem Apart.symm {r r' : Region} (h : r.Apart r') : r'.Apart r := fun a ha ha' => h a ha' ha

/-- A part of a region apart is apart. -/
theorem Apart.part {r r' : Region} (h : r.Apart r') {p n : ℕ} (hp : r.start ≤ p)
    (hn : p + n ≤ r.start + r.len) : Apart ⟨p, n⟩ r' := by
  rintro a ⟨h1, h2⟩
  simp only at h1 h2
  exact h a ⟨by omega, by omega⟩

/-- The contents of a region. -/
def contents (m : Memory α) (r : Region) : List α := m.read r.start r.len

@[simp] theorem length_contents (m : Memory α) (r : Region) : (contents m r).length = r.len := by
  simp [contents]

theorem contents_congr {m m' : Memory α} {r : Region} (h : ∀ a, r.Has a → m' a = m a) :
    contents m' r = contents m r :=
  Memory.read_congr fun i hi => h _ ⟨by omega, by omega⟩

/-- The store at `p` reaches only the addresses of its own region. -/
theorem write_of_not_has {m : Memory α} {p : ℕ} {xs : List α} {a : ℕ}
    (h : ¬ Has ⟨p, xs.length⟩ a) : m.write p xs a = m a := dif_neg h

theorem contents_write_of_apart {m : Memory α} {p : ℕ} {xs : List α} {r : Region}
    (h : Apart ⟨p, xs.length⟩ r) : contents (m.write p xs) r = contents m r :=
  contents_congr fun a ha => write_of_not_has fun hp => h a hp ha

theorem read_write_of_apart {m : Memory α} {p q n : ℕ} {xs : List α}
    (h : Apart ⟨p, xs.length⟩ ⟨q, n⟩) : (m.write p xs).read q n = m.read q n :=
  contents_write_of_apart h

/-- A store inside the region replaces a slice of its contents. -/
theorem contents_write {m : Memory α} {xs : List α} {r : Region} {o : ℕ}
    (h : o + xs.length ≤ r.len) :
    contents (m.write (r.start + o) xs) r = splice (contents m r) o xs := by
  obtain ⟨rest, hrest⟩ := Nat.exists_eq_add_of_le h
  simp only [contents, splice]
  rw [hrest, Memory.read_add, Memory.read_add, Memory.read_write_of_le _ _ le_rfl,
    Memory.read_write_self, Memory.read_write_of_ge _ _ (by omega), Memory.take_read _ _ (by omega),
    Memory.drop_read _ _ (by omega), Nat.add_sub_cancel_left]

end Region

open Region

/-- The contents of regions, one after the other. -/
def gather {α : Type*} (m : Memory α) (rs : List Region) : List α := rs.flatMap (contents m)

section Gather

variable {α : Type*} {m m' : Memory α} {rs : List Region} {r : Region}

@[simp] theorem gather_nil (m : Memory α) : gather m [] = [] := rfl

@[simp] theorem gather_cons (m : Memory α) (r : Region) (rs : List Region) :
    gather m (r :: rs) = contents m r ++ gather m rs := rfl

theorem gather_append (m : Memory α) (rs rs' : List Region) :
    gather m (rs ++ rs') = gather m rs ++ gather m rs' := List.flatMap_append

theorem gather_congr (h : ∀ r ∈ rs, ∀ a, r.Has a → m' a = m a) : gather m' rs = gather m rs := by
  induction rs with
  | nil => rfl
  | cons r rs ih =>
      rw [gather_cons, gather_cons, contents_congr (h r (List.mem_cons_self ..)),
        ih fun r' hr' => h r' (List.mem_cons_of_mem _ hr')]

/-- A store apart from all regions. -/
theorem gather_write_of_apart {p : ℕ} {xs : List α} (h : ∀ r ∈ rs, Apart ⟨p, xs.length⟩ r) :
    gather (m.write p xs) rs = gather m rs :=
  gather_congr fun r hr a ha => write_of_not_has fun hp => h r hr a hp ha

/-- The regions of a list are pairwise apart. -/
def Separate (rs : List Region) : Prop := rs.Pairwise Apart

/-- Every region of one list is apart from every region of the other. -/
def ApartAll (rs rs' : List Region) : Prop := ∀ r ∈ rs, ∀ r' ∈ rs', r.Apart r'

/-- The memories agree outside the regions. -/
def SameOutside (rs : List Region) (m m' : Memory α) : Prop :=
  ∀ a, (∀ r ∈ rs, ¬ r.Has a) → m' a = m a

theorem SameOutside.refl (rs : List Region) (m : Memory α) : SameOutside rs m m := fun _ _ => rfl

theorem SameOutside.trans {m'' : Memory α} (h : SameOutside rs m m') (h' : SameOutside rs m' m'') :
    SameOutside rs m m'' := fun a ha => (h' a ha).trans (h a ha)

theorem SameOutside.cons (h : SameOutside rs m m') : SameOutside (r :: rs) m m' :=
  fun a ha => h a fun r' hr' => ha r' (List.mem_cons_of_mem _ hr')

/-- A store inside the first region. -/
theorem sameOutside_write {o : ℕ} {xs : List α} (h : o + xs.length ≤ r.len) :
    SameOutside (r :: rs) m (m.write (r.start + o) xs) := by
  intro a ha
  apply write_of_not_has
  rintro ⟨h1, h2⟩
  simp only at h1 h2
  exact ha r (List.mem_cons_self ..) ⟨by omega, by omega⟩

/-- What is apart from the changed regions keeps its contents. -/
theorem SameOutside.gather_eq {rs' : List Region} (h : SameOutside rs m m')
    (hap : ApartAll rs rs') : gather m' rs' = gather m rs' :=
  gather_congr fun r hr a ha => h a fun r' hr' ha' => hap r' hr' r hr a ha' ha

theorem SameOutside.contents_eq (h : SameOutside rs m m') (hap : ∀ r' ∈ rs, r'.Apart r) :
    contents m' r = contents m r :=
  contents_congr fun a ha => h a fun r' hr' ha' => hap r' hr' a ha' ha

end Gather

/-! ## Storing into separate regions one after the other -/

section Scatter

variable {α : Type*} {m m' : Memory α} {rs : List Region} {r : Region} {o : ℕ} {xs ys : List α}

theorem gather_write_tail (hsep : Separate (r :: rs)) (hxs : o + xs.length ≤ r.len) :
    gather (m.write (r.start + o) xs) rs = gather m rs := by
  apply gather_write_of_apart
  intro r' hr'
  exact ((List.pairwise_cons.1 hsep).1 r' hr').part (by omega) (by omega)

/-- A store inside the first region replaces a slice of the contents of all. -/
theorem gather_write (hsep : Separate (r :: rs)) (hxs : o + xs.length ≤ r.len) :
    gather (m.write (r.start + o) xs) (r :: rs) = splice (gather m (r :: rs)) o xs := by
  rw [gather_cons, contents_write hxs, gather_write_tail hsep hxs, gather_cons,
    splice_append_left (by simpa using hxs)]

/-- A store into the first region, followed by stores into the others from their beginning on. -/
theorem scatter_next (hsep : Separate (r :: rs)) (hxs : o + xs.length ≤ r.len)
    (hfull : o + xs.length = r.len ∨ ys = [])
    (hm' : gather m' rs = splice (gather (m.write (r.start + o) xs) rs) 0 ys)
    (hout : SameOutside rs (m.write (r.start + o) xs) m') :
    gather m' (r :: rs) = splice (gather m (r :: rs)) o (xs ++ ys) ∧
      SameOutside (r :: rs) m m' := by
  refine ⟨?_, (sameOutside_write hxs).trans hout.cons⟩
  have hfirst : contents m' r = splice (contents m r) o xs := by
    rw [hout.contents_eq fun r' hr' => ((List.pairwise_cons.1 hsep).1 r' hr').symm,
      contents_write hxs]
  rw [gather_cons, hfirst, hm', gather_write_tail hsep hxs, gather_cons]
  rcases hfull with hfull | rfl
  · rw [splice_append_cross (by simpa using hfull)]
  · rw [splice_nil, List.append_nil, splice_append_left (by simpa using hxs)]

/-- A store into the first region, followed by stores that go on behind it. -/
theorem scatter_same (hsep : Separate (r :: rs)) (hxs : o + xs.length ≤ r.len)
    (hm' : gather m' (r :: rs)
      = splice (gather (m.write (r.start + o) xs) (r :: rs)) (o + xs.length) ys)
    (hout : SameOutside (r :: rs) (m.write (r.start + o) xs) m') :
    gather m' (r :: rs) = splice (gather m (r :: rs)) o (xs ++ ys) ∧
      SameOutside (r :: rs) m m' := by
  refine ⟨?_, (sameOutside_write hxs).trans hout⟩
  rw [hm', gather_write hsep hxs, splice_splice]
  rw [gather_cons, List.length_append, length_contents]
  omega

end Scatter
