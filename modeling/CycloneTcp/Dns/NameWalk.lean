import CycloneTcp.Dns.NameParse

set_option autoImplicit false

/-! # Reading names

An encoded name is read as labels and the compression pointers that are followed between them.
`Encoded` says which names are well formed; `readName` is how far any message can be read, and what
stands there. -/

namespace Dns

open CString

/-! ## Well-formed names -/

/-- What is met on the way through an encoded name. -/
inductive Step where
  | label (chars : List UInt8)
  | hop
  deriving DecidableEq

/-- The name that is encoded at a position is well formed: labels of 1 to 63 bytes and compression
pointers inside the message, and a zero octet at the end. -/
inductive Encoded (message : List UInt8) : ℕ → List Step → Prop
  | root {pos : ℕ} (h : message[pos]? = some 0) : Encoded message pos []
  | label {pos : ℕ} {n : UInt8} {steps : List Step} (hn : message[pos]? = some n)
      (hpos : 1 ≤ n.toNat) (hmax : n.toNat ≤ DNS_LABEL_MAX_SIZE)
      (hin : pos + 1 + n.toNat ≤ message.length)
      (hrest : Encoded message (pos + 1 + n.toNat) steps) :
      Encoded message pos (.label ((message.drop (pos + 1)).take n.toNat) :: steps)
  | hop {pos : ℕ} {n low : UInt8} {steps : List Step} (hn : message[pos]? = some n)
      (htag : DNS_COMPRESSION_TAG ≤ n) (hlow : message[pos + 1]? = some low)
      (hrest : Encoded message (pointer n low) steps) : Encoded message pos (.hop :: steps)

/-- The label sequence of a name. -/
def labelsOf : List Step → List (List UInt8)
  | [] => []
  | .label chars :: steps => chars :: labelsOf steps
  | .hop :: steps => labelsOf steps

/-- The number of compression pointers that are followed. -/
def hops : List Step → ℕ
  | [] => 0
  | .label _ :: steps => hops steps
  | .hop :: steps => hops steps + 1

/-- The name at `pos` is well formed, and `ls` is its label sequence. -/
def NameAt (message : List UInt8) (pos : ℕ) (ls : List (List UInt8)) : Prop :=
  ∃ steps, Encoded message pos steps ∧ hops steps ≤ DNS_NAME_MAX_RECURSION - 1 ∧
    labelsOf steps = ls

/-! ## Any name -/

/-- What stands behind the last label that can be read: the zero octet, a compression pointer that
the message cuts off, or anything else that ends the name too early. -/
inductive NameEnd where
  | root
  | cut
  | malformed
  deriving DecidableEq

/-- The labels up to the next compression pointer, of up to 191 bytes. -/
def readLoop (message : List UInt8) (next : ℕ → List (List UInt8) × NameEnd) (pos : ℕ) :
    List (List UInt8) × NameEnd :=
  if _h : pos < message.length then
    match message[pos]? with
    | none => ([], .malformed)
    | some n =>
        if n = 0 then ([], .root)
        else if DNS_COMPRESSION_TAG ≤ n then
          match message[pos + 1]? with
          | none => ([], .cut)
          | some low => next (pointer n low)
        else if message.length < pos + 1 + n.toNat then ([], .malformed)
        else
          let rest := readLoop message next (pos + 1 + n.toNat)
          ((message.drop (pos + 1)).take n.toNat :: rest.1, rest.2)
  else ([], .malformed)
termination_by message.length - pos

/-- The labels of the name at a position, if at most `k - 1` pointers are followed, and how it ends.
-/
def readName (message : List UInt8) : ℕ → ℕ → List (List UInt8) × NameEnd
  | 0, _ => ([], .malformed)
  | k + 1, pos => readLoop message (readName message k) pos

section ReadLoop

variable {message : List UInt8} {next : ℕ → List (List UInt8) × NameEnd} {pos : ℕ} {n low : UInt8}

theorem readLoop_of_ge (h : message.length ≤ pos) :
    readLoop message next pos = ([], .malformed) := by
  rw [readLoop, dif_neg (Nat.not_lt.2 h)]

theorem readLoop_root (hn : message[pos]? = some 0) : readLoop message next pos = ([], .root) := by
  rw [readLoop, dif_pos (lt_of_getElem? hn), hn]
  exact if_pos rfl

theorem tag_ne_zero (h : DNS_COMPRESSION_TAG ≤ n) : n ≠ 0 := by
  rintro rfl
  exact absurd h (by decide)

theorem readLoop_hop (hn : message[pos]? = some n) (htag : DNS_COMPRESSION_TAG ≤ n)
    (hlow : message[pos + 1]? = some low) :
    readLoop message next pos = next (pointer n low) := by
  rw [readLoop, dif_pos (lt_of_getElem? hn), hn]
  dsimp only
  rw [if_neg (tag_ne_zero htag), if_pos htag, hlow]

theorem readLoop_cut (hn : message[pos]? = some n) (htag : DNS_COMPRESSION_TAG ≤ n)
    (hlow : message[pos + 1]? = none) : readLoop message next pos = ([], .cut) := by
  rw [readLoop, dif_pos (lt_of_getElem? hn), hn]
  dsimp only
  rw [if_neg (tag_ne_zero htag), if_pos htag, hlow]

theorem readLoop_long (hn : message[pos]? = some n) (hzero : n ≠ 0)
    (htag : ¬ DNS_COMPRESSION_TAG ≤ n) (hlong : message.length < pos + 1 + n.toNat) :
    readLoop message next pos = ([], .malformed) := by
  rw [readLoop, dif_pos (lt_of_getElem? hn), hn]
  dsimp only
  rw [if_neg hzero, if_neg htag, if_pos hlong]

theorem readLoop_label (hn : message[pos]? = some n) (hzero : n ≠ 0)
    (htag : ¬ DNS_COMPRESSION_TAG ≤ n) (hin : pos + 1 + n.toNat ≤ message.length) :
    readLoop message next pos =
      ((message.drop (pos + 1)).take n.toNat :: (readLoop message next (pos + 1 + n.toNat)).1,
        (readLoop message next (pos + 1 + n.toNat)).2) := by
  rw [readLoop, dif_pos (lt_of_getElem? hn), hn]
  dsimp only
  rw [if_neg hzero, if_neg htag, if_neg (Nat.not_lt.2 hin)]

/-- What one round of the loop meets. -/
theorem loop_cases (message : List UInt8) (pos : ℕ) : message.length ≤ pos ∨
    message[pos]? = some 0 ∨
    (∃ n, message[pos]? = some n ∧ DNS_COMPRESSION_TAG ≤ n ∧ message[pos + 1]? = none) ∨
    (∃ n low, message[pos]? = some n ∧ DNS_COMPRESSION_TAG ≤ n ∧ message[pos + 1]? = some low) ∨
    (∃ n, message[pos]? = some n ∧ n ≠ 0 ∧ ¬ DNS_COMPRESSION_TAG ≤ n ∧
      message.length < pos + 1 + n.toNat) ∨
    ∃ n, message[pos]? = some n ∧ n ≠ 0 ∧ ¬ DNS_COMPRESSION_TAG ≤ n ∧
      pos + 1 + n.toNat ≤ message.length := by
  rcases Nat.lt_or_ge pos message.length with hpos | hpos
  swap
  · exact .inl hpos
  refine .inr ?_
  obtain ⟨n, hn⟩ := getElem?_lt hpos
  by_cases hzero : n = 0
  · exact .inl (hzero ▸ hn)
  refine .inr ?_
  by_cases htag : DNS_COMPRESSION_TAG ≤ n
  · cases hlow : message[pos + 1]? with
    | none => exact .inl ⟨n, hn, htag, rfl⟩
    | some low => exact .inr (.inl ⟨n, low, hn, htag, rfl⟩)
  refine .inr (.inr ?_)
  rcases Nat.lt_or_ge message.length (pos + 1 + n.toNat) with hlong | hin
  · exact .inl ⟨n, hn, hzero, htag, hlong⟩
  · exact .inr ⟨n, hn, hzero, htag, hin⟩

theorem one_le_toNat (hzero : n ≠ 0) : 1 ≤ n.toNat :=
  Nat.one_le_iff_ne_zero.2 fun h => hzero (UInt8.toNat_inj.1 h)

theorem not_tag_of_le (h : n.toNat ≤ DNS_LABEL_MAX_SIZE) : ¬ DNS_COMPRESSION_TAG ≤ n := fun htag => by
  have h192 : 192 ≤ n.toNat := UInt8.le_iff_toNat_le.1 htag
  have h63 : n.toNat ≤ 63 := h
  omega

/-- A well-formed name is read to its end. -/
theorem Encoded.readLoop {steps : List Step} (h : Encoded message pos steps)
    (hnext : ∀ p rest, Encoded message p rest → hops rest < hops steps →
      next p = (labelsOf rest, .root)) :
    Dns.readLoop message next pos = (labelsOf steps, .root) := by
  induction h with
  | root h => exact readLoop_root h
  | label hn hpos hmax hin hrest ih =>
      rw [readLoop_label hn (fun h0 => by simp [h0] at hpos) (not_tag_of_le hmax) hin, ih hnext]
      rfl
  | hop hn htag hlow hrest ih =>
      rw [readLoop_hop hn htag hlow]
      have hread := hnext _ _ hrest (Nat.lt_succ_self _)
      exact hread

/-- What is read to its end is well formed if its labels are not too long. -/
theorem encoded_of_readLoop {ls : List (List UInt8)} {k : ℕ}
    (hnext : ∀ p ls, next p = (ls, .root) → (∀ l ∈ ls, LabelOk l) →
      ∃ steps, Encoded message p steps ∧ hops steps < k ∧ labelsOf steps = ls)
    (hread : Dns.readLoop message next pos = (ls, .root)) (hok : ∀ l ∈ ls, LabelOk l) :
    ∃ steps, Encoded message pos steps ∧ hops steps < k + 1 ∧ labelsOf steps = ls := by
  induction hm : message.length - pos using Nat.strong_induction_on generalizing pos ls with
  | _ m ih =>
      subst hm
      rcases loop_cases message pos with hpos | hroot | ⟨n, hn, htag, hlow⟩ |
        ⟨n, low, hn, htag, hlow⟩ | ⟨n, hn, hzero, htag, hlong⟩ | ⟨n, hn, hzero, htag, hin⟩
      · rw [readLoop_of_ge hpos] at hread
        cases hread
      · rw [readLoop_root hroot] at hread
        cases hread
        exact ⟨[], .root hroot, Nat.succ_pos _, rfl⟩
      · rw [readLoop_cut hn htag hlow] at hread
        cases hread
      · rw [readLoop_hop hn htag hlow] at hread
        obtain ⟨steps, henc, hlt, rfl⟩ := hnext _ _ hread hok
        exact ⟨.hop :: steps, .hop hn htag hlow henc, Nat.succ_lt_succ hlt, rfl⟩
      · rw [readLoop_long hn hzero htag hlong] at hread
        cases hread
      · rw [readLoop_label hn hzero htag hin] at hread
        obtain ⟨hls, hend⟩ := Prod.mk.inj hread
        subst hls
        have hlabel := hok _ List.mem_cons_self
        have hlen := length_piece hin
        rw [LabelOk, hlen] at hlabel
        have hlt : pos < message.length := lt_of_getElem? hn
        obtain ⟨steps, henc, hlt, hls⟩ := ih _ (by omega) (Prod.ext rfl hend)
          (fun l hl => hok l (List.mem_cons_of_mem _ hl)) rfl
        exact ⟨_, .label hn hlabel.1 hlabel.2 hin henc, hlt, by rw [labelsOf, hls]⟩

end ReadLoop

section ReadName

variable {message : List UInt8} {pos k : ℕ}

theorem Encoded.readName {steps : List Step} (h : Encoded message pos steps) (hk : hops steps < k) :
    Dns.readName message k pos = (labelsOf steps, .root) := by
  induction k generalizing pos steps with
  | zero => exact absurd hk (Nat.not_lt_zero _)
  | succ k ih => exact h.readLoop fun p rest hrest hlt => ih hrest (by omega)

theorem encoded_of_readName {ls : List (List UInt8)} (hread : Dns.readName message k pos = (ls, .root))
    (hok : ∀ l ∈ ls, LabelOk l) :
    ∃ steps, Encoded message pos steps ∧ hops steps < k ∧ labelsOf steps = ls := by
  induction k generalizing pos ls with
  | zero => cases hread
  | succ k ih => exact encoded_of_readLoop (fun p ls => ih) hread hok

/-- The labels of a well-formed name have the right lengths. -/
theorem Encoded.labelOk {steps : List Step} (h : Encoded message pos steps) :
    ∀ l ∈ labelsOf steps, LabelOk l := by
  induction h with
  | root _ => exact fun l hl => absurd hl List.not_mem_nil
  | label hn hpos hmax hin _ ih =>
      intro l hl
      rcases List.mem_cons.1 hl with rfl | hl
      · rw [LabelOk, length_piece hin]
        exact ⟨hpos, hmax⟩
      · exact ih l hl
  | hop _ _ _ _ ih => exact ih

/-- **A name is well formed if it can be read to its end and its labels are not too long.** -/
theorem nameAt_iff {ls : List (List UInt8)} : NameAt message pos ls ↔
    readName message DNS_NAME_MAX_RECURSION pos = (ls, .root) ∧ ∀ l ∈ ls, LabelOk l := by
  constructor
  · rintro ⟨steps, henc, hle, rfl⟩
    exact ⟨henc.readName (Nat.lt_of_le_pred (by decide) hle), henc.labelOk⟩
  · rintro ⟨hread, hok⟩
    obtain ⟨steps, henc, hlt, hls⟩ := encoded_of_readName hread hok
    exact ⟨steps, henc, Nat.le_pred_of_lt hlt, hls⟩

end ReadName

end Dns
