import CycloneTcp.Dns.Name

set_option autoImplicit false

/-! # Decoding names

Every name comes to an end: a level of the recursion goes up through the message, and every
compression pointer costs a level. No byte behind the message is read, and a level writes no more
characters than it reads. -/

namespace Dns

open CString

section Reads

variable {message : List UInt8} {pos n : ℕ}

theorem lt_of_getElem? {x : UInt8} (h : message[pos]? = some x) : pos < message.length :=
  (List.getElem?_eq_some_iff.1 h).1

theorem getElem?_lt (h : pos < message.length) : ∃ x, message[pos]? = some x :=
  ⟨_, List.getElem?_eq_getElem h⟩

theorem readBytes_of_le (h : pos + n ≤ message.length) :
    readBytes message pos n = some ((message.drop pos).take n) := if_pos h

theorem length_piece (h : pos + n ≤ message.length) : ((message.drop pos).take n).length = n := by
  rw [List.length_take, List.length_drop]
  omega

end Reads

/-- What has been written when a position is returned: at most `bound` characters, and a NUL behind
them if the name was decoded. -/
def Written (p bound : ℕ) (out : List UInt8) : Prop :=
  ∃ chars, chars.length ≤ bound ∧ (out = chars ++ [0] ∨ p = 0 ∧ out = chars)

/-- A name is decoded: nothing outside the message is read, the position returned is 0 or behind
`pos` and inside the message, and what is written is added to `dest`. -/
def Decodes (message : List UInt8) (pos bound : ℕ) (dest : Option (List UInt8))
    (result : Option (ℕ × Option (List UInt8))) : Prop :=
  ∃ p out, result = some (p, dest.map (· ++ out)) ∧ (p = 0 ∨ pos < p ∧ p ≤ message.length) ∧
    Written p bound out

section Decodes

variable {message : List UInt8} {pos q bound bound' : ℕ} {dest : List UInt8}
  {result : Option (ℕ × Option (List UInt8))} {chars : List UInt8}

theorem Written.mono {p : ℕ} {out : List UInt8} (h : Written p bound out) (hle : bound ≤ bound') :
    Written p bound' out := by
  obtain ⟨chars, hlen, hout⟩ := h
  exact ⟨chars, hlen.trans hle, hout⟩

/-- Decoding goes on behind a label that has been written. -/
theorem Decodes.label (h : Decodes message q bound (some (dest ++ chars)) result) (hpos : pos ≤ q)
    (hle : chars.length + bound ≤ bound') : Decodes message pos bound' (some dest) result := by
  obtain ⟨p, out, rfl, hp, more, hlen, hout⟩ := h
  refine ⟨p, chars ++ out, by simp only [Option.map_some, List.append_assoc], ?_, chars ++ more, ?_,
    ?_⟩
  · exact hp.imp_right fun h => ⟨hpos.trans_lt h.1, h.2⟩
  · rw [List.length_append]
    omega
  · rcases hout with rfl | ⟨hzero, rfl⟩
    · exact .inl (List.append_assoc ..).symm
    · exact .inr ⟨hzero, rfl⟩

/-- Decoding goes on behind a label that is not written. -/
theorem Decodes.skip (h : Decodes message q bound none result) (hpos : pos ≤ q)
    (hle : bound ≤ bound') : Decodes message pos bound' none result := by
  obtain ⟨p, out, rfl, hp, hout⟩ := h
  exact ⟨p, out, rfl, hp.imp_right fun h => ⟨hpos.trans_lt h.1, h.2⟩, hout.mono hle⟩

/-- Nothing is written when decoding fails. -/
theorem decodes_fail (dest : Option (List UInt8)) : Decodes message pos bound dest (some (0, dest)) :=
  ⟨0, [], by cases dest <;> simp, .inl rfl, [], Nat.zero_le _, .inr ⟨rfl, rfl⟩⟩

/-- The string is terminated. -/
theorem decodes_end (dest : Option (List UInt8)) {p : ℕ} (hp : p = 0 ∨ pos < p ∧ p ≤ message.length) :
    Decodes message pos bound dest (some (p, dest.map (· ++ [0]))) :=
  ⟨p, [0], rfl, hp, [], Nat.zero_le _, .inl rfl⟩

end Decodes

section Loop

variable {message : List UInt8} {bound : ℕ}
  {next : ℕ → Option (List UInt8) → Option (ℕ × Option (List UInt8))}

/-- One level: every label takes one byte more than it has characters, which pays for the separator.
-/
theorem parseLoop_decodes (hnext : ∀ p dest, Decodes message p bound dest (next p dest)) (pos : ℕ)
    (dest : Option (List UInt8)) :
    Decodes message pos (message.length - pos + bound) dest (parseLoop message next pos dest) := by
  induction hk : message.length - pos using Nat.strong_induction_on generalizing pos dest with
  | _ k ih =>
      subst hk
      rw [parseLoop]
      split
      swap
      · exact decodes_fail dest
      next hpos =>
        obtain ⟨n, hn⟩ := getElem?_lt hpos
        rw [hn]
        dsimp only
        split_ifs with hzero htag hlow hlabel hlong hmore
        · exact decodes_end dest (.inr ⟨by omega, hpos⟩)
        · exact decodes_fail dest
        · obtain ⟨low, hlow'⟩ := getElem?_lt (Nat.not_le.1 hlow)
          rw [hlow']
          obtain ⟨p, out, hp, -, hout⟩ := hnext (pointer n low) dest
          dsimp only
          rw [hp]
          refine ⟨_, out, rfl, ?_, ?_⟩
          · split
            · exact .inl rfl
            · exact .inr ⟨by omega, by omega⟩
          · split_ifs with hfail
            · rw [← hfail]
              exact hout.mono (by omega)
            · obtain ⟨chars, hlen, h | h⟩ := hout
              · exact ⟨chars, by omega, .inl h⟩
              · exact absurd h.1 hfail
        · exact decodes_fail dest
        · -- a label, and a byte behind it that tells whether to append a separator
          have hle : pos + 1 + n.toNat ≤ message.length := hmore.le
          cases dest with
          | none => exact (ih _ (by omega) _ none rfl).skip (by omega) (by omega)
          | some dest =>
              obtain ⟨c, hc⟩ := getElem?_lt hmore
              have hlen := length_piece hle
              rw [readBytes_of_le hle, hc]
              dsimp only
              rw [List.append_assoc]
              refine (ih _ (by omega) _ _ rfl).label (by omega) ?_
              rw [List.length_append, hlen]
              split <;> simp only [List.length_cons, List.length_nil] <;> omega
        · -- a label that ends where the message ends
          have hle : pos + 1 + n.toNat ≤ message.length := Nat.not_lt.1 hlong
          cases dest with
          | none => exact (ih _ (by omega) _ none rfl).skip (by omega) (by omega)
          | some dest =>
              have hlen := length_piece hle
              rw [readBytes_of_le hle]
              exact (ih _ (by omega) _ _ rfl).label (by omega) (by omega)
        · exact decodes_end dest (.inl rfl)

/-- All levels that are left. -/
theorem parseName_decodes (message : List UInt8) (k pos : ℕ) (dest : Option (List UInt8)) :
    Decodes message pos (k * message.length) dest (parseName message k pos dest) := by
  induction k generalizing pos dest with
  | zero => exact decodes_fail dest
  | succ k ih =>
      obtain ⟨p, out, heq, hp, hout⟩ := parseLoop_decodes ih pos dest
      refine ⟨p, out, heq, hp, hout.mono ?_⟩
      rw [Nat.add_mul, Nat.one_mul]
      omega

end Loop

/-- **Decoding a name stays in the message, and what it writes is bounded.** -/
theorem dnsParseName_decodes (message : List UInt8) (pos : ℕ) (dest : Option (List UInt8))
    (level : ℕ) : Decodes message pos (DNS_NAME_MAX_RECURSION * message.length) dest
      (dnsParseName message pos dest level) := by
  obtain ⟨p, out, heq, hp, hout⟩ :=
    parseName_decodes message (DNS_NAME_MAX_RECURSION - level) pos dest
  exact ⟨p, out, heq, hp, hout.mono (Nat.mul_le_mul_right _ (Nat.sub_le _ _))⟩

end Dns
