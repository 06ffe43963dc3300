/-
  FrameGraph.Proofs.Document.Identifiers: written identifiers read back (`parse?_hyphenated`).

  Thirty-two hexadecimal digits hold 128 bits. The hyphens stand at four places of their own and
  are no digits, so taking them out leaves the digits in their order.
-/

import Mathlib.Algebra.Group.Nat.Defs
import FrameGraph.Uuid

namespace FrameGraph.Uuid

/-! ## Digits -/

theorem hexValue?_hexDigit : ∀ n < 16, hexValue? (hexDigit n) = some n := by decide

theorem hexDigit_plain : ∀ n < 16, hexDigit n ≠ '-' ∧ hexDigit n ≠ '\x7b' ∧ (hexDigit n).toLower ≠ 'u' := by
  decide

theorem length_hexDigits (count n : Nat) : (hexDigits count n).length = count := by
  induction count generalizing n with
  | zero => rfl
  | succ count ih => simp [hexDigits, ih]

theorem mem_hexDigits {count n : Nat} {c : Char} (h : c ∈ hexDigits count n) : ∃ d < 16, c = hexDigit d := by
  induction count generalizing n with
  | zero => cases h
  | succ count ih =>
    rcases List.mem_append.1 h with h | h
    · exact ih h
    · exact ⟨n % 16, Nat.mod_lt _ (by decide), List.mem_singleton.1 h⟩

/-- Digits read back as what they were written for, up to the room that they have. -/
theorem read_hexDigits (count n : Nat) : ∃ digits, (hexDigits count n).mapM hexValue? = some digits
    ∧ digits.foldl (fun n d => n * 16 + d) 0 = n % 16 ^ count := by
  induction count generalizing n with
  | zero => exact ⟨[], rfl, by simp [Nat.mod_one]⟩
  | succ count ih =>
    obtain ⟨digits, read, value⟩ := ih (n / 16)
    refine ⟨digits ++ [n % 16], ?_, ?_⟩
    · simp [hexDigits, List.mapM_append, read, hexValue?_hexDigit (n % 16) (Nat.mod_lt _ (by decide))]
    · rw [List.foldl_append, value, Nat.pow_succ, Nat.mul_comm (16 ^ count), Nat.mod_mul]
      simp only [List.foldl_cons, List.foldl_nil]
      omega

theorem ofHex?_hexDigits (u : Uuid) : ofHex? (hexDigits 32 u.bits.toNat) = some u := by
  obtain ⟨digits, read, value⟩ := read_hexDigits 32 u.bits.toNat
  have room : u.bits.toNat % 16 ^ 32 = u.bits.toNat := Nat.mod_eq_of_lt u.bits.isLt
  rw [room] at value
  simp [ofHex?, read, value]

/-! ## Hyphens -/

/-- Five groups of digits with hyphens between them. -/
theorem ofHyphenated?_groups {a b c d e : List Char} (ha : a.length = 8) (hb : b.length = 4)
    (hc : c.length = 4) (hd : d.length = 4) (he : e.length = 12)
    (digits : ∀ x ∈ a ++ b ++ c ++ d ++ e, x ≠ '-') :
    ofHyphenated? (a ++ '-' :: (b ++ '-' :: (c ++ '-' :: (d ++ '-' :: e)))) = ofHex? (a ++ b ++ c ++ d ++ e) := by
  have none : ∀ l : List Char, (∀ x ∈ l, x ≠ '-') → l.count '-' = 0 ∧ l.filter (· != '-') = l := by
    intro l h
    refine ⟨List.count_eq_zero.2 fun hx => h _ hx rfl, List.filter_eq_self.2 fun x hx => ?_⟩
    simpa using h x hx
  obtain ⟨ca, fa⟩ := none a fun x hx => digits x (by simp [hx])
  obtain ⟨cb, fb⟩ := none b fun x hx => digits x (by simp [hx])
  obtain ⟨cc, fc⟩ := none c fun x hx => digits x (by simp [hx])
  obtain ⟨cd, fd⟩ := none d fun x hx => digits x (by simp [hx])
  obtain ⟨ce, fe⟩ := none e fun x hx => digits x (by simp [hx])
  have length : (a ++ '-' :: (b ++ '-' :: (c ++ '-' :: (d ++ '-' :: e)))).length = 36 := by
    simp [ha, hb, hc, hd, he]
  have count : (a ++ '-' :: (b ++ '-' :: (c ++ '-' :: (d ++ '-' :: e)))).count '-' = 4 := by
    simp [List.count_append, ca, cb, cc, cd, ce]
  have places : ([8, 13, 18, 23].all fun i =>
      (a ++ '-' :: (b ++ '-' :: (c ++ '-' :: (d ++ '-' :: e))))[i]? == some '-') = true := by
    simp [List.getElem?_append_right, ha, hb, hc, hd]
  rw [ofHyphenated?, if_pos ⟨length, places, count⟩]
  simp [List.filter_append, fa, fb, fc, fd, fe]

theorem hyphenated_toList (u : Uuid) : ∃ a b c d e : List Char, a.length = 8 ∧ b.length = 4 ∧ c.length = 4
    ∧ d.length = 4 ∧ e.length = 12 ∧ a ++ b ++ c ++ d ++ e = hexDigits 32 u.bits.toNat
    ∧ u.hyphenated.toList = a ++ '-' :: (b ++ '-' :: (c ++ '-' :: (d ++ '-' :: e))) := by
  have length := length_hexDigits 32 u.bits.toNat
  refine ⟨(hexDigits 32 u.bits.toNat).take 8, ((hexDigits 32 u.bits.toNat).drop 8).take 4,
    (((hexDigits 32 u.bits.toNat).drop 8).drop 4).take 4,
    ((((hexDigits 32 u.bits.toNat).drop 8).drop 4).drop 4).take 4,
    (((((hexDigits 32 u.bits.toNat).drop 8).drop 4).drop 4).drop 4).take 12, ?_, ?_, ?_, ?_, ?_, ?_, ?_⟩
  · simp [length]
  · simp [length]
  · simp [length]
  · simp [length]
  · simp [length]
  · have whole : (((((hexDigits 32 u.bits.toNat).drop 8).drop 4).drop 4).drop 4).take 12
        = ((((hexDigits 32 u.bits.toNat).drop 8).drop 4).drop 4).drop 4 :=
      List.take_of_length_le (by simp [length])
    rw [whole]
    simp only [List.append_assoc, List.take_append_drop]
  · simp [hyphenated, cut, groups, List.intercalate, List.intersperse]

theorem parse?_hyphenated (u : Uuid) : parse? u.hyphenated = some u := by
  obtain ⟨a, b, c, d, e, ha, hb, hc, hd, he, whole, written⟩ := hyphenated_toList u
  have digits : ∀ x ∈ a ++ b ++ c ++ d ++ e, x ≠ '-' := by
    intro x hx
    rw [whole] at hx
    obtain ⟨n, small, rfl⟩ := mem_hexDigits hx
    exact (hexDigit_plain n small).1
  obtain ⟨x, rest, rfl⟩ := List.exists_cons_of_length_eq_add_one ha
  have first : x ∈ hexDigits 32 u.bits.toNat := by
    rw [← whole]
    simp
  obtain ⟨n, small, rfl⟩ := mem_hexDigits first
  obtain ⟨-, open_, lower⟩ := hexDigit_plain n small
  simp only [parse?, written]
  rw [if_neg (by simp [hb, hc, hd, he]; simp at ha; omega), if_neg (by simp [open_]),
    if_neg (by simp [urn, lower]), ofHyphenated?_groups ha hb hc hd he digits, whole, ofHex?_hexDigits]

end FrameGraph.Uuid
