/-
  FrameGraph.Proofs.Notation.Quotes: quoted text reads back.

  Each character, escaped or not, reads as itself and leaves what follows it (`body_escape`). A
  code point has six hexadecimal digits at most, as many as a reader looks at before the brace.
-/

import FrameGraph.Proofs.Notation.Digits
import FrameGraph.Ron.Quoted
import FrameGraph.Text.Writing

namespace FrameGraph.Ron.Quoted

/-! ## Code points -/

theorem hexValue?_digitChar : ∀ d < 16, Uuid.hexValue? d.digitChar = some d := by decide

theorem digitChar_ne_brace : ∀ d < 16, d.digitChar ≠ '\x7d' := by decide

theorem codePoint_digits (c : Char) : (Nat.toDigits 16 c.toNat).length ≤ 6 := by
  have bound : c.toNat < 1114112 := by
    have valid : c.toNat.isValidChar := c.valid
    unfold Nat.isValidChar at valid
    omega
  rw [Nat.length_toDigits_le_iff (by decide) (by decide)]
  exact Nat.lt_of_lt_of_le bound (by decide)

theorem codePoint?_toDigits (c : Char) (cs : List Char) :
    codePoint? (Nat.toDigits 16 c.toNat ++ '\x7d' :: cs) = some (c, cs) := by
  have short := codePoint_digits c
  have apart : ∀ d ∈ Nat.toDigits 16 c.toNat, (d != '\x7d') = true := by
    intro d hd
    obtain ⟨value, small, rfl⟩ := digit_of_mem (by decide) hd
    exact bne_iff_ne.2 (digitChar_ne_brace value small)
  have seen : (Nat.toDigits 16 c.toNat ++ '\x7d' :: cs).take 6
      = Nat.toDigits 16 c.toNat ++ ('\x7d' :: cs).take (6 - (Nat.toDigits 16 c.toNat).length) := by
    rw [List.take_append, List.take_of_length_le short]
  have ends : ∀ d, (('\x7d' :: cs).take (6 - (Nat.toDigits 16 c.toNat).length)).head? = some d →
      (d != '\x7d') = false := by
    intro d head
    cases room : 6 - (Nat.toDigits 16 c.toNat).length with
    | zero => simp [room] at head
    | succ k =>
      rw [room] at head
      cases head
      rfl
  have digits := (Decimal.takeWhile_run (· != '\x7d') _ _ apart ends).1
  obtain ⟨values, read, value⟩ := digits_read (by decide) hexValue?_digitChar c.toNat
  have scalar : scalar? c.toNat = some c := by
    have valid : c.toNat.isValidChar := c.valid
    simp [scalar?, valid]
  have some : (Nat.toDigits 16 c.toNat).isEmpty = false := by simp
  simp only [codePoint?, seen, digits, List.drop_left, some, Bool.false_eq_true, if_false, read, Option.bind_some,
    value, scalar, Option.map_some]

/-! ## Texts -/

theorem body_escaped {content : Content} {cs after : List Char} {e : Char} (h : escape? content cs = some (e, after)) :
    body content ('\\' :: cs) = (body content after).map fun r => (e :: r.1, r.2) := by
  rw [body]
  split
  · rename_i none
    rw [h] at none
    cases none
  · rename_i found
    rw [h] at found
    cases found
    rfl

theorem body_plain {content : Content} {c : Char} (quote : c ≠ '"') (backslash : c ≠ '\\') (cs : List Char) :
    body content (c :: cs) = (body content cs).map fun r => (c :: r.1, r.2) := by
  rw [body]
  · exact quote
  · exact backslash

/-- A written character reads as itself. -/
theorem body_escape (c : Char) (cs : List Char) :
    body .text (Text.escape c ++ cs) = (body .text cs).map fun r => (c :: r.1, r.2) := by
  unfold Text.escape
  by_cases simple : c = '\x00' ∨ c = '\t' ∨ c = '\r' ∨ c = '\n' ∨ c = '\'' ∨ c = '"' ∨ c = '\\'
  · rcases simple with rfl | rfl | rfl | rfl | rfl | rfl | rfl
    all_goals exact body_escaped rfl
  · simp only [not_or] at simple
    obtain ⟨nul, tab, back, line, apostrophe, quote, backslash⟩ := simple
    simp only [nul, tab, back, line, apostrophe, quote, backslash, if_false]
    split
    · exact body_plain quote backslash cs
    · have read : escape? .text ('u' :: '\x7b' :: (Nat.toDigits 16 c.toNat ++ '\x7d' :: cs)) = some (c, cs) :=
        codePoint?_toDigits c cs
      simp only [Text.codePointEscape, List.append_assoc, List.cons_append, List.nil_append]
      exact body_escaped read

theorem body_quoted (cs rest : List Char) :
    body .text (cs.flatMap Text.escape ++ '"' :: rest) = .ok (cs, rest) := by
  induction cs with
  | nil => rw [List.flatMap_nil, List.nil_append, body]
  | cons c cs ih => rw [List.flatMap_cons, List.append_assoc, body_escape, ih, Except.map]

/-- Quoted text reads back, whatever follows it. -/
theorem text_quoted (s : String) (rest : List Char) :
    text ((Text.quoted s).toList ++ rest) = .ok (s.toList, rest) := by
  rw [Text.quoted, String.toList_ofList, List.append_assoc]
  exact body_quoted s.toList rest

end FrameGraph.Ron.Quoted
