/-
  FrameGraph.Proofs.Notation.Digits: written numbers read back.

  The digits of a number, in base ten or sixteen, give the number again. A decimal is written
  with a point, and read as its digits and the number of them behind the point; so one with a
  whole value comes back with one more zero at its end (`Decimal.read?_text`).
-/

import FrameGraph.Decimal
import FrameGraph.Ron.Number

namespace FrameGraph

-- Powers are the core ones, as where decimals are read.
local instance (priority := high) corePower : Pow Nat Nat := instPowNat

/-! ## Digits -/

/-- Digits read one by one give the number that they were written for. -/
theorem digits_read {b : Nat} (hb : 1 < b) {value? : Char → Option Nat}
    (each : ∀ d < b, value? d.digitChar = some d) (n : Nat) :
    ∃ values, (Nat.toDigits b n).mapM value? = some values ∧ values.foldl (fun n d => n * b + d) 0 = n := by
  induction n using Nat.base_induction b hb with
  | single d small => exact ⟨[d], by simp [Nat.toDigits_of_lt_base small, each d small], by simp⟩
  | digit n d small pos ih =>
    obtain ⟨values, read, value⟩ := ih
    refine ⟨values ++ [d], ?_, ?_⟩
    · rw [← Nat.toDigits_append_toDigits hb pos small, Nat.toDigits_of_lt_base small, List.mapM_append, read]
      simp [each d small]
    · rw [List.foldl_append, value, Nat.mul_comm b n]
      rfl

theorem digit_of_mem {b : Nat} (hb : 1 < b) {n : Nat} {c : Char} (h : c ∈ Nat.toDigits b n) :
    ∃ d < b, c = d.digitChar := by
  induction n using Nat.base_induction b hb with
  | single d small =>
    rw [Nat.toDigits_of_lt_base small] at h
    exact ⟨d, small, List.mem_singleton.1 h⟩
  | digit n d small pos ih =>
    rw [← Nat.toDigits_append_toDigits hb pos small, Nat.toDigits_of_lt_base small] at h
    rcases List.mem_append.1 h with h | h
    · exact ih h
    · exact ⟨d, small, List.mem_singleton.1 h⟩

namespace Decimal

theorem natOfDigits_eq (cs : List Char) : natOfDigits cs = Nat.ofDigitChars 10 cs 0 := by
  rw [natOfDigits, Nat.ofDigitChars_eq_foldl]
  congr
  funext n c
  rw [Nat.mul_comm, digitValue]

theorem natOfDigits_toDigits (n : Nat) : natOfDigits (Nat.toDigits 10 n) = n := by
  rw [natOfDigits_eq, Nat.ofDigitChars_ten_toDigits]

theorem natOfDigits_append (a b : List Char) :
    natOfDigits (a ++ b) = natOfDigits a * 10 ^ b.length + natOfDigits b := by
  rw [natOfDigits_eq, natOfDigits_eq, natOfDigits_eq, Nat.ofDigitChars_append, Nat.ofDigitChars_eq_ofDigitChars_zero,
    Nat.mul_comm]

theorem natOfDigits_zeros (count : Nat) : natOfDigits (List.replicate count '0') = 0 := by
  rw [natOfDigits_eq, Nat.ofDigitChars_replicate_zero, Nat.mul_zero]

/-! ## Decimals -/

theorem isDigit_toDigits {n : Nat} {c : Char} (h : c ∈ Nat.toDigits 10 n) : c.isDigit = true :=
  Nat.isDigit_of_mem_toDigits (by decide) (by decide) h

theorem not_sign {c : Char} (h : c.isDigit = true) : c ≠ '+' ∧ c ≠ '-' := by
  constructor
  · intro same
    subst same
    cases h
  · intro same
    subst same
    cases h

theorem isDigit_zeros {count : Nat} {c : Char} (h : c ∈ List.replicate count '0') : c.isDigit = true := by
  rw [(List.mem_replicate.1 h).2]
  rfl

theorem takeWhile_run (p : Char → Bool) (run rest : List Char) (all : ∀ c ∈ run, p c = true)
    (ends : ∀ c, rest.head? = some c → p c = false) :
    (run ++ rest).takeWhile p = run ∧ (run ++ rest).dropWhile p = rest := by
  induction run with
  | nil =>
    cases rest with
    | nil => exact ⟨rfl, rfl⟩
    | cons c rest => simp [ends c rfl]
  | cons c run ih =>
    have tail := ih fun c hc => all c (List.mem_cons_of_mem _ hc)
    simp [all c List.mem_cons_self, tail]

def signed (negative : Bool) (cs : List Char) : List Char := if negative then '-' :: cs else cs

theorem splitSign_signed (negative : Bool) {cs : List Char} (h : ∀ c, cs.head? = some c → c ≠ '+' ∧ c ≠ '-') :
    splitSign (signed negative cs) = (negative, cs) := by
  cases negative with
  | true => rfl
  | false =>
    show splitSign cs = _
    unfold splitSign
    split
    · exact absurd rfl (h '+' rfl).1
    · exact absurd rfl (h '-' rfl).2
    · rfl

/-- Digits with a point among them. -/
structure Point (whole fraction : List Char) : Prop where
  nonempty : whole ≠ []
  digits : ∀ c ∈ whole ++ fraction, c.isDigit = true

/-- They read as all the digits, with a power of ten for those behind the point. -/
theorem Point.read? {whole fraction : List Char} (h : Point whole fraction) (negative : Bool) :
    read? (signed negative (whole ++ '.' :: fraction))
      = some ⟨negative, natOfDigits (whole ++ fraction), -fraction.length⟩ := by
  have first : ∀ c, (whole ++ '.' :: fraction).head? = some c → c ≠ '+' ∧ c ≠ '-' := by
    intro c head
    obtain ⟨x, tail, rfl⟩ := List.exists_cons_of_ne_nil h.nonempty
    cases head
    exact not_sign (h.digits c (by simp))
  obtain ⟨taken, left⟩ := takeWhile_run Char.isDigit whole ('.' :: fraction)
    (fun c hc => h.digits c (List.mem_append_left _ hc)) (by simp)
  obtain ⟨taken', left'⟩ := takeWhile_run Char.isDigit fraction []
    (fun c hc => h.digits c (List.mem_append_right _ hc)) (by simp)
  rw [List.append_nil] at taken' left'
  simp only [Decimal.read?, splitSign_signed negative first, taken, left, taken', left']
  simp [h.nonempty, readExponent?]

/-- A decimal as it is written: with at least one digit behind the point. -/
def pointed (d : Decimal) : Decimal :=
  if d.exponent ≥ 0 then ⟨d.negative, d.coefficient * 10 ^ (d.exponent.toNat + 1), -1⟩ else d

theorem point_whole (n zeros : Nat) : Point (Nat.toDigits 10 n ++ List.replicate zeros '0') ['0']
    ∧ natOfDigits (Nat.toDigits 10 n ++ List.replicate zeros '0' ++ ['0']) = n * 10 ^ (zeros + 1) := by
  refine ⟨⟨by simp, fun c h => ?_⟩, ?_⟩
  · rcases List.mem_append.1 h with h | h
    · rcases List.mem_append.1 h with h | h
      · exact isDigit_toDigits h
      · exact isDigit_zeros h
    · rw [List.mem_singleton.1 h]
      rfl
  · rw [natOfDigits_append, natOfDigits_append, natOfDigits_toDigits, natOfDigits_zeros, List.length_replicate]
    simp [natOfDigits, digitValue, Nat.pow_succ, Nat.mul_assoc]

/-- Digits filled up with zeros, so that one stands before the point. -/
def padded (n places : Nat) : List Char :=
  List.replicate (places + 1 - (Nat.toDigits 10 n).length) '0' ++ Nat.toDigits 10 n

theorem point_padded (n places : Nat) :
    Point ((padded n places).take ((padded n places).length - places))
        ((padded n places).drop ((padded n places).length - places))
      ∧ natOfDigits (padded n places) = n
      ∧ ((padded n places).drop ((padded n places).length - places)).length = places := by
  have room : places < (padded n places).length := by
    rw [padded, List.length_append, List.length_replicate]
    omega
  refine ⟨⟨fun h => ?_, fun c h => ?_⟩, ?_, ?_⟩
  · have length := congrArg List.length h
    simp only [List.length_take, List.length_nil] at length
    omega
  · rw [List.take_append_drop] at h
    rcases List.mem_append.1 h with h | h
    · exact isDigit_zeros h
    · exact isDigit_toDigits h
  · rw [padded, natOfDigits_append, natOfDigits_zeros, natOfDigits_toDigits, Nat.zero_mul, Nat.zero_add]
  · rw [List.length_drop]
    omega

/-- A written decimal has a point, and its digits give the decimal. -/
theorem text_eq (d : Decimal) : ∃ whole fraction, Point whole fraction
    ∧ d.text.toList = signed d.negative (whole ++ '.' :: fraction)
    ∧ d.pointed = ⟨d.negative, natOfDigits (whole ++ fraction), -fraction.length⟩ := by
  unfold text pointed
  rw [String.toList_ofList]
  by_cases whole : d.exponent ≥ 0
  · obtain ⟨point, value⟩ := point_whole d.coefficient d.exponent.toNat
    refine ⟨_, _, point, ?_, ?_⟩
    · simp only [if_pos whole, signed, List.append_assoc, List.cons_append, List.nil_append]
    · rw [if_pos whole, value]
      rfl
  · obtain ⟨point, value, length⟩ := point_padded d.coefficient (-d.exponent).toNat
    refine ⟨_, _, point, ?_, ?_⟩
    · simp only [if_neg whole, signed, padded, List.append_assoc, List.cons_append, List.nil_append]
    · rw [if_neg whole, List.take_append_drop, value, length]
      have places : -((-d.exponent).toNat : Int) = d.exponent := by omega
      rw [places]

theorem read?_text (d : Decimal) : read? d.text.toList = some d.pointed := by
  obtain ⟨whole, fraction, point, written, value⟩ := d.text_eq
  rw [written, point.read?, value]

end Decimal

/-! ## Whole numbers -/

namespace Ron.Number

theorem digitValue?_digitChar : ∀ d < 10, digitValue? 10 d.digitChar = some d := by decide

theorem isDigitRun_digitChar : ∀ d < 10, isDigitRun d.digitChar = true := by decide

theorem foldlM_values {value? : Char → Option Nat} {b : Nat} {cs : List Char} {values : List Nat}
    (read : cs.mapM value? = some values) (n : Nat) :
    cs.foldlM (fun n c => (value? c).map (n * b + ·)) n = some (values.foldl (fun n d => n * b + d) n) := by
  induction cs generalizing values n with
  | nil =>
    cases read
    rfl
  | cons c cs ih =>
    rw [List.mapM_cons] at read
    obtain ⟨d, hd, read⟩ := Option.bind_eq_some_iff.1 read
    obtain ⟨ds, hds, read⟩ := Option.bind_eq_some_iff.1 read
    cases read
    rw [List.foldlM_cons, hd]
    exact ih hds _

theorem readDigits?_toDigits (n : Nat) : readDigits? 10 (Nat.toDigits 10 n) = some n := by
  obtain ⟨values, read, value⟩ := digits_read (by decide) digitValue?_digitChar n
  have plain : (Nat.toDigits 10 n).filter (· != '_') = Nat.toDigits 10 n := by
    rw [List.filter_eq_self]
    intro c h
    simp only [bne_iff_ne, ne_eq]
    intro same
    subst same
    exact Nat.underscore_not_in_toDigits h
  unfold readDigits?
  split
  · rename_i none
    exact absurd none Nat.toDigits_ne_nil
  · rename_i mark
    exact absurd (mark ▸ List.mem_cons_self) (Nat.underscore_not_in_toDigits (n := n))
  · rw [plain, foldlM_values read, value]

theorem readMagnitude?_toDigits (n : Nat) : readMagnitude? (Nat.toDigits 10 n) = some n := by
  have digits : ∀ c ∈ Nat.toDigits 10 n, c.isDigit = true := fun c => Decimal.isDigit_toDigits
  rw [← readDigits?_toDigits n]
  unfold readMagnitude?
  split
  · rename_i mark
    cases digits 'b' (by simp [mark])
  · rename_i mark
    cases digits 'o' (by simp [mark])
  · rename_i mark
    cases digits 'x' (by simp [mark])
  · rfl

theorem readWhole?_toDigits (n : Nat) : readWhole? (Nat.toDigits 10 n) = some (false, n, none) := by
  have first : ∀ c, (Nat.toDigits 10 n).head? = some c → c ≠ '+' ∧ c ≠ '-' :=
    fun c head => Decimal.not_sign (Decimal.isDigit_toDigits (List.mem_of_head? head))
  have unsigned := Decimal.splitSign_signed false first
  have run := Decimal.takeWhile_run isDigitRun (Nat.toDigits 10 n) [] (fun c h => by
    obtain ⟨d, small, rfl⟩ := digit_of_mem (by decide) h
    exact isDigitRun_digitChar d small) (by simp)
  rw [List.append_nil] at run
  simp only [Decimal.signed, Bool.false_eq_true, if_false] at unsigned
  simp [readWhole?, unsigned, run.2, readMagnitude?_toDigits]

/-- A number within its range reads back. -/
theorem readUnsigned?_toDigits {n bits : Nat} (range : n < 2 ^ bits) (suffix : String) :
    readUnsigned? suffix bits (Nat.toDigits 10 n) = some n := by
  simp [readUnsigned?, readWhole?_toDigits, range]

end Ron.Number

end FrameGraph
