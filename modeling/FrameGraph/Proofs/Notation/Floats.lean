/-
  FrameGraph.Proofs.Notation.Floats: single-precision numbers read back as they were written.

  A quotient that is a magnitude rounds to that magnitude, and only the value of a quotient
  matters. On the finest grid every finite number is its own neighbour, so the search for a
  short decimal ends with one that reads back; one more zero behind the point does not change
  what is read (`Ron.Number.readBinary32?_text`). Of the bit patterns that are not numbers only
  the sign is written, so they may come back with other bits (`Binary32.plain`).
-/

import FrameGraph.Proofs.Notation.Digits

namespace FrameGraph

-- Powers are the core ones, as where numbers are rounded.
local instance (priority := high) roundingPower : Pow Nat Nat := instPowNat

namespace BinaryFormat

/-! ## Rounding -/

theorem roundQuotient_exact (q : Nat) {den : Nat} (pos : 0 < den) : roundQuotient (q * den) den = q := by
  simp [roundQuotient, Nat.mul_div_cancel _ pos, Nat.ne_of_lt pos]

theorem roundQuotient_scale (num den : Nat) {c : Nat} (pos : 0 < c) :
    roundQuotient (num * c) (den * c) = roundQuotient num den := by
  have more : (2 * (num % den * c) > den * c) = (2 * (num % den) > den) := by
    rw [← Nat.mul_assoc]
    exact propext (Nat.mul_lt_mul_right pos)
  have even : (2 * (num % den * c) == den * c) = (2 * (num % den) == den) := by
    rw [← Nat.mul_assoc, Bool.eq_iff_iff]
    simp only [beq_iff_eq]
    exact Nat.mul_left_inj (Nat.ne_of_gt pos)
  simp only [roundQuotient, Nat.mul_div_mul_right _ _ pos, Nat.mul_mod_mul_right, more, even]

/-- Only the value of a quotient matters. -/
theorem ofQuotient_scale (f : BinaryFormat) (num den : Nat) {c : Nat} (pos : 0 < c) :
    f.ofQuotient (num * c) (den * c) = f.ofQuotient num den := by
  have num' : num * c * 2 ^ f.scale = num * 2 ^ f.scale * c := Nat.mul_right_comm ..
  have den' : ∀ k, den * c * 2 ^ k = den * 2 ^ k * c := fun k => Nat.mul_right_comm ..
  simp only [ofQuotient, num', den', Nat.mul_div_mul_right _ _ pos, roundQuotient_scale _ _ pos]

/-- The place of the leading bit of a magnitude from the first full significand on. -/
theorem log2_shifted {p m e : Nat} (low : 2 ^ p ≤ m) (high : m < 2 ^ (p + 1)) : (m * 2 ^ e).log2 = p + e := by
  have pos : 0 < 2 ^ e := Nat.two_pow_pos e
  have nonzero : m * 2 ^ e ≠ 0 := Nat.ne_of_gt (Nat.mul_pos (Nat.lt_of_lt_of_le (Nat.two_pow_pos p) low) pos)
  rw [Nat.log2_eq_iff nonzero]
  constructor
  · rw [Nat.pow_add]
    exact Nat.mul_le_mul_right _ low
  · have step : p + e + 1 = (p + 1) + e := by omega
    rw [step, Nat.pow_add]
    exact Nat.mul_lt_mul_of_pos_right high pos

/-- A quotient with the value of a magnitude rounds to it. -/
theorem ofQuotient_numerator (f : BinaryFormat) {p : Nat} (precision : f.precision = p + 1) {m num den : Nat}
    (pos : 0 < den) (finite : m ≤ f.infinity) (exact : num * 2 ^ f.scale = f.numerator m * den) :
    f.ofQuotient num den = m := by
  have unit : 0 < 2 ^ p := Nat.two_pow_pos p
  have split := Nat.div_add_mod m (2 ^ p)
  unfold ofQuotient
  simp only [exact, Nat.mul_div_cancel _ pos]
  by_cases small : m / 2 ^ p = 0
  · have value : f.numerator m = m := by simp [numerator, parts, precision, small]
    have below : m < 2 ^ p := by
      rcases Nat.div_eq_zero_iff.1 small with none | below
      · exact absurd none (Nat.ne_of_gt unit)
      · exact below
    have least : m.log2 + 1 - f.precision = 0 := by
      by_cases zero : m = 0
      · subst zero
        rw [precision]
        simp
      · have place := (Nat.log2_lt zero).2 below
        omega
    rw [value, least, Nat.pow_zero, Nat.mul_one, roundQuotient_exact _ pos, Nat.zero_mul, Nat.zero_add,
      Nat.min_eq_right finite]
  · have value : f.numerator m = (m % 2 ^ p + 2 ^ p) * 2 ^ (m / 2 ^ p - 1) := by
      simp [numerator, parts, precision, small]
    have place : ((m % 2 ^ p + 2 ^ p) * 2 ^ (m / 2 ^ p - 1)).log2 + 1 - f.precision = m / 2 ^ p - 1 := by
      have high : m % 2 ^ p + 2 ^ p < 2 ^ (p + 1) := by
        have rest := Nat.mod_lt m unit
        rw [Nat.pow_succ]
        omega
      rw [log2_shifted (Nat.le_add_left ..) high, precision]
      omega
    have shift : (m % 2 ^ p + 2 ^ p) * 2 ^ (m / 2 ^ p - 1) * den
        = (m % 2 ^ p + 2 ^ p) * (den * 2 ^ (m / 2 ^ p - 1)) := by
      rw [Nat.mul_assoc, Nat.mul_comm den]
    have whole : (m / 2 ^ p - 1) * 2 ^ (f.precision - 1) + (m % 2 ^ p + 2 ^ p) = m := by
      rw [precision, Nat.add_sub_cancel, Nat.sub_mul, Nat.one_mul]
      have unitLe : 2 ^ p ≤ m / 2 ^ p * 2 ^ p := Nat.le_mul_of_pos_left _ (Nat.pos_of_ne_zero small)
      rw [Nat.mul_comm] at split
      omega
    rw [value, place, shift, roundQuotient_exact _ (Nat.mul_pos pos (Nat.two_pow_pos _)), whole,
      Nat.min_eq_right finite]

/-! ## Magnitudes of single precision -/

theorem numerator_pos {m : Nat} (nonzero : m ≠ 0) : 0 < single.numerator m := by
  unfold numerator parts
  dsimp only
  split
  · simp only [Nat.pow_zero, Nat.mul_one]
    omega
  · exact Nat.mul_pos (Nat.add_pos_right _ (Nat.two_pow_pos _)) (Nat.two_pow_pos _)

theorem numerator_lt {m : Nat} (finite : m < single.infinity) : single.numerator m < 2 ^ (128 : Nat) * 2 ^ (149 : Nat) := by
  have unit : single.precision - 1 = 23 := rfl
  have bound : m < 255 * 2 ^ 23 := finite
  unfold numerator parts
  simp only [unit]
  by_cases small : m / 2 ^ 23 = 0
  · rw [if_pos small]
    simp only [Nat.pow_zero, Nat.mul_one]
    exact Nat.lt_trans bound (by decide)
  · rw [if_neg small]
    have significand : m % 2 ^ 23 + 2 ^ 23 < 2 ^ 24 := by omega
    have places : m / 2 ^ 23 - 1 ≤ 253 := by omega
    have power : 2 ^ (m / 2 ^ 23 - 1) ≤ 2 ^ 104 * 2 ^ 149 := by
      rw [← Nat.pow_add]
      exact Nat.pow_le_pow_right (by decide) places
    have product := Nat.mul_lt_mul_of_lt_of_le significand power
      (Nat.mul_pos (Nat.two_pow_pos _) (Nat.two_pow_pos _))
    rwa [← Nat.mul_assoc, ← Nat.pow_add] at product

theorem digits_le {m c : Nat} (finite : m < single.infinity) (value : c * 2 ^ (149 : Nat) = single.numerator m * 10 ^ (149 : Nat)) :
    (Nat.toDigits 10 c).length ≤ 39 + 149 := by
  have less : c * 2 ^ 149 < 2 ^ 128 * 10 ^ 149 * 2 ^ 149 := by
    rw [value, Nat.mul_right_comm]
    exact Nat.mul_lt_mul_of_pos_right (numerator_lt finite) (Nat.pow_pos (by decide))
  have bound : c < 2 ^ 128 * 10 ^ 149 := Nat.lt_of_mul_lt_mul_right less
  rw [Nat.length_toDigits_le_iff (by decide) (by decide), Nat.pow_add]
  exact Nat.lt_of_lt_of_le bound (Nat.mul_le_mul_right _ (by decide))

/-- The decimal with the value of a finite magnitude reads as the magnitude. -/
theorem ofDecimal_exact {m c : Nat} (nonzero : m ≠ 0) (finite : m < single.infinity)
    (value : c * 2 ^ (149 : Nat) = single.numerator m * 10 ^ (149 : Nat)) (negative : Bool) :
    single.ofDecimal ⟨negative, c, -149⟩ = m := by
  have pos := numerator_pos nonzero
  have coefficient : c ≠ 0 := by
    intro same
    subst same
    rw [Nat.zero_mul] at value
    exact Nat.ne_of_lt (Nat.mul_pos pos (Nat.pow_pos (by decide))) value
  have digits := digits_le finite value
  have some := Nat.length_toDigits_pos (b := 10) (n := c)
  unfold ofDecimal
  rw [if_neg coefficient]
  dsimp only
  rw [if_neg (by unfold decimalRange; omega), if_neg (by unfold decimalRange; omega), if_neg (by decide)]
  exact single.ofQuotient_numerator (p := 23) rfl (Nat.pow_pos (by decide)) (Nat.le_of_lt finite) value

/-! ## Decimals with a point -/

theorem length_toDigits_scale {c : Nat} (nonzero : c ≠ 0) (k : Nat) :
    (Nat.toDigits 10 (c * 10 ^ k)).length = (Nat.toDigits 10 c).length + k := by
  induction k with
  | zero => simp
  | succ k ih =>
    have pos : 0 < c * 10 ^ k := Nat.mul_pos (Nat.pos_of_ne_zero nonzero) (Nat.pow_pos (by decide))
    have shift : c * 10 ^ (k + 1) = 10 * (c * 10 ^ k) + 0 := by
      rw [Nat.pow_succ, Nat.add_zero, ← Nat.mul_assoc, Nat.mul_comm]
    rw [shift, ← Nat.toDigits_append_toDigits (by decide) pos (by decide), List.length_append, ih, Nat.toDigits_zero]
    rfl

/-- A zero more behind the point says nothing new. -/
theorem ofDecimal_pointed (f : BinaryFormat) (d : Decimal) : f.ofDecimal d.pointed = f.ofDecimal d := by
  unfold Decimal.pointed
  split
  · rename_i whole
    by_cases zero : d.coefficient = 0
    · simp [ofDecimal, zero]
    have nonzero : d.coefficient * 10 ^ (d.exponent.toNat + 1) ≠ 0 :=
      Nat.mul_ne_zero zero (Nat.ne_of_gt (Nat.pow_pos (by decide)))
    have top : (-1 : Int) + ((Nat.toDigits 10 d.coefficient).length + (d.exponent.toNat + 1) : Nat)
        = d.exponent + (Nat.toDigits 10 d.coefficient).length := by omega
    have value : f.ofQuotient (d.coefficient * 10 ^ (d.exponent.toNat + 1)) (10 ^ 1)
        = f.ofQuotient (d.coefficient * 10 ^ d.exponent.toNat) 1 := by
      rw [Nat.pow_succ, ← Nat.mul_assoc]
      exact f.ofQuotient_scale _ 1 (by decide)
    have below : ¬(-1 : Int) ≥ 0 := by decide
    simp only [ofDecimal, length_toDigits_scale zero, top, if_neg zero, if_neg nonzero, if_pos whole, if_neg below]
    rw [← value]
    rfl
  · rfl

end BinaryFormat

namespace Binary32

theorem ofDecimal_pointed (d : Decimal) : ofDecimal d.pointed = ofDecimal d := by
  have sign : d.pointed.negative = d.negative := by
    unfold Decimal.pointed
    split <;> rfl
  rw [ofDecimal, BinaryFormat.ofDecimal_pointed, sign]
  rfl

/-! ## The shortest decimal -/

theorem ofMagnitude_magnitude (x : Binary32) : ofMagnitude x.negative x.magnitude = x := by
  have bits := x.bits.isLt
  have sign : signBit = 2147483648 := rfl
  unfold ofMagnitude negative magnitude
  rw [sign]
  congr 1
  apply BitVec.eq_of_toNat_eq
  rw [BitVec.toNat_ofNat]
  by_cases minus : x.bits.toNat ≥ 2147483648
  · simp only [minus, decide_true, if_true]
    omega
  · simp only [minus, decide_false, Bool.false_eq_true, if_false]
    omega

theorem onGrid?_spec {x : Binary32} {e : Int} {d : Decimal} (h : x.onGrid? e = some d) : ofDecimal d = x := by
  unfold onGrid? at h
  simpa using List.find?_some h

/-- A finite number is its own neighbour on the finest grid. -/
theorem onGrid?_finest {x : Binary32} (nonzero : x.magnitude ≠ 0) (finite : x.magnitude < BinaryFormat.single.infinity) :
    (x.onGrid? (-149)).isSome := by
  have tens : 10 ^ 149 = 5 ^ 149 * 2 ^ 149 := by rw [← Nat.mul_pow]
  have value : BinaryFormat.single.numerator x.magnitude * 10 ^ 149 / 2 ^ 149 * 2 ^ 149
      = BinaryFormat.single.numerator x.magnitude * 10 ^ 149 := by
    apply Nat.div_mul_cancel
    rw [tens]
    exact Nat.dvd_mul_left_of_dvd (Nat.dvd_mul_left ..) _
  have low : ofDecimal ⟨x.negative, BinaryFormat.single.numerator x.magnitude * 10 ^ 149 / 2 ^ 149, -149⟩ = x := by
    rw [ofDecimal, BinaryFormat.ofDecimal_exact nonzero finite value, ofMagnitude_magnitude]
  have below : ¬(-149 : Int) ≥ 0 := by decide
  have scale : BinaryFormat.single.scale = 149 := rfl
  unfold onGrid?
  simp only [if_neg below, scale]
  rw [List.find?_isSome]
  refine ⟨_, ?_, beq_iff_eq.2 low⟩
  split
  · exact List.mem_cons_self
  · exact List.mem_cons_of_mem _ List.mem_cons_self

/-- The search for a short decimal ends with one that reads as the number. -/
theorem ofDecimal_shortest {x : Binary32} (nonzero : x.magnitude ≠ 0)
    (finite : x.magnitude < BinaryFormat.single.infinity) : ofDecimal x.shortest = x := by
  have last : (-149 : Int) ∈ grids := List.mem_map.2 ⟨189, by decide, by decide⟩
  have found : (grids.findSome? x.onGrid?).isSome := by
    rw [List.findSome?_isSome_iff]
    exact ⟨-149, last, onGrid?_finest nonzero finite⟩
  obtain ⟨d, hd⟩ := Option.isSome_iff_exists.1 found
  obtain ⟨e, -, grid⟩ := List.exists_of_findSome?_eq_some hd
  rw [shortest, hd]
  exact onGrid?_spec grid

theorem text_ne_nil (x : Binary32) : x.text.toList ≠ [] := by
  unfold text
  split
  · cases x.negative <;> decide
  split
  · cases x.negative <;> decide
  split
  · cases x.negative <;> decide
  · obtain ⟨whole, fraction, -, written, -⟩ := x.shortest.text_eq
    rw [written, Decimal.signed]
    split <;> simp

end Binary32

/-! ## Written numbers -/

namespace Binary32

/-- What comes back of a number: itself, or for one that is none the usual bits with its sign. -/
def plain (x : Binary32) : Binary32 := if x.isNaN then .nan x.negative else x

theorem plain_of_number {x : Binary32} (number : x.isNaN = false) : x.plain = x := by
  simp [plain, number]

theorem isNaN_nan (negative : Bool) : (nan negative).isNaN = true := by
  cases negative <;> decide

theorem negative_nan (negative : Bool) : (nan negative).negative = negative := by
  cases negative <;> decide

theorem plain_plain (x : Binary32) : x.plain.plain = x.plain := by
  by_cases number : x.isNaN = true
  · simp [plain, number, isNaN_nan, negative_nan]
  · simp [plain, number]

theorem text_plain (x : Binary32) : x.plain.text = x.text := by
  by_cases number : x.isNaN = true
  · simp [plain, text, number, isNaN_nan, negative_nan]
  · simp [plain, number]

end Binary32

namespace Ron.Number

theorem dropUnderscores?_plain {cs : List Char} (plain : ∀ c ∈ cs, c ≠ '_') (allowed : Bool) :
    dropUnderscores? allowed cs = some cs := by
  induction cs generalizing allowed with
  | nil => rfl
  | cons c cs ih =>
    have other : (c == '_') = false := by simpa using plain c List.mem_cons_self
    rw [dropUnderscores?]
    simp [other, ih fun c hc => plain c (List.mem_cons_of_mem _ hc)]

/-- Digits, a point and a minus. -/
theorem text_chars (d : Decimal) {c : Char} (h : c ∈ d.text.toList) : c.isDigit = true ∨ c = '.' ∨ c = '-' := by
  obtain ⟨whole, fraction, point, written, -⟩ := d.text_eq
  have body : ∀ c ∈ whole ++ '.' :: fraction, c.isDigit = true ∨ c = '.' := by
    intro c h
    rcases List.mem_append.1 h with h | h
    · exact .inl (point.digits c (List.mem_append_left _ h))
    · rcases List.mem_cons.1 h with rfl | h
      · exact .inr rfl
      · exact .inl (point.digits c (List.mem_append_right _ h))
  rw [written] at h
  unfold Decimal.signed at h
  split at h
  · rcases List.mem_cons.1 h with rfl | h
    · exact .inr (.inr rfl)
    · exact (body c h).imp id .inl
  · exact (body c h).imp id .inl

theorem readWord?_text (d : Decimal) : readWord? d.text.toList = none := by
  obtain ⟨whole, fraction, point, written, -⟩ := d.text_eq
  obtain ⟨x, tail, rfl⟩ := List.exists_cons_of_ne_nil point.nonempty
  have digit := point.digits x (by simp)
  have first : ∀ c, (x :: tail ++ '.' :: fraction).head? = some c → c ≠ '+' ∧ c ≠ '-' := by
    intro c head
    cases head
    exact Decimal.not_sign digit
  have letter : ∀ c : Char, c.isDigit = false → x ≠ c := by
    intro c other same
    subst same
    rw [digit] at other
    cases other
  rw [written, readWord?, Decimal.splitSign_signed d.negative first]
  simp [letter]

theorem readFraction?_text (d : Decimal) : readFraction? d.text.toList = some (.decimal d.pointed) := by
  have chars := fun c => text_chars d (c := c)
  have all : d.text.toList.all isFractionChar = true := by
    rw [List.all_eq_true]
    intro c h
    rcases chars c h with digit | rfl | rfl
    · simp [isFractionChar, digit]
    · rfl
    · rfl
  have plain : ∀ c ∈ d.text.toList, c ≠ '_' := by
    intro c h same
    subst same
    rcases chars '_' h with digit | eq | eq
    · cases digit
    · cases eq
    · cases eq
  simp [readFraction?, readWord?_text, all, dropUnderscores?_plain plain, d.read?_text]

/-- Every number that is one reads back. -/
theorem readBinary32?_number {x : Binary32} (number : x.isNaN = false) : readBinary32? x.text.toList = some x := by
  have limit : x.magnitude ≤ BinaryFormat.single.infinity := by simpa [Binary32.isNaN] using number
  unfold Binary32.text
  rw [number, if_neg Bool.false_ne_true]
  by_cases infinite : x.isInfinite = true
  · have bits : Binary32.infinity x.negative = x := by
      rw [Binary32.infinity, ← beq_iff_eq.1 infinite, Binary32.ofMagnitude_magnitude]
    have word : readWord? (if x.negative then "-inf" else "inf").toList = some (.infinity x.negative) := by
      cases x.negative <;> rfl
    simp [readBinary32?, readFraction?, infinite, word, Fraction.toBinary32, bits]
  by_cases zero : x.magnitude = 0
  · have bits : Binary32.ofMagnitude x.negative 0 = x := by rw [← zero, Binary32.ofMagnitude_magnitude]
    have read : readFraction? (if x.negative then "-0.0" else "0.0").toList
        = some (.decimal ⟨x.negative, 0, -1⟩) := by
      cases x.negative <;> rfl
    have value : Binary32.ofDecimal ⟨x.negative, 0, -1⟩ = x := by
      rw [Binary32.ofDecimal]
      exact bits
    simp [readBinary32?, infinite, zero, read, Fraction.toBinary32, value]
  have finite : x.magnitude < BinaryFormat.single.infinity := by
    simp only [Binary32.isInfinite, beq_iff_eq] at infinite
    omega
  rw [if_neg infinite, if_neg zero, readBinary32?, readFraction?_text]
  simp only [Option.some_or, Option.map_some, Fraction.toBinary32, Binary32.ofDecimal_pointed,
    Binary32.ofDecimal_shortest zero finite]

theorem readBinary32?_text (x : Binary32) : readBinary32? x.text.toList = some x.plain := by
  by_cases number : x.isNaN = true
  · have word : readFraction? (if x.negative then "-NaN" else "NaN").toList = some (.nan x.negative) := by
      cases x.negative <;> rfl
    simp [readBinary32?, Binary32.text, Binary32.plain, number, word, Fraction.toBinary32]
  · rw [Bool.not_eq_true] at number
    rw [readBinary32?_number number, Binary32.plain_of_number number]

end Ron.Number

end FrameGraph
