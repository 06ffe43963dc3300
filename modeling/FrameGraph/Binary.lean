/-
  FrameGraph.Binary: binary floating-point formats.

  A format has a precision, a least unit 2^(-scale) and an infinity. The finite magnitudes in
  rising order are numbered 0, 1, 2, …, and that number is also their bit pattern: number
  `k * 2^(precision - 1) + m`, where `m < 2^precision`, stands for `m * 2^(k - scale)`, and a
  carry out of `m` lands on the next number. Rounding is to nearest, ties to the even number.
-/

import FrameGraph.Decimal

namespace FrameGraph

structure BinaryFormat where
  precision : Nat
  scale : Nat
  infinity : Nat

namespace BinaryFormat

-- Powers are the core ones, whatever algebra is in scope where this is read.
local instance (priority := high) natPower : Pow Nat Nat := instPowNat

def single : BinaryFormat := ⟨24, 149, 255 * 2 ^ (23 : Nat)⟩

def double : BinaryFormat := ⟨53, 1074, 2047 * 2 ^ (52 : Nat)⟩

/-- Nearest whole number to a quotient, a tie going to the even one. -/
def roundQuotient (num den : Nat) : Nat :=
  let q := num / den
  let twice := 2 * (num % den)
  if twice > den || (twice == den && q % 2 == 1) then q + 1 else q

/-- The magnitude nearest to a quotient. -/
def ofQuotient (f : BinaryFormat) (num den : Nat) : Nat :=
  let n := num * 2 ^ f.scale
  let k := (n / den).log2 + 1 - f.precision
  min f.infinity (k * 2 ^ (f.precision - 1) + roundQuotient n (den * 2 ^ k))

/-- A finite magnitude as a quotient over `2^scale`: significand and power of two. -/
def parts (f : BinaryFormat) (magnitude : Nat) : Nat × Nat :=
  let unit := 2 ^ (f.precision - 1)
  let k := magnitude / unit
  if k = 0 then (magnitude, 0) else (magnitude % unit + unit, k - 1)

/-- Numerator over `2^scale` of a finite magnitude. -/
def numerator (f : BinaryFormat) (magnitude : Nat) : Nat :=
  let (m, k) := f.parts magnitude
  m * 2 ^ k

/-- Powers of ten beyond this are past every magnitude, or below half the least one. -/
def decimalRange : Int := 400

/-- The magnitude nearest to a decimal, sign aside. -/
def ofDecimal (f : BinaryFormat) (d : Decimal) : Nat :=
  if d.coefficient = 0 then 0
  else
    let top := d.exponent + (Nat.toDigits 10 d.coefficient).length
    if top > decimalRange then f.infinity
    else if top < -decimalRange then 0
    else if d.exponent ≥ 0 then f.ofQuotient (d.coefficient * 10 ^ d.exponent.toNat) 1
    else f.ofQuotient d.coefficient (10 ^ (-d.exponent).toNat)

end BinaryFormat

end FrameGraph
