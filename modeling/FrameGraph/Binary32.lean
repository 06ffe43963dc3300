/-
  FrameGraph.Binary32: single-precision numbers, as bit patterns.

  Reading rounds a decimal to nearest. Writing finds the coarsest power of ten on whose grid
  one of the number's two neighbours reads back as the number, the nearer neighbour first and
  of equally near ones the larger; at the finest grid the number is its own neighbour, so the
  search ends, and what is written reads back.
-/

import FrameGraph.Binary

namespace FrameGraph

structure Binary32 where
  bits : BitVec 32
  deriving DecidableEq, Repr

namespace Binary32

-- Powers are the core ones, whatever algebra is in scope where this is read.
local instance (priority := high) natPower : Pow Nat Nat := instPowNat

def signBit : Nat := 2 ^ (31 : Nat)

def ofMagnitude (negative : Bool) (magnitude : Nat) : Binary32 :=
  ⟨BitVec.ofNat 32 (magnitude + if negative then signBit else 0)⟩

def zero : Binary32 := ofMagnitude false 0

instance : Inhabited Binary32 := ⟨zero⟩

def negative (x : Binary32) : Bool := x.bits.toNat ≥ signBit

def magnitude (x : Binary32) : Nat := x.bits.toNat % signBit

def infinity (negative : Bool) : Binary32 :=
  ofMagnitude negative BinaryFormat.single.infinity

def nan (negative : Bool) : Binary32 :=
  ofMagnitude negative (BinaryFormat.single.infinity + 2 ^ (22 : Nat))

def isNaN (x : Binary32) : Bool := x.magnitude > BinaryFormat.single.infinity

def isInfinite (x : Binary32) : Bool := x.magnitude == BinaryFormat.single.infinity

def ofDecimal (d : Decimal) : Binary32 :=
  ofMagnitude d.negative (BinaryFormat.single.ofDecimal d)

/-- A double-precision magnitude rounded once more, to single precision. -/
def ofDouble (negative : Bool) (magnitude : Nat) : Binary32 :=
  let wide := BinaryFormat.double
  ofMagnitude negative
    (if magnitude ≥ wide.infinity then BinaryFormat.single.infinity
     else BinaryFormat.single.ofQuotient (wide.numerator magnitude) (2 ^ wide.scale))

/-! ## The shortest decimal -/

/-- A decimal on the grid `10^e` that reads back as `x`, for a finite `x`. -/
def onGrid? (x : Binary32) (e : Int) : Option Decimal :=
  let f := BinaryFormat.single
  let num := f.numerator x.magnitude
  let den := 2 ^ f.scale
  let (num, den) := if e ≥ 0 then (num, den * 10 ^ e.toNat) else (num * 10 ^ (-e).toNat, den)
  let low : Decimal := ⟨x.negative, num / den, e⟩
  let high : Decimal := ⟨x.negative, num / den + 1, e⟩
  let order := if 2 * (num % den) < den then [low, high] else [high, low]
  order.find? fun d => ofDecimal d == x

/-- Grids from coarse to fine; every single-precision number lies on the last. -/
def grids : List Int := (List.range 190).map fun (i : Nat) => (40 : Int) - (i : Int)

def shortest (x : Binary32) : Decimal :=
  (grids.findSome? x.onGrid?).getD ⟨x.negative, 0, 0⟩

def text (x : Binary32) : String :=
  if x.isNaN then (if x.negative then "-NaN" else "NaN")
  else if x.isInfinite then (if x.negative then "-inf" else "inf")
  else if x.magnitude = 0 then (if x.negative then "-0.0" else "0.0")
  else x.shortest.text

end Binary32

end FrameGraph
