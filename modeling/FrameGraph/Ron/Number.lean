/-
  FrameGraph.Ron.Number: how numbers are spelled.

  Whole numbers may have a sign, a base mark (`0b`, `0o`, `0x`), underscores after the first
  digit, and a suffix that names their type. Fractional numbers may have a point, an exponent
  and underscores after a digit or an exponent mark; infinities and not-a-number are words.
  A reader for one type takes only that type's suffix and range.
-/

import FrameGraph.Binary32

namespace FrameGraph.Ron.Number

-- Powers are the core ones, whatever algebra is in scope where this is read.
local instance (priority := high) natPower : Pow Nat Nat := instPowNat

/-! ## Whole numbers -/

def wholeSuffixes : List (String × Bool × Nat) :=
  [("i8", true, 7), ("i16", true, 15), ("i32", true, 31), ("i64", true, 63),
    ("u8", false, 8), ("u16", false, 16), ("u32", false, 32), ("u64", false, 64)]

def digitValue? (base : Nat) (c : Char) : Option Nat :=
  let v :=
    if c.isDigit then c.toNat - '0'.toNat
    else if 'a' ≤ c ∧ c ≤ 'f' then c.toNat - 'a'.toNat + 10
    else if 'A' ≤ c ∧ c ≤ 'F' then c.toNat - 'A'.toNat + 10
    else base
  if v < base then some v else none

/-- Digits of a base with underscores after the first. -/
def readDigits? (base : Nat) : List Char → Option Nat
  | [] => none
  | '_' :: _ => none
  | cs => (cs.filter (· != '_')).foldlM (fun n c => (digitValue? base c).map (n * base + ·)) 0

def readMagnitude? : List Char → Option Nat
  | '0' :: 'b' :: cs => readDigits? 2 cs
  | '0' :: 'o' :: cs => readDigits? 8 cs
  | '0' :: 'x' :: cs => readDigits? 16 cs
  | cs => readDigits? 10 cs

def isDigitRun (c : Char) : Bool := (digitValue? 16 c).isSome || c == '_'

/-- A whole number with its sign, and its suffix if it has one. Only a run of digits and
letters up to `f` can be followed by a suffix. -/
def readWhole? (cs : List Char) : Option (Bool × Nat × Option String) :=
  let (negative, cs) := Decimal.splitSign cs
  let rest := cs.dropWhile isDigitRun
  match rest with
  | 'i' :: _ | 'u' :: _ =>
    (readMagnitude? (cs.takeWhile isDigitRun)).map fun n => (negative, n, some (String.ofList rest))
  | _ => (readMagnitude? cs).map fun n => (negative, n, none)

/-- A whole number of an unsigned type, given its suffix and its number of bits. -/
def readUnsigned? (suffix : String) (bits : Nat) (cs : List Char) : Option Nat := do
  let (negative, n, found) ← readWhole? cs
  if (found.getD suffix) = suffix ∧ n < 2 ^ bits ∧ (negative → n = 0) then some n else none

/-! ## Fractional numbers -/

def isFractionChar (c : Char) : Bool :=
  c.isDigit || c == 'e' || c == 'E' || c == '.' || c == '+' || c == '-' || c == '_'

/-- Takes underscores out; one may stand only after a digit or an exponent mark. -/
def dropUnderscores? (allowed : Bool) : List Char → Option (List Char)
  | [] => some []
  | c :: cs =>
    if c == '_' then if allowed then dropUnderscores? true cs else none
    else
      let next := if c.isDigit || c == 'e' || c == 'E' then true else if c == '.' then false else allowed
      (dropUnderscores? next cs).map (c :: ·)

inductive Fraction where
  | decimal (d : Decimal)
  | infinity (negative : Bool)
  | nan (negative : Bool)

def readWord? (cs : List Char) : Option Fraction :=
  let (negative, cs) := Decimal.splitSign cs
  if cs = "inf".toList then some (.infinity negative)
  else if cs = "NaN".toList then some (.nan negative)
  else none

/-- A fractional number without a suffix. -/
def readFraction? (cs : List Char) : Option Fraction :=
  match readWord? cs with
  | some f => some f
  | none =>
    if cs.all isFractionChar then do
      return .decimal (← Decimal.read? (← dropUnderscores? false cs))
    else none

def dropSuffix? (suffix cs : List Char) : Option (List Char) :=
  if suffix.isSuffixOf cs then some (cs.take (cs.length - suffix.length)) else none

def readSuffixed? (suffix : List Char) (cs : List Char) : Option Fraction :=
  (dropSuffix? suffix cs).bind readFraction?

def Fraction.toBinary32 : Fraction → Binary32
  | decimal d => .ofDecimal d
  | infinity negative => .infinity negative
  | nan negative => .nan negative

/-- A single-precision number, with its suffix or without one. -/
def readBinary32? (cs : List Char) : Option Binary32 :=
  ((readFraction? cs).or (readSuffixed? "f32".toList cs)).map Fraction.toBinary32

/-! ## Any number -/

/-- A suffix must exist and hold the number; without one the number has to fit 64 bits, but
digits of base ten may also be read as a fraction. -/
def isWhole (cs : List Char) : Bool :=
  match readWhole? cs with
  | none => false
  | some (negative, n, none) => if negative then n ≤ 2 ^ (63 : Nat) else n < 2 ^ (64 : Nat)
  | some (negative, n, some suffix) =>
    match wholeSuffixes.find? fun s => s.1 == suffix with
    | none => false
    | some (_, signed, bits) =>
      if negative then (if signed then n ≤ 2 ^ bits else n == 0) else n < 2 ^ bits

def isNumber (cs : List Char) : Bool :=
  isWhole cs || (readFraction? cs).isSome || (readSuffixed? "f32".toList cs).isSome
    || (readSuffixed? "f64".toList cs).isSome

end FrameGraph.Ron.Number
