/-
  FrameGraph.Uuid: 128-bit document identifiers and their written forms.

  A document's identifier is written as groups of 8, 4, 4, 4 and 12 lower-case hexadecimal
  digits joined by hyphens. Reading takes that form, the same in braces or after `urn:uuid:`,
  and the 32 digits without hyphens, with letters in either case.
-/

namespace FrameGraph

structure Uuid where
  bits : BitVec 128
  deriving DecidableEq, Repr

namespace Uuid

def zero : Uuid := ⟨0⟩

instance : Inhabited Uuid := ⟨zero⟩

/-! ## Writing -/

def hexDigit (n : Nat) : Char :=
  (['0', '1', '2', '3', '4', '5', '6', '7', '8', '9', 'a', 'b', 'c', 'd', 'e', 'f'])[n]?.getD '0'

/-- The last `count` hexadecimal digits of a number. -/
def hexDigits : Nat → Nat → List Char
  | 0, _ => []
  | count + 1, n => hexDigits count (n / 16) ++ [hexDigit (n % 16)]

def groups : List Nat := [8, 4, 4, 4, 12]

/-- Cuts a list into groups of the given lengths. -/
def cut {α : Type} : List Nat → List α → List (List α)
  | [], _ => []
  | n :: ns, xs => xs.take n :: cut ns (xs.drop n)

def hyphenated (u : Uuid) : String :=
  String.ofList (['-'].intercalate (cut groups (hexDigits 32 u.bits.toNat)))

instance : ToString Uuid := ⟨hyphenated⟩

/-! ## Reading -/

def hexValue? (c : Char) : Option Nat :=
  if '0' ≤ c ∧ c ≤ '9' then some (c.toNat - '0'.toNat)
  else if 'a' ≤ c ∧ c ≤ 'f' then some (c.toNat - 'a'.toNat + 10)
  else if 'A' ≤ c ∧ c ≤ 'F' then some (c.toNat - 'A'.toNat + 10)
  else none

def ofHex? (cs : List Char) : Option Uuid := do
  let digits ← cs.mapM hexValue?
  return ⟨BitVec.ofNat 128 (digits.foldl (fun n d => n * 16 + d) 0)⟩

/-- Reads groups of digits with a hyphen between any two. -/
def ofHyphenated? (cs : List Char) : Option Uuid :=
  if cs.length = 36 ∧ ([8, 13, 18, 23].all fun i => cs[i]? == some '-')
      ∧ cs.count '-' = 4 then
    ofHex? (cs.filter (· != '-'))
  else none

def urn : List Char := ['u', 'r', 'n', ':', 'u', 'u', 'i', 'd', ':']

def parse? (s : String) : Option Uuid :=
  let cs := s.toList
  if cs.length = 32 then ofHex? cs
  else if cs.head? = some '\x7b' ∧ cs.getLast? = some '\x7d' then
    ofHyphenated? (cs.drop 1).dropLast
  else if (cs.take 9).map Char.toLower = urn then ofHyphenated? (cs.drop 9)
  else ofHyphenated? cs

end Uuid

end FrameGraph
