/-
  FrameGraph.Ron.Scalar: values without parts.

  A number is the longest run of characters that one may be made of, and has to be one as a
  whole. What follows `Some` is content between parentheses or, where the dialect lets them be
  left out, the bare content.
-/

import FrameGraph.Ron.Number
import FrameGraph.Ron.Reader

namespace FrameGraph.Ron

/-! ## Texts and numbers -/

def text? (cs : List Char) : Option (String × List Char) :=
  match Quoted.text cs with
  | .ok r => some (String.ofList r.1, r.2)
  | .error _ => none

theorem text?_length {cs : List Char} {r : String × List Char} (h : text? cs = some r) :
    r.2.length ≤ cs.length := by
  unfold text? at h
  split at h <;> cases h
  rename_i found
  exact Quoted.text_length found

def isNumberPart (c : Char) : Bool := c.isAlphanum || c == '_' || isRawOnly c

def number? (cs : List Char) : Option (List Char × List Char) :=
  some (cs.takeWhile isNumberPart, cs.dropWhile isNumberPart)

theorem number?_length {cs : List Char} {r : List Char × List Char} (h : number? cs = some r) :
    r.2.length ≤ cs.length := by
  cases h
  exact dropWhile_length _ _

namespace Reader

variable {α : Type}

def ofOption : Option α → Reader α
  | some a => pure a
  | none => fail

def text : Reader String := take text? text?_length

def number : Reader (List Char) := take number? number?_length

def unsigned (suffix : String) (bits : Nat) : Reader Nat := do
  ofOption (Number.readUnsigned? suffix bits (← number))

def binary32 : Reader Binary32 := do ofOption (Number.readBinary32? (← number))

def bool : Reader Bool := do
  if ← keyword "true" then return true
  else if ← keyword "false" then return false
  else fail

/-- Two parentheses with nothing between them. -/
def emptyParentheses : Reader Unit := do
  char '('
  char ')'

/-! ## Options -/

def contentOfSome (content : Reader α) : Reader α := do
  gap
  let dialect := (← mode).dialect
  if (← next?) = some '(' then enclosed dialect.unwrapVariants content
  else if dialect.implicitSome then nested content
  else fail

def option (content : Reader α) : Reader (Option α) := do
  if ← keyword "None" then return none
  else if ← keyword "Some" then some <$> contentOfSome content
  else if (← mode).dialect.implicitSome then some <$> nested content
  else fail

end Reader

end FrameGraph.Ron
