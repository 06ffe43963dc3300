/-
  FrameGraph.Ron.Unknown: passing over values that nobody wants.

  Such a value may be anything that is well formed. Names of types and variants mean nothing
  here, but an option's content may stand without its own parentheses where the dialect says
  so. Every bracket takes a level of depth, so values nest only so far.
-/

import FrameGraph.Ron.Interior
import FrameGraph.Ron.Scalar

namespace FrameGraph.Ron

namespace Reader

def constants : List String :=
  ["true", "false", "None", "inf", "inff32", "inff64", "NaN", "NaNf32", "NaNf64"]

def constant : List String → Reader Bool
  | [] => return false
  | word :: words => do if ← keyword word then return true else constant words

def word : Reader Word := take word? word?_length

def skipBytes? (cs : List Char) : Option (List Char) :=
  match Quoted.bytes cs with
  | .ok r => some r.2
  | .error _ => none

theorem skipBytes?_length {cs r : List Char} (h : skipBytes? cs = some r) :
    r.length ≤ cs.length := by
  unfold skipBytes? at h
  split at h <;> cases h
  rename_i found
  exact Quoted.bytes_length found

def isNumberStart (c : Char) : Bool := c.isDigit || isRawOnly c

/-- A number, a text, a character or bytes. -/
def literal : Reader Unit := do
  match ← rest with
  | 'b' :: '\'' :: _ =>
    let _ ← take Quoted.byte? Quoted.byte?_length
  | 'b' :: _ => skip skipBytes? skipBytes?_length
  | '\'' :: _ =>
    let _ ← take Quoted.character? Quoted.character?_length
  | '"' :: _ | 'r' :: _ =>
    let _ ← text
  | c :: _ => if isNumberStart c && Number.isNumber (← number) then return () else fail
  | [] => fail

/-! ## Values with parts -/

def unknownTuple (bare : Bool) (value : Reader Unit) : Reader Unit := do
  let _ ← bracketed '(' ')' bare (nested value)

def unknownFields (bare : Bool) (value : Reader Unit) : Reader Unit := do
  let _ ← bracketed '(' ')' bare (keyed name fun _ => value)

/-- A tuple or a record, by whether it begins with the name of a field. -/
def unknownParentheses (value : Reader Unit) : Reader Unit := do
  if Interior.opensFields (← rest) then unknownFields false value else unknownTuple false value

/-- A value with all its brackets, given how to pass over the values inside. -/
def unknownWhole (value : Reader Unit) : Reader Unit := do
  let text ← rest
  if ← constant constants then return ()
  else if ← keyword "Some" then contentOfSome value
  else if ['(', ')'].isPrefixOf text then emptyParentheses
  else if (word? text).isSome then
    let _ ← word
    gap
    if (← next?) = some '(' then unknownParentheses value
  else
    match text with
    | '(' :: _ => unknownParentheses value
    | '[' :: _ =>
      let _ ← bracketed '[' ']' false (nested value)
    | '\x7b' :: _ =>
      let _ ← bracketed '\x7b' '\x7d' false (keyed value fun _ => value)
    | _ => literal

/-- A value that may have lost its own parentheses. -/
def unknownBare (value : Reader Unit) : Reader Unit := do
  let text ← rest
  if text.head? = some ')' then return ()
  else
    match Interior.of? text with
    | some .fields => unknownFields true value
    | some .many => unknownTuple true value
    | some .one => setBare false (unknownWhole value)
    | none => fail

/-- A value inside at most as many others as the count says. -/
def unknownWithin : Nat → Reader Unit
  | 0 => fail
  | count + 1 => do
    let value := unknownWithin count
    if (← mode).bare then unknownBare value else unknownWhole value

/-- Any value; every value inside another is a level deeper. -/
def unknown : Reader Unit := do unknownWithin ((← mode).depth + 1)

end Reader

end FrameGraph.Ron
