/-
  FrameGraph.Ron.Printer: the written form of a value.

  Records, lists and maps take a line for each part, indented by four blanks for each bracket
  around it and ended by a comma; tuples and options stay on one line; nothing stands between
  the brackets of an empty list or map.
-/

import FrameGraph.Ron.Value
import FrameGraph.Text.Writing

namespace FrameGraph.Ron

namespace Value

def newline (depth : Nat) : List Char := '\n' :: List.replicate (4 * depth) ' '

def nameChars (name : Option String) : List Char := (name.getD "").toList

/-- Closes a bracket whose parts had lines of their own. -/
def closing (depth : Nat) (isEmpty : Bool) (bracket : Char) : List Char :=
  (if isEmpty then [] else newline depth) ++ [bracket]

mutual

def render (depth : Nat) : Value → List Char
  | bool b => (if b then "true" else "false").toList
  | nat n => Nat.toDigits 10 n
  | single x => x.text.toList
  | text s => (Text.quoted s).toList
  | unit => ['(', ')']
  | word name => name.toList
  | absent => "None".toList
  | present v => "Some(".toList ++ render depth v ++ [')']
  | tuple name items => nameChars name ++ ['('] ++ renderItems depth items ++ [')']
  | record name fields =>
    nameChars name ++ ['('] ++ renderFields (depth + 1) fields ++ closing depth fields.isEmpty ')'
  | list items => ['['] ++ renderLines (depth + 1) items ++ closing depth items.isEmpty ']'
  | map entries =>
    ['\x7b'] ++ renderEntries (depth + 1) entries ++ closing depth entries.isEmpty '\x7d'

def renderItems (depth : Nat) : List Value → List Char
  | [] => []
  | [v] => render depth v
  | v :: w :: vs => render depth v ++ [',', ' '] ++ renderItems depth (w :: vs)

def renderLines (depth : Nat) : List Value → List Char
  | [] => []
  | v :: vs => newline depth ++ render depth v ++ [','] ++ renderLines depth vs

def renderFields (depth : Nat) : List (String × Value) → List Char
  | [] => []
  | (name, v) :: fields =>
    newline depth ++ name.toList ++ [':', ' '] ++ render depth v ++ [','] ++ renderFields depth fields

def renderEntries (depth : Nat) : List (Value × Value) → List Char
  | [] => []
  | (k, v) :: entries =>
    newline depth ++ render depth k ++ [':', ' '] ++ render depth v ++ [',']
      ++ renderEntries depth entries

end

def print (v : Value) : String := String.ofList (render 0 v)

end Value

end FrameGraph.Ron
