/-
  FrameGraph.Ron.Value: the shape of object notation.

  Documents are written in a notation of named and unnamed tuples and records, lists, maps and
  options. A value is what a text says once its schema is known: records hold their wanted
  fields, and content that has lost its parentheses has them again.
-/

import FrameGraph.Binary32

namespace FrameGraph.Ron

inductive Value where
  | bool (b : Bool)
  | nat (n : Nat)
  | single (x : Binary32)
  | text (s : String)
  | unit
  | word (name : String)
  | absent
  | present (value : Value)
  | tuple (name : Option String) (items : List Value)
  | record (name : Option String) (fields : List (String × Value))
  | list (items : List Value)
  | map (entries : List (Value × Value))
  deriving Repr

namespace Value

def wrapped (v : Value) : Value := .tuple none [v]

def ofOption (v : Option Value) : Value :=
  match v with
  | none => .absent
  | some v => .present v

def plainRecord (fields : List (String × Value)) : Value := .record none fields

def variant (name : String) (content : Value) : Value := .tuple (some name) [content]

end Value

end FrameGraph.Ron
