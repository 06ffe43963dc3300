/-
  FrameGraph.Ron.Decode: typed data out of values.

  The fields of a record come in any order; a wanted field may not come twice, and fields that
  nobody wants are ignored.
-/

import FrameGraph.Ron.Value

namespace FrameGraph.Ron

abbrev Decoder (α : Type) := Value → Option α

abbrev Fields := List (String × Value)

namespace Decode

variable {α β : Type}

/-! ## Simple data -/

def bool : Decoder Bool
  | .bool b => some b
  | _ => none

def nat : Decoder Nat
  | .nat n => some n
  | _ => none

def single : Decoder Binary32
  | .single x => some x
  | _ => none

def text : Decoder String
  | .text s => some s
  | _ => none

/-- The empty value. -/
def unit (a : α) : Decoder α
  | .unit => some a
  | _ => none

/-! ## Data with parts -/

def wrapped (content : Decoder α) : Decoder α
  | .tuple none [v] => content v
  | _ => none

def option (content : Decoder α) : Decoder (Option α)
  | .absent => some none
  | .present v => (content v).map some
  | _ => none

def pair (item : Decoder α) : Decoder (α × α)
  | .tuple none [a, b] => do return (← item a, ← item b)
  | _ => none

def list (item : Decoder α) : Decoder (List α)
  | .list items => items.mapM item
  | _ => none

def map (key : Decoder α) (value : Decoder β) : Decoder (List (α × β))
  | .map entries => entries.mapM fun e => do return (← key e.1, ← value e.2)
  | _ => none

/-- The name of a variant and its content. -/
def variant? : Value → Option (String × Value)
  | .tuple (some name) [v] => some (name, v)
  | _ => none

/-! ## Records -/

/-- The value of a field, if it is there; `none` if it comes twice. -/
def single? (fields : Fields) (key : String) : Option (Option Value) :=
  match fields.filter fun f => f.1 == key with
  | [] => some none
  | [f] => some (some f.2)
  | _ => none

def field (fields : Fields) (key : String) (d : Decoder α) : Option α := do
  d (← ← single? fields key)

def fieldOr (fields : Fields) (key : String) (d : Decoder α) (default : α) : Option α := do
  match ← single? fields key with
  | some v => d v
  | none => some default

def record (build : Fields → Option α) : Decoder α
  | .record none fields => build fields
  | _ => none

end Decode

end FrameGraph.Ron
