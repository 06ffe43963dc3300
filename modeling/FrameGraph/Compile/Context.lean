/-
  FrameGraph.Compile.Context: what a node sees while it compiles.

  Each input has a name, a type and, if it is linked, the value of the output that feeds it.
  Asking for a slot that the node does not have is a fault; asking for the value of a slot
  that is not linked is the user's mistake.
-/

import FrameGraph.Error

namespace FrameGraph

structure InputSlot where
  name : String
  type : PinType
  value : Option Handle
  deriving DecidableEq, Repr

structure Context where
  node : NodeId
  inputs : List InputSlot
  outputs : List PinType
  deriving DecidableEq, Repr

namespace Context

def input? (c : Context) (index : Nat) : Option Handle :=
  c.inputs[index]?.bind InputSlot.value

def slot (c : Context) (index : Nat) : Except Stop InputSlot :=
  match c.inputs[index]? with
  | some s => .ok s
  | none => .error (.fault (.missingSlot index))

/-- The value of a slot that has to be linked. -/
def demand (c : Context) (s : InputSlot) : Except Stop Handle :=
  match s.value with
  | some v => .ok v
  | none => .error (.error (.missingRequiredInput c.node s.name))

def required (c : Context) (index : Nat) : Except Stop Handle := do
  c.demand (← c.slot index)

/-- The values of all slots, each of which has to be linked. -/
def requiredAll (c : Context) : Except Stop (List Handle) :=
  c.inputs.mapM c.demand

def inputType (c : Context) (index : Nat) : Except Stop PinType := do
  return (← c.slot index).type

def outputType (c : Context) (index : Nat) : Except Stop PinType :=
  match c.outputs[index]? with
  | some t => .ok t
  | none => .error (.fault (.missingSlot index))

end Context

end FrameGraph
