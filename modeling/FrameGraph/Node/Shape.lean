/-
  FrameGraph.Node.Shape: a node's kind together with the types of its pins, and how both
  change in step.

  Before a link is made each end may adapt to the type at the other end: first the node that
  is entered (`meetSource`), then the node that is left (`meetTarget`). The setters do the
  same on request; one that does not apply to the kind gives `none`. A shape with fewer pins
  than its kind declares has no slot to write to, which is a fault.
-/

import FrameGraph.Error
import FrameGraph.Node.Kind

namespace FrameGraph

structure Shape where
  kind : Kind
  inputs : List PinType
  outputs : List PinType
  deriving DecidableEq, Repr

namespace Shape

/-- The shape of a node as its kind declares it. -/
def ofKind (kind : Kind) : Shape :=
  ⟨kind, kind.inputSpecs.map PinSpec.type, kind.outputSpecs.map PinSpec.type⟩

def setSlot (types : List PinType) (index : Nat) (type : PinType) : Except Fault (List PinType) :=
  if index < types.length then .ok (types.set index type) else .error (.missingSlot index)

def setInput (s : Shape) (index : Nat) (type : PinType) : Except Fault Shape := do
  return { s with inputs := ← setSlot s.inputs index type }

def setOutput (s : Shape) (index : Nat) (type : PinType) : Except Fault Shape := do
  return { s with outputs := ← setSlot s.outputs index type }

/-! ## States of a kind, with the pins brought in step -/

def toConvert (s : Shape) (fromType toType : PinType) : Except Fault Shape := do
  let s ← s.setInput 0 fromType
  let s ← s.setOutput 0 toType
  return { s with kind := .convert fromType toType }

def toConcat (s : Shape) (element : PinType) (inputs : Nat) : Except Fault Shape := do
  let s ← s.setOutput 0 element.toArray
  return { s with kind := .concat element inputs, inputs := s.inputs.map fun _ => element }

def toSelect (s : Shape) (element : PinType) (index : Nat) : Except Fault Shape := do
  let s ← s.setInput 0 element.toArray
  let s ← s.setOutput 0 element
  return { s with kind := .select element index }

def renderEye : Nat := 1

def renderTarget : Nat := 2

def toRender (s : Shape) (isArray : Bool) : Except Fault Shape := do
  let s ← s.setInput renderEye ⟨Base.eye, isArray⟩
  let s ← s.setInput renderTarget ⟨Base.target, isArray⟩
  return { s with kind := .render isArray }

def toAdd (s : Shape) (type : PinType) : Shape :=
  ⟨.add type, s.inputs.map fun _ => type, s.outputs.map fun _ => type⟩

/-! ## Setters -/

/-- The other end of a conversion follows the array form of the one that is set. -/
def setFrom (type : PinType) (s : Shape) : Option (Except Fault Shape) :=
  match s.kind with
  | .convert _ toType => some (s.toConvert type (toType.withArray type.isArray))
  | _ => none

def setTo (type : PinType) (s : Shape) : Option (Except Fault Shape) :=
  match s.kind with
  | .convert fromType _ => some (s.toConvert (fromType.withArray type.isArray) type)
  | _ => none

def setElement (element : PinType) (s : Shape) : Option (Except Fault Shape) :=
  match s.kind with
  | .concat _ inputs => some (s.toConcat element inputs)
  | .select _ index => some (s.toSelect element index)
  | _ => none

def setIndex (index : Nat) (s : Shape) : Option (Except Fault Shape) :=
  match s.kind with
  | .select element _ => some (.ok { s with kind := .select element index })
  | _ => none

def setArray (isArray : Bool) (s : Shape) : Option (Except Fault Shape) :=
  match s.kind with
  | .render _ => some (s.toRender isArray)
  | _ => none

/-! ## Adapting to the other end of a link -/

/-- The whole of an addition takes any scalar type that it meets. -/
def meetOperand (s : Shape) (current met : PinType) : Shape :=
  if met.isUntyped || met.isArray || met == current then s else s.toAdd met

/-- The base that an input of a render pass may take as a scalar or as an array. -/
def renderBase? (index : Nat) : Option String :=
  if index = renderEye then some Base.eye
  else if index = renderTarget then some Base.target
  else none

/-- A link from an output of type `source` is about to enter input `index`. -/
def meetSource (s : Shape) (index : Nat) (source : PinType) : Except Fault Shape :=
  match s.kind with
  | .convert fromType toType =>
    if source == fromType then .ok s else s.toConvert source (toType.withArray source.isArray)
  | .concat element inputs =>
    if !source.isArray && !source.isUntyped && source != element then s.toConcat source inputs
    else .ok s
  | .select element i =>
    if source.isArray && !source.isUntyped && source.element != element then
      s.toSelect source.element i
    else .ok s
  | .render isArray =>
    if renderBase? index == some source.base && source.isArray != isArray then
      s.toRender source.isArray
    else .ok s
  | .add type => .ok (s.meetOperand type source)
  | _ => .ok s

/-- A link to an input of type `target` is about to leave one of the outputs. -/
def meetTarget (s : Shape) (target : PinType) : Except Fault Shape :=
  match s.kind with
  | .convert fromType toType =>
    if target == toType then .ok s else s.toConvert (fromType.withArray target.isArray) target
  | .add type => .ok (s.meetOperand type target)
  | _ => .ok s

end Shape

end FrameGraph
