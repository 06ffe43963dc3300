/-
  FrameGraph.Compile.Operation: what nodes ask a back end to record.

  An operation names what is to be done, the type of its result and the values that it
  consumes, by handle. Pipeline operations are run by the renderer, material operations become
  statements of a program.
-/

import FrameGraph.Id
import FrameGraph.PinType

namespace FrameGraph

inductive OperationKind where
  | provideCamera
  | provideEditorCamera
  | provideTarget
  | provideEditorTarget
  | provideEntities
  | eyeFromCamera
  | targetFromCamera
  | selectElement (index : Nat)
  | render
  | editorRender
  | outputToScreen
  | property (name : String)
  | sampler (name : String)
  | varying (name : String)
  | construct
  | add
  | sample2D
  | fragmentColor
  deriving DecidableEq, Repr

def OperationKind.name : OperationKind → String
  | provideCamera => "ProvideCamera"
  | provideEditorCamera => "ProvideEditorCamera"
  | provideTarget => "ProvideTarget"
  | provideEditorTarget => "ProvideEditorTarget"
  | provideEntities => "ProvideEntities"
  | eyeFromCamera => "EyeFromCamera"
  | targetFromCamera => "TargetFromCamera"
  | selectElement _ => "SelectElement"
  | render => "Render"
  | editorRender => "EditorRender"
  | outputToScreen => "OutputToScreen"
  | property _ => "Property"
  | sampler _ => "Sampler"
  | varying _ => "Varying"
  | construct => "Construct"
  | add => "Add"
  | sample2D => "Sample2D"
  | fragmentColor => "FragmentColor"

structure Operation where
  kind : OperationKind
  name : String
  type : PinType
  operands : List Handle
  deriving DecidableEq, Repr

/-- An operation named after its kind. -/
def Operation.plain (kind : OperationKind) (type : PinType) (operands : List Handle) : Operation :=
  ⟨kind, kind.name, type, operands⟩

def Operation.named (op : Operation) (name : String) : Operation := { op with name }

end FrameGraph
