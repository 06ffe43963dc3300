/-
  FrameGraph.Pipeline.Basic: what the renderer runs every frame.

  A pipeline is a list of operations in execution order. Each consumes results of earlier
  operations, by position: one result, or several in order.
-/

import FrameGraph.Compile.Operation
import FrameGraph.Log

namespace FrameGraph

inductive Operand where
  | single (index : Nat)
  | many (indices : List Nat)
  deriving DecidableEq, Repr

def Operand.text : Operand → String
  | single index => "Single(" ++ toString index ++ ")"
  | many indices => "Many([" ++ ", ".intercalate (indices.map toString) ++ "])"

structure PipelineOperation where
  kind : OperationKind
  name : String
  type : PinType
  inputs : List Operand
  deriving DecidableEq, Repr

structure Pipeline where
  operations : List PipelineOperation
  deriving DecidableEq, Repr

namespace Pipeline

def empty : Pipeline := ⟨[]⟩

def size (p : Pipeline) : Nat := p.operations.length

def append (p : Pipeline) (ops : List PipelineOperation) : Pipeline := ⟨p.operations ++ ops⟩

def rowEvent (op : PipelineOperation) (index : Nat) : Event :=
  .pipelineRow index op.kind.name op.name ("[" ++ ", ".intercalate (op.inputs.map Operand.text) ++ "]")

/-- The report of a whole pipeline: its size, then a row for each operation. -/
def events (p : Pipeline) : List Event :=
  .pipeline p.size :: p.operations.mapIdx fun i op => rowEvent op i

end Pipeline

end FrameGraph
