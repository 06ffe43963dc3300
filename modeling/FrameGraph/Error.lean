/-
  FrameGraph.Error: what can go wrong.

  An edit may be refused, and leaves the graph as it was; a graph may not compile. Both are
  answers to a mistake. A fault is not: graphs built by edits, and documents that pass the
  loader's checks, list only pins that are registered, and back ends consume only values they
  have recorded. It says which of these promises an operation found broken.
-/

import FrameGraph.Id
import FrameGraph.PinType

namespace FrameGraph

/-! ## References that lead nowhere -/

inductive Fault where
  | unregisteredNode (node : NodeId)
  | unregisteredInput (pin : PinId)
  | unregisteredOutput (pin : PinId)
  | unlistedPin (pin : PinId) (owner : NodeId)
  | missingSlot (index : Nat)
  | wrongValueCount (node : NodeId)
  | unrecordedValue (value : Handle)
  | endlessGroup (value : Handle)
  deriving DecidableEq, Repr

/-! ## Edits that are refused -/

/-- Why a setting does not fit a node. -/
inductive Misfit where
  | notConvert (label : String)
  | notSelect (label : String)
  | notVariable (label : String)
  | tooFewInputs (label : String) (least count : Nat)
  deriving DecidableEq, Repr

def Misfit.message : Misfit → String
  | notConvert label => label ++ " is not a Convert node"
  | notSelect label => label ++ " is not a Select node"
  | notVariable label => label ++ " is not a variable-input node"
  | tooFewInputs label least count =>
    label ++ " needs at least " ++ toString least ++ " inputs, got " ++ toString count

inductive GraphError where
  | invalidPin (pin : PinId)
  | invalidNode (node : NodeId)
  | typeMismatch (output input : PinId) (outputType inputType : PinType)
  | invalidConfiguration (node : NodeId) (reason : Misfit)
  deriving DecidableEq, Repr

def GraphError.message : GraphError → String
  | invalidPin pin => "Invalid pin: " ++ toString pin
  | invalidNode node => "Invalid node: " ++ toString node
  | typeMismatch output input outputType inputType =>
    "Cannot connect " ++ toString output ++ " (" ++ toString outputType ++ ") to "
      ++ toString input ++ " (" ++ toString inputType ++ ")"
  | invalidConfiguration node reason =>
    "Invalid configuration for " ++ toString node ++ ": " ++ reason.message

/-! ## Graphs that do not compile -/

inductive CompileError where
  | missingRequiredInput (node : NodeId) (pin : String)
  | unsupportedConversion (node : NodeId) (fromType toType : PinType)
  | indexOutOfRange (node : NodeId) (index length : Nat)
  | mismatchedArrayLengths (node : NodeId) (eyes targets : Nat)
  | alreadyCompiled
  | noTerminalNode
  | cyclicDependency (node : NodeId)
  | toolchain (diagnostic : String)
  deriving DecidableEq, Repr

namespace CompileError

def message : CompileError → String
  | missingRequiredInput node pin =>
    "Node " ++ toString node ++ " is missing required input '" ++ pin ++ "'"
  | unsupportedConversion node fromType toType =>
    "Node " ++ toString node ++ " has no conversion from " ++ toString fromType ++ " to "
      ++ toString toType
  | indexOutOfRange node index length =>
    "Node " ++ toString node ++ " selects index " ++ toString index ++ " of an array of length "
      ++ toString length
  | mismatchedArrayLengths node eyes targets =>
    "Node " ++ toString node ++ " renders " ++ toString eyes ++ " eyes into " ++ toString targets
      ++ " targets"
  | alreadyCompiled => "Evaluator was already compiled"
  | noTerminalNode => "Graph has no terminal node"
  | cyclicDependency node => "Cyclic dependency through node " ++ toString node
  | toolchain diagnostic => "Program toolchain failed: " ++ diagnostic

/-- The node at which the trouble shows. -/
def node? : CompileError → Option NodeId
  | missingRequiredInput node _ | unsupportedConversion node _ _ | indexOutOfRange node _ _
  | mismatchedArrayLengths node _ _ | cyclicDependency node => some node
  | alreadyCompiled | noTerminalNode | toolchain _ => none

end CompileError

/-- What ends a compilation early: a mistake in the graph, or a broken promise. -/
inductive Stop where
  | error (e : CompileError)
  | fault (f : Fault)
  deriving DecidableEq, Repr

end FrameGraph
