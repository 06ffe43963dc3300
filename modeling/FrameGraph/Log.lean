/-
  FrameGraph.Log: what edits, evaluation and extraction report while they run.

  An event is what happened; its line is a level, a message and named fields in a fixed order.
-/

import FrameGraph.PinType
import FrameGraph.Uuid
import FrameGraph.Id
import FrameGraph.Text.Writing

namespace FrameGraph

inductive Event where
  | addedNode (graph : Uuid) (node : NodeId) (kind : String)
  | removedNode (graph : Uuid) (node : NodeId)
  | connected (graph : Uuid) (link : LinkId) (output input : PinId) (type : PinType)
  | disconnected (graph : Uuid) (link : LinkId)
  | invalidated (graph : Uuid) (link : LinkId)
  | resized (graph : Uuid) (node : NodeId) (count : Nat)
  | restoredLinks (graph : Uuid) (links : Nat)
  | evaluating (graph : Uuid) (terminal : NodeId)
  | compiling (node : NodeId) (kind : String)
  | evaluated (nodes : Nat)
  | pipelineTakenTwice
  | constructingPipeline
  | transferred (index : Nat) (operation name : String)
  | pipeline (operations : Nat)
  | pipelineRow (index : Nat) (operation name inputs : String)
  | programTakenTwice
  | generatedProgram (material stage : String) (statements : Nat)
  | compilingPipeline (graph : Uuid) (name : String)
  | compiledPipeline (operations : Nat)
  | generatingMaterial (graph : Uuid) (material stage : String)
  | rejectedProgram (material diagnostic : String)
  deriving DecidableEq, Repr

namespace Event

inductive Level where
  | error
  | info
  | debug
  | trace
  deriving DecidableEq, Repr

def Level.text : Level → String
  | .error => "ERROR"
  | .info => "INFO"
  | .debug => "DEBUG"
  | .trace => "TRACE"

def level : Event → Level
  | pipelineTakenTwice | programTakenTwice | rejectedProgram .. => .error
  | compilingPipeline .. | compiledPipeline _ | generatingMaterial .. => .info
  | compiling .. | constructingPipeline | transferred .. => .trace
  | _ => .debug

def message : Event → String
  | addedNode .. => "Added node"
  | removedNode .. => "Removed node"
  | connected .. => "Connected"
  | disconnected .. => "Disconnected"
  | invalidated .. => "Link invalidated by retyping"
  | resized .. => "Resized inputs"
  | restoredLinks .. => "Restored links"
  | evaluating .. => "Evaluating graph"
  | compiling .. => "Compiling node"
  | evaluated _ => "Graph evaluated"
  | pipelineTakenTwice => "Tried to construct a pipeline twice from the same evaluator"
  | constructingPipeline => "Constructing pipeline"
  | transferred index operation name =>
    "[" ++ Text.rowNumber index ++ "] Operation: " ++ Text.padRight 40 operation ++ " Name: " ++ name
  | pipeline _ => "Pipeline"
  | pipelineRow index operation name inputs =>
    "[" ++ Text.rowNumber index ++ "] " ++ Text.padRight 20 operation ++ " "
      ++ Text.padRight 30 name ++ " " ++ inputs
  | programTakenTwice => "Tried to generate a program twice from the same evaluator"
  | generatedProgram .. => "Generated program source"
  | compilingPipeline .. => "Compiling render pipeline"
  | compiledPipeline _ => "Render pipeline compiled"
  | generatingMaterial .. => "Generating material source"
  | rejectedProgram _ diagnostic => diagnostic

def fields : Event → List (String × String)
  | addedNode graph node kind => [("graph", toString graph), ("node", toString node), ("kind", kind)]
  | removedNode graph node => [("graph", toString graph), ("node", toString node)]
  | connected graph link output input type =>
    [("graph", toString graph), ("link", toString link), ("output", toString output),
      ("input", toString input), ("pin_type", toString type)]
  | disconnected graph link => [("graph", toString graph), ("link", toString link)]
  | invalidated graph link => [("graph", toString graph), ("link", toString link)]
  | resized graph node count =>
    [("graph", toString graph), ("node", toString node), ("count", toString count)]
  | restoredLinks graph links => [("graph", toString graph), ("links", toString links)]
  | evaluating graph terminal => [("graph", toString graph), ("terminal", toString terminal)]
  | compiling node kind => [("node", toString node), ("kind", kind)]
  | evaluated nodes => [("nodes", toString nodes)]
  | pipeline operations => [("operations", toString operations)]
  | generatedProgram material stage statements =>
    [("material", material), ("stage", stage), ("statements", toString statements)]
  | compilingPipeline graph name => [("graph", toString graph), ("name", name)]
  | compiledPipeline operations => [("operations", toString operations)]
  | generatingMaterial graph material stage =>
    [("graph", toString graph), ("material", material), ("stage", stage)]
  | rejectedProgram material _ => [("material", material)]
  | pipelineTakenTwice | constructingPipeline | transferred .. | pipelineRow .. | programTakenTwice =>
    []

def line (e : Event) : String :=
  (e.fields).foldl (fun s f => s ++ " " ++ f.1 ++ "=" ++ f.2)
    (e.level.text ++ " " ++ e.message)

end Event

end FrameGraph
