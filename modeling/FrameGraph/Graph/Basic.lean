/-
  FrameGraph.Graph.Basic: graphs of nodes joined by links between their pins.

  A graph owns its nodes, pins and links in four tables that refer to each other by id. All
  ids come from one counter. A link runs from an output to an input; the input also remembers
  the output that feeds it. The last evaluation leaves a mark on each node that it compiled
  and a value on each of that node's outputs.
-/

import FrameGraph.Binary32
import FrameGraph.Error
import FrameGraph.Node.Kind
import FrameGraph.Table
import FrameGraph.Uuid

namespace FrameGraph

structure InputPin where
  id : PinId
  node : NodeId
  name : String
  type : PinType
  optional : Bool
  connection : Option PinId
  deriving DecidableEq, Repr

structure OutputPin where
  id : PinId
  node : NodeId
  name : String
  type : PinType
  value : Option Handle
  deriving DecidableEq, Repr

structure Link where
  id : LinkId
  input : PinId
  output : PinId
  deriving DecidableEq, Repr

structure Position where
  x : Binary32
  y : Binary32
  deriving DecidableEq, Repr

def Position.origin : Position := ⟨.zero, .zero⟩

structure Node where
  id : NodeId
  kind : Kind
  position : Position
  inputs : List PinId
  outputs : List PinId
  evaluated : Bool
  deriving DecidableEq, Repr

structure Graph where
  id : Uuid
  name : String
  nextId : Nat
  terminal : Option NodeId
  nodes : Table NodeId Node
  inputPins : Table PinId InputPin
  outputPins : Table PinId OutputPin
  links : Table LinkId Link
  deriving DecidableEq, Repr

def Link.touches (l : Link) (pin : PinId) : Bool := l.input == pin || l.output == pin

def Node.pins (n : Node) : List PinId := n.inputs ++ n.outputs

namespace Graph

def new (id : Uuid) (name : String) : Graph :=
  ⟨id, name, 0, none, .empty, .empty, .empty, .empty⟩

def untitled : String := "Untitled"

/-! ## Looking up -/

def linksFrom (g : Graph) (output : PinId) : List Link :=
  g.links.values.filter fun l => l.output == output

def linkInto? (g : Graph) (input : PinId) : Option Link :=
  g.links.values.find? fun l => l.input == input

def getNode (g : Graph) (id : NodeId) : Except Fault Node :=
  match g.nodes.get? id with
  | some n => .ok n
  | none => .error (.unregisteredNode id)

def getInput (g : Graph) (id : PinId) : Except Fault InputPin :=
  match g.inputPins.get? id with
  | some p => .ok p
  | none => .error (.unregisteredInput id)

def getOutput (g : Graph) (id : PinId) : Except Fault OutputPin :=
  match g.outputPins.get? id with
  | some p => .ok p
  | none => .error (.unregisteredOutput id)

/-- Position of a pin among its owner's inputs, or among its outputs. -/
def pinIndex (g : Graph) (owner : NodeId) (pin : PinId) : Except Fault Nat := do
  let n ← g.getNode owner
  match n.pins.findIdx? (· == pin) with
  | some i => return if i < n.inputs.length then i else i - n.inputs.length
  | none => throw (.unlistedPin pin owner)

/-! ## Forgetting an evaluation -/

def resetEvaluation (g : Graph) : Graph :=
  { g with
    nodes := g.nodes.map fun n => { n with evaluated := false }
    outputPins := g.outputPins.map fun p => { p with value := none } }

end Graph

end FrameGraph
