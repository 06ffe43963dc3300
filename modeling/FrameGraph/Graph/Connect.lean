/-
  FrameGraph.Graph.Connect: joining an output to an input.

  Both nodes first adapt: the entered one to the output's type, then the left one to the type
  that the input has by now. If the types still differ, both nodes get their shapes back and
  the link is refused. Otherwise a link that fed the input is replaced, and links that the
  adapting made stale are removed.
-/

import FrameGraph.Graph.Links
import FrameGraph.Node.Shape

namespace FrameGraph

namespace Graph

/-! ## Shapes of nodes in place -/

def inputTypes (g : Graph) (pins : List PinId) : Except Fault (List PinType) :=
  pins.mapM fun p => do return (← g.getInput p).type

def outputTypes (g : Graph) (pins : List PinId) : Except Fault (List PinType) :=
  pins.mapM fun p => do return (← g.getOutput p).type

def shape (g : Graph) (id : NodeId) : Except Fault Shape := do
  let n ← g.getNode id
  return ⟨n.kind, ← g.inputTypes n.inputs, ← g.outputTypes n.outputs⟩

def assignInputs (g : Graph) (types : List (PinId × PinType)) : Graph :=
  { g with
    inputPins := types.foldl (fun t e => t.modify e.1 fun p => { p with type := e.2 }) g.inputPins }

def assignOutputs (g : Graph) (types : List (PinId × PinType)) : Graph :=
  { g with
    outputPins := types.foldl (fun t e => t.modify e.1 fun p => { p with type := e.2 }) g.outputPins }

/-- Gives a node the kind and pin types of a shape. -/
def setShape (g : Graph) (id : NodeId) (s : Shape) : Except Fault Graph := do
  let n ← g.getNode id
  let g := { g with nodes := g.nodes.modify id fun n => { n with kind := s.kind } }
  return (g.assignInputs (n.inputs.zip s.inputs)).assignOutputs (n.outputs.zip s.outputs)

def updateShape (g : Graph) (id : NodeId) (f : Shape → Except Fault Shape) : Except Fault Graph := do
  g.setShape id (← f (← g.shape id))

/-! ## Linking -/

/-- Lets the nodes at both ends of a link to be adapt to each other. -/
def adapt (g : Graph) (output input : PinId) : Except Fault Graph := do
  let source ← g.getOutput output
  let target ← g.getInput input
  let index ← g.pinIndex target.node input
  let entered ← g.updateShape target.node fun s => s.meetSource index source.type
  let _ ← entered.pinIndex source.node output
  let target ← entered.getInput input
  entered.updateShape source.node fun s => s.meetTarget target.type

/-- Enters a link between pins that match, in place of the one that fed the input. -/
def link (g : Graph) (output input : PinId) (type : PinType) : Outcome LinkId :=
  let replaced := ((g.linkInto? input).map Link.id).toList
  let (g, events) := disconnectAll (fun _ => []) replaced g
  let id : LinkId := ⟨g.nextId⟩
  ⟨{ g with
      nextId := g.nextId + 1
      links := g.links.insert id ⟨id, input, output⟩
      inputPins := g.inputPins.modify input fun p => { p with connection := some output } },
    events ++ [.connected g.id id output input type], id⟩

def connect (g : Graph) (output input : PinId) :
    Except Fault (Outcome (Except GraphError LinkId)) :=
  match g.outputPins.get? output, g.inputPins.get? input with
  | none, _ => .ok ⟨g, [], .error (.invalidPin output)⟩
  | some _, none => .ok ⟨g, [], .error (.invalidPin input)⟩
  | some source, some target => do
    let sourceShape ← g.shape source.node
    let targetShape ← g.shape target.node
    let adapted ← g.adapt output input
    let outputType := (← adapted.getOutput output).type
    let inputType := (← adapted.getInput input).type
    if outputType.compatible inputType then
      let linked := adapted.link output input inputType
      let valid ← linked.graph.revalidate [source.node, target.node]
      return ⟨valid.graph, linked.events ++ valid.events, .ok linked.result⟩
    else
      let restored ← adapted.setShape target.node targetShape
      let restored ← restored.setShape source.node sourceShape
      return ⟨restored, [], .error (.typeMismatch output input outputType inputType)⟩

end Graph

end FrameGraph
