/-
  FrameGraph.Graph.Nodes: adding, removing, placing and choosing nodes.

  A new node draws its id first, then one for each input and each output that its kind
  declares. Removing a node takes its pins and every link that touches them along.
-/

import FrameGraph.Graph.Links

namespace FrameGraph

namespace Graph

/-! ## Adding -/

def addInput (g : Graph) (node : NodeId) (spec : PinSpec) : Graph × PinId :=
  let id : PinId := ⟨g.nextId⟩
  ({ g with
      nextId := g.nextId + 1
      inputPins := g.inputPins.insert id ⟨id, node, spec.name, spec.type, spec.optional, none⟩ }, id)

def addOutput (g : Graph) (node : NodeId) (spec : PinSpec) : Graph × PinId :=
  let id : PinId := ⟨g.nextId⟩
  ({ g with
      nextId := g.nextId + 1
      outputPins := g.outputPins.insert id ⟨id, node, spec.name, spec.type, none⟩ }, id)

def addInputs (node : NodeId) : List PinSpec → Graph → Graph × List PinId
  | [], g => (g, [])
  | spec :: specs, g =>
    let (g, id) := g.addInput node spec
    let (g, ids) := addInputs node specs g
    (g, id :: ids)

def addOutputs (node : NodeId) : List PinSpec → Graph → Graph × List PinId
  | [], g => (g, [])
  | spec :: specs, g =>
    let (g, id) := g.addOutput node spec
    let (g, ids) := addOutputs node specs g
    (g, id :: ids)

def addNode (g : Graph) (kind : Kind) (position : Position) : Outcome NodeId :=
  let id : NodeId := ⟨g.nextId⟩
  let g := { g with nextId := g.nextId + 1 }
  let (g, inputs) := addInputs id kind.inputSpecs g
  let (g, outputs) := addOutputs id kind.outputSpecs g
  ⟨{ g with nodes := g.nodes.insert id ⟨id, kind, position, inputs, outputs, false⟩ },
    [.addedNode g.id id kind.label], id⟩

/-! ## Removing -/

def eraseInputs (g : Graph) (pins : List PinId) : Graph :=
  { g with inputPins := pins.foldl Table.erase g.inputPins }

def eraseOutputs (g : Graph) (pins : List PinId) : Graph :=
  { g with outputPins := pins.foldl Table.erase g.outputPins }

def removeNode (g : Graph) (id : NodeId) : Outcome (Option Node) :=
  match g.nodes.get? id with
  | none => ⟨g, [], none⟩
  | some n =>
    let stale := (g.linksTouching n.pins).map Link.id
    let (g, events) := disconnectAll (fun _ => []) stale { g with nodes := g.nodes.erase id }
    let g := (g.eraseInputs n.inputs).eraseOutputs n.outputs
    ⟨{ g with terminal := if g.terminal = some id then none else g.terminal },
      events ++ [.removedNode g.id id], some n⟩

/-! ## Placing and choosing -/

def setPosition (g : Graph) (id : NodeId) (position : Position) : Outcome (Except GraphError Unit) :=
  match g.nodes.get? id with
  | none => ⟨g, [], .error (.invalidNode id)⟩
  | some _ =>
    ⟨{ g with nodes := g.nodes.modify id fun n => { n with position } }, [], .ok ()⟩

def setTerminal (g : Graph) (id : NodeId) : Outcome (Except GraphError Unit) :=
  if g.nodes.contains id then ⟨{ g with terminal := some id }, [], .ok ()⟩
  else ⟨g, [], .error (.invalidNode id)⟩

end Graph

end FrameGraph
