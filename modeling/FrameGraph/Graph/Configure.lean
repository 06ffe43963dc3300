/-
  FrameGraph.Graph.Configure: changing a node's settings.

  A setter answers with the links that it removed: those that the new pin types made stale,
  or, when inputs are dropped, those that fed them.
-/

import FrameGraph.Graph.Connect
import FrameGraph.Graph.Nodes

namespace FrameGraph

namespace Graph

/-- Applies a setting to a node's shape; `misfit` is the complaint if the kind has none. -/
def reconfigure (g : Graph) (id : NodeId) (setting : Shape → Option (Except Fault Shape))
    (misfit : String → Misfit) : Except Fault (Outcome (Except GraphError (List LinkId))) :=
  match g.nodes.get? id with
  | none => .ok ⟨g, [], .error (.invalidNode id)⟩
  | some n => do
    match setting (← g.shape id) with
    | none => return ⟨g, [], .error (.invalidConfiguration id (misfit n.kind.label))⟩
    | some changed =>
      let g ← g.setShape id (← changed)
      let valid ← g.revalidate [id]
      return ⟨valid.graph, valid.events, .ok valid.result⟩

def setConvertFrom (g : Graph) (id : NodeId) (type : PinType) :
    Except Fault (Outcome (Except GraphError (List LinkId))) :=
  g.reconfigure id (Shape.setFrom type) .notConvert

def setConvertTo (g : Graph) (id : NodeId) (type : PinType) :
    Except Fault (Outcome (Except GraphError (List LinkId))) :=
  g.reconfigure id (Shape.setTo type) .notConvert

def setSelectIndex (g : Graph) (id : NodeId) (index : Nat) :
    Except Fault (Outcome (Except GraphError (List LinkId))) :=
  g.reconfigure id (Shape.setIndex index) .notSelect

/-! ## The number of inputs -/

/-- Drops inputs, each with the link that feeds it. -/
def dropInputs : List PinId → Graph → Outcome (List LinkId)
  | [], g => ⟨g, [], []⟩
  | pin :: pins, g =>
    let fed := ((g.linkInto? pin).map Link.id).toList
    let (g, events) := disconnectAll (fun _ => []) fed g
    let rest := dropInputs pins (g.eraseInputs [pin])
    ⟨rest.graph, events ++ rest.events, fed ++ rest.result⟩

/-- The pins that a kind wants between its present number of inputs and a greater one. -/
def missingInputs (kind : Kind) (current count : Nat) : List PinSpec :=
  (List.range' current (count - current)).filterMap kind.inputSpecAt?

def resizeNode (n : Node) (count : Nat) (added : List PinId) : Node :=
  { n with inputs := n.inputs.take count ++ added, kind := n.kind.withInputCount count }

def setInputCount (g : Graph) (id : NodeId) (count : Nat) :
    Outcome (Except GraphError (List LinkId)) :=
  match g.nodes.get? id with
  | none => ⟨g, [], .error (.invalidNode id)⟩
  | some n =>
    match n.kind.minInputs? with
    | none => ⟨g, [], .error (.invalidConfiguration id (.notVariable n.kind.label))⟩
    | some least =>
      if count < least then
        ⟨g, [], .error (.invalidConfiguration id (.tooFewInputs n.kind.label least count))⟩
      else
        let dropped := dropInputs (n.inputs.drop count) g
        let (g, added) :=
          addInputs id (missingInputs n.kind n.inputs.length count) dropped.graph
        ⟨{ g with nodes := g.nodes.modify id fun n => resizeNode n count added },
          dropped.events ++ [.resized g.id id count], .ok dropped.result⟩

end Graph

end FrameGraph
