/-
  FrameGraph.Graph.Links: taking links away.

  Removing a link also clears the memory of the input that it fed, if the input still
  remembers that output. A link is stale when the types at its ends no longer match; stale
  links on given nodes are removed in the order of the link table.
-/

import FrameGraph.Graph.Basic
import FrameGraph.Log

namespace FrameGraph

/-- A graph after an edit, what was logged on the way, and the answer. -/
structure Outcome (α : Type) where
  graph : Graph
  events : List Event
  result : α

namespace Graph

/-- Forgets that `input` is fed by `output`. -/
def detach (g : Graph) (input output : PinId) : Graph :=
  { g with
    inputPins := g.inputPins.modify input fun p =>
      if p.connection = some output then { p with connection := none } else p }

/-- Removes a link; an unknown id is ignored. -/
def disconnect (g : Graph) (id : LinkId) : Outcome (Option Link) :=
  match g.links.get? id with
  | none => ⟨g, [], none⟩
  | some l =>
    ⟨({ g with links := g.links.erase id }).detach l.input l.output, [.disconnected g.id id], some l⟩

/-- Removes links one after another, each announced by some events of its own. -/
def disconnectAll (announce : LinkId → List Event) : List LinkId → Graph → Graph × List Event
  | [], g => (g, [])
  | id :: ids, g =>
    let step := g.disconnect id
    let (g, events) := disconnectAll announce ids step.graph
    (g, announce id ++ step.events ++ events)

def linksTouching (g : Graph) (pins : List PinId) : List Link :=
  g.links.values.filter fun l => pins.any l.touches

/-! ## Stale links -/

def typesMatch (g : Graph) (l : Link) : Except Fault Bool := do
  let output ← g.getOutput l.output
  let input ← g.getInput l.input
  return output.type.compatible input.type

/-- The links whose types do not match, in order. -/
def mismatched (g : Graph) : List Link → Except Fault (List LinkId)
  | [] => .ok []
  | l :: ls => do
    let fits ← g.typesMatch l
    let rest ← g.mismatched ls
    return if fits then rest else l.id :: rest

def pinsOf (g : Graph) : List NodeId → Except Fault (List PinId)
  | [] => .ok []
  | id :: ids => do
    let n ← g.getNode id
    let rest ← g.pinsOf ids
    return n.pins ++ rest

/-- Removes the stale links on the given nodes and names them. -/
def revalidate (g : Graph) (nodes : List NodeId) : Except Fault (Outcome (List LinkId)) := do
  let pins ← g.pinsOf nodes
  let stale ← g.mismatched (g.linksTouching pins)
  let (after, events) := disconnectAll (fun id => [.invalidated g.id id]) stale g
  return ⟨after, events, stale⟩

end Graph

end FrameGraph
