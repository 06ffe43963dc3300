/-
  FrameGraph.Graph.Check: which stored graphs may be loaded.

  Three checks come first, in this order: every object is stored under its own id, ids are
  used once across the four tables and lie below the counter; every node lists exactly the
  pins that belong to it, as many as its kind declares; the terminal exists. Then the links
  are entered one by one into the memories of the inputs that they feed, with the types taken
  as stored. A graph is loaded as it stands or refused.
-/

import FrameGraph.Graph.Basic
import FrameGraph.Log

namespace FrameGraph

inductive GraphDefect where
  | unknownPin (link : LinkId) (pin : PinId)
  | inconsistentLink (link : LinkId) (outputType inputType : PinType)
  | duplicateInput (link : LinkId) (pin : PinId)
  | mismatchedId (key id : Nat)
  | duplicateId (id : Nat)
  | staleIdCounter (nextId greatest : Nat)
  | unownedPin (node : NodeId) (pin : PinId)
  | unlistedPin (pin : PinId)
  | pinCountMismatch (node : NodeId) (label : String) (inputs outputs wantedInputs wantedOutputs : Nat)
  | unknownTerminal (node : NodeId)
  deriving DecidableEq, Repr

def GraphDefect.message : GraphDefect → String
  | unknownPin link pin => "Link " ++ toString link ++ " refers to unknown pin " ++ toString pin
  | inconsistentLink link outputType inputType =>
    "Link " ++ toString link ++ " joins " ++ toString outputType ++ " to " ++ toString inputType
  | duplicateInput link pin =>
    "Link " ++ toString link ++ " feeds already connected input " ++ toString pin
  | mismatchedId key id => "Entry " ++ toString key ++ " holds an object with id " ++ toString id
  | duplicateId id => "Id " ++ toString id ++ " is used more than once"
  | staleIdCounter nextId greatest =>
    "Next id " ++ toString nextId ++ " does not exceed the largest id " ++ toString greatest
  | unownedPin node pin =>
    "Node " ++ toString node ++ " lists pin " ++ toString pin ++ " it does not own"
  | unlistedPin pin => "Pin " ++ toString pin ++ " belongs to no node"
  | pinCountMismatch node label inputs outputs wantedInputs wantedOutputs =>
    label ++ " node " ++ toString node ++ " has " ++ toString inputs ++ " inputs and "
      ++ toString outputs ++ " outputs, expected " ++ toString wantedInputs ++ " and "
      ++ toString wantedOutputs
  | unknownTerminal node => "Terminal node " ++ toString node ++ " does not exist"

namespace Graph

/-! ## Ids -/

/-- Key and stored id of every object, table by table. -/
def storedIds (g : Graph) : List (Nat × Nat) :=
  g.nodes.entries.map (fun e => (e.1.val, e.2.id.val))
    ++ g.inputPins.entries.map (fun e => (e.1.val, e.2.id.val))
    ++ g.outputPins.entries.map (fun e => (e.1.val, e.2.id.val))
    ++ g.links.entries.map (fun e => (e.1.val, e.2.id.val))

/-- Collects the ids in `seen`, refusing one under a foreign key or met before. -/
def collectIds (seen : List Nat) : List (Nat × Nat) → Except GraphDefect (List Nat)
  | [] => .ok seen
  | (key, id) :: rest =>
    if key ≠ id then .error (.mismatchedId key id)
    else if id ∈ seen then .error (.duplicateId id)
    else collectIds (id :: seen) rest

def checkIds (g : Graph) : Except GraphDefect Unit := do
  match (← collectIds [] g.storedIds).max? with
  | none => return ()
  | some greatest => if g.nextId ≤ greatest then throw (.staleIdCounter g.nextId greatest)

/-! ## Pin lists -/

/-- Adds a node's pins to those listed so far, refusing one that the node does not own or
that is listed already. -/
def listPins (node : NodeId) (owns : PinId → Bool) (listed : List PinId) :
    List PinId → Except GraphDefect (List PinId)
  | [] => .ok listed
  | pin :: pins =>
    if owns pin && !(listed.contains pin) then listPins node owns (pin :: listed) pins
    else .error (.unownedPin node pin)

def ownsInput (g : Graph) (node : NodeId) (pin : PinId) : Bool :=
  (g.inputPins.get? pin).any fun p => p.node == node

def ownsOutput (g : Graph) (node : NodeId) (pin : PinId) : Bool :=
  (g.outputPins.get? pin).any fun p => p.node == node

def checkPinCount (n : Node) : Except GraphDefect Unit :=
  let inputs := n.kind.inputSpecs.length
  let outputs := n.kind.outputSpecs.length
  if n.inputs.length = inputs ∧ n.outputs.length = outputs then .ok ()
  else .error
    (.pinCountMismatch n.id n.kind.label n.inputs.length n.outputs.length inputs outputs)

def listNodes (g : Graph) (listed : List PinId) : List Node → Except GraphDefect (List PinId)
  | [] => .ok listed
  | n :: ns => do
    let listed ← listPins n.id (g.ownsInput n.id) listed n.inputs
    let listed ← listPins n.id (g.ownsOutput n.id) listed n.outputs
    checkPinCount n
    g.listNodes listed ns

def checkPins (g : Graph) : Except GraphDefect Unit := do
  let listed ← g.listNodes [] g.nodes.values
  match (g.inputPins.keys ++ g.outputPins.keys).find? fun pin => !(listed.contains pin) with
  | some pin => throw (.unlistedPin pin)
  | none => return ()

def checkTerminal (g : Graph) : Except GraphDefect Unit :=
  match g.terminal with
  | none => .ok ()
  | some id => if g.nodes.contains id then .ok () else .error (.unknownTerminal id)

/-! ## Links -/

/-- Enters one link into the memory of the input that it feeds. -/
def attach (g : Graph) (inputs : Table PinId InputPin) (l : Link) :
    Except GraphDefect (Table PinId InputPin) :=
  match g.outputPins.get? l.output, inputs.get? l.input with
  | none, _ => .error (.unknownPin l.id l.output)
  | some _, none => .error (.unknownPin l.id l.input)
  | some output, some input =>
    if !output.type.compatible input.type then
      .error (.inconsistentLink l.id output.type input.type)
    else if input.connection.isSome then .error (.duplicateInput l.id l.input)
    else .ok (inputs.modify l.input fun p => { p with connection := some l.output })

def forgetConnections (inputs : Table PinId InputPin) : Table PinId InputPin :=
  inputs.map fun p => { p with connection := none }

/-- Checks a stored graph and rebuilds the memories of its inputs. -/
def restore (g : Graph) : Except GraphDefect Graph := do
  g.checkIds
  g.checkPins
  g.checkTerminal
  let inputs ← g.links.values.foldlM g.attach (forgetConnections g.inputPins)
  return { g with inputPins := inputs }

def restoredEvent (g : Graph) : Event := .restoredLinks g.id g.links.size

end Graph

end FrameGraph
