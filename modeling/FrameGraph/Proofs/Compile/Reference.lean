/-
  FrameGraph.Proofs.Compile.Reference: what a graph means, without a back end and without a
  memory of what was compiled before.

  The meaning of an output pin is a tree: an operation with the trees it consumes, or a group
  of trees. A node is computed from the nodes that feed it, each of them computed anew for
  every link that leads to it. The inputs are gone through in order, and the first mistake that
  is met is the answer; meeting a node again on the way down from itself is a cycle.

  Pins and nodes that are not registered are passed over, and a rule that finds other inputs
  than its kind declares has no output. A graph that the loader accepts is never like that.
-/

import FrameGraph.Compile.Pass

namespace FrameGraph

inductive Tree where
  | operation (kind : OperationKind) (name : String) (type : PinType) (operands : List Tree)
  | group (members : List Tree)
  deriving Repr

namespace Tree

/-- An operation named after its kind. -/
def plain (kind : OperationKind) (type : PinType) (operands : List Tree) : Tree :=
  operation kind kind.name type operands

def members? : Tree → Option (List Tree)
  | operation .. => none
  | group members => some members

/-- Groups have no name that a rule could ask for. -/
def name? : Tree → Option String
  | operation _ name _ _ => some name
  | group _ => none

end Tree

/-- Which conversion leads from one base to another. -/
abbrev Registry := String → String → Option Conversion.Known

namespace Reference

/-- What a node sees of an input: the tree, if the input is linked. -/
structure Slot where
  name : String
  type : PinType
  tree : Option Tree

/-! ## Rules -/

section Rules

variable (registry : Registry) (node : NodeId)

def demand (s : Slot) : Except CompileError Tree :=
  match s.tree with
  | some tree => .ok tree
  | none => .error (.missingRequiredInput node s.name)

/-- A group is converted member by member where an array is wanted. -/
def converted (c : Conversion.Known) (fromType toType : PinType) (tree : Tree) : Tree :=
  match if fromType.isArray then tree.members? else none with
  | some members => .group (members.map fun m => .plain c.kind toType.element [m])
  | none => .operation c.kind (Rule.convertName fromType toType) toType [tree]

def convert : List Slot → List PinType → Except CompileError (List Tree)
  | [source], [toType] => do
    let tree ← demand node source
    match registry source.type.base toType.base with
    | none => .error (.unsupportedConversion node source.type toType)
    | some c => return [converted c source.type toType tree]
  | _, _ => return []

def group (inputs : List Slot) : Except CompileError (List Tree) := do
  return [.group (← inputs.mapM (demand node))]

def select (index : Nat) : List Slot → List PinType → Except CompileError (List Tree)
  | [array], [type] => do
    match ← demand node array with
    | .group members =>
      match members[index]? with
      | some item => return [item]
      | none => .error (.indexOutOfRange node index members.length)
    | .operation kind name arrayType operands =>
      return [.operation (.selectElement index) ("Select " ++ toString index ++ " of " ++ name) type
        [.operation kind name arrayType operands]]
  | _, _ => return []

def renderName (target : Tree) : String :=
  match target.name? with
  | some name => "Render to " ++ name
  | none => "Render"

def renderOne (type : PinType) (entities eye target : Tree) : Tree :=
  .operation .render (renderName target) type [entities, eye, target]

/-- Members of a group, or the tree alone. -/
def spread (tree : Tree) : List Tree := tree.members?.getD [tree]

def renderAll (type : PinType) (entities eye target : Tree) : Except CompileError (List Tree) :=
  let eyes := spread eye
  let targets := spread target
  if eyes.length ≠ targets.length then
    .error (.mismatchedArrayLengths node eyes.length targets.length)
  else .ok [.group ((eyes.zip targets).map fun e => renderOne type entities e.1 e.2)]

/-- The fourth input only orders the passes. -/
def render (isArray : Bool) : List Slot → List PinType → Except CompileError (List Tree)
  | [entities, eye, target, _], [type] => do
    let entities ← demand node entities
    let eye ← demand node eye
    let target ← demand node target
    if isArray then renderAll node type entities eye target
    else return [renderOne type entities eye target]
  | _, _ => return []

/-- A terminal needs its first input and has no outputs. -/
def sink : List Slot → Except CompileError (List Tree)
  | input :: _ => do
    let _ ← demand node input
    return []
  | [] => return []

/-- A leaf that names something outside the graph. -/
def named (kind : OperationKind) (name : String) : List PinType → Except CompileError (List Tree)
  | [type] => return [.operation kind name type []]
  | _ => return []

def add : List Slot → List PinType → Except CompileError (List Tree)
  | [a, b], [type] => do
    let a ← demand node a
    let b ← demand node b
    return [.plain .add type [a, b]]
  | _, _ => return []

def sample2D : List Slot → List PinType → Except CompileError (List Tree)
  | [texture, uv], [type] => do
    let texture ← demand node texture
    return [.plain .sample2D type (texture :: uv.tree.toList)]
  | _, _ => return []

def editorRender : List Slot → List PinType → Except CompileError (List Tree)
  | [require], [type] => return [.plain .editorRender type require.tree.toList]
  | _, _ => return []

def rule (k : Kind) (inputs : List Slot) (outputs : List PinType) : Except CompileError (List Tree) :=
  match k with
  | .provider p => return [.operation p.operation p.label p.outputType []]
  | .convert .. => convert registry node inputs outputs
  | .concat .. | .requireLock _ => group node inputs
  | .select _ index => select node index inputs outputs
  | .render isArray => render node isArray inputs outputs
  | .editorRender => editorRender inputs outputs
  | .screen | .materialOutput => sink node inputs
  | .property name _ => named (.property name) name outputs
  | .vertexAttribute name _ => named (.varying name) name outputs
  | .sampler name => named (.sampler name) name outputs
  | .add _ => add node inputs outputs
  | .sample2D => sample2D node inputs outputs

end Rules

end Reference

/-! ## Graphs -/

namespace Graph

def inputsOf (g : Graph) (n : Node) : List InputPin := n.inputs.filterMap g.inputPins.get?

def outputsOf (g : Graph) (n : Node) : List OutputPin := n.outputs.filterMap g.outputPins.get?

/-- The output that feeds an input. -/
def source? (g : Graph) (input : InputPin) : Option OutputPin :=
  input.connection.bind g.outputPins.get?

/-- The tree of one output among those of its node. -/
def treeOf (g : Graph) (output : OutputPin) (trees : List Tree) : Option Tree :=
  (g.nodes.get? output.node).bind fun n => (n.outputs.zip trees).lookup output.id

mutual

/-- The trees of a node's outputs, below the nodes of a path. -/
def compute (g : Graph) (registry : Registry) (path : List NodeId) (id : NodeId) :
    Except CompileError (List Tree) :=
  match _ : g.nodes.get? id with
  | none => .ok []
  | some n =>
    if _ : id ∈ path then .error (.cyclicDependency id)
    else
      match g.computeInputs registry (id :: path) id (g.inputsOf n) with
      | .error e => .error e
      | .ok slots => Reference.rule registry id n.kind slots ((g.outputsOf n).map OutputPin.type)
termination_by (g.offPath path, 0)
decreasing_by exact Prod.Lex.left _ _ (offPath_lt (by assumption) (by assumption))

def computeInputs (g : Graph) (registry : Registry) (path : List NodeId) (node : NodeId)
    (inputs : List InputPin) : Except CompileError (List Reference.Slot) :=
  match inputs with
  | [] => .ok []
  | input :: inputs =>
    match g.source? input with
    | none =>
      if input.optional then do
        return ⟨input.name, input.type, none⟩ :: (← g.computeInputs registry path node inputs)
      else .error (.missingRequiredInput node input.name)
    | some output => do
      let trees ← g.compute registry path output.node
      return ⟨input.name, input.type, g.treeOf output trees⟩ :: (← g.computeInputs registry path node inputs)
termination_by (g.offPath path, inputs.length + 1)

end

/-- The meaning of a node on its own. -/
def meaning (g : Graph) (registry : Registry) (id : NodeId) : Except CompileError (List Tree) :=
  g.compute registry [] id

section Steps

variable {g : Graph} {registry : Registry} {path : List NodeId} {id : NodeId} {n : Node}

theorem compute_registered (hn : g.nodes.get? id = some n) : g.compute registry path id =
    if id ∈ path then .error (.cyclicDependency id)
    else g.computeInputs registry (id :: path) id (g.inputsOf n) >>= fun slots =>
      Reference.rule registry id n.kind slots ((g.outputsOf n).map OutputPin.type) := by
  rw [compute]
  split
  · rename_i h
    rw [h] at hn
    cases hn
  · rename_i m hm
    rw [hn] at hm
    cases hm
    cases g.computeInputs registry (id :: path) id (g.inputsOf n) <;> rfl

theorem compute_cycle (hn : g.nodes.get? id = some n) (met : id ∈ path) :
    g.compute registry path id = .error (.cyclicDependency id) := by
  rw [compute_registered hn, if_pos met]

theorem compute_new (hn : g.nodes.get? id = some n) (new : id ∉ path) :
    g.compute registry path id = g.computeInputs registry (id :: path) id (g.inputsOf n) >>= fun slots =>
      Reference.rule registry id n.kind slots ((g.outputsOf n).map OutputPin.type) := by
  rw [compute_registered hn, if_neg new]

variable {node : NodeId} {input : InputPin} {inputs : List InputPin}

theorem computeInputs_nil : g.computeInputs registry path node [] = .ok [] := by
  rw [computeInputs]

theorem computeInputs_missing (h : g.source? input = none) (required : input.optional = false) :
    g.computeInputs registry path node (input :: inputs) = .error (.missingRequiredInput node input.name) := by
  rw [computeInputs, h]
  simp [required]

theorem computeInputs_free (h : g.source? input = none) (optional : input.optional = true) :
    g.computeInputs registry path node (input :: inputs) =
      (⟨input.name, input.type, none⟩ :: ·) <$> g.computeInputs registry path node inputs := by
  rw [computeInputs, h]
  simp [optional]

theorem computeInputs_fed {output : OutputPin} (h : g.source? input = some output) :
    g.computeInputs registry path node (input :: inputs) =
      g.compute registry path output.node >>= fun trees =>
        (⟨input.name, input.type, g.treeOf output trees⟩ :: ·) <$> g.computeInputs registry path node inputs := by
  rw [computeInputs, h]
  dsimp only
  cases g.compute registry path output.node <;> rfl

end Steps

end Graph

end FrameGraph
