/-
  FrameGraph.Document.Encode: graphs, settings and pipelines as values of object notation.

  Ids are wrapped in parentheses of their own. What an evaluation leaves behind, and the
  memories of inputs, are not stored.
-/

import FrameGraph.Graph.Basic
import FrameGraph.Pipeline.Basic
import FrameGraph.Ron.Value
import FrameGraph.Settings

namespace FrameGraph

open Ron (Value)

namespace Encode

open Ron.Value

/-! ## Pins and kinds -/

def nodeId (i : NodeId) : Value := wrapped (.nat i.val)

def pinId (i : PinId) : Value := wrapped (.nat i.val)

def linkId (i : LinkId) : Value := wrapped (.nat i.val)

def pinType (t : PinType) : Value := plainRecord [("base", .text t.base), ("is_array", .bool t.isArray)]

def providerName : Provider → String
  | .camera => "Camera"
  | .editorCamera => "EditorCamera"
  | .target => "Target"
  | .editorTarget => "EditorTarget"
  | .entities => "Entities"

def kind : Kind → Value
  | .provider p => variant "Provider" (.word (providerName p))
  | .convert a b => variant "Convert" (plainRecord [("from", pinType a), ("to", pinType b)])
  | .concat element inputs =>
    variant "Concat" (plainRecord [("element", pinType element), ("inputs", .nat inputs)])
  | .select element index =>
    variant "Select" (plainRecord [("element", pinType element), ("index", .nat index)])
  | .render isArray => variant "Render" (plainRecord [("is_array", .bool isArray)])
  | .editorRender => variant "EditorRender" .unit
  | .requireLock inputs => variant "RequireLock" (plainRecord [("inputs", .nat inputs)])
  | .screen => variant "Screen" .unit
  | .property name type =>
    variant "Property" (plainRecord [("name", .text name), ("pin_type", pinType type)])
  | .vertexAttribute name type =>
    variant "Attribute" (plainRecord [("name", .text name), ("pin_type", pinType type)])
  | .sampler name => variant "Sampler" (plainRecord [("name", .text name)])
  | .add type => variant "Add" (plainRecord [("pin_type", pinType type)])
  | .sample2D => variant "Sample2D" .unit
  | .materialOutput => variant "MaterialOutput" .unit

/-! ## Graphs -/

def position (p : Position) : Value := .tuple none [.single p.x, .single p.y]

def node (n : Node) : Value :=
  plainRecord [("id", nodeId n.id), ("kind", kind n.kind), ("position", position n.position),
    ("inputs", .list (n.inputs.map pinId)), ("outputs", .list (n.outputs.map pinId))]

def inputPin (p : InputPin) : Value :=
  plainRecord [("id", pinId p.id), ("node", nodeId p.node), ("name", .text p.name),
    ("pin_type", pinType p.type), ("optional", .bool p.optional)]

def outputPin (p : OutputPin) : Value :=
  plainRecord [("id", pinId p.id), ("node", nodeId p.node), ("name", .text p.name),
    ("pin_type", pinType p.type)]

def link (l : Link) : Value :=
  plainRecord [("id", linkId l.id), ("input", pinId l.input), ("output", pinId l.output)]

def table {κ α : Type} (key : κ → Value) (value : α → Value) (t : Table κ α) : Value :=
  .map (t.entries.map fun e => (key e.1, value e.2))

def graph (g : Graph) : Value :=
  plainRecord [("id", wrapped (.text g.id.hyphenated)), ("name", .text g.name),
    ("next_id", .nat g.nextId), ("terminal", ofOption (g.terminal.map nodeId)),
    ("nodes", table nodeId node g.nodes), ("input_pins", table pinId inputPin g.inputPins),
    ("output_pins", table pinId outputPin g.outputPins), ("links", table linkId link g.links)]

def document (version : Nat) (g : Graph) : Value :=
  plainRecord [("version", .nat version), ("graph", graph g)]

/-! ## Settings -/

def stageName : Stage → String
  | .fragment => "Fragment"
  | .vertex => "Vertex"

def settings (s : Settings) : Value :=
  plainRecord [("material_name", .text s.material), ("stage", .word (stageName s.stage)),
    ("varyings", .list (s.varyings.map .text)), ("includes", .list (s.includes.map .text)),
    ("texcoord_varying", .text s.texcoord), ("interface_name", .text s.interface),
    ("trace_operations", .bool s.trace)]

/-! ## Pipelines -/

def operationKind (k : OperationKind) : Value :=
  match k with
  | .selectElement index => .record (some k.name) [("index", .nat index)]
  | .property name | .sampler name | .varying name => .record (some k.name) [("name", .text name)]
  | _ => .word k.name

def operand : Operand → Value
  | .single index => variant "Single" (.nat index)
  | .many indices => variant "Many" (.list (indices.map .nat))

def operation (op : PipelineOperation) : Value :=
  plainRecord [("kind", operationKind op.kind), ("name", .text op.name),
    ("result_type", pinType op.type), ("inputs", .list (op.inputs.map operand))]

def pipeline (p : Pipeline) : Value :=
  plainRecord [("operations", .list (p.operations.map operation))]

end Encode

end FrameGraph
