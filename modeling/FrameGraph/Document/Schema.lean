/-
  FrameGraph.Document.Schema: what stored graphs, settings and pipelines look like.

  The names of types may be written before their values, and in some dialects must be.
-/

import FrameGraph.Ron.Schema

namespace FrameGraph

namespace Schema

open Ron (Case Schema)

def u32 : Schema := .nat "u32" 32

def u64 : Schema := .nat "u64" 64

/-! ## Pins and kinds -/

def nodeId : Schema := .wrapped "NodeId" u32

def pinId : Schema := .wrapped "PinId" u32

def linkId : Schema := .wrapped "LinkId" u32

def graphId : Schema := .wrapped "GraphId" .text

def pinType : Schema := .record "PinType" [("base", .text), ("is_array", .bool)]

def plainCases (names : List String) : List (String × Case) := names.map fun name => (name, .plain)

def provider : Schema :=
  .choice (plainCases ["Camera", "EditorCamera", "Target", "EditorTarget", "Entities"])

def kind : Schema := .choice [
  ("Provider", .holding provider),
  ("Convert", .holding (.record "ConvertNode" [("from", pinType), ("to", pinType)])),
  ("Concat", .holding (.record "ConcatNode" [("element", pinType), ("inputs", u64)])),
  ("Select", .holding (.record "SelectNode" [("element", pinType), ("index", u64)])),
  ("Render", .holding (.record "RenderNode" [("is_array", .bool)])),
  ("EditorRender", .holding (.unit "EditorRenderNode")),
  ("RequireLock", .holding (.record "RequireLockNode" [("inputs", u64)])),
  ("Screen", .holding (.unit "ScreenNode")),
  ("Property", .holding (.record "PropertyNode" [("name", .text), ("pin_type", pinType)])),
  ("Attribute", .holding (.record "AttributeNode" [("name", .text), ("pin_type", pinType)])),
  ("Sampler", .holding (.record "SamplerNode" [("name", .text)])),
  ("Add", .holding (.record "AddNode" [("pin_type", pinType)])),
  ("Sample2D", .holding (.unit "Sample2DNode")),
  ("MaterialOutput", .holding (.unit "MaterialOutputNode"))]

/-! ## Graphs -/

def node : Schema := .record "Node" [("id", nodeId), ("kind", kind), ("position", .pair .single),
  ("inputs", .list pinId), ("outputs", .list pinId)]

def inputPin : Schema := .record "InputPin" [("id", pinId), ("node", nodeId), ("name", .text),
  ("pin_type", pinType), ("optional", .bool)]

def outputPin : Schema := .record "OutputPin" [("id", pinId), ("node", nodeId), ("name", .text),
  ("pin_type", pinType)]

def link : Schema := .record "Link" [("id", linkId), ("input", pinId), ("output", pinId)]

def graph : Schema := .record "Graph" [("id", graphId), ("name", .text), ("next_id", u32),
  ("terminal", .option nodeId), ("nodes", .map nodeId node), ("input_pins", .map pinId inputPin),
  ("output_pins", .map pinId outputPin), ("links", .map linkId link)]

def document : Schema := .record "Document" [("version", u32), ("graph", graph)]

/-! ## Settings -/

def settings : Schema := .record "CompilerSettings" [("material_name", .text),
  ("stage", .choice (plainCases ["Fragment", "Vertex"])), ("varyings", .list .text),
  ("includes", .list .text), ("texcoord_varying", .text), ("interface_name", .text),
  ("trace_operations", .bool)]

/-! ## Pipelines -/

def operationKind : Schema := .choice (
  plainCases ["ProvideCamera", "ProvideEditorCamera", "ProvideTarget", "ProvideEditorTarget",
    "ProvideEntities", "EyeFromCamera", "TargetFromCamera", "Render", "EditorRender",
    "OutputToScreen", "Construct", "Add", "Sample2D", "FragmentColor"]
  ++ [("SelectElement", .fields [("index", u64)]), ("Property", .fields [("name", .text)]),
    ("Sampler", .fields [("name", .text)]), ("Varying", .fields [("name", .text)])])

def operand : Schema := .choice [("Single", .holding u64), ("Many", .holding (.list u64))]

def operation : Schema := .record "RuntimeOperation" [("kind", operationKind), ("name", .text),
  ("result_type", pinType), ("inputs", .list operand)]

def pipeline : Schema := .record "Pipeline" [("operations", .list operation)]

end Schema

end FrameGraph
