/-
  FrameGraph.Document.Decode: graphs, settings and pipelines out of values of object notation.

  Everything is read back as it is stored; whether a graph makes sense is not decided here.
  Settings that are not given keep their standard values.
-/

import FrameGraph.Graph.Basic
import FrameGraph.Pipeline.Basic
import FrameGraph.Ron.Decode
import FrameGraph.Settings

namespace FrameGraph

namespace Decode

open Ron (Decoder Fields Value)
open Ron.Decode

/-! ## Pins and kinds -/

def nodeId : Decoder NodeId := wrapped fun v => (nat v).map NodeId.mk

def pinId : Decoder PinId := wrapped fun v => (nat v).map PinId.mk

def linkId : Decoder LinkId := wrapped fun v => (nat v).map LinkId.mk

def graphId : Decoder Uuid := wrapped fun v => (text v).bind Uuid.parse?

def pinType : Decoder PinType := record fun fs => do
  return ⟨← field fs "base" text, ← field fs "is_array" bool⟩

def provider : Decoder Provider
  | .word "Camera" => some .camera
  | .word "EditorCamera" => some .editorCamera
  | .word "Target" => some .target
  | .word "EditorTarget" => some .editorTarget
  | .word "Entities" => some .entities
  | _ => none

/-- The content of a kind, given the kind's name. -/
def kindContent : String → Decoder Kind
  | "Provider" => fun v => (provider v).map .provider
  | "Convert" => record fun fs => do
    return .convert (← field fs "from" pinType) (← field fs "to" pinType)
  | "Concat" => record fun fs => do
    return .concat (← field fs "element" pinType) (← field fs "inputs" nat)
  | "Select" => record fun fs => do
    return .select (← field fs "element" pinType) (← field fs "index" nat)
  | "Render" => record fun fs => do return .render (← field fs "is_array" bool)
  | "EditorRender" => unit .editorRender
  | "RequireLock" => record fun fs => do return .requireLock (← field fs "inputs" nat)
  | "Screen" => unit .screen
  | "Property" => record fun fs => do
    return .property (← field fs "name" text) (← field fs "pin_type" pinType)
  | "Attribute" => record fun fs => do
    return .vertexAttribute (← field fs "name" text) (← field fs "pin_type" pinType)
  | "Sampler" => record fun fs => do return .sampler (← field fs "name" text)
  | "Add" => record fun fs => do return .add (← field fs "pin_type" pinType)
  | "Sample2D" => unit .sample2D
  | "MaterialOutput" => unit .materialOutput
  | _ => fun _ => none

def kind : Decoder Kind := fun v => do
  let (name, content) ← variant? v
  kindContent name content

/-! ## Graphs -/

def position : Decoder Position := fun v => do
  let (a, b) ← pair single v
  return ⟨a, b⟩

def node : Decoder Node := record fun fs => do
  return {
    id := ← field fs "id" nodeId
    kind := ← field fs "kind" kind
    position := ← field fs "position" position
    inputs := ← field fs "inputs" (list pinId)
    outputs := ← field fs "outputs" (list pinId)
    evaluated := false }

def inputPin : Decoder InputPin := record fun fs => do
  return {
    id := ← field fs "id" pinId
    node := ← field fs "node" nodeId
    name := ← field fs "name" text
    type := ← field fs "pin_type" pinType
    optional := ← field fs "optional" bool
    connection := none }

def outputPin : Decoder OutputPin := record fun fs => do
  return {
    id := ← field fs "id" pinId
    node := ← field fs "node" nodeId
    name := ← field fs "name" text
    type := ← field fs "pin_type" pinType
    value := none }

def link : Decoder Link := record fun fs => do
  return {
    id := ← field fs "id" linkId
    input := ← field fs "input" pinId
    output := ← field fs "output" pinId }

/-- A key that comes again replaces the value where it stands. -/
def table {κ α : Type} [DecidableEq κ] (key : Decoder κ) (value : Decoder α) : Decoder (Table κ α) :=
  fun v => (map key value v).map Table.ofList

def graph : Decoder Graph := record fun fs => do
  return {
    id := ← field fs "id" graphId
    name := ← field fs "name" text
    nextId := ← field fs "next_id" nat
    terminal := ← fieldOr fs "terminal" (option nodeId) none
    nodes := ← field fs "nodes" (table nodeId node)
    inputPins := ← field fs "input_pins" (table pinId inputPin)
    outputPins := ← field fs "output_pins" (table pinId outputPin)
    links := ← field fs "links" (table linkId link) }

/-- A document's format version and graph. -/
def document : Decoder (Nat × Graph) := record fun fs => do
  return (← field fs "version" nat, ← field fs "graph" graph)

/-! ## Settings -/

def stage : Decoder Stage
  | .word "Fragment" => some .fragment
  | .word "Vertex" => some .vertex
  | _ => none

def settings : Decoder Settings := record fun fs => do
  let standard := Settings.standard
  return {
    material := ← fieldOr fs "material_name" text standard.material
    stage := ← fieldOr fs "stage" stage standard.stage
    varyings := ← fieldOr fs "varyings" (list text) standard.varyings
    includes := ← fieldOr fs "includes" (list text) standard.includes
    texcoord := ← fieldOr fs "texcoord_varying" text standard.texcoord
    interface := ← fieldOr fs "interface_name" text standard.interface
    trace := ← fieldOr fs "trace_operations" bool standard.trace }

/-! ## Pipelines -/

def plainOperationKinds : List OperationKind :=
  [.provideCamera, .provideEditorCamera, .provideTarget, .provideEditorTarget, .provideEntities,
    .eyeFromCamera, .targetFromCamera, .render, .editorRender, .outputToScreen, .construct, .add,
    .sample2D, .fragmentColor]

def operationKind : Decoder OperationKind
  | .word name => plainOperationKinds.find? fun k => k.name == name
  | .record (some "SelectElement") fs => (field fs "index" nat).map .selectElement
  | .record (some "Property") fs => (field fs "name" text).map .property
  | .record (some "Sampler") fs => (field fs "name" text).map .sampler
  | .record (some "Varying") fs => (field fs "name" text).map .varying
  | _ => none

def operand : Decoder Operand := fun v => do
  match ← variant? v with
  | ("Single", v) => (nat v).map .single
  | ("Many", v) => (list nat v).map .many
  | _ => none

def operation : Decoder PipelineOperation := record fun fs => do
  return {
    kind := ← field fs "kind" operationKind
    name := ← field fs "name" text
    type := ← field fs "result_type" pinType
    inputs := ← field fs "inputs" (list operand) }

def pipeline : Decoder Pipeline := record fun fs => do
  return ⟨← field fs "operations" (list operation)⟩

end Decode

end FrameGraph
