/-
  FrameGraph.Node.Kind: what a node does, with the state that its kind needs.

  Provider, Render, EditorRender, RequireLock and Screen nodes make render pipelines;
  Property, Attribute, Sampler, Add, Sample2D and MaterialOutput nodes make material programs;
  Convert, Concat and Select serve both. A kind declares, from its present state, the pins
  that a node of it has.
-/

import FrameGraph.PinType

namespace FrameGraph

open PinType (scalar array)

inductive Provider where
  | camera
  | editorCamera
  | target
  | editorTarget
  | entities
  deriving DecidableEq, Repr

namespace Provider

def label : Provider → String
  | camera => "Camera provider"
  | editorCamera => "Editor camera"
  | target => "Target provider"
  | editorTarget => "Editor target"
  | entities => "Entities"

def outputType : Provider → PinType
  | camera | editorCamera => scalar Base.camera
  | target | editorTarget => scalar Base.target
  | entities => array Base.entity

def outputName : Provider → String
  | camera | editorCamera => "Camera"
  | target | editorTarget => "Target"
  | entities => "Entities"

end Provider

/-- Declaration of a pin that a kind wants on its nodes. -/
structure PinSpec where
  name : String
  type : PinType
  optional : Bool
  deriving DecidableEq, Repr

def PinSpec.required (name : String) (type : PinType) : PinSpec := ⟨name, type, false⟩

def PinSpec.optionally (name : String) (type : PinType) : PinSpec := ⟨name, type, true⟩

inductive Kind where
  | provider (provider : Provider)
  | convert (fromType toType : PinType)
  | concat (element : PinType) (inputs : Nat)
  | select (element : PinType) (index : Nat)
  | render (isArray : Bool)
  | editorRender
  | requireLock (inputs : Nat)
  | screen
  | property (name : String) (type : PinType)
  | vertexAttribute (name : String) (type : PinType)
  | sampler (name : String)
  | add (type : PinType)
  | sample2D
  | materialOutput
  deriving DecidableEq, Repr

namespace Kind

/-! ## Fresh kinds -/

/-- Concat and RequireLock nodes never have fewer inputs than this. -/
def leastInputs : Nat := 2

/-- The result takes the array form of the source. -/
def newConvert (fromType toType : PinType) : Kind :=
  convert fromType (toType.withArray fromType.isArray)

def newConcat (element : PinType) : Kind := concat element.element leastInputs

def newSelect (element : PinType) (index : Nat) : Kind := select element.element index

def newRender : Kind := render false

def newRequireLock : Kind := requireLock leastInputs

def newAdd : Kind := add .untyped

/-! ## Pins -/

def label : Kind → String
  | provider p => p.label
  | convert .. => "Convert"
  | concat .. => "Concat"
  | select .. => "Select"
  | render _ => "Render"
  | editorRender => "Editor render"
  | requireLock _ => "Require lock"
  | screen => "Screen"
  | property .. => "Property"
  | vertexAttribute .. => "Attribute"
  | sampler _ => "Sampler"
  | add _ => "Add"
  | sample2D => "Sample 2D"
  | materialOutput => "Material output"

def concatInput (element : PinType) (index : Nat) : PinSpec :=
  .required ("Object " ++ toString (index + 1)) element

def lockInput (index : Nat) : PinSpec :=
  .required ("Require " ++ toString (index + 1)) (scalar Base.require)

def requireInput : PinSpec := .optionally "Require" (scalar Base.require)

def requireOutput : PinSpec := .required "Require" (scalar Base.require)

def inputSpecs : Kind → List PinSpec
  | provider _ | property .. | vertexAttribute .. | sampler _ => []
  | convert fromType _ => [.required "From" fromType]
  | concat element inputs => (List.range inputs).map (concatInput element)
  | select element _ => [.required "Objects" element.toArray]
  | render isArray =>
    [.required "Entities" (array Base.entity), .required "Eye" ⟨Base.eye, isArray⟩,
      .required "Target" ⟨Base.target, isArray⟩, requireInput]
  | editorRender => [requireInput]
  | requireLock inputs => (List.range inputs).map lockInput
  | screen => [.required "Target" (scalar Base.target), requireInput]
  | add type => [.required "A" type, .required "B" type]
  | sample2D => [.required "Texture" (scalar Base.texture2D), .optionally "UV" (scalar Base.vec2)]
  | materialOutput => [.required "Color" (scalar Base.vec4)]

def outputSpecs : Kind → List PinSpec
  | provider p => [.required p.outputName p.outputType]
  | convert _ toType => [.required "To" toType]
  | concat element _ => [.required "Array" element.toArray]
  | select element _ => [.required "Item" element]
  | render _ | editorRender | requireLock _ => [requireOutput]
  | screen | materialOutput => []
  | property _ type | vertexAttribute _ type => [.required "Value" type]
  | sampler _ => [.required "Texture" (scalar Base.texture2D)]
  | add type => [.required "Result" type]
  | sample2D => [.required "Color" (scalar Base.vec4)]

/-! ## Variable inputs -/

def minInputs? : Kind → Option Nat
  | concat .. | requireLock _ => some leastInputs
  | _ => none

/-- The pin to create when the input list grows to include an index. -/
def inputSpecAt? : Kind → Nat → Option PinSpec
  | concat element _, index => some (concatInput element index)
  | requireLock _, index => some (lockInput index)
  | _, _ => none

def withInputCount : Kind → Nat → Kind
  | concat element _, count => concat element count
  | requireLock _, count => requireLock count
  | kind, _ => kind

end Kind

end FrameGraph
