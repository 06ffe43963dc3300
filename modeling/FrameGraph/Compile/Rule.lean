/-
  FrameGraph.Compile.Rule: how each kind of node compiles.

  A rule answers with one value per output pin. Groups exist only while compiling: Concat and
  RequireLock make them, Convert and Render work through them member by member, and Select
  picks from them without recording anything.
-/

import FrameGraph.Compile.Context
import FrameGraph.Compile.Evaluator
import FrameGraph.Node.Kind

namespace FrameGraph

variable {ε : Type} [Evaluator ε]

namespace Provider

def operation : Provider → OperationKind
  | camera => .provideCamera
  | editorCamera => .provideEditorCamera
  | target => .provideTarget
  | editorTarget => .provideEditorTarget
  | entities => .provideEntities

end Provider

namespace Rule

def lift {α : Type} : Except Stop α → Build ε α
  | .ok a => pure a
  | .error e => throw e

/-- Records an operation and answers with its value. -/
def single (op : Operation) : Build ε (List Handle) := do
  return [← Build.record op]

def convertName (fromType toType : PinType) : String :=
  "Convert (" ++ toString fromType ++ "->" ++ toString toType ++ ")"

/-- An array whose members are known is converted member by member. -/
def convert (c : Context) : Build ε (List Handle) := do
  let fromType ← lift (c.inputType 0)
  let toType ← lift (c.outputType 0)
  let value ← lift (c.required 0)
  match ← Build.conversion? fromType.base toType.base with
  | none => Build.fail (.unsupportedConversion c.node fromType toType)
  | some conversion =>
    let name := convertName fromType toType
    let members? ← if fromType.isArray then Build.members? value else pure none
    match members? with
    | some members =>
      let converted ← members.mapM fun m => Build.record (conversion.operation m toType.element)
      return [← Build.group name converted]
    | none => single ((conversion.operation value toType).named name)

def group (c : Context) (name : String) : Build ε (List Handle) := do
  let members ← lift c.requiredAll
  return [← Build.group name members]

def selectName (index : Nat) : Option Operation → String
  | some source => "Select " ++ toString index ++ " of " ++ source.name
  | none => "Select " ++ toString index

/-- An array that exists only at run time is indexed by an operation. -/
def select (c : Context) (index : Nat) : Build ε (List Handle) := do
  let array ← lift (c.required 0)
  match ← Build.members? array with
  | some members =>
    match members[index]? with
    | some item => return [item]
    | none => Build.fail (.indexOutOfRange c.node index members.length)
  | none =>
    let name := selectName index (← Build.operation? array)
    let type ← lift (c.outputType 0)
    single ((Operation.plain (.selectElement index) type [array]).named name)

def renderName : Option Operation → String
  | some target => "Render to " ++ target.name
  | none => "Render"

def renderOne (c : Context) (entities eye target : Handle) : Build ε Handle := do
  let name := renderName (← Build.operation? target)
  let type ← lift (c.outputType 0)
  Build.record ((Operation.plain .render type [entities, eye, target]).named name)

/-- Members of a group, or the value alone. -/
def spread (value : Handle) : Build ε (List Handle) := do
  return (← Build.members? value).getD [value]

def render (c : Context) (isArray : Bool) : Build ε (List Handle) := do
  let entities ← lift (c.required 0)
  let eye ← lift (c.required 1)
  let target ← lift (c.required 2)
  if isArray then
    let eyes ← spread eye
    let targets ← spread target
    if eyes.length ≠ targets.length then
      Build.fail (.mismatchedArrayLengths c.node eyes.length targets.length)
    else
      let renders ← (eyes.zip targets).mapM fun e => renderOne c entities e.1 e.2
      return [← Build.group (Kind.render isArray).label renders]
  else
    return [← renderOne c entities eye target]

/-- A leaf that names something outside the graph. -/
def named (c : Context) (kind : OperationKind) (name : String) : Build ε (List Handle) := do
  let type ← lift (c.outputType 0)
  single ((Operation.plain kind type []).named name)

/-- A terminal: one operation on the first input, and no value. -/
def sink (c : Context) (kind : OperationKind) : Build ε (List Handle) := do
  let value ← lift (c.required 0)
  let _ ← Build.record (.plain kind .untyped [value])
  return []

def add (c : Context) : Build ε (List Handle) := do
  let a ← lift (c.required 0)
  let b ← lift (c.required 1)
  let type ← lift (c.outputType 0)
  single (.plain .add type [a, b])

def sample2D (c : Context) : Build ε (List Handle) := do
  let texture ← lift (c.required 0)
  let type ← lift (c.outputType 0)
  single (.plain .sample2D type (texture :: (c.input? 1).toList))

def editorRender (c : Context) : Build ε (List Handle) := do
  let type ← lift (c.outputType 0)
  single (.plain .editorRender type (c.input? 0).toList)

end Rule

def Kind.evaluate (k : Kind) (c : Context) : Build ε (List Handle) :=
  match k with
  | .provider p => Rule.single ((Operation.plain p.operation p.outputType []).named p.label)
  | .convert .. => Rule.convert c
  | .concat element _ => Rule.group c ("Concat " ++ toString element)
  | .select _ index => Rule.select c index
  | .render isArray => Rule.render c isArray
  | .editorRender => Rule.editorRender c
  | .requireLock _ => Rule.group c k.label
  | .screen => Rule.sink c .outputToScreen
  | .property name _ => Rule.named c (.property name) name
  | .vertexAttribute name _ => Rule.named c (.varying name) name
  | .sampler name => Rule.named c (.sampler name) name
  | .add _ => Rule.add c
  | .sample2D => Rule.sample2D c
  | .materialOutput => Rule.sink c .fragmentColor

end FrameGraph
