/-
  FrameGraph.Program.Builder: the back end that writes material programs.

  Each recorded value gets an identifier. A uniform or sampler is declared when its name is
  first met; samplers take texture slots in that order. Operations that compute something
  become statements that name their result after the value's place in the table; samplers,
  varyings and groups have names of their own and need no statement. A builder gives its
  program once.
-/

import FrameGraph.Compile.Pass
import FrameGraph.Program.Basic

namespace FrameGraph

namespace Program

inductive Definition where
  | computed (identifier : String) (op : Operation)
  | grouped (name : String) (members : List Handle)
  deriving DecidableEq, Repr

namespace Definition

def identifier : Definition → String
  | computed identifier _ => identifier
  | grouped name _ => name

def operation? : Definition → Option Operation
  | computed _ op => some op
  | grouped .. => none

def members? : Definition → Option (List Handle)
  | computed .. => none
  | grouped _ members => some members

end Definition

structure Builder where
  settings : Settings
  conversions : ConversionTable
  definitions : Array Definition
  declarations : Table String String
  samplers : Nat
  statements : List Statement
  taken : Bool

namespace Builder

def offering (settings : Settings) (conversions : ConversionTable) : Builder :=
  ⟨settings, conversions, #[], .empty, 0, [], false⟩

def new (settings : Settings) (conversions : Conversions) : Builder :=
  .offering settings conversions.table

def identifier? (b : Builder) (value : Handle) : Option String :=
  b.definitions[value.index]?.map Definition.identifier

def operation? (b : Builder) (value : Handle) : Option Operation :=
  b.definitions[value.index]?.bind Definition.operation?

/-! ## Lowering operations -/

def resultName (index : Nat) : String := "v" ++ toString index

/-- Names of a material's uniforms and samplers carry the material's name. -/
def symbol (b : Builder) (letter : String) (name : String) : String :=
  letter ++ "_" ++ b.settings.material ++ "_" ++ name

def operand (b : Builder) (op : Operation) (index : Nat) : String :=
  (op.operands[index]?.bind b.identifier?).getD ""

def operandList (b : Builder) (op : Operation) : String :=
  ", ".intercalate (op.operands.filterMap b.identifier?)

def operandBase? (b : Builder) (op : Operation) (index : Nat) : Option String :=
  (op.operands[index]?.bind b.operation?).map fun source => source.type.base

def declare (b : Builder) (name line : String) : Builder :=
  if b.declarations.contains name then b
  else { b with declarations := b.declarations.insert name line }

def declareUniform (b : Builder) (name type : String) : Builder :=
  b.declare name ("uniform " ++ type ++ " " ++ name ++ ";")

def declareSampler (b : Builder) (name : String) : Builder :=
  if b.declarations.contains name then b
  else
    { b.declare name ("SAMPLER2D(" ++ name ++ ", " ++ toString b.samplers ++ ");") with
      samplers := b.samplers + 1 }

/-- A widened vector is filled up with zeros, and with a one in the last place. -/
def constructBody (type operand : String) (source : Option String) : String :=
  let filler :=
    if type = Base.vec4 then
      if source = some Base.vec2 then ", 0.0, 1.0" else if source = some Base.vec3 then ", 1.0" else ""
    else ""
  type ++ "(" ++ operand ++ filler ++ ")"

def sampleBody (b : Builder) (op : Operation) : String :=
  let uv := if op.operands.length > 1 then b.operand op 1 else b.settings.texcoord
  "texture2D(" ++ b.operand op 0 ++ ", " ++ uv ++ ")"

/-- Adds a statement whose result is named after the next place in the table. -/
def assign (b : Builder) (op : Operation) (body : String) : Builder × String :=
  let name := resultName b.definitions.size
  ({ b with statements := b.statements ++ [⟨some (op.type.base, name), body⟩] }, name)

def perform (b : Builder) (body : String) : Builder × String :=
  ({ b with statements := b.statements ++ [⟨none, body⟩] }, "")

/-- The identifier of an operation's result, with the declarations and statements it needs. -/
def lower (b : Builder) (op : Operation) : Builder × String :=
  match op.kind with
  | .property name =>
    let uniform := b.symbol "u" name
    (b.declareUniform uniform op.type.base).assign op uniform
  | .sampler name =>
    let sampler := b.symbol "s" name
    (b.declareSampler sampler, sampler)
  | .varying name => (b, name)
  | .construct =>
    b.assign op (constructBody op.type.base (b.operand op 0) (b.operandBase? op 0))
  | .add => b.assign op (b.operand op 0 ++ " + " ++ b.operand op 1)
  | .sample2D => b.assign op (b.sampleBody op)
  | .fragmentColor => b.perform ("gl_FragColor = " ++ b.operand op 0)
  | kind => b.assign op (kind.name ++ "(" ++ b.operandList op ++ ")")

def push (b : Builder) (d : Definition) : Builder × Handle :=
  ({ b with definitions := b.definitions.push d }, ⟨b.definitions.size⟩)

instance : Evaluator Builder where
  addOperation b op :=
    let (b, identifier) := b.lower op
    b.push (.computed identifier op)
  addArray b name members := b.push (.grouped name members)
  operation? b value := b.operation? value
  arrayMembers? b value := b.definitions[value.index]?.bind Definition.members?
  conversion? b source target := b.conversions.get? (source, target)

/-! ## Taking the program -/

def source (b : Builder) : Source :=
  ⟨b.settings.material, b.settings.stage, render b.settings b.declarations.values b.statements⟩

/-- A builder after giving its program, or refusing to. -/
structure Taking where
  builder : Builder
  events : List Event
  result : Except CompileError Source

def extract (b : Builder) : Taking :=
  if b.taken then ⟨b, [.programTakenTwice], .error .alreadyCompiled⟩
  else
    ⟨{ b with taken := true },
      [.generatedProgram b.settings.material b.settings.stage.label b.statements.length],
      .ok b.source⟩

end Builder

end Program

end FrameGraph
