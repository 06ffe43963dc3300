/-
  FrameGraph.Compile.Evaluator: the interface between nodes and back ends.

  A back end records operations and groups of values and hands out a handle for each. Nodes
  never see which back end they talk to. Whatever stops a node, the back end keeps what it has
  recorded so far.
-/

import FrameGraph.Compile.Conversion
import FrameGraph.Error

namespace FrameGraph

class Evaluator (ε : Type) where
  addOperation : ε → Operation → ε × Handle
  addArray : ε → String → List Handle → ε × Handle
  operation? : ε → Handle → Option Operation
  arrayMembers? : ε → Handle → Option (List Handle)
  conversion? : ε → String → String → Option Conversion

/-- A step against a back end that may stop. -/
abbrev Build (ε : Type) := ExceptT Stop (StateM ε)

namespace Build

variable {ε : Type} [Evaluator ε]

def record (op : Operation) : Build ε Handle :=
  modifyGet fun e => let (e, h) := Evaluator.addOperation e op; (h, e)

def group (name : String) (members : List Handle) : Build ε Handle :=
  modifyGet fun e => let (e, h) := Evaluator.addArray e name members; (h, e)

def operation? (value : Handle) : Build ε (Option Operation) := do
  return Evaluator.operation? (← get) value

def members? (value : Handle) : Build ε (Option (List Handle)) := do
  return Evaluator.arrayMembers? (← get) value

def conversion? (source target : String) : Build ε (Option Conversion) := do
  return Evaluator.conversion? (← get) source target

def fail {α : Type} (e : CompileError) : Build ε α := throw (.error e)

end Build

end FrameGraph
