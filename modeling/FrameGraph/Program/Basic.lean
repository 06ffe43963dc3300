/-
  FrameGraph.Program.Basic: the text of material programs.

  A program opens with its interface and a notice, then come the included files, the
  declarations and one function that runs the statements in order. Empty sections leave no
  blank line behind.
-/

import FrameGraph.Settings

namespace FrameGraph

namespace Program

structure Source where
  name : String
  stage : Stage
  text : String
  deriving DecidableEq, Repr

structure Binary where
  name : String
  stage : Stage
  bytes : List UInt8
  deriving DecidableEq, Repr

/-- A computation, with the typed name that its result gets, if it has one. -/
structure Statement where
  result : Option (String × String)
  body : String
  deriving DecidableEq, Repr

def Statement.line (s : Statement) : String :=
  match s.result with
  | some (type, name) => "\t" ++ type ++ " " ++ name ++ " = " ++ s.body ++ ";"
  | none => "\t" ++ s.body ++ ";"

/-- Attributes that every vertex program reads. -/
def vertexAttributes : List String := ["a_position", "a_normal", "a_texcoord0"]

def interfaceLines (s : Settings) : List String :=
  match s.stage with
  | .fragment => ["$input " ++ ", ".intercalate s.varyings]
  | .vertex => ["$input " ++ ", ".intercalate vertexAttributes, "$output " ++ ", ".intercalate s.varyings]

def noticeLines (s : Settings) : List String :=
  ["/*", " * DON'T CHANGE DIRECTLY",
    " * This is a " ++ s.stage.label ++ " program generated for material " ++ s.material, " */"]

/-- A section and the blank line after it, or nothing. -/
def withGap (lines : List String) : List String :=
  if lines.isEmpty then [] else lines ++ [""]

def lines (s : Settings) (declarations : List String) (statements : List Statement) : List String :=
  withGap (interfaceLines s) ++ withGap (noticeLines s)
    ++ withGap (s.includes.map fun i => "#include \"" ++ i ++ "\"")
    ++ withGap declarations
    ++ ["void main()", "\x7b"] ++ statements.map Statement.line ++ ["\x7d"]

def render (s : Settings) (declarations : List String) (statements : List Statement) : String :=
  String.join ((lines s declarations statements).map (· ++ "\n"))

end Program

end FrameGraph
