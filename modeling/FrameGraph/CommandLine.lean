/-
  FrameGraph.CommandLine: compiling documents from the command line.

  `pipeline` prints the operations of a render graph, `material` the program of a material
  graph, and `settings` the standard settings. Options may stand before or after the document,
  take their value attached or as the next argument, and come at most once; `--` ends them.
  The settings are read before the graph.
-/

import FrameGraph.Compiler
import FrameGraph.Document.Store
import FrameGraph.Text.Writing

namespace FrameGraph.CommandLine

inductive Command where
  | pipeline (graph : String) (settings : Option String) (trace : Bool)
  | material (graph : String) (settings name : Option String) (stage : Option Stage)
  | settings
  deriving DecidableEq, Repr

/-! ## Arguments -/

structure Choice where
  long : String
  short : Option Char
  takesValue : Bool

inductive Argument where
  | given (long : String) (value : String)
  | positional (value : String)

/-- Something that looks like an option is never taken for a value. -/
def looksLikeOption (s : String) : Bool := s.startsWith "-" && s != "-"

/-- Splits `name=value`; a name alone has no value. -/
def splitValue (cs : List Char) : String × Option String :=
  let name := String.ofList (cs.takeWhile (· != '='))
  match cs.dropWhile (· != '=') with
  | _ :: value => (name, some (String.ofList value))
  | [] => (name, none)

/-- A value written right behind a short option, with or without an equals sign. -/
def attachedValue : List Char → Option String
  | [] => none
  | '=' :: cs => some (String.ofList cs)
  | cs => some (String.ofList cs)

/-- The option that an argument names, and the value attached to it. -/
def option? (choices : List Choice) (s : String) : Option (Choice × Option String) :=
  match s.toList with
  | '-' :: '-' :: cs =>
    let (name, value) := splitValue cs
    (choices.find? fun c => c.long == name).map fun c => (c, value)
  | '-' :: letter :: cs =>
    (choices.find? fun c => c.short == some letter).map fun c => (c, attachedValue cs)
  | _ => none

/-- Sorts arguments into options and positional ones. -/
def arguments? (choices : List Choice) : List String → Option (List Argument)
  | [] => some []
  | s :: rest =>
    if s = "--" then some (rest.map .positional)
    else if !looksLikeOption s then (arguments? choices rest).map (.positional s :: ·)
    else
      match option? choices s with
      | none => none
      | some (c, some value) =>
        if c.takesValue then (arguments? choices rest).map (.given c.long value :: ·) else none
      | some (c, none) =>
        if c.takesValue then
          match rest with
          | [] => none
          | value :: rest =>
            if looksLikeOption value then none
            else (arguments? choices rest).map (.given c.long value :: ·)
        else (arguments? choices rest).map (.given c.long "" :: ·)

def positionals (args : List Argument) : List String :=
  args.filterMap fun
    | .positional v => some v
    | .given .. => none

def values (args : List Argument) (long : String) : List String :=
  args.filterMap fun
    | .given name v => if name == long then some v else none
    | .positional _ => none

/-- The value of an option that may be missing but not repeated. -/
def atMostOnce? (args : List Argument) (long : String) : Option (Option String) :=
  match values args long with
  | [] => some none
  | [v] => some (some v)
  | _ => none

/-- Paths are never empty. -/
def path? (s : String) : Option String := if s.isEmpty then none else some s

def pathOption? (args : List Argument) (long : String) : Option (Option String) :=
  match atMostOnce? args long with
  | some (some v) => (path? v).map some
  | other => other

def stageOption? (args : List Argument) : Option (Option Stage) :=
  match atMostOnce? args "stage" with
  | some none => some none
  | some (some "fragment") => some (some .fragment)
  | some (some "vertex") => some (some .vertex)
  | _ => none

def document? (args : List Argument) : Option String :=
  match positionals args with
  | [s] => path? s
  | _ => none

def pipelineChoices : List Choice := [⟨"settings", some 's', true⟩, ⟨"trace", none, false⟩]

def materialChoices : List Choice :=
  [⟨"settings", some 's', true⟩, ⟨"name", some 'n', true⟩, ⟨"stage", none, true⟩]

def Command.parse? : List String → Option Command
  | "pipeline" :: rest => do
    let args ← arguments? pipelineChoices rest
    return .pipeline (← document? args) (← pathOption? args "settings")
      (← atMostOnce? args "trace").isSome
  | "material" :: rest => do
    let args ← arguments? materialChoices rest
    return .material (← document? args) (← pathOption? args "settings") (← atMostOnce? args "name")
      (← stageOption? args)
  | "settings" :: rest => do
    let args ← arguments? [] rest
    if args.isEmpty then some .settings else none
  | _ => none

/-! ## Running -/

/-- What a run prints, what it reports as errors, and its exit code. -/
structure Report where
  exit : Nat
  output : String
  errors : List String
  deriving DecidableEq, Repr

namespace Report

def success (output : String) : Report := ⟨0, output, []⟩

/-- Errors quote names from documents, so they are written as a terminal may show them. -/
def failure (errors : List String) : Report := ⟨1, "", errors.map Text.disarmed⟩

def usage : Report := ⟨2, "", []⟩

end Report

/-- A compile error is preceded by the node at which it shows. -/
def compileErrors (e : CompileError) : List String :=
  ((e.node?).map fun node => "Compilation failed node=" ++ toString node).toList ++ [e.message]

/-- A broken promise inside a compilation ends the run like a crash. -/
def crash : Report := ⟨101, "", []⟩

def finish {α : Type} (print : α → String) (made : Outcome (Except Stop α)) : Report :=
  match made.result with
  | .error (.fault _) => crash
  | .error (.error e) => .failure (compileErrors e)
  | .ok a => .success (print a)

variable {m : Type → Type} [Monad m]

/-- A file's content, if it can be read. -/
abbrev Files (m : Type → Type) := String → m (Option ByteArray)

def readSettings (files : Files m) : Option String → m (Except SettingsError Settings)
  | none => return .ok .standard
  | some path => return Settings.load (← files path)

/-- Reads settings, then a graph, and hands both on. -/
def withInputs (files : Files m) (graph : String) (settings : Option String)
    (run : Settings → Graph → Report) : m Report := do
  match ← readSettings files settings with
  | .error e => return .failure [e.message]
  | .ok s =>
    match Graph.load (← files graph) with
    | .error e => return .failure [e.message]
    | .ok g => return run s g

def Command.run (files : Files m) : Command → m Report
  | .settings => return .success (Settings.standard.print ++ "\n")
  | .pipeline graph config trace =>
    withInputs files graph config fun s g =>
      finish (fun p => p.print ++ "\n") ({ s with trace := s.trace || trace }.compilePipeline g)
  | .material graph config name stage =>
    withInputs files graph config fun s g =>
      finish Program.Source.text
        ({ s with material := name.getD s.material, stage := stage.getD s.stage }.generateMaterial g)

def run (files : Files m) (args : List String) : m Report :=
  match Command.parse? args with
  | none => return .usage
  | some command => command.run files

end FrameGraph.CommandLine
