/-
  FrameGraph.Compiler: from a graph and settings to a finished artifact.

  Each entry point takes a fresh back end, evaluates the graph against it and takes the
  artifact. The graph comes back with the marks of the pass, also when it does not compile.
-/

import FrameGraph.Graph.Links
import FrameGraph.Pipeline.Builder
import FrameGraph.Program.Builder

namespace FrameGraph

/-- An external compiler: a program and the name of its interface give a binary, or a
diagnostic. -/
abbrev Toolchain (m : Type → Type) := Program.Source → String → m (Except String Program.Binary)

namespace Pipeline.Builder

def standard (s : Settings) : Builder := .new .pipeline s.trace

/-- Evaluates a graph and takes the pipeline. -/
def evaluateGraph (b : Builder) (g : Graph) :
    Builder × Outcome (Except Stop Pipeline) :=
  let evaluation := g.evaluate b
  match evaluation.result with
  | .error stop => (evaluation.backend, ⟨evaluation.graph, evaluation.events, .error stop⟩)
  | .ok () =>
    let taking := evaluation.backend.extract
    (taking.builder, ⟨evaluation.graph, evaluation.events ++ taking.events, taking.result⟩)

end Pipeline.Builder

namespace Program.Builder

def standard (s : Settings) : Builder := .new s .material

/-- Evaluates a graph and takes the program. -/
def evaluateGraph (b : Builder) (g : Graph) :
    Builder × Outcome (Except Stop Source) :=
  let evaluation := g.evaluate b
  match evaluation.result with
  | .error stop => (evaluation.backend, ⟨evaluation.graph, evaluation.events, .error stop⟩)
  | .ok () =>
    let taking := evaluation.backend.extract
    (taking.builder, ⟨evaluation.graph, evaluation.events ++ taking.events,
      taking.result.mapError .error⟩)

end Program.Builder

namespace Settings

/-! ## Pipelines -/

def compilePipeline (s : Settings) (g : Graph) : Outcome (Except Stop Pipeline) :=
  let (_, made) := (Pipeline.Builder.standard s).evaluateGraph g
  let finished := match made.result with
    | .ok pipeline => [.compiledPipeline pipeline.size]
    | .error _ => []
  { made with events := .compilingPipeline g.id g.name :: made.events ++ finished }

/-- Compiles a graph straight into a pipeline that may hold operations already. -/
def transferPipeline (s : Settings) (g : Graph) (sink : Pipeline) :
    Outcome (Except Stop Pipeline) :=
  let evaluation := g.evaluate (Pipeline.Builder.standard s)
  match evaluation.result with
  | .error stop => ⟨evaluation.graph, evaluation.events, .error stop⟩
  | .ok () =>
    let taking := evaluation.backend.transfer sink
    ⟨evaluation.graph, evaluation.events ++ taking.events, taking.result⟩

/-! ## Materials -/

def generateMaterial (s : Settings) (g : Graph) : Outcome (Except Stop Program.Source) :=
  let (_, made) := (Program.Builder.standard s).evaluateGraph g
  { made with events := .generatingMaterial g.id s.material s.stage.label :: made.events }

def compileMaterial {m : Type → Type} [Monad m] (s : Settings) (toolchain : Toolchain m) (g : Graph) :
    m (Outcome (Except Stop Program.Binary)) :=
  let made := s.generateMaterial g
  match made.result with
  | .error stop => return ⟨made.graph, made.events, .error stop⟩
  | .ok source => do
    match ← toolchain source s.interface with
    | .ok binary => return ⟨made.graph, made.events, .ok binary⟩
    | .error diagnostic =>
      return ⟨made.graph, made.events ++ [.rejectedProgram source.name diagnostic],
        .error (.error (.toolchain diagnostic))⟩

end Settings

end FrameGraph
