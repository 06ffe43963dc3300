/-
  FrameGraph.Compile.Pass: compiling a graph from its terminal.

  A pass visits a node only after the nodes that feed it, input by input, and compiles each
  node once, however many links lead to it. The nodes between the terminal and the visited one
  are its path; meeting one of them again is a cycle. A visited node lies on the path of
  everything below it, so paths never outgrow the node table and the pass ends. The graph is
  only read on the way; afterwards the marks and values of the pass are written into it, also
  when the pass failed.
-/

import FrameGraph.Compile.Rule
import FrameGraph.Graph.Basic
import FrameGraph.Log

namespace FrameGraph

variable {ε : Type} [Evaluator ε]

/-- What a pass has done so far: compiled nodes and output values, latest first. -/
structure Progress (ε : Type) where
  backend : ε
  compiled : List NodeId
  values : List (PinId × Handle)
  events : List Event

namespace Graph

/-! ## One node -/

/-- The node that feeds an input of `node`, if one does. -/
def feeder? (g : Graph) (node : NodeId) (pin : PinId) : Except Stop (Option NodeId) :=
  match g.getInput pin with
  | .error f => .error (.fault f)
  | .ok input =>
    match input.connection with
    | none => if input.optional then .ok none else .error (.error (.missingRequiredInput node input.name))
    | some output =>
      match g.getOutput output with
      | .error f => .error (.fault f)
      | .ok output => .ok (some output.node)

def inputSlot (g : Graph) (values : List (PinId × Handle)) (pin : PinId) : Except Fault InputSlot := do
  let input ← g.getInput pin
  match input.connection with
  | none => return ⟨input.name, input.type, none⟩
  | some output =>
    let _ ← g.getOutput output
    return ⟨input.name, input.type, values.lookup output⟩

def context (g : Graph) (values : List (PinId × Handle)) (id : NodeId) (n : Node) :
    Except Fault Context := do
  let inputs ← n.inputs.mapM (g.inputSlot values)
  let outputs ← n.outputs.mapM fun pin => do return (← g.getOutput pin).type
  return ⟨id, inputs, outputs⟩

/-- Compiles a node whose inputs are settled. -/
def compileNode (g : Graph) (id : NodeId) (n : Node) (p : Progress ε) :
    Except Stop Unit × Progress ε :=
  match g.context p.values id n with
  | .error f => (.error (.fault f), p)
  | .ok context =>
    let (answer, backend) := (n.kind.evaluate context).run p.backend
    let p := { p with backend, events := p.events ++ [.compiling id n.kind.label] }
    match answer with
    | .error stop => (.error stop, p)
    | .ok values =>
      if values.length = n.outputs.length then
        (.ok (), { p with
          compiled := id :: p.compiled
          values := (n.outputs.zip values).reverse ++ p.values })
      else (.error (.fault (.wrongValueCount id)), p)

/-! ## All nodes below one -/

/-- How many nodes are not on a path. -/
def offPath (g : Graph) (path : List NodeId) : Nat :=
  g.nodes.keys.countP fun id => decide (id ∉ path)

theorem countP_lt {α : Type} {p q : α → Bool} (weaker : ∀ x, q x = true → p x = true) {a : α}
    (hp : p a = true) (hq : q a = false) : ∀ {l : List α}, a ∈ l → l.countP q < l.countP p
  | b :: l, member => by
    have le := List.countP_mono_left fun x (_ : x ∈ l) => weaker x
    simp only [List.countP_cons]
    rcases List.mem_cons.1 member with rfl | rest
    · simp only [hp, hq, if_true, Bool.false_eq_true, if_false]
      omega
    · have lt := countP_lt weaker hp hq rest
      have step := weaker b
      cases hb : q b
      · simp only [Bool.false_eq_true, if_false]
        omega
      · simp only [if_true, step hb]
        omega

theorem offPath_lt {g : Graph} {path : List NodeId} {id : NodeId} {n : Node}
    (known : g.nodes.get? id = some n) (fresh : id ∉ path) :
    g.offPath (id :: path) < g.offPath path :=
  countP_lt (fun x hx => by simp_all) (by simpa using fresh) (by simp) (Table.mem_keys_of_get? known)

mutual

def visit (g : Graph) (path : List NodeId) (id : NodeId) (p : Progress ε) :
    Except Stop Unit × Progress ε :=
  match _ : g.nodes.get? id with
  | none => (.error (.fault (.unregisteredNode id)), p)
  | some n =>
    if id ∈ p.compiled then (.ok (), p)
    else if _ : id ∈ path then (.error (.error (.cyclicDependency id)), p)
    else
      match g.visitInputs (id :: path) id n.inputs p with
      | (.error stop, p) => (.error stop, p)
      | (.ok (), p) => g.compileNode id n p
termination_by (g.offPath path, 0)
decreasing_by exact Prod.Lex.left _ _ (offPath_lt (by assumption) (by assumption))

def visitInputs (g : Graph) (path : List NodeId) (node : NodeId) (pins : List PinId)
    (p : Progress ε) : Except Stop Unit × Progress ε :=
  match pins with
  | [] => (.ok (), p)
  | pin :: pins =>
    match g.feeder? node pin with
    | .error stop => (.error stop, p)
    | .ok none => g.visitInputs path node pins p
    | .ok (some feeder) =>
      match g.visit path feeder p with
      | (.error stop, p) => (.error stop, p)
      | (.ok (), p) => g.visitInputs path node pins p
termination_by (g.offPath path, pins.length + 1)

end

/-! ## The whole pass -/

/-- Writes the marks and values of a pass into the graph. -/
def withResults (g : Graph) (p : Progress ε) : Graph :=
  { g with
    nodes := g.nodes.mapWithKey fun id n => { n with evaluated := decide (id ∈ p.compiled) }
    outputPins := g.outputPins.mapWithKey fun id pin => { pin with value := p.values.lookup id } }

end Graph

/-- A graph and a back end after a pass, successful or not. -/
structure Evaluation (ε : Type) where
  graph : Graph
  backend : ε
  events : List Event
  result : Except Stop Unit

def Graph.evaluate (g : Graph) (backend : ε) : Evaluation ε :=
  match g.terminal with
  | none => ⟨g, backend, [], .error (.error .noTerminalNode)⟩
  | some terminal =>
    let (answer, p) := g.visit [] terminal ⟨backend, [], [], [.evaluating g.id terminal]⟩
    let finished := match answer with
      | .ok () => [.evaluated p.compiled.length]
      | .error _ => []
    ⟨g.withResults p, p.backend, p.events ++ finished, answer⟩

end FrameGraph
