/-
  FrameGraph.Proofs.Compile.Meaning: an evaluation gives a graph its meaning.

  A graph that the loader accepts, compiled against either back end with any conversions, fails
  exactly where the reference fails and with the same mistake. Whatever comes of it, the values
  left on the outputs of a compiled node stand for what the reference computes for that node;
  and if it succeeds, every node upstream of the terminal is compiled.
-/

import FrameGraph.Proofs.Compile.Faithful

namespace FrameGraph.Graph

/-- The nodes that a terminal depends on, and the terminal itself. -/
inductive Upstream (g : Graph) (terminal : NodeId) : NodeId → Prop
  | terminal : Upstream g terminal terminal
  | feeder {id : NodeId} {n : Node} {input : InputPin} {output : OutputPin} : Upstream g terminal id →
      g.nodes.get? id = some n → input ∈ g.inputsOf n → g.source? input = some output →
      Upstream g terminal output.node

variable {ε : Type} [Evaluator ε]

/-- What is left of an evaluation, next to the reference. -/
structure Realizes (g : Graph) (registry : Registry) (terminal : NodeId) (e : Evaluation ε) : Prop where
  result : e.result = ((g.meaning registry terminal).map fun _ => ()).mapError .error
  values : ∀ id n, e.graph.nodes.get? id = some n → n.evaluated = true →
    ∃ trees, g.meaning registry id = .ok trees ∧ List.Forall₂ (fun pin tree =>
      ∃ output v, e.graph.outputPins.get? pin = some output ∧ output.value = some v
        ∧ Denotes e.backend v tree) n.outputs trees
  reached : e.result = .ok () → ∀ id, g.Upstream terminal id →
    ∃ n, e.graph.nodes.get? id = some n ∧ n.evaluated = true

variable {g : Graph} {registry : Registry} {p : Progress ε} {terminal : NodeId}

theorem Faithful.upstream (h : g.Faithful registry p) (done : terminal ∈ p.compiled) {id : NodeId}
    (up : g.Upstream terminal id) : id ∈ p.compiled := by
  induction up with
  | terminal => exact done
  | @feeder id n input output up hn member source compiled =>
    obtain ⟨n', trees, known⟩ := h.compiled id compiled
    have same := known.registered
    rw [hn] at same
    cases same
    have settled := known.inputs input member
    rwa [Settled, source] at settled

theorem realizes_withResults (sound : g.Sound) (h : g.Faithful registry p) {answer : Except Stop Unit}
    (alike : Alike (fun _ _ => terminal ∈ p.compiled) answer (g.meaning registry terminal)) (events : List Event) :
    g.Realizes registry terminal ⟨g.withResults p, p.backend, events, answer⟩ where
  result := by
    generalize g.meaning registry terminal = r at alike
    cases alike with
    | failed e => rfl
    | answered done => rfl
  values id n hn marked := by
    obtain ⟨n, registered, rfl⟩ := Table.get?_mapWithKey_eq_some.1 hn
    obtain ⟨n', trees, known⟩ := h.compiled id (of_decide_eq_true marked)
    have same := known.registered
    rw [registered] at same
    cases same
    refine ⟨trees, known.meaning [] fun _ none => (by cases none), ?_⟩
    have outputs : ∀ pin ∈ n.outputs, ∃ o, g.outputPins.get? pin = some o := by
      intro pin member
      obtain ⟨o, ho, -⟩ := sound.outputListed id n registered pin member
      exact ⟨o, ho⟩
    refine ((List.forall₂_and_left _ _).2 ⟨outputs, known.values⟩).imp fun pin tree found => ?_
    obtain ⟨⟨o, ho⟩, v, stored, d⟩ := found
    exact ⟨_, v, Table.get?_mapWithKey_eq_some.2 ⟨o, ho, rfl⟩, stored, d⟩
  reached ok id up := by
    dsimp only at ok
    subst ok
    obtain ⟨trees, -, done⟩ := alike.of_ok
    have compiled := h.upstream done up
    obtain ⟨n, trees, known⟩ := h.compiled id compiled
    exact ⟨_, Table.get?_mapWithKey_eq_some.2 ⟨n, known.registered, rfl⟩, decide_eq_true compiled⟩

theorem evaluate_realizes [LawfulEvaluator ε] (sound : g.Sound) (sized : Every (fun o => o.shape.Sized) g)
    (chosen : g.terminal = some terminal) {b : ε} (offers : Offers b registry) :
    g.Realizes registry terminal (g.evaluate b) := by
  have start : g.Faithful registry ⟨b, [], [], [.evaluating g.id terminal]⟩ := by
    refine ⟨offers, fun id none => ?_⟩
    cases none
  have visited := visit_faithful sound sized [] terminal _ start (fun _ none => by cases none)
    (sound.terminalKnown terminal chosen)
  unfold evaluate
  rw [chosen]
  exact realizes_withResults sound visited.faithful visited.alike _

/-- Both back ends give a loaded graph its meaning, whatever conversions they offer. -/
theorem evaluation_realizes {stored g : Graph} (loaded : stored.restore = .ok g) {terminal : NodeId}
    (chosen : g.terminal = some terminal) (conversions : Conversions) (trace : Bool) (settings : Settings) :
    g.Realizes conversions.find? terminal (g.evaluate (Pipeline.Builder.new conversions trace))
      ∧ g.Realizes conversions.find? terminal (g.evaluate (Program.Builder.new settings conversions)) := by
  obtain ⟨⟨sound, sized⟩, rfl⟩ := restore_eq_ok_iff.1 loaded
  exact ⟨evaluate_realizes sound sized chosen (Pipeline.Builder.offers_new conversions trace),
    evaluate_realizes sound sized chosen (Program.Builder.offers_new settings conversions)⟩

/-- A target provider that feeds a screen. -/
def targetOnScreen : Graph where
  id := .zero
  name := untitled
  nextId := 6
  terminal := some ⟨2⟩
  nodes := .ofList [(⟨0⟩, ⟨⟨0⟩, .provider .target, .origin, [], [⟨1⟩], false⟩),
    (⟨2⟩, ⟨⟨2⟩, .screen, .origin, [⟨3⟩, ⟨4⟩], [], false⟩)]
  inputPins := .ofList [(⟨3⟩, ⟨⟨3⟩, ⟨2⟩, "Target", .scalar Base.target, false, some ⟨1⟩⟩),
    (⟨4⟩, ⟨⟨4⟩, ⟨2⟩, "Require", .scalar Base.require, true, none⟩)]
  outputPins := .ofList [(⟨1⟩, ⟨⟨1⟩, ⟨0⟩, "Target", .scalar Base.target, none⟩)]
  links := .ofList [(⟨5⟩, ⟨⟨5⟩, ⟨3⟩, ⟨1⟩⟩)]

theorem evaluation_realizes_screen : targetOnScreen.restore = .ok targetOnScreen ∧ targetOnScreen.terminal = some ⟨2⟩
    ∧ targetOnScreen.Realizes Conversions.pipeline.find? ⟨2⟩
        (targetOnScreen.evaluate (Pipeline.Builder.new .pipeline false))
    ∧ targetOnScreen.Realizes Conversions.pipeline.find? ⟨2⟩
        (targetOnScreen.evaluate (Program.Builder.new .standard .pipeline)) := by
  have loaded : targetOnScreen.restore = .ok targetOnScreen := by decide
  exact ⟨loaded, rfl, evaluation_realizes loaded rfl .pipeline false .standard⟩

end FrameGraph.Graph
