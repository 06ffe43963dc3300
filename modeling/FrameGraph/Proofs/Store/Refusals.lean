/-
  FrameGraph.Proofs.Store.Refusals: an edit that is refused leaves no trace.

  Linking changes first and checks later: both nodes have adapted to each other, or one node
  to itself, when the types turn out not to match, and are then given their former shapes. The
  other edits check first. Either way an error means that the graph is the one from before
  (`refused_apply`), down to the marks of the last evaluation, and this holds of all graphs
  that a session leads to (`session_refuses`).
-/

import FrameGraph.Proofs.Store.Runs

namespace FrameGraph

def Outcome.refusal? {α : Type} (out : Outcome (Except GraphError α)) : Option GraphError :=
  match out.result with
  | .error e => some e
  | .ok _ => none

theorem Outcome.refusal?_eq_some {α : Type} {out : Outcome (Except GraphError α)} {e : GraphError} :
    out.refusal? = some e ↔ out.result = .error e := by
  unfold refusal?
  cases out.result with
  | error e' => exact ⟨fun h => by cases h; rfl, fun h => by cases h; rfl⟩
  | ok a => exact ⟨nofun, nofun⟩

/-- The error that an edit answers with. Some edits are never refused. -/
def Edit.refusal? : Edit → Graph → Option GraphError
  | connect output input, g => (g.connect output input).toOption.bind Outcome.refusal?
  | setConvertFrom node type, g => (g.setConvertFrom node type).toOption.bind Outcome.refusal?
  | setConvertTo node type, g => (g.setConvertTo node type).toOption.bind Outcome.refusal?
  | setSelectIndex node index, g => (g.setSelectIndex node index).toOption.bind Outcome.refusal?
  | setInputCount node count, g => (g.setInputCount node count).refusal?
  | setPosition node position, g => (g.setPosition node position).refusal?
  | setTerminal node, g => (g.setTerminal node).refusal?
  | _, _ => none

namespace Graph

theorem setPosition_refused {g : Graph} {id : NodeId} {position : Position} {e : GraphError}
    (refused : (g.setPosition id position).result = .error e) : (g.setPosition id position).graph = g := by
  unfold setPosition at refused ⊢
  split
  · rfl
  · rename_i found
    rw [found] at refused
    cases refused

theorem setTerminal_refused {g : Graph} {id : NodeId} {e : GraphError}
    (refused : (g.setTerminal id).result = .error e) : (g.setTerminal id).graph = g := by
  unfold setTerminal at refused ⊢
  split
  · rename_i known
    rw [if_pos known] at refused
    cases refused
  · rfl

/-- In a sound graph, a refused edit answers the graph itself. -/
theorem refused_apply {g : Graph} (h : g.Sound) (sized : Every (fun o => o.shape.Sized) g) {edit : Edit}
    {e : GraphError} (refused : edit.refusal? g = some e) : edit.apply g = .ok g := by
  -- A setter of a shape, or a link: an outcome whose error comes with the graph from before.
  have kept : ∀ {α : Type} {x : Except Fault (Outcome (Except GraphError α))},
      x.toOption.bind Outcome.refusal? = some e →
      (∃ out, x = .ok out ∧ ∀ e, out.result = .error e → out.graph = g) → x.map Outcome.graph = .ok g := by
    intro α x refused answers
    obtain ⟨out, rfl, same⟩ := answers
    exact congrArg Except.ok (same e (Outcome.refusal?_eq_some.1 refused))
  cases edit with
  | connect output input =>
    obtain ⟨out, eq, -, -, same⟩ := @connect_sound anything g h sized output input
    exact kept refused ⟨out, eq, same⟩
  | setConvertFrom node type =>
    obtain ⟨out, eq, -, -, same⟩ := @reconfigure_sound anything g h sized node _
      (Shape.setFrom_setting type) .notConvert
    exact kept refused ⟨out, eq, same⟩
  | setConvertTo node type =>
    obtain ⟨out, eq, -, -, same⟩ := @reconfigure_sound anything g h sized node _
      (Shape.setTo_setting type) .notConvert
    exact kept refused ⟨out, eq, same⟩
  | setSelectIndex node index =>
    have admitted : anything.index index := trivial
    obtain ⟨out, eq, -, -, same⟩ := reconfigure_sound h sized node (Shape.setIndex_setting admitted) .notSelect
    exact kept refused ⟨out, eq, same⟩
  | setInputCount node count =>
    obtain ⟨-, -, same⟩ := @setInputCount_sound anything g h node count
    exact congrArg Except.ok (same e (Outcome.refusal?_eq_some.1 refused))
  | setPosition node position => exact congrArg Except.ok (setPosition_refused (Outcome.refusal?_eq_some.1 refused))
  | setTerminal node => exact congrArg Except.ok (setTerminal_refused (Outcome.refusal?_eq_some.1 refused))
  | addNode | removeNode | disconnect | resetEvaluation | evaluate => cases refused

/-- Whatever was edited before, a refused edit leaves the graph as it was. -/
theorem session_refuses {start g : Graph} (h : Start start) {edits : List Edit} (ran : Edit.run edits start = .ok g)
    {edit : Edit} {e : GraphError} (refused : edit.refusal? g = some e) : edit.apply g = .ok g := by
  obtain ⟨sound, sized⟩ := Start.sound h
  obtain ⟨g', eq, sound', every⟩ := run_sound (fun e _ => within_anything e) sound sized
  cases eq.symm.trans ran
  exact refused_apply sound' (every _ Outline.durable_sized sized) refused

/-- A conversion from cameras to nothing yet. -/
def conversionFromCamera : Graph :=
  ((new .zero untitled).addNode (.newConvert (.scalar Base.camera) .untyped) .origin).graph

/-- When its output is led back to its input, it adapts to the type of its own output, which is
none, and then the link is refused. -/
theorem session_refuses_loop : Start (.new .zero untitled)
    ∧ Edit.run [.addNode (.newConvert (.scalar Base.camera) .untyped) .origin] (.new .zero untitled)
      = .ok conversionFromCamera
    ∧ (conversionFromCamera.adapt ⟨2⟩ ⟨1⟩).map (fun adapted => adapted.nodes.values.map Node.kind)
      = .ok [.convert .untyped .untyped]
    ∧ (Edit.connect ⟨2⟩ ⟨1⟩).refusal? conversionFromCamera = some (.typeMismatch ⟨2⟩ ⟨1⟩ .untyped .untyped)
    ∧ (Edit.connect ⟨2⟩ ⟨1⟩).apply conversionFromCamera = .ok conversionFromCamera := by
  have ran : Edit.run [.addNode (.newConvert (.scalar Base.camera) .untyped) .origin] (.new .zero untitled)
      = .ok conversionFromCamera := rfl
  have refused : (Edit.connect ⟨2⟩ ⟨1⟩).refusal? conversionFromCamera
      = some (.typeMismatch ⟨2⟩ ⟨1⟩ .untyped .untyped) := by decide
  exact ⟨.new _ _, ran, by decide, refused, session_refuses (.new _ _) ran refused⟩

end Graph

end FrameGraph
