/-
  FrameGraph.Proofs.Document.Trust: the types of pins are taken from a document on trust.

  A document says twice what a pin carries, in the node's kind and in the pin. The loader counts
  the pins that a kind declares and looks at nothing else of the declaration: types, and whether
  an input may stay empty, are what the document says of the pin (`TakenOver`). So a loaded graph
  conforms to its kinds exactly if the document does, as everything does that was saved from a
  session, and then what is compiled from it is well typed (`parse_trusts`). A document whose
  pins say something else is accepted all the same
  (`a_camera_passes_for_a_target_when_loaded`).
-/

import FrameGraph.Proofs.Compile.TypeSafety
import FrameGraph.Proofs.Document.Saving
import FrameGraph.Proofs.Store.Acceptance

namespace FrameGraph.Graph

open Evaluator (operation?)

variable {g r : Graph} {id : NodeId} {n : Node}

/-! ## Pins next to the kind -/

/-- The pins of a node carry, in order, what its kind declares, and an input may stay empty just
where the kind says so. -/
structure Conforms (g : Graph) (n : Node) : Prop where
  inputs : n.inputs.map (fun pin => (g.inputPins.get? pin).map fun p => (p.type, p.optional))
    = n.kind.inputSpecs.map fun s => some (s.type, s.optional)
  outputs : n.outputs.map (fun pin => (g.outputPins.get? pin).map OutputPin.type)
    = n.kind.outputSpecs.map fun s => some s.type

instance (g : Graph) (n : Node) : Decidable (g.Conforms n) :=
  decidable_of_iff (_ ∧ _) ⟨fun h => ⟨h.1, h.2⟩, fun h => ⟨h.1, h.2⟩⟩

theorem Agrees.conforms (h : g.Agrees n) : g.Conforms n where
  inputs := by
    have specs := congrArg (List.map (Option.map fun s : PinSpec => (s.type, s.optional))) h.inputs
    simpa [List.map_map, Function.comp_def] using specs
  outputs := by
    have specs := congrArg (List.map (Option.map (Prod.snd : String × PinType → PinType))) h.outputs
    simpa [List.map_map, Function.comp_def] using specs

theorem Conforms.fits (h : g.Conforms n) (tidy : n.kind.Tidy) : (g.outline n).Fits := by
  refine ⟨?_, tidy⟩
  rw [outline_shape]
  constructor
  · have types := congrArg (List.map fun pin : Option (PinType × Bool) => (pin.map Prod.fst).getD .untyped) h.inputs
    simp only [List.map_map, Function.comp_def, Option.map_map, Option.map_some, Option.getD_some] at types
    exact types
  · have types := congrArg (List.map fun type : Option PinType => type.getD .untyped) h.outputs
    simp only [List.map_map, Function.comp_def, Option.getD_some] at types
    exact types

/-- Everything conforms, and conversions, elements and sums have the array forms that they should. -/
def KeepsKinds (g : Graph) : Prop := ∀ k n, g.nodes.get? k = some n → g.Conforms n ∧ n.kind.Tidy

theorem KeepsKinds.fitting (h : g.KeepsKinds) : Every Outline.Fits g := fun k n hn => (h k n hn).1.fits (h k n hn).2

theorem keepsKinds_of_agrees (listed : g.Listed) (agree : Every Outline.Agrees g) : g.KeepsKinds :=
  fun k n hn => ⟨(agrees_of_outline listed hn (agree k n hn)).conforms, (agree k n hn).tidy⟩

/-! ## What the loader makes of a document -/

/-- Nodes and pins are as the document has them, and of the declarations of kinds only the numbers
of pins were looked at. -/
structure TakenOver (g r : Graph) : Prop where
  nodes : r.nodes = g.nodes
  inputs : ∀ pin, (r.inputPins.get? pin).map (fun p => { p with connection := none })
    = (g.inputPins.get? pin).map fun p => { p with connection := none }
  outputs : r.outputPins = g.outputPins
  counts : ∀ k n, r.nodes.get? k = some n →
    n.inputs.length = n.kind.inputSpecs.length ∧ n.outputs.length = n.kind.outputSpecs.length
  conforms : ∀ k n, r.nodes.get? k = some n → (r.Conforms n ↔ g.Conforms n)

theorem conforms_rewired : g.rewired.Conforms n ↔ g.Conforms n := by
  have pins : ∀ pin, (g.rewired.inputPins.get? pin).map (fun p => (p.type, p.optional))
      = (g.inputPins.get? pin).map fun p => (p.type, p.optional) := by
    intro pin
    simp only [rewired, Table.get?_mapWithKey, Option.map_map, Function.comp_def]
  constructor
  · intro h
    exact ⟨by simpa only [pins] using h.inputs, h.outputs⟩
  · intro h
    exact ⟨by simpa only [pins] using h.inputs, h.outputs⟩

theorem takenOver_rewired (sized : Every (fun o => o.shape.Sized) g.rewired) : g.TakenOver g.rewired where
  nodes := rfl
  inputs pin := by simp only [rewired, Table.get?_mapWithKey, Option.map_map, Function.comp_def]
  outputs := rfl
  counts k n hn := sized_outline_iff.1 (sized k n hn)
  conforms _ _ _ := conforms_rewired

/-- The text is that of a graph that was edited with fresh kinds, with numbers that a document has
room for. -/
def Saved (text : String) : Prop := ∃ id name edits s, (∀ e ∈ edits, e.Within freshKinds ∧ e.Within countable)
  ∧ Edit.run edits (new id name) = .ok s ∧ s.nextId < 2 ^ 32 ∧ text = s.print

theorem Saved.keepsKinds {text : String} (saved : Saved text) (loaded : parse text = .ok r) : r.KeepsKinds := by
  obtain ⟨id, name, edits, s, within, ran, small, rfl⟩ := saved
  obtain ⟨s', ran', sound, fresh⟩ := run_sound (fun e he => (within e he).1) (sound_new id name) every_new
  cases ran.symm.trans ran'
  obtain ⟨s', ran', -, counted⟩ := run_sound (fun e he => (within e he).2) (sound_new id name) every_new
  cases ran.symm.trans ran'
  have agree : Every Outline.Agrees s := fresh _ Outline.durable_agrees every_new
  have countable : Every Outline.Countable s := counted _ Outline.durable_countable every_new
  cases loaded.symm.trans (parse_plain sound small countable)
  have plain : Every Outline.Agrees s.plain :=
    agree.repainted keeps_plain (fun _ _ => rfl) (fun _ _ _ ho _ => ⟨ho.inputs, ho.outputs, ho.tidy⟩) (fun _ _ => rfl)
      fun _ _ => rfl
  have reset := sound.plain.resetEvaluation
  exact keepsKinds_of_agrees reset.1.toListed (reset.2 _ plain)

/-- The loader takes over what a document says of pins. If that is what the kinds declare, as in
every document that was saved from a session, whatever is compiled from the graph is well typed. -/
theorem parse_trusts {text : String} (loaded : parse text = .ok r) :
    (∃ version g, document? text = some (version, g) ∧ g.TakenOver r) ∧ (Saved text → r.KeepsKinds)
      ∧ (r.KeepsKinds → ∀ conversions : Conversions,
        (∀ trace, r.EvaluatesTyped (Pipeline.Builder.new conversions trace))
          ∧ ∀ settings, r.EvaluatesTyped (Program.Builder.new settings conversions)) := by
  obtain ⟨version, g, document, -, restored⟩ := parse_eq_ok_iff.1 loaded
  obtain ⟨⟨sound, sized⟩, rfl⟩ := restore_eq_ok_iff.1 restored
  exact ⟨⟨version, g, document, takenOver_rewired sized⟩, fun saved => saved.keepsKinds loaded,
    fun keeps => fitting_typed sound sized keeps.fitting⟩

/-- The edits that make `targetOnScreen`. -/
def screenedTarget : List Edit :=
  [.addNode (.provider .target) .origin, .addNode .screen .origin, .connect ⟨1⟩ ⟨3⟩, .setTerminal ⟨2⟩]

/-- A target is saved with the screen that shows it, and loaded. -/
theorem parse_trusts_screen : Saved targetOnScreen.print ∧ parse targetOnScreen.print = .ok targetOnScreen
    ∧ targetOnScreen.KeepsKinds ∧ targetOnScreen.EvaluatesTyped (Pipeline.Builder.new .pipeline false) := by
  have ran : Edit.run screenedTarget (new .zero untitled) = .ok targetOnScreen := by decide
  have fresh : ∀ e ∈ screenedTarget, e.Within freshKinds := by
    simp only [screenedTarget, List.forall_mem_cons, Edit.Within]
    exact ⟨⟨.provider _, trivial⟩, ⟨.screen, trivial⟩, trivial, trivial, List.forall_mem_nil _⟩
  have counted : ∀ e ∈ screenedTarget, e.Within countable := by
    simp only [screenedTarget, List.forall_mem_cons, Edit.Within, countable, Kind.Storable]
    simp [Kind.index?]
  have saved : Saved targetOnScreen.print :=
    ⟨.zero, untitled, screenedTarget, targetOnScreen, fun e he => ⟨fresh e he, counted e he⟩, ran, by decide, rfl⟩
  have loaded : parse targetOnScreen.print = .ok targetOnScreen := by
    obtain ⟨s, ran', sound, every⟩ := run_sound counted (sound_new .zero untitled) every_new
    cases ran.symm.trans ran'
    exact parse_plain sound (by decide) (every _ Outline.durable_countable every_new)
  obtain ⟨-, keeps, typed⟩ := parse_trusts loaded
  exact ⟨saved, loaded, keeps saved, (typed (keeps saved) .pipeline).1 false⟩

/-- A camera provider whose output pin says that it is a target, and that feeds a screen. -/
def cameraOnScreen : Graph :=
  { targetOnScreen with nodes := .ofList [(⟨0⟩, ⟨⟨0⟩, .provider .camera, .origin, [], [⟨1⟩], false⟩),
      (⟨2⟩, ⟨⟨2⟩, .screen, .origin, [⟨3⟩, ⟨4⟩], [], false⟩)] }

/-- The document is accepted, and what is compiled from it gives the screen a camera for a target. -/
theorem a_camera_passes_for_a_target_when_loaded : parse cameraOnScreen.print = .ok cameraOnScreen
    ∧ (∃ n, cameraOnScreen.nodes.get? ⟨0⟩ = some n ∧ ¬ cameraOnScreen.Conforms n)
    ∧ ¬ cameraOnScreen.EvaluatesTyped (Pipeline.Builder.new .pipeline false) := by
  have restored : cameraOnScreen.restore = .ok cameraOnScreen := by decide
  obtain ⟨⟨sound, sized⟩, same⟩ := restore_eq_ok_iff.1 restored
  rw [← same] at sound sized
  have plain : ∀ n ∈ cameraOnScreen.nodes.values, n.kind.index? = none ∧ n.position.plain = n.position := by decide
  have legible : Every Outline.Legible cameraOnScreen := by
    intro k n hn
    obtain ⟨unpicked, position⟩ := plain n (Table.mem_values_iff.2 ⟨k, hn⟩)
    refine ⟨⟨sized k n hn, fun i picked => ?_⟩, position⟩
    cases unpicked.symm.trans picked
  refine ⟨parse_legible sound (by decide) legible, ⟨_, rfl, by decide⟩, fun typed => ?_⟩
  -- The provider's value is a camera, and its pin promises a target.
  have enough : cameraOnScreen.nodes.size < 3 := by decide
  have done : (cameraOnScreen.evaluate (Pipeline.Builder.new .pipeline false)).result = .ok () :=
    evaluate_within (f := fun e : Evaluation Pipeline.Builder => e.result) enough (by decide)
  have marked : (cameraOnScreen.evaluate (Pipeline.Builder.new .pipeline false)).graph.nodes.get? ⟨0⟩
      = some ⟨⟨0⟩, .provider .camera, .origin, [], [⟨1⟩], true⟩ :=
    evaluate_within (f := fun e : Evaluation Pipeline.Builder => e.graph.nodes.get? ⟨0⟩) enough (by decide)
  have output : (cameraOnScreen.evaluate (Pipeline.Builder.new .pipeline false)).graph.outputPins.get? ⟨1⟩
      = some ⟨⟨1⟩, ⟨0⟩, "Target", .scalar Base.target, some ⟨0⟩⟩ :=
    evaluate_within (f := fun e : Evaluation Pipeline.Builder => e.graph.outputPins.get? ⟨1⟩) enough (by decide)
  have provided : operation? (cameraOnScreen.evaluate (Pipeline.Builder.new .pipeline false)).backend ⟨0⟩
      = some ((Operation.plain .provideCamera (.scalar Base.camera) []).named Provider.camera.label) :=
    evaluate_within (f := fun e : Evaluation Pipeline.Builder => operation? e.backend ⟨0⟩) enough (by decide)
  obtain ⟨terminal, js, -, -, safe⟩ := typed done
  obtain ⟨o, v, found, value, wellTyped⟩ := safe.values ⟨0⟩ _ marked rfl ⟨1⟩ List.mem_cons_self
  cases output.symm.trans found
  cases value
  dsimp only at wellTyped
  generalize type : PinType.scalar Base.target = t at wellTyped
  cases wellTyped with
  | operation found kind =>
    cases provided.symm.trans found
    rw [← type] at kind
    exact absurd kind (by decide)
  | array _ isArray _ =>
    rw [← type] at isArray
    cases isArray
  | lock => exact absurd type (by decide)

end FrameGraph.Graph
