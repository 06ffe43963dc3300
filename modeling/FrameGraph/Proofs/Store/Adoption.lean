/-
  FrameGraph.Proofs.Store.Adoption: an untyped output that is linked to a typed input.

  A conversion or an addition whose output is untyped takes the type of the input that it is linked
  to (`Shape.meetTarget_untyped`), and the node that is entered keeps its own
  (`Shape.meetSource_untyped`), unless it is a conversion: that one takes the type of whatever it
  meets, so that its input is untyped too by the time that the source is asked
  (`Shape.meetSource_adopts`). Then neither end has a type, and the link is refused
  (`session_types_untyped`).
-/

import FrameGraph.Proofs.Store.Matching

namespace FrameGraph

/-- Kinds whose output takes the type of the input that it is linked to. -/
def Kind.Adopts : Kind → Prop
  | convert .. | add _ => True
  | _ => False

/-! ## Meeting an untyped pin -/

namespace Shape

variable {s : Shape} {t : PinType}

/-- No kind but a conversion takes its type from an untyped source. -/
theorem meetSource_untyped (other : ∀ a b, s.kind ≠ .convert a b) (untyped : t.isUntyped = true) (index : Nat) :
    s.meetSource index t = .ok s := by
  unfold meetSource
  split
  · rename_i hk
    exact absurd hk (other _ _)
  · simp [untyped]
  · simp [untyped]
  · have base : t.base = Base.none := eq_of_beq untyped
    have unlike : renderBase? index ≠ some t.base := by
      unfold renderBase?
      rw [base]
      split
      · decide
      · split <;> decide
    simp [unlike]
  · simp [meetOperand, untyped]
  · rfl

/-- A conversion takes the type of any other source, and its inputs with it. -/
theorem meetSource_adopts {a b : PinType} (sized : s.Sized) (hk : s.kind = .convert a b) (unlike : t ≠ a)
    (index : Nat) : ∃ s', s.meetSource index t = .ok s' ∧ s'.inputs = s.inputs.map fun _ => t := by
  have inputs : s.inputs.length = 1 := by simpa [hk, Kind.inputSpecs] using sized.inputs
  have outputs : s.outputs.length = 1 := by simpa [hk, Kind.outputSpecs] using sized.outputs
  obtain ⟨i, hi⟩ := eq_singleton inputs
  obtain ⟨o, ho⟩ := eq_singleton outputs
  refine ⟨⟨.convert t (b.withArray t.isArray), [t], [b.withArray t.isArray]⟩, ?_, by simp [hi]⟩
  simp [meetSource, hk, unlike, toConvert, setInput_eq, setOutput_eq, hi, ho, bind, Except.bind, pure, Except.pure]

/-- An untyped output takes any scalar type that it meets. -/
theorem meetTarget_untyped (step : s.InStep) (adopts : s.kind.Adopts) {own : PinType} (slot : own ∈ s.outputs)
    (untyped : own.isUntyped = true) (typed : t.isUntyped = false) (scalar : t.isArray = false) :
    ∃ s', s.meetTarget t = .ok s' ∧ s'.outputs = s.outputs.map fun _ => t := by
  have unlike : t ≠ own := fun same => by simp [same, untyped] at typed
  obtain ⟨kind, inputs, outputs⟩ := s
  obtain rfl : inputs = kind.inputSpecs.map PinSpec.type := step.inputs
  obtain rfl : outputs = kind.outputSpecs.map PinSpec.type := step.outputs
  cases kind with
  | convert fromType toType =>
    obtain rfl : own = toType := by simpa [Kind.outputSpecs, PinSpec.required] using slot
    refine ⟨⟨.convert (fromType.withArray t.isArray) t, [fromType.withArray t.isArray], [t]⟩, ?_, rfl⟩
    simp [meetTarget, unlike, toConvert, setInput_eq, setOutput_eq, Kind.inputSpecs, Kind.outputSpecs, bind,
      Except.bind, pure, Except.pure]
  | add type =>
    obtain rfl : own = type := by simpa [Kind.outputSpecs, PinSpec.required] using slot
    refine ⟨_, rfl, ?_⟩
    simp only [meetOperand, meetOperand, typed, scalar, beq_false_of_ne unlike, Bool.or_self, Bool.false_eq_true,
      if_false, toAdd]
  | _ => cases adopts

end Shape

namespace Graph

variable {g : Graph} {output input : PinId} {source : OutputPin} {target : InputPin} {n m : Node}

/-! ## Both ends of the link -/

/-- A shape that has one type on all inputs, seen at one of them. -/
theorem reshaped_input_const (id : NodeId) {s : Shape} {t : PinType} (listed : input ∈ m.inputs)
    (types : s.inputs = (g.shapeAt m).inputs.map fun _ => t) (hi : g.inputPins.get? input = some target) :
    (g.reshaped id m s).inputPins.get? input = some { target with type := t } := by
  refine repainted_input.2 ⟨target, hi, ?_⟩
  rw [types, shapeAt, List.map_map]
  exact congrArg (fun type => { target with type }) ((setTypes_map ..).trans (if_pos listed))

theorem reshaped_output_const (id : NodeId) {s : Shape} {t : PinType} (listed : output ∈ n.outputs)
    (types : s.outputs = (g.shapeAt n).outputs.map fun _ => t) (ho : g.outputPins.get? output = some source) :
    (g.reshaped id n s).outputPins.get? output = some { source with type := t } := by
  refine repainted_output.2 ⟨source, ho, ?_⟩
  rw [types, shapeAt, List.map_map]
  exact congrArg (fun type => { source with type }) ((setTypes_map ..).trans (if_pos listed))

theorem Listed.output_mem (h : g.Listed) (ho : g.outputPins.get? output = some source)
    (hn : g.nodes.get? source.node = some n) : output ∈ n.outputs := by
  obtain ⟨_, hn', listed⟩ := h.outputOwner output source ho
  cases hn.symm.trans hn'
  exact listed

theorem Listed.input_mem (h : g.Listed) (hi : g.inputPins.get? input = some target)
    (hm : g.nodes.get? target.node = some m) : input ∈ m.inputs := by
  obtain ⟨_, hm', listed⟩ := h.inputOwner input target hi
  cases hm.symm.trans hm'
  exact listed

section Ends

variable (h : g.Listed) (agree : Every Outline.Agrees g) (ho : g.outputPins.get? output = some source)
  (hi : g.inputPins.get? input = some target) (hn : g.nodes.get? source.node = some n)
  (hm : g.nodes.get? target.node = some m) (apart : source.node ≠ target.node)
  (untyped : source.type.isUntyped = true)
include h agree ho hi hn hm apart untyped

/-- Where the node that is entered keeps its types, the output takes that of the input. -/
theorem adapt_untyped (other : ∀ a b, m.kind ≠ .convert a b) (adopts : n.kind.Adopts)
    (typed : target.type.isUntyped = false) (scalar : target.type.isArray = false) :
    ∃ adapted, g.adapt output input = .ok adapted
      ∧ adapted.outputPins.get? output = some { source with type := target.type }
      ∧ adapted.inputPins.get? input = some target := by
  have left := h.output_mem ho hn
  have entered := h.input_mem hi hm
  obtain ⟨index, place, -⟩ := pinIndex_input hm entered
  have stays := reshaped_shapeAt hm
  have enters : (g.shapeAt m).meetSource index source.type = .ok (g.shapeAt m) :=
    Shape.meetSource_untyped other untyped index
  obtain ⟨t, leaves, types⟩ := Shape.meetTarget_untyped (agree.inStep hn) adopts (mem_outputs_shapeAt left ho)
    untyped typed scalar
  have adapted := adapt_eq h ho hi hm place enters (n := n) (t := t) (by rw [stays]; exact hn) left
    (by rw [stays]; exact hi) (by rw [stays]; exact leaves)
  rw [stays] at adapted
  have away : target.node ∉ [source.node] := by simpa using apart.symm
  exact ⟨_, adapted, reshaped_output_const source.node left types ho,
    ((recast_reshaped h hn t).input_away away).2 hi⟩

/-- A conversion that is entered takes the type that the output does not have. -/
theorem adapt_conversion {a b : PinType} (hk : m.kind = .convert a b) (typed : target.type.isUntyped = false) :
    ∃ adapted, g.adapt output input = .ok adapted ∧ adapted.outputPins.get? output = some source
      ∧ adapted.inputPins.get? input = some { target with type := source.type } := by
  have left := h.output_mem ho hn
  have entered := h.input_mem hi hm
  obtain ⟨index, place, listed⟩ := pinIndex_input hm entered
  have step := agree.inStep hm
  have own : target.type = a := by
    have slot := List.mem_of_getElem? (slot_shapeAt listed hi)
    rw [step.inputs] at slot
    simpa [shapeAt, hk, Kind.inputSpecs, PinSpec.required] using slot
  have unlike : source.type ≠ a := fun same => by rw [own, ← same, untyped] at typed; cases typed
  have sized : (g.shapeAt m).Sized := ⟨by simp [step.inputs], by simp [step.outputs]⟩
  obtain ⟨s, enters, types⟩ := Shape.meetSource_adopts sized hk unlike index
  have hi' := reshaped_input_const target.node entered types hi
  have hn'' := (reshaped_node_of_ne (n := m) s apart).2 hn
  -- by now the input has the type of the source, which has nothing to take over
  have same := shapeAt_reshaped_of_ne h hm s apart hn
  have leaves : ((g.reshaped target.node m s).shapeAt n).meetTarget source.type
      = .ok ((g.reshaped target.node m s).shapeAt n) := by
    rw [same]
    exact Shape.meetTarget_matching (agree.inStep hn) (mem_outputs_shapeAt left ho)
  have adapted := adapt_eq h ho hi hm place enters hn'' left hi' leaves
  rw [reshaped_shapeAt hn''] at adapted
  have away : source.node ∉ [target.node] := by simpa using apart
  exact ⟨_, adapted, ((recast_reshaped h hm s).output_away away).2 ho, hi'⟩

end Ends

/-! ## Linking an untyped output -/

/-- However a new graph was edited with fresh kinds, the untyped output of a conversion or an
addition takes the scalar type of an input that it is linked to, if that is not the input of a
conversion. A conversion refuses the link, and the graph stays as it was. -/
theorem session_types_untyped {id : Uuid} {name : String} {edits : List Edit}
    (fresh : ∀ e ∈ edits, e.Within freshKinds) (ran : Edit.run edits (.new id name) = .ok g)
    (ho : g.outputPins.get? output = some source) (hi : g.inputPins.get? input = some target)
    (hn : g.nodes.get? source.node = some n) (hm : g.nodes.get? target.node = some m)
    (apart : source.node ≠ target.node) (adopts : n.kind.Adopts) (untyped : source.type.isUntyped = true)
    (typed : target.type.isUntyped = false) (scalar : target.type.isArray = false) :
    ∃ out, g.connect output input = .ok out
      ∧ ((∀ a b, m.kind ≠ .convert a b) → (∃ l, out.result = .ok l)
        ∧ out.graph.outputPins.get? output = some { source with type := target.type }
        ∧ out.graph.inputPins.get? input = some { target with connection := some output })
      ∧ ∀ a b, m.kind = .convert a b →
        out.result = .error (.typeMismatch output input source.type source.type) ∧ out.graph = g := by
  obtain ⟨g', ran', sound, every⟩ := run_sound fresh (sound_new id name) every_new
  cases ran.symm.trans ran'
  have agree := every _ Outline.durable_agrees every_new
  have sized := every _ Outline.durable_sized every_new
  obtain ⟨out, connected, -, -, restored⟩ := @connect_sound freshKinds g sound sized output input
  refine ⟨out, connected, fun other => ?_, fun a b hk => ?_⟩
  · obtain ⟨adapted, adapts, ho', hi'⟩ :=
      adapt_untyped sound.toListed agree ho hi hn hm apart untyped other adopts typed scalar
    obtain ⟨events, eq⟩ := (connect_adapted sound ho hi adapts ho' hi').1 (compatible_iff.2 ⟨rfl, typed⟩)
    cases connected.symm.trans eq
    have joined := (adapt_recast sound.toListed ho hi adapts).joined sound ⟨_, ho'⟩ ⟨_, hi'⟩
      ((fits_iff ho' hi').2 ⟨rfl, typed⟩)
    refine ⟨⟨_, rfl⟩, ho', ?_⟩
    rw [← joined.entered]
    exact input_joined hi' ..
  · obtain ⟨adapted, adapts, ho', hi'⟩ := adapt_conversion sound.toListed agree ho hi hn hm apart untyped hk typed
    have unfit : source.type.compatible source.type = false := by simp [PinType.compatible, untyped]
    have refused := (connect_adapted sound ho hi adapts ho' hi').2 unfit out connected
    exact ⟨refused, restored _ refused⟩

/-- An untyped conversion, and a list of cameras. -/
def conversionAndCameras : List Edit :=
  [.addNode (.newConvert .untyped .untyped) .origin, .addNode (.newConcat (.scalar Base.camera)) .origin]

/-- The conversion leads to cameras once it is linked to the list. -/
theorem session_types_untyped_camera : ∃ g source target n m, (∀ e ∈ conversionAndCameras, e.Within freshKinds)
    ∧ Edit.run conversionAndCameras (.new .zero untitled) = .ok g
    ∧ g.outputPins.get? ⟨2⟩ = some source ∧ g.inputPins.get? ⟨4⟩ = some target
    ∧ g.nodes.get? source.node = some n ∧ g.nodes.get? target.node = some m ∧ source.node ≠ target.node
    ∧ n.kind.Adopts ∧ source.type.isUntyped = true ∧ target.type = .scalar Base.camera
    ∧ (∀ a b, m.kind ≠ .convert a b) ∧ ∃ out l, g.connect ⟨2⟩ ⟨4⟩ = .ok out ∧ out.result = .ok l
      ∧ out.graph.outputPins.get? ⟨2⟩ = some { source with type := .scalar Base.camera }
      ∧ out.graph.inputPins.get? ⟨4⟩ = some { target with connection := some ⟨2⟩ } := by
  have fresh : ∀ e ∈ conversionAndCameras, e.Within freshKinds := by
    simp only [conversionAndCameras, List.forall_mem_cons, Edit.Within]
    exact ⟨⟨.convert _ _, trivial⟩, ⟨.concat _, trivial⟩, by simp⟩
  obtain ⟨g, ran, -⟩ := Start.runs (.new .zero untitled) conversionAndCameras
  have facts : (Edit.run conversionAndCameras (.new .zero untitled)).map
      (fun g => (g.outputPins.get? ⟨2⟩, g.inputPins.get? ⟨4⟩, (g.nodes.get? ⟨0⟩).map Node.kind,
        (g.nodes.get? ⟨3⟩).map Node.kind))
      = .ok (some ⟨⟨2⟩, ⟨0⟩, "To", .untyped, none⟩,
        some ⟨⟨4⟩, ⟨3⟩, "Object 1", .scalar Base.camera, false, none⟩,
        some (.convert .untyped .untyped), some (.newConcat (.scalar Base.camera))) := by decide
  rw [ran] at facts
  simp only [Except.map, Except.ok.injEq, Prod.mk.injEq] at facts
  obtain ⟨ho, hi, left, entered⟩ := facts
  obtain ⟨n, hn, source_kind⟩ := Option.map_eq_some_iff.1 left
  obtain ⟨m, hm, target_kind⟩ := Option.map_eq_some_iff.1 entered
  have apart : (⟨0⟩ : NodeId) ≠ ⟨3⟩ := by decide
  have adopts : n.kind.Adopts := source_kind ▸ trivial
  have other : ∀ a b, m.kind ≠ .convert a b := by
    intro a b conversion
    cases target_kind.symm.trans conversion
  obtain ⟨out, connected, taken, -⟩ := session_types_untyped fresh ran ho hi hn hm apart adopts rfl rfl rfl
  obtain ⟨⟨l, made⟩, leaves, enters⟩ := taken other
  exact ⟨g, _, _, n, m, fresh, ran, ho, hi, hn, hm, apart, adopts, rfl, rfl, other, out, l, connected, made, leaves,
    enters⟩

/-- The test for an untyped source is missing in a conversion: cameras would have been taken. -/
theorem a_typed_conversion_refuses_an_untyped_source : ((Edit.run
    [.addNode (.newConvert .untyped .untyped) .origin,
      .addNode (.newConvert (.scalar Base.camera) (.scalar Base.eye)) .origin] (.new .zero untitled)).bind
        fun g => g.connect ⟨2⟩ ⟨4⟩).map Outcome.result
    = .ok (.error (.typeMismatch ⟨2⟩ ⟨4⟩ .untyped .untyped)) := by
  decide

end Graph

end FrameGraph
