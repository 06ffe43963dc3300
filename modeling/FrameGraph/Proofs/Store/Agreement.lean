/-
  FrameGraph.Proofs.Store.Agreement: kinds and pins do not drift apart.

  What a node's kind declares is stored a second time in the node's pins, and different edits
  write the two. In a session that starts with a new graph and adds nodes of freshly made kinds,
  they agree throughout (`session_agrees`): the pins of every node are those that its kind, in
  its present state, declares, and every kind is tidy.
-/

import FrameGraph.Proofs.Store.Runs

namespace FrameGraph

/-! ## Fresh kinds -/

/-- Kinds as their constructors make them. -/
inductive Kind.Fresh : Kind → Prop where
  | provider (p : Provider) : Fresh (.provider p)
  | convert (fromType toType : PinType) : Fresh (.newConvert fromType toType)
  | concat (element : PinType) : Fresh (.newConcat element)
  | select (element : PinType) (index : Nat) : Fresh (.newSelect element index)
  | render : Fresh .newRender
  | editorRender : Fresh .editorRender
  | requireLock : Fresh .newRequireLock
  | screen : Fresh .screen
  | property (name : String) (type : PinType) : Fresh (.property name type)
  | vertexAttribute (name : String) (type : PinType) : Fresh (.vertexAttribute name type)
  | sampler (name : String) : Fresh (.sampler name)
  | add : Fresh .newAdd
  | sample2D : Fresh .sample2D
  | materialOutput : Fresh .materialOutput

theorem Kind.Fresh.tidy {k : Kind} (h : k.Fresh) : k.Tidy := by
  cases h <;> first | exact trivial | rfl

/-- Nodes are added with fresh kinds; otherwise anything goes. -/
def freshKinds : Policy := ⟨Kind.Fresh, fun _ => True, fun _ => True⟩

namespace Outline

/-! ## Outlines that agree with their kinds -/

structure Agrees (o : Outline) : Prop where
  inputs : o.inputs = o.kind.inputSpecs
  outputs : o.outputs = o.kind.outputSpecs
  tidy : o.kind.Tidy

theorem Agrees.inStep {o : Outline} (h : o.Agrees) : o.shape.InStep :=
  ⟨congrArg (List.map PinSpec.type) h.inputs, congrArg (List.map PinSpec.type) h.outputs⟩

/-- Types agree with the kind, whatever the pins are called. -/
structure Fits (o : Outline) : Prop where
  step : o.shape.InStep
  tidy : o.kind.Tidy

theorem Agrees.fits {o : Outline} (h : o.Agrees) : o.Fits := ⟨h.inStep, h.tidy⟩

theorem Agrees.labels {o : Outline} (h : o.Agrees) : o.labels = o.kind.form := by
  rw [Outline.labels, Kind.form, h.inputs, h.outputs]

/-- More inputs are declared as the first ones are. -/
theorem range_resized {α : Type} (f : Nat → α) (current count : Nat) :
    ((List.range current).map f).take count ++ (List.range' current (count - current)).map f
      = (List.range count).map f := by
  rw [← List.map_take, ← List.map_append]
  congr 1
  by_cases fewer : count ≤ current
  · rw [List.take_range, Nat.min_eq_left fewer, Nat.sub_eq_zero_of_le fewer]
    simp
  · have grown : count = current + (count - current) := by omega
    rw [List.take_of_length_le (by simp; omega)]
    conv_rhs => rw [grown]
    rw [List.range_eq_range', List.range_eq_range', ← List.range'_append_1, Nat.zero_add]

theorem durable_agrees : Durable freshKinds Agrees where
  sized o h := ⟨by simp [Outline.shape, h.inputs], by simp [Outline.shape, h.outputs]⟩
  fresh kind position made _ := ⟨rfl, rfl, made.tidy⟩
  moved o position h _ := ⟨h.inputs, h.outputs, h.tidy⟩
  becomes o o' h b := by
    have step := b.shape.inStep h.inStep
    have labels : o'.labels = o'.kind.form := by rw [b.labels, h.labels]; exact b.shape.form.symm
    exact ⟨Graph.spec_ext step.inputs (congrArg Prod.fst labels),
      Graph.spec_ext step.outputs (congrArg Prod.snd labels), b.shape.tidy h.tidy⟩
  resized o count h takes := by
    obtain ⟨kind, position, inputs, outputs⟩ := o
    obtain ⟨inputs_eq, outputs_eq, tidy⟩ := h
    obtain ⟨least, minimal, -⟩ := takes
    dsimp only at inputs_eq outputs_eq tidy minimal
    cases kind with
    | concat element current =>
      refine ⟨?_, outputs_eq, tidy⟩
      simp only [Outline.resized, missingInputs_concat, inputs_eq, Kind.inputSpecs, List.length_map,
        List.length_range]
      exact range_resized _ _ _
    | requireLock current =>
      refine ⟨?_, outputs_eq, trivial⟩
      simp only [Outline.resized, missingInputs_requireLock, inputs_eq, Kind.inputSpecs, List.length_map,
        List.length_range]
      exact range_resized _ _ _
    | _ => cases minimal

end Outline

namespace Graph

/-! ## Nodes that agree with their pins -/

/-- The pins of a node are those that its kind declares now, in order. Conversions lead from
scalars to scalars or from arrays to arrays, elements and operands are scalars, and a render
pass takes arrays of eyes and targets exactly in its array mode. -/
structure Agrees (g : Graph) (n : Node) : Prop where
  inputs : (n.inputs.map fun pin => (g.inputPins.get? pin).map fun p => PinSpec.mk p.name p.type p.optional)
    = n.kind.inputSpecs.map some
  outputs : (n.outputs.map fun pin => (g.outputPins.get? pin).map fun p => (p.name, p.type))
    = n.kind.outputSpecs.map fun s => some (s.name, s.type)
  convert : ∀ fromType toType, n.kind = .convert fromType toType → fromType.isArray = toType.isArray
  concat : ∀ element inputs, n.kind = .concat element inputs → element.isArray = false
  select : ∀ element index, n.kind = .select element index → element.isArray = false
  add : ∀ type, n.kind = .add type → type.isArray = false
  render : ∀ isArray, n.kind = .render isArray → ∀ pin ∈ n.inputs, ∀ p, g.inputPins.get? pin = some p →
    p.name = "Eye" ∨ p.name = "Target" → p.type.isArray = isArray

theorem agrees_of_outline {g : Graph} (listed : g.Listed) {k : NodeId} {n : Node}
    (hn : g.nodes.get? k = some n) (h : (g.outline n).Agrees) : g.Agrees n := by
  have specs_in : n.inputs.map g.inputSpecAt = n.kind.inputSpecs := h.inputs
  have specs_out : n.outputs.map g.outputSpecAt = n.kind.outputSpecs := h.outputs
  have tidy : n.kind.Tidy := h.tidy
  refine ⟨?_, ?_, ?_, ?_, ?_, ?_, ?_⟩
  · rw [← specs_in, List.map_map]
    refine List.map_congr_left fun pin hpin => ?_
    obtain ⟨p, hp, -⟩ := listed.inputListed k n hn pin hpin
    simp [inputSpecAt, hp]
  · rw [← specs_out, List.map_map]
    refine List.map_congr_left fun pin hpin => ?_
    obtain ⟨p, hp, -⟩ := listed.outputListed k n hn pin hpin
    simp [outputSpecAt, hp, PinSpec.required]
  · intro fromType toType hk
    rwa [hk] at tidy
  · intro element inputs hk
    rwa [hk] at tidy
  · intro element index hk
    rwa [hk] at tidy
  · intro type hk
    rwa [hk] at tidy
  · intro isArray hk pin hpin p hp named
    have declared : g.inputSpecAt pin ∈ n.kind.inputSpecs := specs_in ▸ List.mem_map.2 ⟨pin, hpin, rfl⟩
    rw [hk, inputSpecAt, hp] at declared
    simp only [Option.map_some, Option.getD_some, Kind.inputSpecs, List.mem_cons, List.not_mem_nil, or_false,
      PinSpec.required, Kind.requireInput, PinSpec.optionally, PinSpec.mk.injEq] at declared
    rcases declared with ⟨name, -⟩ | ⟨-, type, -⟩ | ⟨-, type, -⟩ | ⟨name, -⟩
    · rw [name] at named
      exact absurd named (by decide)
    · rw [type]
    · rw [type]
    · rw [name] at named
      exact absurd named (by decide)

/-- However a new graph is edited with fresh kinds, its kinds and pins agree. -/
theorem session_agrees (id : Uuid) (name : String) {edits : List Edit}
    (fresh : ∀ e ∈ edits, e.Within freshKinds) :
    ∃ g, Edit.run edits (.new id name) = .ok g ∧ ∀ k n, g.nodes.get? k = some n → g.Agrees n := by
  obtain ⟨g, eq, sound, every⟩ := run_sound fresh (sound_new id name) every_new
  refine ⟨g, eq, fun k n hn => agrees_of_outline sound.toListed hn ?_⟩
  exact every _ Outline.durable_agrees every_new k n hn

theorem session_agrees_convert :
    (∀ e ∈ [Edit.addNode (.newConvert .untyped .untyped) .origin, .addNode (.newConcat .untyped) .origin,
        .connect ⟨6⟩ ⟨1⟩, .setInputCount ⟨3⟩ 5], e.Within freshKinds)
      ∧ ∃ g, Edit.run [.addNode (.newConvert .untyped .untyped) .origin, .addNode (.newConcat .untyped) .origin,
          .connect ⟨6⟩ ⟨1⟩, .setInputCount ⟨3⟩ 5] (.new .zero untitled) = .ok g
        ∧ ∀ k n, g.nodes.get? k = some n → g.Agrees n := by
  have fresh : ∀ e ∈ [Edit.addNode (.newConvert .untyped .untyped) .origin,
      .addNode (.newConcat .untyped) .origin, .connect ⟨6⟩ ⟨1⟩, .setInputCount ⟨3⟩ 5], e.Within freshKinds := by
    simp only [List.forall_mem_cons, Edit.Within]
    exact ⟨⟨.convert _ _, trivial⟩, ⟨.concat _, trivial⟩, trivial, trivial, by simp⟩
  exact ⟨fresh, session_agrees .zero untitled fresh⟩

end Graph

end FrameGraph
