/-
  FrameGraph.Proofs.Shapes: a kind and the types of its pins change together.

  Whatever a node meets and whatever is set on it, its shape follows (`Shape.Follows`): the
  numbers of pins, their names and their optional flags stay, pin types that were those the
  kind declares are so again (`InStep`), and a kind that keeps scalars and arrays apart goes on
  doing so (`Kind.Tidy`). A shape with as many pins as its kind declares (`Sized`) always has
  the slots that are written to.
-/

import FrameGraph.Node.Shape

namespace FrameGraph

/-- The names and optional flags of a kind's pins, which do not depend on its types. -/
def Kind.form (k : Kind) : List (String × Bool) × List (String × Bool) :=
  (k.inputSpecs.map fun s => (s.name, s.optional), k.outputSpecs.map fun s => (s.name, s.optional))

/-- A conversion leads from scalars to scalars or from arrays to arrays; the element of a list
and the operands of an addition are scalars. -/
def Kind.Tidy : Kind → Prop
  | convert fromType toType => fromType.isArray = toType.isArray
  | concat element _ | select element _ => element.isArray = false
  | add type => type.isArray = false
  | _ => True

/-- The number of the list member that a kind picks. -/
def Kind.index? : Kind → Option Nat
  | select _ index => some index
  | _ => none

namespace Shape

structure Sized (s : Shape) : Prop where
  inputs : s.inputs.length = s.kind.inputSpecs.length
  outputs : s.outputs.length = s.kind.outputSpecs.length

/-- The pins have the types that the kind declares. -/
structure InStep (s : Shape) : Prop where
  inputs : s.inputs = s.kind.inputSpecs.map PinSpec.type
  outputs : s.outputs = s.kind.outputSpecs.map PinSpec.type

/-- `s'` is what `s` may turn into while its node stays in place, with some numbers `allowed` to
be picked anew. -/
structure Follows (allowed : Nat → Prop) (s s' : Shape) : Prop where
  form : s'.kind.form = s.kind.form
  inputs : s'.inputs.length = s.inputs.length
  outputs : s'.outputs.length = s.outputs.length
  inStep : s.InStep → s'.InStep
  tidy : s.kind.Tidy → s'.kind.Tidy
  index : ∀ i, s'.kind.index? = some i → s.kind.index? = some i ∨ allowed i

variable {allowed : Nat → Prop}

theorem Follows.refl (s : Shape) : s.Follows allowed s := ⟨rfl, rfl, rfl, id, id, fun _ => .inl⟩

theorem inputSpecs_length {k k' : Kind} (h : k'.form = k.form) :
    k'.inputSpecs.length = k.inputSpecs.length := by
  simpa [Kind.form] using congrArg (fun f => f.1.length) h

theorem outputSpecs_length {k k' : Kind} (h : k'.form = k.form) :
    k'.outputSpecs.length = k.outputSpecs.length := by
  simpa [Kind.form] using congrArg (fun f => f.2.length) h

theorem Follows.sized {s s' : Shape} (f : s.Follows allowed s') (h : s.Sized) : s'.Sized :=
  ⟨by rw [f.inputs, h.inputs, inputSpecs_length f.form],
    by rw [f.outputs, h.outputs, outputSpecs_length f.form]⟩

/-! ## Writing to slots -/

theorem setInput_eq {s : Shape} {index : Nat} (h : index < s.inputs.length) (type : PinType) :
    s.setInput index type = .ok { s with inputs := s.inputs.set index type } := by
  simp [setInput, setSlot, h, bind, Except.bind, pure, Except.pure]

theorem setOutput_eq {s : Shape} {index : Nat} (h : index < s.outputs.length) (type : PinType) :
    s.setOutput index type = .ok { s with outputs := s.outputs.set index type } := by
  simp [setOutput, setSlot, h, bind, Except.bind, pure, Except.pure]

theorem eq_singleton {types : List PinType} (h : types.length = 1) : ∃ a, types = [a] :=
  List.length_eq_one_iff.1 h

/-! ## States of a kind -/

section States

variable {s : Shape} (sized : s.Sized)
include sized

theorem toConvert_follows {a b : PinType} (hk : s.kind = .convert a b) (fromType toType : PinType)
    (level : a.isArray = b.isArray → fromType.isArray = toType.isArray) :
    ∃ s', s.toConvert fromType toType = .ok s' ∧ s.Follows allowed s' := by
  have inputs : s.inputs.length = 1 := by simpa [hk, Kind.inputSpecs] using sized.inputs
  have outputs : s.outputs.length = 1 := by simpa [hk, Kind.outputSpecs] using sized.outputs
  obtain ⟨i, hi⟩ := eq_singleton inputs
  obtain ⟨o, ho⟩ := eq_singleton outputs
  refine ⟨⟨.convert fromType toType, [fromType], [toType]⟩, ?_, ?_⟩
  · rw [toConvert, setInput_eq (by omega)]
    simp [setOutput_eq, hi, ho, bind, Except.bind, pure, Except.pure]
  · exact ⟨by rw [hk]; rfl, inputs.symm, outputs.symm, fun _ => ⟨rfl, rfl⟩, by simpa [hk, Kind.Tidy] using level,
      by rw [hk]; exact fun _ => .inl⟩

theorem toConcat_follows {e : PinType} {count : Nat} (hk : s.kind = .concat e count) {element : PinType}
    (scalar : element.isArray = false) :
    ∃ s', s.toConcat element count = .ok s' ∧ s.Follows allowed s' := by
  have inputs : s.inputs.length = count := by simpa [hk, Kind.inputSpecs] using sized.inputs
  have outputs : s.outputs.length = 1 := by simpa [hk, Kind.outputSpecs] using sized.outputs
  obtain ⟨o, ho⟩ := eq_singleton outputs
  refine ⟨⟨.concat element count, s.inputs.map fun _ => element, [element.toArray]⟩, ?_, ?_⟩
  · simp [toConcat, setOutput_eq, ho, bind, Except.bind, pure, Except.pure]
  · refine ⟨?_, by simp, outputs.symm, fun _ => ⟨?_, rfl⟩, fun _ => scalar,
      by rw [hk]; exact fun _ => .inl⟩
    · simp [hk, Kind.form, Kind.inputSpecs, Kind.outputSpecs, Kind.concatInput, PinSpec.required]
    · apply List.ext_getElem
      · simp [inputs, Kind.inputSpecs]
      · simp [Kind.inputSpecs, Kind.concatInput, PinSpec.required]

theorem toSelect_follows {e : PinType} {index : Nat} (hk : s.kind = .select e index) {element : PinType}
    (scalar : element.isArray = false) :
    ∃ s', s.toSelect element index = .ok s' ∧ s.Follows allowed s' := by
  have inputs : s.inputs.length = 1 := by simpa [hk, Kind.inputSpecs] using sized.inputs
  have outputs : s.outputs.length = 1 := by simpa [hk, Kind.outputSpecs] using sized.outputs
  obtain ⟨i, hi⟩ := eq_singleton inputs
  obtain ⟨o, ho⟩ := eq_singleton outputs
  refine ⟨⟨.select element index, [element.toArray], [element]⟩, ?_, ?_⟩
  · rw [toSelect, setInput_eq (by omega)]
    simp [setOutput_eq, hi, ho, bind, Except.bind, pure, Except.pure]
  · exact ⟨by rw [hk]; rfl, inputs.symm, outputs.symm, fun _ => ⟨rfl, rfl⟩, fun _ => scalar,
      by rw [hk]; exact fun _ => .inl⟩

theorem toRender_follows {b : Bool} (hk : s.kind = .render b) (isArray : Bool) :
    ∃ s', s.toRender isArray = .ok s' ∧ s.Follows allowed s' := by
  have inputs : s.inputs.length = 4 := by simpa [hk, Kind.inputSpecs] using sized.inputs
  refine ⟨⟨.render isArray, (s.inputs.set renderEye ⟨Base.eye, isArray⟩).set renderTarget
    ⟨Base.target, isArray⟩, s.outputs⟩, ?_, ?_⟩
  · rw [toRender, setInput_eq (by rw [inputs]; decide)]
    simp [setInput_eq, renderTarget, inputs, bind, Except.bind, pure, Except.pure]
  · refine ⟨by rw [hk]; rfl, by simp, rfl, fun h => ⟨?_, ?_⟩, fun _ => trivial, by rw [hk]; exact fun _ => .inl⟩
    · -- the slots that are not written to are the same in both modes
      rw [h.inputs, hk]
      rfl
    · rw [h.outputs, hk]
      rfl

theorem toAdd_follows {t : PinType} (hk : s.kind = .add t) {type : PinType} (scalar : type.isArray = false) :
    s.Follows allowed (s.toAdd type) := by
  have inputs : s.inputs.length = 2 := by simpa [hk, Kind.inputSpecs] using sized.inputs
  have outputs : s.outputs.length = 1 := by simpa [hk, Kind.outputSpecs] using sized.outputs
  refine ⟨by rw [hk]; rfl, by simp [toAdd], by simp [toAdd], fun _ => ⟨?_, ?_⟩, fun _ => scalar,
    by rw [hk]; exact fun _ => .inl⟩
  · show s.inputs.map (fun _ => type) = [type, type]
    rw [List.map_const', inputs]
    rfl
  · show s.outputs.map (fun _ => type) = [type]
    rw [List.map_const', outputs]
    rfl

theorem meetOperand_follows {t : PinType} (hk : s.kind = .add t) (met : PinType) :
    s.Follows allowed (s.meetOperand t met) := by
  unfold meetOperand
  split
  · exact .refl s
  · rename_i takes
    simp only [Bool.or_eq_true, not_or, Bool.not_eq_true] at takes
    exact toAdd_follows sized hk takes.1.2

/-! ## Adapting -/

theorem meetSource_follows (index : Nat) (source : PinType) :
    ∃ s', s.meetSource index source = .ok s' ∧ s.Follows allowed s' := by
  have stays : ∃ s', (Except.ok s : Except Fault Shape) = .ok s' ∧ s.Follows allowed s' := ⟨s, rfl, .refl s⟩
  unfold meetSource
  split
  · rename_i hk
    split
    · exact stays
    · exact toConvert_follows sized hk _ _ fun _ => rfl
  · rename_i hk
    split
    · rename_i takes
      simp only [Bool.and_eq_true, Bool.not_eq_true'] at takes
      exact toConcat_follows sized hk takes.1.1
    · exact stays
  · rename_i hk
    split
    · exact toSelect_follows sized hk rfl
    · exact stays
  · rename_i hk
    split
    · exact toRender_follows sized hk _
    · exact stays
  · rename_i hk
    exact ⟨_, rfl, meetOperand_follows sized hk _⟩
  · exact stays

theorem meetTarget_follows (target : PinType) :
    ∃ s', s.meetTarget target = .ok s' ∧ s.Follows allowed s' := by
  have stays : ∃ s', (Except.ok s : Except Fault Shape) = .ok s' ∧ s.Follows allowed s' := ⟨s, rfl, .refl s⟩
  unfold meetTarget
  split
  · rename_i hk
    split
    · exact stays
    · exact toConvert_follows sized hk _ _ fun _ => rfl
  · rename_i hk
    exact ⟨_, rfl, meetOperand_follows sized hk _⟩
  · exact stays

end States

/-! ## Setters -/

/-- A setting that applies to a shape gives one that follows it. -/
def Setting (allowed : Nat → Prop) (f : Shape → Option (Except Fault Shape)) : Prop :=
  ∀ s r, s.Sized → f s = some r → ∃ s', r = .ok s' ∧ s.Follows allowed s'

theorem setFrom_setting (type : PinType) : Setting allowed (setFrom type) := by
  intro s r sized h
  unfold setFrom at h
  split at h
  · rename_i hk
    cases h
    exact toConvert_follows sized hk _ _ fun _ => rfl
  · cases h

theorem setTo_setting (type : PinType) : Setting allowed (setTo type) := by
  intro s r sized h
  unfold setTo at h
  split at h
  · rename_i hk
    cases h
    exact toConvert_follows sized hk _ _ fun _ => rfl
  · cases h

theorem setIndex_setting {index : Nat} (ok : allowed index) : Setting allowed (setIndex index) := by
  intro s r sized h
  unfold setIndex at h
  split at h
  · rename_i e i hk
    cases h
    refine ⟨_, rfl, by rw [hk]; rfl, rfl, rfl, fun step => ⟨?_, ?_⟩, by rw [hk]; exact id, ?_⟩
    · rw [step.inputs, hk]
      rfl
    · rw [step.outputs, hk]
      rfl
    · intro _ none
      cases none
      exact .inr ok
  · cases h

end Shape

end FrameGraph
