/-
  FrameGraph.Proofs.Compile.Typing: rules keep to the types of their pins.

  A handle has a type if it leads to an operation with this type, or to a group whose members
  have the element type of an array; members of a group of locks are locks again (`WellTyped`).
  What has a type keeps it while the back end grows. A rule that sees well typed values, on pins
  that agree with its kind, answers with well typed values and records only operations whose
  operands come from the pins at their places (`Adds`, `evaluate_typed`).
-/

import FrameGraph.Proofs.Compile.Contracts
import FrameGraph.Proofs.Shapes

namespace FrameGraph

open Evaluator (addOperation addArray operation? arrayMembers? conversion?)
open PinType (scalar)

variable {ε : Type} [Evaluator ε]

/-! ## Types of handles -/

inductive WellTyped (b : ε) : Handle → PinType → Prop
  | operation {h : Handle} {op : Operation} {t : PinType} : operation? b h = some op → op.type = t → WellTyped b h t
  | array {h : Handle} {ms : List Handle} {t : PinType} : arrayMembers? b h = some ms → t.isArray = true →
    (∀ m ∈ ms, WellTyped b m t.element) → WellTyped b h t
  | lock {h : Handle} {ms : List Handle} : arrayMembers? b h = some ms →
    (∀ m ∈ ms, WellTyped b m (scalar Base.require)) → WellTyped b h (scalar Base.require)

theorem WellTyped.mono {b b' : ε} (grows : Extends b b') {h : Handle} {t : PinType} (typed : WellTyped b h t) :
    WellTyped b' h t := by
  induction typed with
  | operation found type => exact .operation (grows.operation found) type
  | array found isArray _ ih => exact .array (grows.members found) isArray ih
  | lock found _ ih => exact .lock (grows.members found) ih

/-- The members of a well typed array have its element type. -/
theorem WellTyped.members [LawfulEvaluator ε] {b : ε} {h : Handle} {t : PinType} (typed : WellTyped b h t)
    (isArray : t.isArray = true) {ms : List Handle} (found : arrayMembers? b h = some ms) :
    ∀ m ∈ ms, WellTyped b m t.element := by
  cases typed with
  | operation op type =>
    rw [LawfulEvaluator.exclusive op] at found
    cases found
  | array found' _ each =>
    rw [found] at found'
    cases found'
    exact each
  | lock => cases isArray

/-! ## Where operands come from -/

/-- An operand is the value of an input, or a member of that value. -/
def ReadFrom (b : ε) (s : InputSlot) (v : Handle) : Prop :=
  ∃ w, s.value = some w ∧ (v = w ∧ WellTyped b v s.type
    ∨ ∃ ms, arrayMembers? b w = some ms ∧ v ∈ ms ∧ WellTyped b v s.type.element)

/-- Each operand is read from the input at its place. -/
def ReadsInputs (b : ε) (slots : List InputSlot) (operands : List Handle) : Prop :=
  ∀ (place : Nat) (v : Handle), operands[place]? = some v → ∃ s, slots[place]? = some s ∧ ReadFrom b s v

section Reading

variable {b b' : ε} {s : InputSlot} {slots : List InputSlot} {v : Handle} {operands : List Handle}

theorem ReadFrom.mono (grows : Extends b b') (h : ReadFrom b s v) : ReadFrom b' s v := by
  obtain ⟨w, value, ⟨same, typed⟩ | ⟨ms, found, member, typed⟩⟩ := h
  · exact ⟨w, value, .inl ⟨same, typed.mono grows⟩⟩
  · exact ⟨w, value, .inr ⟨ms, grows.members found, member, typed.mono grows⟩⟩

theorem ReadsInputs.mono (grows : Extends b b') (h : ReadsInputs b slots operands) :
    ReadsInputs b' slots operands := by
  intro place v found
  obtain ⟨s, slot, read⟩ := h place v found
  exact ⟨s, slot, read.mono grows⟩

theorem ReadsInputs.nil : ReadsInputs b slots [] := by
  intro place v found
  cases found

theorem ReadsInputs.cons (first : ReadFrom b s v) (rest : ReadsInputs b slots operands) :
    ReadsInputs b (s :: slots) (v :: operands) := by
  intro place w found
  cases place with
  | zero =>
    cases found
    exact ⟨s, rfl, first⟩
  | succ place => exact rest place w found

end Reading

/-! ## What a rule adds -/

/-- A back end that holds the operations it was asked for, and no others. -/
class ExactEvaluator (ε : Type) [Evaluator ε] : Prop extends LawfulEvaluator ε where
  addOperation_only : ∀ {b : ε} {op op' : Operation} {h : Handle},
    operation? (addOperation b op).1 h = some op' → operation? b h = some op' ∨ op' = op
  addArray_only : ∀ {b : ε} {name : String} {members : List Handle} {h : Handle} {op : Operation},
    operation? (addArray b name members).1 h = some op → operation? b h = some op

/-- The back end has grown by operations that read the inputs of a node. -/
structure Adds (slots : List InputSlot) (b b' : ε) : Prop where
  grows : Extends b b'
  reads : ∀ h op, operation? b' h = some op → operation? b h = some op ∨ ReadsInputs b' slots op.operands

section Adding

variable {slots : List InputSlot} {b b' b'' : ε}

theorem Adds.refl (b : ε) : Adds slots b b := ⟨.refl b, fun _ _ => .inl⟩

theorem Adds.trans (h : Adds slots b b') (h' : Adds slots b' b'') : Adds slots b b'' := by
  refine ⟨h.grows.trans h'.grows, fun handle op found => ?_⟩
  rcases h'.reads handle op found with old | new
  · rcases h.reads handle op old with older | new
    · exact .inl older
    · exact .inr (new.mono h'.grows)
  · exact .inr new

variable [ExactEvaluator ε]

theorem adds_operation {op : Operation} (reads : ReadsInputs b slots op.operands) :
    Adds slots b (addOperation b op).1 := by
  have grows := LawfulEvaluator.addOperation_extends b op
  refine ⟨grows, fun h op' found => ?_⟩
  rcases ExactEvaluator.addOperation_only found with old | rfl
  · exact .inl old
  · exact .inr (reads.mono grows)

theorem adds_array (name : String) (members : List Handle) : Adds slots b (addArray b name members).1 :=
  ⟨LawfulEvaluator.addArray_extends b name members, fun _ _ found => .inl (ExactEvaluator.addArray_only found)⟩

end Adding

/-! ## Rules -/

/-- Well typed values, and operations that read the inputs. -/
def Types (c : Context) (b : ε) (values : List Handle) (b' : ε) : Prop :=
  Adds c.inputs b b' ∧ List.Forall₂ (WellTyped b') values c.outputs

section Rules

variable [ExactEvaluator ε] {b : ε} {c : Context} {t : PinType}

/-- A recorded operation has its type, whatever else is recorded later. -/
theorem record_typed {op : Operation} (reads : ReadsInputs b c.inputs op.operands) (type : op.type = t) :
    Meets b (Build.record op) fun h b' => Adds c.inputs b b' ∧ WellTyped b' h t :=
  .record ⟨adds_operation reads, .operation (LawfulEvaluator.addOperation_recorded b op) type⟩

theorem array_typed (name : String) {members : List Handle} (isArray : t.isArray = true)
    (each : ∀ m ∈ members, WellTyped b m t.element) :
    Meets b (Build.group name members) fun h b' => Adds c.inputs b b' ∧ WellTyped b' h t := by
  have grows := LawfulEvaluator.addArray_extends b name members
  exact .group ⟨adds_array name members,
    .array (LawfulEvaluator.addArray_recorded b name members) isArray fun m member => (each m member).mono grows⟩

theorem lock_typed (name : String) {members : List Handle}
    (each : ∀ m ∈ members, WellTyped b m (scalar Base.require)) :
    Meets b (Build.group name members) fun h b' => Adds c.inputs b b' ∧ WellTyped b' h (scalar Base.require) := by
  have grows := LawfulEvaluator.addArray_extends b name members
  exact .group ⟨adds_array name members,
    .lock (LawfulEvaluator.addArray_recorded b name members) fun m member => (each m member).mono grows⟩

omit [ExactEvaluator ε] in
/-- A rule whose only value has the type of its only output. -/
theorem alone_typed {start : ε} {x : Build ε Handle} (outputs : c.outputs = [t])
    (h : Meets b x fun v b' => Adds c.inputs start b' ∧ WellTyped b' v t) :
    Meets b (do return [← x]) (Types c start) := by
  refine h.bind fun v b' made => .pure ?_
  obtain ⟨adds, typed⟩ := made
  exact ⟨adds, outputs ▸ .cons typed .nil⟩

theorem single_typed {op : Operation} (outputs : c.outputs = [t]) (reads : ReadsInputs b c.inputs op.operands)
    (type : op.type = t) : Meets b (Rule.single op) (Types c b) :=
  alone_typed outputs (record_typed reads type)

omit [ExactEvaluator ε] in
/-- What follows other additions adds to them. -/
theorem after_typed {start : ε} {x : Build ε Handle} (before : Adds c.inputs start b)
    (h : Meets b x fun v b' => Adds c.inputs b b' ∧ WellTyped b' v t) :
    Meets b x fun v b' => Adds c.inputs start b' ∧ WellTyped b' v t :=
  h.imp fun _ _ made => ⟨before.trans made.1, made.2⟩

omit [ExactEvaluator ε] in
/-- Records one operation of a type for each element of a list. -/
theorem each_typed {α : Type} {f : α → Build ε Handle} {as : List α}
    (each : ∀ a ∈ as, ∀ b', Adds c.inputs b b' →
      Meets b' (f a) fun v d => Adds c.inputs b' d ∧ WellTyped d v t) :
    Meets b (as.mapM f) fun vs b' => Adds c.inputs b b' ∧ ∀ v ∈ vs, WellTyped b' v t :=
  .mapM (Adds c.inputs) (fun v b => WellTyped b v t) Adds.refl Adds.trans
    (fun adds typed => typed.mono adds.grows) each

end Rules

/-! ## Inputs that hold well typed values -/

def Holds (b : ε) (s : InputSlot) : Prop := ∀ v, s.value = some v → WellTyped b v s.type

section Inputs

variable {b b' : ε} {s : InputSlot} {slots : List InputSlot} {v : Handle} {t : PinType}

theorem Holds.whole (h : Holds b s) (held : s.value = some v) (grows : Extends b b') : ReadFrom b' s v :=
  ⟨v, held, .inl ⟨rfl, (h v held).mono grows⟩⟩

/-- An input that may be empty gives at most one operand. -/
theorem Holds.optional (h : Holds b s) : ReadsInputs b (s :: slots) s.value.toList := by
  cases held : s.value with
  | none => exact .nil
  | some v => exact .cons (h.whole held (.refl b)) .nil

theorem Holds.member [LawfulEvaluator ε] (h : Holds b s) (held : s.value = some v)
    (isArray : s.type.isArray = true) {ms : List Handle} (found : arrayMembers? b v = some ms) {m : Handle}
    (member : m ∈ ms) (grows : Extends b b') : ReadFrom b' s m :=
  ⟨v, held, .inr ⟨ms, grows.members found, member, ((h v held).members isArray found m member).mono grows⟩⟩

/-- The members of an array, or the array as a whole. -/
theorem Holds.spread [LawfulEvaluator ε] (h : Holds b s) (held : s.value = some v)
    (isArray : s.type.isArray = true) {m : Handle} (member : m ∈ (arrayMembers? b v).getD [v]) (grows : Extends b b') : ReadFrom b' s m := by
  cases found : arrayMembers? b v with
  | none =>
    rw [found] at member
    obtain rfl := List.mem_singleton.1 member
    exact h.whole held grows
  | some ms =>
    rw [found] at member
    exact h.member held isArray found member grows

theorem holds_all {vs : List Handle} (holds : ∀ s ∈ slots, Holds b s) (types : ∀ s ∈ slots, s.type = t)
    (held : slots.map InputSlot.value = vs.map some) : ∀ v ∈ vs, WellTyped b v t := by
  intro v member
  have found : some v ∈ slots.map InputSlot.value := held ▸ List.mem_map_of_mem member
  obtain ⟨s, listed, value⟩ := List.mem_map.1 found
  exact types s listed ▸ holds s listed v value

end Inputs

/-! ## Kind by kind -/

theorem PinType.element_of_scalar {t : PinType} (h : t.isArray = false) : t.element = t := by
  cases t
  cases h
  rfl

section Kinds

variable [ExactEvaluator ε] {b : ε} {node : NodeId} {s : InputSlot} {t : PinType}

theorem convert_typed {registry : Registry} (offers : Offers b registry) (h : Holds b s)
    (arrays : s.type.isArray = t.isArray) :
    Meets b (Rule.convert ⟨node, [s], [t]⟩) (Types ⟨node, [s], [t]⟩ b) := by
  refine .known rfl (.known rfl (.demand fun value held => .conversion ?_))
  rw [offers]
  cases registry s.type.base t.base with
  | none => exact .fail _
  | some known =>
    have whole : Meets b (Rule.single ((known.conversion.operation value t).named (Rule.convertName s.type t)))
        (Types ⟨node, [s], [t]⟩ b) :=
      single_typed rfl (.cons (h.whole held (.refl b)) .nil) rfl
    dsimp only
    cases isArray : s.type.isArray with
    | false => exact whole
    | true =>
      refine .members ?_
      cases found : arrayMembers? b value with
      | none => exact whole
      | some ms =>
        have one : ∀ m ∈ ms, ∀ b', Adds [s] b b' →
            Meets b' (Build.record (known.conversion.operation m t.element))
              fun v d => Adds [s] b' d ∧ WellTyped d v t.element := by
          intro m member b' adds
          have read := h.member held isArray found member adds.grows
          exact record_typed (c := ⟨node, [s], [t]⟩) (.cons read .nil) rfl
        refine (each_typed (c := ⟨node, [s], [t]⟩) one).bind fun vs b' made => ?_
        obtain ⟨adds, all⟩ := made
        exact alone_typed rfl (after_typed adds (array_typed _ (arrays ▸ isArray) all))

theorem concat_typed {c : Context} (name : String) (holds : ∀ s ∈ c.inputs, Holds b s)
    (types : ∀ s ∈ c.inputs, s.type = t) (scalar : t.isArray = false) (outputs : c.outputs = [t.toArray]) :
    Meets b (Rule.group c name) (Types c b) := by
  refine .demandAll fun vs held => alone_typed outputs (array_typed name rfl fun v member => ?_)
  have element : t.toArray.element = t := PinType.element_of_scalar scalar
  rw [element]
  exact holds_all holds types held v member

theorem requireLock_typed {c : Context} (name : String) (holds : ∀ s ∈ c.inputs, Holds b s)
    (types : ∀ s ∈ c.inputs, s.type = scalar Base.require) (outputs : c.outputs = [scalar Base.require]) :
    Meets b (Rule.group c name) (Types c b) :=
  .demandAll fun _ held => alone_typed outputs (lock_typed name (holds_all holds types held))

theorem select_typed (index : Nat) (h : Holds b s) (type : s.type = t.toArray) (scalar : t.isArray = false) :
    Meets b (Rule.select ⟨node, [s], [t]⟩ index) (Types ⟨node, [s], [t]⟩ b) := by
  refine .demand (c := ⟨node, [s], [t]⟩) (s := s) fun value held => .members ?_
  cases found : arrayMembers? b value with
  | none =>
    -- An array that is only known at run time is read as a whole.
    exact .operation (.known rfl (single_typed rfl (.cons (h.whole held (.refl b)) .nil) rfl))
  | some ms =>
    dsimp only
    cases item : ms[index]? with
    | none => exact .fail _
    | some m =>
      have typed := (h value held).members (type ▸ rfl) found m (List.mem_of_getElem? item)
      have element : s.type.element = t := type ▸ PinType.element_of_scalar scalar
      exact .pure ⟨.refl b, .cons (element ▸ typed) .nil⟩

theorem renderOne_typed {s₀ s₁ s₂ s₃ : InputSlot} {entities eye target : Handle} (h₀ : ReadFrom b s₀ entities)
    (h₁ : ReadFrom b s₁ eye) (h₂ : ReadFrom b s₂ target) :
    Meets b (Rule.renderOne ⟨node, [s₀, s₁, s₂, s₃], [t]⟩ entities eye target)
      fun v b' => Adds [s₀, s₁, s₂, s₃] b b' ∧ WellTyped b' v t :=
  .operation (.known rfl
    (record_typed (c := ⟨node, [s₀, s₁, s₂, s₃], [t]⟩) (.cons h₀ (.cons h₁ (.cons h₂ .nil))) rfl))

theorem render_typed (isArray : Bool) {s₀ s₁ s₂ s₃ : InputSlot} (h₀ : Holds b s₀) (h₁ : Holds b s₁)
    (h₂ : Holds b s₂) (eyes : s₁.type.isArray = isArray) (targets : s₂.type.isArray = isArray) (type : t = scalar Base.require) :
    Meets b (Rule.render ⟨node, [s₀, s₁, s₂, s₃], [t]⟩ isArray) (Types ⟨node, [s₀, s₁, s₂, s₃], [t]⟩ b) := by
  let c : Context := ⟨node, [s₀, s₁, s₂, s₃], [t]⟩
  refine .demand (c := c) (s := s₀) fun entities held₀ => .demand (c := c) (s := s₁) fun eye held₁ => ?_
  refine .demand (c := c) (s := s₂) fun target held₂ => ?_
  cases isArray with
  | false =>
    exact alone_typed (c := c) rfl (renderOne_typed (h₀.whole held₀ (.refl b)) (h₁.whole held₁ (.refl b))
      (h₂.whole held₂ (.refl b)))
  | true =>
    refine .spread (.spread ?_)
    split
    · exact .fail _
    · have one : ∀ e ∈ ((arrayMembers? b eye).getD [eye]).zip ((arrayMembers? b target).getD [target]),
          ∀ b', Adds c.inputs b b' → Meets b' (Rule.renderOne c entities e.1 e.2)
            fun v d => Adds c.inputs b' d ∧ WellTyped d v t := by
        intro e member b' adds
        obtain ⟨left, right⟩ := List.of_mem_zip member
        exact renderOne_typed (h₀.whole held₀ adds.grows) (h₁.spread held₁ eyes left adds.grows)
          (h₂.spread held₂ targets right adds.grows)
      refine (each_typed (c := c) one).bind fun vs b' made => ?_
      obtain ⟨adds, all⟩ := made
      subst type
      exact alone_typed (c := c) rfl (after_typed adds (lock_typed _ all))

theorem named_typed {c : Context} (kind : OperationKind) (name : String) (outputs : c.outputs = [t]) :
    Meets b (Rule.named c kind name) (Types c b) := by
  have type : c.outputType 0 = .ok t := by simp [Context.outputType, outputs]
  exact .known type (single_typed outputs .nil rfl)

theorem sink_typed (slots : List InputSlot) (kind : OperationKind) (h : Holds b s) :
    Meets b (Rule.sink ⟨node, s :: slots, []⟩ kind) (Types ⟨node, s :: slots, []⟩ b) := by
  refine .demand (c := ⟨node, s :: slots, []⟩) (s := s) fun value held => ?_
  have recorded : Meets b (Build.record (.plain kind .untyped [value]))
      fun v b' => Adds (s :: slots) b b' ∧ WellTyped b' v .untyped :=
    record_typed (c := ⟨node, s :: slots, []⟩) (.cons (h.whole held (.refl b)) .nil) rfl
  exact recorded.bind fun _ _ made => .pure ⟨made.1, .nil⟩

/-- Where a kind declares one type for all its inputs, all slots have it. -/
theorem types_repeated {slots : List InputSlot} {count : Nat} {f : Nat → PinSpec}
    (inputs : slots.map InputSlot.type = ((List.range count).map f).map PinSpec.type) (each : ∀ i, (f i).type = t) :
    ∀ s ∈ slots, s.type = t := by
  intro s listed
  have declared : s.type ∈ ((List.range count).map f).map PinSpec.type := inputs ▸ List.mem_map_of_mem listed
  simp only [List.mem_map] at declared
  obtain ⟨spec, ⟨i, -, rfl⟩, type⟩ := declared
  exact type.symm.trans (each i)

/-- A rule whose inputs hold well typed values, on pins that agree with its kind, answers with
well typed values and records operations that read its inputs. -/
theorem evaluate_typed {registry : Registry} (offers : Offers b registry) {k : Kind} (tidy : k.Tidy) {c : Context}
    (inputs : c.inputs.map InputSlot.type = k.inputSpecs.map PinSpec.type)
    (outputs : c.outputs = k.outputSpecs.map PinSpec.type) (holds : ∀ s ∈ c.inputs, Holds b s) :
    Meets b (k.evaluate c) (Types c b) := by
  obtain ⟨node, slots, types⟩ := c
  dsimp only at inputs outputs holds
  subst outputs
  cases k with
  | provider p => exact single_typed rfl .nil rfl
  | convert fromType toType =>
    obtain ⟨s, rfl, type⟩ := List.map_eq_singleton_iff.1 inputs
    have arrays : s.type.isArray = toType.isArray := (congrArg PinType.isArray type).trans tidy
    exact convert_typed offers (holds s List.mem_cons_self) arrays
  | concat element count =>
    have types := types_repeated inputs fun _ => rfl
    exact concat_typed _ holds types tidy rfl
  | select element index =>
    obtain ⟨s, rfl, type⟩ := List.map_eq_singleton_iff.1 inputs
    exact select_typed index (holds s List.mem_cons_self) type tidy
  | render isArray =>
    obtain ⟨s₀, slots, rfl, -, inputs⟩ := List.map_eq_cons_iff.1 inputs
    obtain ⟨s₁, slots, rfl, eyes, inputs⟩ := List.map_eq_cons_iff.1 inputs
    obtain ⟨s₂, slots, rfl, targets, inputs⟩ := List.map_eq_cons_iff.1 inputs
    obtain ⟨s₃, rfl, -⟩ := List.map_eq_singleton_iff.1 inputs
    exact render_typed isArray (holds s₀ (by simp)) (holds s₁ (by simp)) (holds s₂ (by simp))
      (congrArg PinType.isArray eyes) (congrArg PinType.isArray targets) rfl
  | editorRender =>
    obtain ⟨s, rfl, -⟩ := List.map_eq_singleton_iff.1 inputs
    exact .known rfl (single_typed rfl (holds s List.mem_cons_self).optional rfl)
  | requireLock count =>
    have types := types_repeated inputs fun _ => rfl
    exact requireLock_typed _ holds types rfl
  | screen =>
    obtain ⟨s, slots, rfl, -, -⟩ := List.map_eq_cons_iff.1 inputs
    exact sink_typed slots _ (holds s List.mem_cons_self)
  | property name type | vertexAttribute name type | sampler name => exact named_typed _ _ rfl
  | add type =>
    obtain ⟨s, slots, rfl, -, inputs⟩ := List.map_eq_cons_iff.1 inputs
    obtain ⟨s', rfl, -⟩ := List.map_eq_singleton_iff.1 inputs
    let c : Context := ⟨node, [s, s'], [type]⟩
    refine .demand (c := c) (s := s) fun a held => .demand (c := c) (s := s') fun a' held' => .known rfl ?_
    have reads : ReadsInputs b [s, s'] [a, a'] :=
      .cons ((holds s (by simp)).whole held (.refl b)) (.cons ((holds s' (by simp)).whole held' (.refl b)) .nil)
    exact single_typed rfl reads rfl
  | sample2D =>
    obtain ⟨s, slots, rfl, -, inputs⟩ := List.map_eq_cons_iff.1 inputs
    obtain ⟨s', rfl, -⟩ := List.map_eq_singleton_iff.1 inputs
    refine .demand (c := ⟨node, [s, s'], [scalar Base.vec4]⟩) (s := s) fun texture held => .known rfl ?_
    have reads : ReadsInputs b [s, s'] (texture :: s'.value.toList) :=
      .cons ((holds s (by simp)).whole held (.refl b)) (holds s' (by simp)).optional
    exact single_typed rfl reads rfl
  | materialOutput =>
    obtain ⟨s, rfl, -⟩ := List.map_eq_singleton_iff.1 inputs
    exact sink_typed [] _ (holds s List.mem_cons_self)

end Kinds

/-! ## The back ends are exact -/

/-- What is found after pushing an entry was found before, or is read from the entry. -/
theorem bind_getElem?_push {α β : Type} {a : Array α} {x : α} {f : α → Option β} {i : Nat} {y : β}
    (h : (a.push x)[i]?.bind f = some y) : a[i]?.bind f = some y ∨ f x = some y := by
  rw [Array.getElem?_push] at h
  split at h
  · exact .inr h
  · exact .inl h

instance : ExactEvaluator Pipeline.Builder where
  addOperation_only := by
    intro b op op' h found
    rcases bind_getElem?_push found with old | new
    · exact .inl old
    · exact .inr (Option.some.inj new).symm
  addArray_only := by
    intro b name members h op found
    rcases bind_getElem?_push found with old | new
    · exact old
    · cases new

instance : ExactEvaluator Program.Builder where
  addOperation_only := by
    intro b op op' h found
    obtain ⟨definitions, -⟩ := b.lower_keeps op
    have pushed : ((b.lower op).1.definitions.push (.computed (b.lower op).2 op))[h.index]?.bind
        Program.Definition.operation? = some op' := found
    rw [definitions] at pushed
    rcases bind_getElem?_push pushed with old | new
    · exact .inl old
    · exact .inr (Option.some.inj new).symm
  addArray_only := by
    intro b name members h op found
    rcases bind_getElem?_push found with old | new
    · exact old
    · cases new

end FrameGraph
