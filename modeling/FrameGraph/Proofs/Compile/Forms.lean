/-
  FrameGraph.Proofs.Compile.Forms: operations have the operands of their kinds.

  How many operands an operation has is up to the rule that records it: a property has none, a
  sum has two, a vector is made of one value (`Operation.Formed`). This is seen by walking
  through the rules once more and looking at each request (`Asks`); no rule and no known
  conversion asks for anything else, whatever the graph and however its evaluation ends
  (`evaluate_asks`).
-/

import FrameGraph.Proofs.Compile.Custody
import FrameGraph.Proofs.Compile.Requests

namespace FrameGraph

open Evaluator (operation? arrayMembers? conversion?)
open Request (sendAll)

variable {ε α β : Type}

/-! ## What a step asks for -/

/-- `b'` came of `b` by requests, with wanted operations only. -/
def Gets [Evaluator ε] (wanted : Operation → Prop) (b b' : ε) : Prop :=
  ∃ rs, b' = (sendAll b rs).1 ∧ ∀ op, .operation op ∈ rs → wanted op

/-- Whether the step answers or stops, it has asked for wanted operations only. -/
def Asks [Evaluator ε] (wanted : Operation → Prop) (b : ε) (x : Build ε α) : Prop := Gets wanted b (x.run b).2

section Steps

variable [Evaluator ε] {wanted : Operation → Prop} {b b' b'' : ε} {f : α → Build ε β}

theorem Gets.refl (b : ε) : Gets wanted b b := ⟨[], rfl, fun _ none => by cases none⟩

theorem Gets.trans (h : Gets wanted b b') (h' : Gets wanted b' b'') : Gets wanted b b'' := by
  obtain ⟨rs, rfl, each⟩ := h
  obtain ⟨more, rfl, each'⟩ := h'
  refine ⟨rs ++ more, by rw [Request.sendAll_append], fun op member => ?_⟩
  rcases List.mem_append.1 member with first | later
  · exact each op first
  · exact each' op later

namespace Asks

theorem pure (a : α) : Asks wanted b (pure a : Build ε α) := .refl b

theorem fail (e : CompileError) : Asks wanted b (Build.fail e : Build ε α) := .refl b

theorem bind {x : Build ε α} (first : Asks wanted b x) (next : ∀ a b', Asks wanted b' (f a)) :
    Asks wanted b (x >>= f) := by
  unfold Asks at *
  rw [run_bind]
  cases ran : x.run b with
  | mk answer b' =>
    rw [ran] at first
    cases answer with
    | ok a => exact first.trans (next a b')
    | error stop => exact first

/-- What is decided without the back end asks for nothing. -/
theorem lift {e : Except Stop α} (next : ∀ a, e = .ok a → Asks wanted b (f a)) :
    Asks wanted b (Rule.lift e >>= f) := by
  cases e with
  | ok a => exact next a rfl
  | error stop => exact .refl b

theorem record {op : Operation} (formed : wanted op) : Asks wanted b (Build.record op) :=
  ⟨[.operation op], rfl, fun op' member => by cases List.mem_singleton.1 member; exact formed⟩

theorem group (name : String) (members : List Handle) : Asks wanted b (Build.group name members) :=
  ⟨[.group name members], rfl, fun op member => by cases List.mem_singleton.1 member⟩

theorem mapM {f : α → Build ε β} {as : List α} (each : ∀ a ∈ as, ∀ b', Asks wanted b' (f a)) :
    Asks wanted b (as.mapM f) := by
  induction as generalizing b with
  | nil => exact .pure []
  | cons a as ih =>
    rw [List.mapM_cons]
    refine (each a List.mem_cons_self b).bind fun _ b' => ?_
    exact (ih fun a' member => each a' (List.mem_cons_of_mem _ member)).bind fun _ _ => .pure _

variable {value : Handle}

theorem members {f : Option (List Handle) → Build ε β} (next : Asks wanted b (f (arrayMembers? b value))) :
    Asks wanted b (Build.members? value >>= f) :=
  next

theorem operation {f : Option Operation → Build ε β} (next : Asks wanted b (f (operation? b value))) :
    Asks wanted b (Build.operation? value >>= f) :=
  next

theorem conversion {source target : String} {f : Option Conversion → Build ε β}
    (next : Asks wanted b (f (conversion? b source target))) : Asks wanted b (Build.conversion? source target >>= f) :=
  next

theorem spread {f : List Handle → Build ε β} (next : Asks wanted b (f ((arrayMembers? b value).getD [value]))) :
    Asks wanted b (Rule.spread value >>= f) :=
  next

end Asks

end Steps

/-! ## The form of an operation -/

/-- The operands that an operation has by its kind, and what a vector is. -/
def Operation.Formed (op : Operation) : Prop :=
  match op.kind with
  | .property _ => op.operands.length = 0
  | .construct => op.operands.length = 1 ∧ op.type.base ∈ [Base.vec2, Base.vec3, Base.vec4]
  | .add => op.operands.length = 2
  | .fragmentColor => op.operands.length = 1
  | _ => True

/-- What the back end converts to a type is formed. -/
def Converts [Evaluator ε] (b : ε) : Prop := ∀ source target k, conversion? b source target = some k →
  ∀ v type, type.base = target → (k.operation v type).Formed

section Rules

variable [Evaluator ε] {b : ε} {c : Context}

theorem single_asks {op : Operation} (formed : op.Formed) : Asks Operation.Formed b (Rule.single op) :=
  (Asks.record formed).bind fun _ _ => .pure _

theorem convert_asks (converts : Converts b) : Asks Operation.Formed b (Rule.convert c) := by
  refine .lift fun fromType _ => .lift fun toType _ => .lift fun value _ => .conversion ?_
  -- The conversion is looked up before anything is asked for, and used for each member later on.
  cases offered : conversion? b fromType.base toType.base with
  | none => exact .fail _
  | some conversion =>
    have formed := converts _ _ conversion offered
    have whole : Asks Operation.Formed b
        (Rule.single ((conversion.operation value toType).named (Rule.convertName fromType toType))) :=
      single_asks (formed value toType rfl)
    dsimp only
    cases fromType.isArray with
    | false => exact whole
    | true =>
      refine .members ?_
      cases arrayMembers? b value with
      | none => exact whole
      | some members =>
        have each : Asks Operation.Formed b
            (members.mapM fun m => Build.record (conversion.operation m toType.element)) :=
          .mapM fun m _ b' => .record (formed m toType.element rfl)
        exact each.bind fun _ _ => (Asks.group _ _).bind fun _ _ => .pure _

theorem group_asks (name : String) : Asks Operation.Formed b (Rule.group c name) :=
  .lift fun _ _ => (Asks.group name _).bind fun _ _ => .pure _

theorem select_asks (index : Nat) : Asks Operation.Formed b (Rule.select c index) := by
  refine .lift fun array _ => .members ?_
  cases arrayMembers? b array with
  | none => exact .operation (.lift fun _ _ => single_asks trivial)
  | some members =>
    dsimp only
    cases members[index]? with
    | none => exact .fail _
    | some item => exact .pure _

theorem renderOne_asks (entities eye target : Handle) :
    Asks Operation.Formed b (Rule.renderOne c entities eye target) :=
  .operation (.lift fun _ _ => .record trivial)

theorem render_asks (isArray : Bool) : Asks Operation.Formed b (Rule.render c isArray) := by
  refine .lift fun entities _ => .lift fun eye _ => .lift fun target _ => ?_
  cases isArray with
  | false => exact (renderOne_asks entities eye target).bind fun _ _ => .pure _
  | true =>
    refine .spread (.spread ?_)
    split
    · exact .fail _
    · refine (Asks.mapM fun e _ b' => renderOne_asks entities e.1 e.2).bind fun _ _ => ?_
      exact (Asks.group _ _).bind fun _ _ => .pure _

theorem named_asks {kind : OperationKind} (name : String)
    (formed : ∀ type, ((Operation.plain kind type []).named name).Formed) :
    Asks Operation.Formed b (Rule.named c kind name) :=
  .lift fun type _ => single_asks (formed type)

theorem sink_asks {kind : OperationKind} (formed : ∀ value, (Operation.plain kind .untyped [value]).Formed) :
    Asks Operation.Formed b (Rule.sink c kind) :=
  .lift fun value _ => (Asks.record (formed value)).bind fun _ _ => .pure _

theorem add_asks : Asks Operation.Formed b (Rule.add c) :=
  .lift fun _ _ => .lift fun _ _ => .lift fun _ _ => single_asks rfl

theorem sample2D_asks : Asks Operation.Formed b (Rule.sample2D c) :=
  .lift fun _ _ => .lift fun _ _ => single_asks trivial

theorem editorRender_asks : Asks Operation.Formed b (Rule.editorRender c) :=
  .lift fun _ _ => single_asks trivial

/-- Rules form the operations that they ask for. -/
theorem evaluate_formed (converts : Converts b) (k : Kind) : Asks Operation.Formed b (k.evaluate c) := by
  cases k with
  | provider p => exact single_asks (by cases p <;> trivial)
  | convert fromType toType => exact convert_asks converts
  | concat element inputs => exact group_asks _
  | select element index => exact select_asks index
  | render isArray => exact render_asks isArray
  | editorRender => exact editorRender_asks
  | requireLock inputs => exact group_asks _
  | screen => exact sink_asks fun _ => trivial
  | property name type => exact named_asks name fun _ => rfl
  | vertexAttribute name type | sampler name => exact named_asks name fun _ => trivial
  | add type => exact add_asks
  | sample2D => exact sample2D_asks
  | materialOutput => exact sink_asks fun _ => rfl

end Rules

/-! ## Evaluations -/

theorem Converts.stays [Evaluator ε] {b b' : ε} (h : Converts b) (grows : Extends b b') : Converts b' := by
  intro source target conversion offered
  rw [grows.conversion] at offered
  exact h source target conversion offered

/-- Whatever graph is evaluated and however that ends, formed operations are all that is asked for. -/
theorem Graph.evaluate_asks [Evaluator ε] [LawfulEvaluator ε] (g : Graph) {b : ε} (converts : Converts b) :
    Gets Operation.Formed b (g.evaluate b).backend := by
  refine evaluate_leads (fun b b' => Converts b → Gets Operation.Formed b b') (fun b _ => .refl b) ?_
    (fun k c b converts => evaluate_formed converts k) g b converts
  intro b b' b'' first next converts
  obtain ⟨rs, sent, -⟩ := first converts
  exact (first converts).trans (next (converts.stays (sent ▸ Request.sendAll_extends b rs)))

/-- The conversions of materials make vectors, out of one value each. -/
theorem converts_material [Evaluator ε] {b : ε} (offers : Offers b Conversions.material.find?) : Converts b := by
  have vectors : ∀ e ∈ Conversions.material.entries,
      e.1.2 ∈ [Base.vec2, Base.vec3, Base.vec4] ∧ e.2 = .construct := by decide
  intro source target conversion offered v type same
  subst same
  rw [offers] at offered
  obtain ⟨known, found, rfl⟩ := Option.map_eq_some_iff.1 offered
  obtain ⟨base, rfl⟩ := vectors _ (Table.get?_eq_some_iff.1 found)
  exact ⟨rfl, base⟩

end FrameGraph
