/-
  FrameGraph.Proofs.Compile.Restraint: a node that fails has asked for nothing.

  A rule looks at all that can go wrong before it makes its first request, and from then on
  every step answers (`Unfailing`), however many members a Render or a Convert goes through. So
  a rule that stops leaves the back end as it found it (`evaluate_untouched`). This needs a node
  to have as many outputs as its kind declares: a Render looks up the type of its output again
  for each member.
-/

import FrameGraph.Proofs.Compile.Contracts

namespace FrameGraph

open Evaluator (operation? arrayMembers? conversion?)

variable {ε α β : Type}

/-- The step answers, whatever the back end. -/
def Unfailing (x : Build ε α) : Prop := ∀ b stop, (x.run b).1 ≠ .error stop

/-- If the step stops, the back end is what it was. -/
def Untouched (b : ε) (x : Build ε α) : Prop := ∀ stop, (x.run b).1 = .error stop → (x.run b).2 = b

/-! ## Steps that answer -/

namespace Unfailing

variable {f : α → Build ε β}

theorem pure (a : α) : Unfailing (pure a : Build ε α) := nofun

theorem bind {x : Build ε α} (first : Unfailing x) (next : ∀ a, Unfailing (f a)) : Unfailing (x >>= f) := by
  intro b stop stopped
  rw [run_bind] at stopped
  cases hx : x.run b with
  | mk answer b' =>
    rw [hx] at stopped
    cases answer with
    | ok a => exact next a b' stop stopped
    | error e => exact first b e (by rw [hx])

theorem known {e : Except Stop α} {a : α} (h : e = .ok a) (next : Unfailing (f a)) :
    Unfailing (Rule.lift e >>= f) := by
  subst h
  exact next

theorem mapM (each : ∀ a, Unfailing (f a)) : ∀ as : List α, Unfailing (as.mapM f)
  | [] => pure []
  | a :: as => by
    rw [List.mapM_cons]
    exact (each a).bind fun _ => (mapM each as).bind fun _ => pure _

section Requests

variable [Evaluator ε]

theorem record (op : Operation) : Unfailing (Build.record op : Build ε Handle) := nofun

theorem group (name : String) (members : List Handle) : Unfailing (Build.group name members : Build ε Handle) :=
  nofun

theorem operation {value : Handle} {f : Option Operation → Build ε β} (next : ∀ op, Unfailing (f op)) :
    Unfailing (Build.operation? value >>= f) :=
  fun b => next (operation? b value) b

end Requests

theorem untouched {x : Build ε α} (h : Unfailing x) (b : ε) : Untouched b x :=
  fun stop stopped => absurd stopped (h b stop)

end Unfailing

/-! ## Steps that look before they ask -/

namespace Untouched

variable {b : ε} {f : α → Build ε β}

theorem fail (e : CompileError) : Untouched b (Build.fail e : Build ε α) := fun _ _ => rfl

/-- What is decided without the back end can fail. -/
theorem lift {e : Except Stop α} (next : ∀ a, e = .ok a → Untouched b (f a)) : Untouched b (Rule.lift e >>= f) := by
  cases e with
  | ok a => exact next a rfl
  | error stop => exact fun _ _ => rfl

section Questions

variable [Evaluator ε] {value : Handle}

theorem members {f : Option (List Handle) → Build ε β} (next : Untouched b (f (arrayMembers? b value))) :
    Untouched b (Build.members? value >>= f) :=
  next

theorem operation {f : Option Operation → Build ε β} (next : Untouched b (f (operation? b value))) :
    Untouched b (Build.operation? value >>= f) :=
  next

theorem conversion {source target : String} {f : Option Conversion → Build ε β}
    (next : Untouched b (f (conversion? b source target))) : Untouched b (Build.conversion? source target >>= f) :=
  next

theorem spread {f : List Handle → Build ε β} (next : Untouched b (f ((arrayMembers? b value).getD [value]))) :
    Untouched b (Rule.spread value >>= f) :=
  next

end Questions

end Untouched

/-! ## Rules -/

section Rules

variable [Evaluator ε] {b : ε} {c : Context} {type : PinType}

theorem single_unfailing (op : Operation) : Unfailing (Rule.single op : Build ε (List Handle)) :=
  (Unfailing.record op).bind fun _ => .pure _

theorem convert_untouched : Untouched b (Rule.convert c) := by
  refine .lift fun fromType _ => .lift fun toType _ => .lift fun value _ => .conversion ?_
  cases conversion? b fromType.base toType.base with
  | none => exact .fail _
  | some conversion =>
    have whole : Untouched b (Rule.single ((conversion.operation value toType).named
        (Rule.convertName fromType toType))) :=
      (single_unfailing _).untouched b
    dsimp only
    cases fromType.isArray with
    | false => exact whole
    | true =>
      refine .members ?_
      cases arrayMembers? b value with
      | none => exact whole
      | some members =>
        have each : Unfailing (members.mapM fun m => Build.record (conversion.operation m toType.element) : Build ε _) :=
          .mapM (fun _ => .record _) members
        exact (each.bind fun _ => (Unfailing.group _ _).bind fun _ => .pure _).untouched b

theorem group_untouched (name : String) : Untouched b (Rule.group c name) :=
  .lift fun _ _ => ((Unfailing.group name _).bind fun _ => .pure _).untouched b

theorem select_untouched (index : Nat) : Untouched b (Rule.select c index) := by
  refine .lift fun array _ => .members ?_
  cases arrayMembers? b array with
  | none => exact .operation (.lift fun _ _ => (single_unfailing _).untouched b)
  | some members =>
    dsimp only
    cases members[index]? with
    | none => exact .fail _
    | some item => exact (Unfailing.pure _).untouched b

theorem renderOne_unfailing (output : c.outputType 0 = .ok type) (entities eye target : Handle) :
    Unfailing (Rule.renderOne c entities eye target : Build ε Handle) :=
  .operation fun _ => .known output (.record _)

theorem render_untouched (output : c.outputType 0 = .ok type) (isArray : Bool) :
    Untouched b (Rule.render c isArray) := by
  refine .lift fun entities _ => .lift fun eye _ => .lift fun target _ => ?_
  cases isArray with
  | false => exact ((renderOne_unfailing output entities eye target).bind fun _ => .pure _).untouched b
  | true =>
    refine .spread (.spread ?_)
    split
    · exact .fail _
    · have each := Unfailing.mapM (ε := ε) (fun e : Handle × Handle => renderOne_unfailing output entities e.1 e.2)
      exact ((each _).bind fun _ => (Unfailing.group _ _).bind fun _ => .pure _).untouched b

theorem named_untouched (kind : OperationKind) (name : String) : Untouched b (Rule.named c kind name) :=
  .lift fun _ _ => (single_unfailing _).untouched b

theorem sink_untouched (kind : OperationKind) : Untouched b (Rule.sink c kind) :=
  .lift fun _ _ => ((Unfailing.record _).bind fun _ => .pure _).untouched b

theorem add_untouched : Untouched b (Rule.add c) :=
  .lift fun _ _ => .lift fun _ _ => .lift fun _ _ => (single_unfailing _).untouched b

theorem sample2D_untouched : Untouched b (Rule.sample2D c) :=
  .lift fun _ _ => .lift fun _ _ => (single_unfailing _).untouched b

theorem editorRender_untouched : Untouched b (Rule.editorRender c) :=
  .lift fun _ _ => (single_unfailing _).untouched b

/-- A rule that stops has not asked the back end for anything. -/
theorem evaluate_untouched {k : Kind} (outputs : c.outputs.length = k.outputSpecs.length) (b : ε) :
    Untouched b (k.evaluate c) := by
  cases k with
  | provider p => exact (single_unfailing _).untouched b
  | convert fromType toType => exact convert_untouched
  | concat element inputs => exact group_untouched _
  | select element index => exact select_untouched index
  | render isArray =>
    obtain ⟨type, types⟩ := List.length_eq_one_iff.1 outputs
    have output : c.outputType 0 = .ok type := by simp [Context.outputType, types]
    exact render_untouched output isArray
  | editorRender => exact editorRender_untouched
  | requireLock inputs => exact group_untouched _
  | screen => exact sink_untouched _
  | property name type | vertexAttribute name type | sampler name => exact named_untouched _ _
  | add type => exact add_untouched
  | sample2D => exact sample2D_untouched
  | materialOutput => exact sink_untouched _

end Rules

end FrameGraph
