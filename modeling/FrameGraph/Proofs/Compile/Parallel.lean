/-
  FrameGraph.Proofs.Compile.Parallel: one rule against two back ends.

  Two steps are parallel if, from back ends that a node cannot tell apart, they answer the same
  or stop with the same mistake, and leave such back ends behind. Mistakes name nodes, so the
  second step may speak of the same nodes under other names (`Matches`). Parallel steps can be
  put in sequence, and so the rule of each kind runs parallel to itself: neither the back end
  nor the name of the node makes a difference to what it records (`evaluate_parallel`).
-/

import FrameGraph.Proofs.Compile.Requests
import FrameGraph.Proofs.Compile.Rules

namespace FrameGraph

open Evaluator (operation? arrayMembers? conversion?)

/-! ## Other names for nodes -/

def CompileError.renamed (node : NodeId → NodeId) : CompileError → CompileError
  | missingRequiredInput id pin => missingRequiredInput (node id) pin
  | unsupportedConversion id fromType toType => unsupportedConversion (node id) fromType toType
  | indexOutOfRange id index length => indexOutOfRange (node id) index length
  | mismatchedArrayLengths id eyes targets => mismatchedArrayLengths (node id) eyes targets
  | alreadyCompiled => alreadyCompiled
  | noTerminalNode => noTerminalNode
  | cyclicDependency id => cyclicDependency (node id)
  | toolchain diagnostic => toolchain diagnostic

def Fault.renamed (node : NodeId → NodeId) : Fault → Fault
  | unregisteredNode id => unregisteredNode (node id)
  | unlistedPin pin owner => unlistedPin pin (node owner)
  | wrongValueCount id => wrongValueCount (node id)
  | f => f

def Stop.renamed (node : NodeId → NodeId) : Stop → Stop
  | error e => error (e.renamed node)
  | fault f => fault (f.renamed node)

theorem Stop.renamed_id (s : Stop) : s.renamed id = s := by
  cases s with
  | error e => cases e <;> rfl
  | fault f => cases f <;> rfl

def Context.renamed (node : NodeId → NodeId) (c : Context) : Context := { c with node := node c.node }

variable {α β : Type} {node : NodeId → NodeId}

/-- The same answer, or the same stop under the new names. -/
inductive Matches (node : NodeId → NodeId) : Except Stop α → Except Stop α → Prop
  | answered (a : α) : Matches node (.ok a) (.ok a)
  | stopped (s : Stop) : Matches node (.error s) (.error (s.renamed node))

namespace Matches

theorem mapError_eq {x y : Except Stop α} (h : Matches node x y) : y = x.mapError (Stop.renamed node) := by
  cases h <;> rfl

theorem bind {x y : Except Stop α} {f g : α → Except Stop β} (first : Matches node x y)
    (next : ∀ a, Matches node (f a) (g a)) : Matches node (x >>= f) (y >>= g) := by
  cases first with
  | answered a => exact next a
  | stopped s => exact .stopped s

theorem mapM {f g : α → Except Stop β} (each : ∀ a, Matches node (f a) (g a)) :
    ∀ as : List α, Matches node (as.mapM f) (as.mapM g)
  | [] => .answered []
  | a :: as => by
    rw [List.mapM_cons, List.mapM_cons]
    exact (each a).bind fun b => (mapM each as).bind fun bs => .answered _

end Matches

/-! ## What a node sees under another name -/

namespace Context

variable (node : NodeId → NodeId) (c : Context)

theorem slot_matches (index : Nat) : Matches node (c.slot index) ((c.renamed node).slot index) := by
  unfold slot renamed
  dsimp only
  cases c.inputs[index]? with
  | none => exact .stopped (.fault _)
  | some s => exact .answered s

theorem demand_matches (s : InputSlot) : Matches node (c.demand s) ((c.renamed node).demand s) := by
  unfold demand
  cases s.value with
  | none => exact .stopped (.error _)
  | some v => exact .answered v

theorem required_matches (index : Nat) : Matches node (c.required index) ((c.renamed node).required index) :=
  (slot_matches node c index).bind (demand_matches node c)

theorem requiredAll_matches : Matches node c.requiredAll (c.renamed node).requiredAll :=
  Matches.mapM (demand_matches node c) c.inputs

theorem inputType_matches (index : Nat) : Matches node (c.inputType index) ((c.renamed node).inputType index) :=
  (slot_matches node c index).bind fun s => .answered s.type

theorem outputType_matches (index : Nat) :
    Matches node (c.outputType index) ((c.renamed node).outputType index) := by
  unfold outputType renamed
  dsimp only
  cases c.outputs[index]? with
  | none => exact .stopped (.fault _)
  | some t => exact .answered t

end Context

/-! ## Parallel steps -/

variable {ε ε' : Type} {related : ε → ε' → Prop}

def Parallel (related : ε → ε' → Prop) (node : NodeId → NodeId) (x : Build ε α) (y : Build ε' α) : Prop :=
  ∀ b c, related b c → Matches node (x.run b).1 (y.run c).1 ∧ related (x.run b).2 (y.run c).2

namespace Parallel

theorem pure (a : α) : Parallel related node (pure a) (pure a) :=
  fun _ _ start => ⟨.answered a, start⟩

theorem fail (e : CompileError) : Parallel related node (Build.fail e : Build ε α) (Build.fail (e.renamed node)) :=
  fun _ _ start => ⟨.stopped (.error e), start⟩

theorem lift {x y : Except Stop α} (same : Matches node x y) :
    Parallel related node (Rule.lift x) (Rule.lift y) := by
  intro b c start
  cases same with
  | answered a => exact ⟨.answered a, start⟩
  | stopped s => exact ⟨.stopped s, start⟩

theorem bind {x : Build ε α} {y : Build ε' α} {f : α → Build ε β} {g : α → Build ε' β}
    (first : Parallel related node x y) (next : ∀ a, Parallel related node (f a) (g a)) :
    Parallel related node (x >>= f) (y >>= g) := by
  intro b c start
  have both := first b c start
  rw [run_bind, run_bind]
  cases hx : x.run b with
  | mk answer b' =>
    cases hy : y.run c with
    | mk answer' c' =>
      rw [hx, hy] at both
      obtain ⟨same, after⟩ := both
      dsimp only at same after
      cases same with
      | answered a => exact next a b' c' after
      | stopped s => exact ⟨.stopped s, after⟩

theorem mapM {f : α → Build ε β} {g : α → Build ε' β} (each : ∀ a, Parallel related node (f a) (g a)) :
    ∀ as : List α, Parallel related node (as.mapM f) (as.mapM g)
  | [] => pure []
  | a :: as => by
    rw [List.mapM_cons, List.mapM_cons]
    exact (each a).bind fun b => (mapM each as).bind fun bs => pure _

section Requests

variable [Evaluator ε] [Evaluator ε'] (alike : Indistinct related)
include alike

theorem record (op : Operation) : Parallel related node (Build.record op : Build ε Handle) (Build.record op) := by
  intro b c start
  obtain ⟨handle, after⟩ := alike.send start (.operation op)
  show Matches node (.ok (Request.send b (.operation op)).2) (.ok (Request.send c (.operation op)).2) ∧ _
  rw [handle]
  exact ⟨.answered _, after⟩

theorem group (name : String) (members : List Handle) :
    Parallel related node (Build.group name members : Build ε Handle) (Build.group name members) := by
  intro b c start
  obtain ⟨handle, after⟩ := alike.send start (.group name members)
  show Matches node (.ok (Request.send b (.group name members)).2)
    (.ok (Request.send c (.group name members)).2) ∧ _
  rw [handle]
  exact ⟨.answered _, after⟩

theorem operation? (value : Handle) :
    Parallel related node (Build.operation? value : Build ε (Option Operation)) (Build.operation? value) := by
  intro b c start
  show Matches node (.ok (Evaluator.operation? b value)) (.ok (Evaluator.operation? c value)) ∧ related b c
  rw [alike.operation start]
  exact ⟨.answered _, start⟩

theorem members? (value : Handle) :
    Parallel related node (Build.members? value : Build ε (Option (List Handle))) (Build.members? value) := by
  intro b c start
  show Matches node (.ok (arrayMembers? b value)) (.ok (arrayMembers? c value)) ∧ related b c
  rw [alike.members start]
  exact ⟨.answered _, start⟩

theorem conversion? (source target : String) : Parallel related node
    (Build.conversion? source target : Build ε (Option Conversion)) (Build.conversion? source target) := by
  intro b c start
  show Matches node (.ok (Evaluator.conversion? b source target)) (.ok (Evaluator.conversion? c source target))
    ∧ related b c
  rw [congrFun (congrFun (alike.conversion start) source) target]
  exact ⟨.answered _, start⟩

end Requests

end Parallel

/-! ## Rules -/

variable [Evaluator ε] [Evaluator ε']

section Rules

variable (alike : Indistinct related) (node : NodeId → NodeId) (c : Context)
include alike

theorem single_parallel (op : Operation) : Parallel related node (Rule.single op : Build ε _) (Rule.single op) :=
  (Parallel.record alike op).bind fun _ => .pure _

theorem convert_parallel : Parallel related node (Rule.convert c : Build ε _) (Rule.convert (c.renamed node)) := by
  refine (Parallel.lift (c.inputType_matches node 0)).bind fun fromType => ?_
  refine (Parallel.lift (c.outputType_matches node 0)).bind fun toType => ?_
  refine (Parallel.lift (c.required_matches node 0)).bind fun value => ?_
  refine (Parallel.conversion? alike _ _).bind fun conversion => ?_
  cases conversion with
  | none => exact .fail _
  | some conversion =>
    dsimp only
    -- Only arrays are asked for members; a scalar goes on as if it had none.
    split <;> [refine (Parallel.members? alike value).bind fun members => ?_;
      refine (Parallel.pure none).bind fun members => ?_]
    all_goals
      cases members with
      | none => exact single_parallel alike node _
      | some members =>
        refine (Parallel.mapM (fun m => .record alike _) members).bind fun converted => ?_
        exact (Parallel.group alike _ converted).bind fun _ => .pure _

theorem group_parallel (name : String) :
    Parallel related node (Rule.group c name : Build ε _) (Rule.group (c.renamed node) name) :=
  (Parallel.lift (c.requiredAll_matches node)).bind fun members =>
    (Parallel.group alike name members).bind fun _ => .pure _

theorem select_parallel (index : Nat) :
    Parallel related node (Rule.select c index : Build ε _) (Rule.select (c.renamed node) index) := by
  refine (Parallel.lift (c.required_matches node 0)).bind fun array => ?_
  refine (Parallel.members? alike array).bind fun members => ?_
  cases members with
  | some members =>
    dsimp only
    cases members[index]? with
    | some item => exact .pure _
    | none => exact .fail _
  | none =>
    refine (Parallel.operation? alike array).bind fun source => ?_
    refine (Parallel.lift (c.outputType_matches node 0)).bind fun type => ?_
    exact single_parallel alike node _

theorem renderOne_parallel (entities eye target : Handle) : Parallel related node
    (Rule.renderOne c entities eye target : Build ε _) (Rule.renderOne (c.renamed node) entities eye target) := by
  refine (Parallel.operation? alike target).bind fun source => ?_
  refine (Parallel.lift (c.outputType_matches node 0)).bind fun type => ?_
  exact .record alike _

theorem spread_parallel (value : Handle) :
    Parallel related node (Rule.spread value : Build ε _) (Rule.spread value) :=
  (Parallel.members? alike value).bind fun _ => .pure _

theorem render_parallel (isArray : Bool) :
    Parallel related node (Rule.render c isArray : Build ε _) (Rule.render (c.renamed node) isArray) := by
  refine (Parallel.lift (c.required_matches node 0)).bind fun entities => ?_
  refine (Parallel.lift (c.required_matches node 1)).bind fun eye => ?_
  refine (Parallel.lift (c.required_matches node 2)).bind fun target => ?_
  cases isArray with
  | false => exact (renderOne_parallel alike node c entities eye target).bind fun _ => .pure _
  | true =>
    refine (spread_parallel alike node eye).bind fun eyes => ?_
    refine (spread_parallel alike node target).bind fun targets => ?_
    have each : ∀ e : Handle × Handle, Parallel related node (Rule.renderOne c entities e.1 e.2 : Build ε _)
        (Rule.renderOne (c.renamed node) entities e.1 e.2) :=
      fun e => renderOne_parallel alike node c entities e.1 e.2
    by_cases same : eyes.length ≠ targets.length
    · rw [if_pos same, if_pos same]
      exact .fail _
    · rw [if_neg same, if_neg same]
      refine (Parallel.mapM each (eyes.zip targets)).bind fun renders => ?_
      exact (Parallel.group alike _ renders).bind fun _ => .pure _

theorem named_parallel (kind : OperationKind) (name : String) :
    Parallel related node (Rule.named c kind name : Build ε _) (Rule.named (c.renamed node) kind name) :=
  (Parallel.lift (c.outputType_matches node 0)).bind fun _ => single_parallel alike node _

theorem sink_parallel (kind : OperationKind) :
    Parallel related node (Rule.sink c kind : Build ε _) (Rule.sink (c.renamed node) kind) :=
  (Parallel.lift (c.required_matches node 0)).bind fun _ => (Parallel.record alike _).bind fun _ => .pure _

theorem add_parallel : Parallel related node (Rule.add c : Build ε _) (Rule.add (c.renamed node)) := by
  refine (Parallel.lift (c.required_matches node 0)).bind fun a => ?_
  refine (Parallel.lift (c.required_matches node 1)).bind fun b => ?_
  refine (Parallel.lift (c.outputType_matches node 0)).bind fun type => ?_
  exact single_parallel alike node _

theorem sample2D_parallel :
    Parallel related node (Rule.sample2D c : Build ε _) (Rule.sample2D (c.renamed node)) := by
  refine (Parallel.lift (c.required_matches node 0)).bind fun texture => ?_
  refine (Parallel.lift (c.outputType_matches node 0)).bind fun type => ?_
  exact single_parallel alike node _

theorem editorRender_parallel :
    Parallel related node (Rule.editorRender c : Build ε _) (Rule.editorRender (c.renamed node)) :=
  (Parallel.lift (c.outputType_matches node 0)).bind fun _ => single_parallel alike node _

/-- What a node records and answers depends neither on the back end nor on the node's name. -/
theorem evaluate_parallel (k : Kind) :
    Parallel related node (k.evaluate c : Build ε _) (k.evaluate (c.renamed node)) := by
  cases k with
  | provider p => exact single_parallel alike node _
  | convert fromType toType => exact convert_parallel alike node c
  | concat element inputs => exact group_parallel alike node c _
  | select element index => exact select_parallel alike node c index
  | render isArray => exact render_parallel alike node c isArray
  | editorRender => exact editorRender_parallel alike node c
  | requireLock inputs => exact group_parallel alike node c _
  | screen => exact sink_parallel alike node c _
  | property name type => exact named_parallel alike node c _ name
  | vertexAttribute name type => exact named_parallel alike node c _ name
  | sampler name => exact named_parallel alike node c _ name
  | add type => exact add_parallel alike node c
  | sample2D => exact sample2D_parallel alike node c
  | materialOutput => exact sink_parallel alike node c _

end Rules

/-- A rule sends requests and nothing else reaches the back end. -/
theorem evaluate_sends (k : Kind) (c : Context) (b : ε) :
    ∃ rs, ((k.evaluate c).run b).2 = (Request.sendAll b rs).1 := by
  have alike : Indistinct (AfterSame b b) := indistinct_eq.afterSame rfl
  obtain ⟨-, rs, sent, -⟩ := evaluate_parallel alike id c k b b (afterSame_start b b)
  exact ⟨rs, sent⟩

end FrameGraph
