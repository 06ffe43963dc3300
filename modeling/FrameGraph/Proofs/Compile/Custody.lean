/-
  FrameGraph.Proofs.Compile.Custody: rules under a discipline.

  A discipline says which states of a back end are good, how one goes on from them, which values
  it vouches for and what may be recorded (`Custody`). If it bears each single request
  (`Lawful`), it bears every rule: a node that sees vouched values records operations on such
  values, answers with such values, and is itself to blame if it stops with a mistake
  (`evaluate_kept`). This is the walk through the rules that such disciplines share. What every
  compilation preserves is preserved by a visit, however it ends (`visit_keeps`); so an evaluation
  leads where the rules do (`evaluate_leads`).
-/

import FrameGraph.Proofs.Compile.Rules
import FrameGraph.Proofs.Compile.Visit

namespace FrameGraph

open Evaluator (addOperation addArray operation? arrayMembers? conversion?)

variable {ε α β : Type}

/-- A mistake that shows at a node and comes from its rule. -/
def CompileError.Blames (node : NodeId) (e : CompileError) : Prop :=
  e.node? = some node ∧ ∀ m, e ≠ .cyclicDependency m

/-- The operations that a kind of node records on its own, not through a conversion. -/
def Kind.Records : Kind → OperationKind → Prop
  | provider p, o => o = p.operation
  | convert .., _ | concat .., _ | requireLock _, _ => False
  | select _ index, o => o = .selectElement index
  | render _, o => o = .render
  | editorRender, o => o = .editorRender
  | screen, o => o = .outputToScreen
  | property name _, o => o = .property name
  | vertexAttribute name _, o => o = .varying name
  | sampler name, o => o = .sampler name
  | add _, o => o = .add
  | sample2D, o => o = .sample2D
  | materialOutput, o => o = .fragmentColor

/-! ## Disciplines -/

structure Custody (ε : Type) where
  good : ε → Prop
  leads : ε → ε → Prop
  vouches : ε → Handle → Prop
  admits : OperationKind → Prop
  /-- Kinds of operations whose results are vouched for. -/
  yields : OperationKind → Prop

namespace Custody

structure Lawful [Evaluator ε] (c : Custody ε) : Prop where
  refl : ∀ {b}, c.good b → c.leads b b
  trans : ∀ {b b' b''}, c.leads b b' → c.leads b' b'' → c.leads b b''
  good : ∀ {b b'}, c.good b → c.leads b b' → c.good b'
  stays : ∀ {b b' v}, c.vouches b v → c.leads b b' → c.vouches b' v
  members : ∀ {b v ms}, c.good b → c.vouches b v → arrayMembers? b v = some ms → ∀ m ∈ ms, c.vouches b m
  record : ∀ {b op}, c.good b → c.admits op.kind → (∀ h ∈ op.operands, c.vouches b h) →
    c.leads b (addOperation b op).1
      ∧ (c.yields op.kind → c.vouches (addOperation b op).1 (addOperation b op).2)
  group : ∀ {b ms} name, c.good b → (∀ m ∈ ms, c.vouches b m) →
    c.leads b (addArray b name ms).1 ∧ c.vouches (addArray b name ms).1 (addArray b name ms).2
  conversion : ∀ {b source target k}, c.good b → conversion? b source target = some k →
    ∀ v type, c.vouches b v → c.admits (k.operation v type).kind ∧ c.yields (k.operation v type).kind
      ∧ ∀ h ∈ (k.operation v type).operands, c.vouches b h
  yields : ∀ o, o ≠ .fragmentColor → c.yields o

/-- A step goes on as the discipline wants, answers as promised, and blames only one node. -/
structure Kept (c : Custody ε) (node : NodeId) (b : ε) (x : Build ε α) (promise : α → ε → Prop) : Prop where
  leads : c.leads b (x.run b).2
  answers : ∀ a, (x.run b).1 = .ok a → promise a (x.run b).2
  blames : ∀ e, (x.run b).1 = .error (.error e) → e.Blames node

section Steps

variable [Evaluator ε] {c : Custody ε} {node : NodeId} {b : ε} {promise : α → ε → Prop} {wanted : β → ε → Prop}

namespace Kept

theorem members {value : Handle} {f : Option (List Handle) → Build ε β}
    (next : c.Kept node b (f (arrayMembers? b value)) wanted) :
    c.Kept node b (Build.members? value >>= f) wanted :=
  ⟨next.leads, next.answers, next.blames⟩

theorem operation {value : Handle} {f : Option Operation → Build ε β}
    (next : c.Kept node b (f (operation? b value)) wanted) :
    c.Kept node b (Build.operation? value >>= f) wanted :=
  ⟨next.leads, next.answers, next.blames⟩

theorem conversion {source target : String} {f : Option Conversion → Build ε β}
    (next : c.Kept node b (f (conversion? b source target)) wanted) :
    c.Kept node b (Build.conversion? source target >>= f) wanted :=
  ⟨next.leads, next.answers, next.blames⟩

end Kept

variable (law : c.Lawful)
include law

theorem Kept.bind {x : Build ε α} {f : α → Build ε β} (first : c.Kept node b x promise)
    (next : ∀ a b', c.leads b b' → promise a b' → c.Kept node b' (f a) wanted) :
    c.Kept node b (x >>= f) wanted := by
  obtain ⟨leads, answers, blames⟩ := first
  have run := run_bind x f b
  cases hx : x.run b with
  | mk answer b' =>
    rw [hx] at leads answers blames run
    cases answer with
    | ok a =>
      obtain ⟨leads', answers', blames'⟩ := next a b' leads (answers a rfl)
      exact ⟨run ▸ law.trans leads leads', run ▸ answers', run ▸ blames'⟩
    | error stop =>
      refine ⟨run ▸ leads, fun a answered => (by rw [run] at answered; cases answered), fun e stopped => ?_⟩
      rw [run] at stopped
      cases stopped
      exact blames e rfl

variable (good : c.good b)
include good

theorem Kept.pure {a : α} (kept : promise a b) : c.Kept node b (pure a) promise :=
  ⟨law.refl good, fun a' answered => (by cases answered; exact kept), fun e stopped => by cases stopped⟩

theorem Kept.fail {e : CompileError} (own : e.Blames node) : c.Kept node b (Build.fail e) promise :=
  ⟨law.refl good, fun a answered => (by cases answered), fun e' stopped => by cases stopped; exact own⟩

/-- What is decided without the back end leaves it as it is. -/
theorem Kept.lift {x : Except Stop α} {f : α → Build ε β} (own : ∀ e, x = .error (.error e) → e.Blames node)
    (next : ∀ a, x = .ok a → c.Kept node b (f a) wanted) : c.Kept node b (Rule.lift x >>= f) wanted := by
  cases x with
  | ok a =>
    obtain ⟨leads, answers, blames⟩ := next a rfl
    exact ⟨leads, answers, blames⟩
  | error stop =>
    refine ⟨law.refl good, fun a answered => (by cases answered), fun e stopped => own e ?_⟩
    cases stopped
    rfl

theorem Kept.alone {x : Build ε Handle} (h : c.Kept node b x fun v b' => c.vouches b' v) :
    c.Kept node b (do return [← x]) fun vs b' => ∀ v ∈ vs, c.vouches b' v :=
  h.bind law fun _ _ leads has => .pure law (law.good good leads) fun _ member => List.mem_singleton.1 member ▸ has

theorem Kept.record {op : Operation} (admitted : c.admits op.kind) (known : ∀ h ∈ op.operands, c.vouches b h) :
    c.Kept node b (Build.record op) fun v b' => c.yields op.kind → c.vouches b' v := by
  obtain ⟨leads, has⟩ := law.record good admitted known
  exact ⟨leads, fun v answered => (by cases answered; exact has), fun e stopped => by cases stopped⟩

theorem Kept.group {name : String} {members : List Handle} (known : ∀ h ∈ members, c.vouches b h) :
    c.Kept node b (Build.group name members) fun v b' => c.vouches b' v := by
  obtain ⟨leads, has⟩ := law.group name good known
  exact ⟨leads, fun v answered => (by cases answered; exact has), fun e stopped => by cases stopped⟩

theorem Kept.mapM {f : α → Build ε Handle} {as : List α}
    (each : ∀ a ∈ as, ∀ b', c.leads b b' → c.Kept node b' (f a) fun v d => c.vouches d v) :
    c.Kept node b (as.mapM f) fun vs b' => ∀ v ∈ vs, c.vouches b' v := by
  induction as generalizing b with
  | nil => exact .pure law good fun _ none => by cases none
  | cons a as ih =>
    rw [List.mapM_cons]
    refine (each a List.mem_cons_self b (law.refl good)).bind law fun v b' first has => ?_
    have rest := ih (law.good good first) fun a' member d further =>
      each a' (List.mem_cons_of_mem _ member) d (law.trans first further)
    refine rest.bind law fun vs d further all =>
      .pure law (law.good (law.good good first) further) fun w member => ?_
    rcases List.mem_cons.1 member with rfl | member
    · exact law.stays has further
    · exact all w member

end Steps

/-! ## What a node sees -/

/-- The values that a node sees are vouched for. -/
def Sees (c : Custody ε) (b : ε) (ctx : Context) : Prop := ∀ s ∈ ctx.inputs, ∀ v, s.value = some v → c.vouches b v

section Seeing

variable {c : Custody ε} {b : ε} {ctx : Context}

theorem demand_blames {s : InputSlot} {e : CompileError} (h : ctx.demand s = .error (.error e)) :
    e.Blames ctx.node := by
  unfold Context.demand at h
  split at h
  · cases h
  · cases h
    exact ⟨rfl, fun m => by rintro ⟨⟩⟩

theorem slot_eq_ok {index : Nat} {s : InputSlot} (h : ctx.slot index = .ok s) : s ∈ ctx.inputs := by
  unfold Context.slot at h
  split at h
  · rename_i found
    cases h
    exact List.mem_of_getElem? found
  · cases h

/-- Asking for a slot that is not there is a fault. -/
theorem slot_ne_mistake {index : Nat} {e : CompileError} : ctx.slot index ≠ .error (.error e) := by
  unfold Context.slot
  split <;> nofun

theorem required_blames {index : Nat} {e : CompileError} (h : ctx.required index = .error (.error e)) :
    e.Blames ctx.node := by
  unfold Context.required at h
  cases slot : ctx.slot index with
  | ok s =>
    rw [slot] at h
    exact demand_blames h
  | error stop =>
    rw [slot] at h
    cases h
    exact absurd slot slot_ne_mistake

theorem requiredAll_blames {e : CompileError} (h : ctx.requiredAll = .error (.error e)) : e.Blames ctx.node := by
  obtain ⟨s, -, failed⟩ := mapM_error h
  exact demand_blames failed

theorem inputType_blames {index : Nat} {e : CompileError} (h : ctx.inputType index = .error (.error e)) :
    e.Blames ctx.node := by
  unfold Context.inputType at h
  cases slot : ctx.slot index with
  | ok s =>
    rw [slot] at h
    cases h
  | error stop =>
    rw [slot] at h
    cases h
    exact absurd slot slot_ne_mistake

theorem outputType_blames {index : Nat} {e : CompileError} (h : ctx.outputType index = .error (.error e)) :
    e.Blames ctx.node := by
  unfold Context.outputType at h
  split at h <;> cases h

variable (sees : c.Sees b ctx)
include sees

theorem Sees.demand {s : InputSlot} (listed : s ∈ ctx.inputs) {v : Handle} (h : ctx.demand s = .ok v) :
    c.vouches b v := by
  unfold Context.demand at h
  split at h
  · rename_i held
    cases h
    exact sees s listed _ held
  · cases h

theorem Sees.required {index : Nat} {v : Handle} (h : ctx.required index = .ok v) : c.vouches b v := by
  obtain ⟨s, slot, held⟩ := bind_eq_ok_iff.1 h
  exact sees.demand (slot_eq_ok slot) held

theorem Sees.requiredAll {vs : List Handle} (h : ctx.requiredAll = .ok vs) : ∀ v ∈ vs, c.vouches b v := by
  intro v member
  obtain ⟨s, listed, held⟩ := mapM_mem h v member
  exact sees.demand listed held

theorem Sees.optional {index : Nat} : ∀ v ∈ (ctx.input? index).toList, c.vouches b v := by
  intro v member
  obtain ⟨s, found, held⟩ := Option.bind_eq_some_iff.1 (Option.mem_toList.1 member)
  exact sees s (List.mem_of_getElem? found) v held

end Seeing

/-! ## Rules -/

/-- The step answers with vouched values. -/
abbrev Answers (c : Custody ε) (node : NodeId) (b : ε) (x : Build ε (List Handle)) : Prop :=
  c.Kept node b x fun values b' => ∀ v ∈ values, c.vouches b' v

section Rules

variable [Evaluator ε] {c : Custody ε} {b : ε} {node : NodeId} {ctx : Context}
  (law : c.Lawful) (good : c.good b)
include law good

theorem single_kept {op : Operation} (admitted : c.admits op.kind) (value : c.yields op.kind)
    (known : ∀ h ∈ op.operands, c.vouches b h) : c.Answers node b (Rule.single op) :=
  (Kept.record law good admitted known).bind law fun _ _ leads has =>
    .pure law (law.good good leads) fun _ member => List.mem_singleton.1 member ▸ has value

theorem named_kept {kind : OperationKind} (admitted : c.admits kind) (value : c.yields kind) (name : String) :
    c.Answers ctx.node b (Rule.named ctx kind name) :=
  .lift law good (fun _ => outputType_blames) fun _ _ =>
    single_kept law good admitted value fun _ none => by cases none

theorem renderOne_kept (admitted : c.admits .render) {entities eye target : Handle} (h₀ : c.vouches b entities)
    (h₁ : c.vouches b eye) (h₂ : c.vouches b target) :
    c.Kept ctx.node b (Rule.renderOne ctx entities eye target) fun v b' => c.vouches b' v := by
  refine .operation (.lift law good (fun _ => outputType_blames) fun type _ => ?_)
  have known : ∀ h ∈ [entities, eye, target], c.vouches b h :=
    List.forall_mem_cons.2 ⟨h₀, List.forall_mem_cons.2 ⟨h₁, List.forall_mem_singleton.2 h₂⟩⟩
  have recorded : c.Kept ctx.node b (Build.record ((Operation.plain .render type [entities, eye, target]).named
      (Rule.renderName (operation? b target)))) fun v b' => c.yields .render → c.vouches b' v :=
    .record law good admitted known
  exact ⟨recorded.leads, fun v answered => recorded.answers v answered (law.yields _ nofun), recorded.blames⟩

theorem spread_kept {value : Handle} (has : c.vouches b value) : c.Answers node b (Rule.spread value) := by
  refine .members (.pure law good ?_)
  cases found : arrayMembers? b value with
  | none => exact List.forall_mem_singleton.2 has
  | some ms => exact law.members good has found

variable (sees : c.Sees b ctx)
include sees

theorem convert_kept : c.Answers ctx.node b (Rule.convert ctx) := by
  refine .lift law good (fun _ => inputType_blames) fun fromType _ =>
    .lift law good (fun _ => outputType_blames) fun toType _ =>
    .lift law good (fun _ => required_blames) fun value held => ?_
  have has := sees.required held
  refine .conversion ?_
  cases offered : conversion? b fromType.base toType.base with
  | none => exact .fail law good ⟨rfl, fun m => by rintro ⟨⟩⟩
  | some k =>
    have whole : c.Answers ctx.node b
        (Rule.single ((k.operation value toType).named (Rule.convertName fromType toType))) := by
      obtain ⟨admitted, yields, known⟩ := law.conversion good offered value toType has
      exact single_kept law good admitted yields known
    dsimp only
    cases fromType.isArray with
    | false => exact whole
    | true =>
      refine .members ?_
      cases found : arrayMembers? b value with
      | none => exact whole
      | some ms =>
        have each : ∀ m ∈ ms, ∀ b', c.leads b b' →
            c.Kept ctx.node b' (Build.record (k.operation m toType.element)) fun v d => c.vouches d v := by
          intro m member b' leads
          obtain ⟨admitted, yields, known⟩ :=
            law.conversion good offered m toType.element (law.members good has found m member)
          have recorded : c.Kept ctx.node b' (Build.record (k.operation m toType.element)) _ :=
            .record law (law.good good leads) admitted fun h listed => law.stays (known h listed) leads
          exact ⟨recorded.leads, fun v answered => recorded.answers v answered yields, recorded.blames⟩
        exact (Kept.mapM law good each).bind law fun _ _ leads all =>
          (Kept.group law (law.good good leads) all).alone law (law.good good leads)

theorem group_kept (name : String) : c.Answers ctx.node b (Rule.group ctx name) :=
  .lift law good (fun _ => requiredAll_blames) fun _ held =>
    (Kept.group law good (sees.requiredAll held)).alone law good

theorem select_kept {index : Nat} (admitted : c.admits (.selectElement index)) :
    c.Answers ctx.node b (Rule.select ctx index) := by
  refine .lift law good (fun _ => required_blames) fun array held => .members ?_
  cases found : arrayMembers? b array with
  | none =>
    exact .operation (.lift law good (fun _ => outputType_blames) fun _ _ =>
      single_kept law good admitted (law.yields _ nofun) (List.forall_mem_singleton.2 (sees.required held)))
  | some ms =>
    dsimp only
    cases item : ms[index]? with
    | none => exact .fail law good ⟨rfl, fun m => by rintro ⟨⟩⟩
    | some m =>
      exact .pure law good (List.forall_mem_singleton.2
        (law.members good (sees.required held) found m (List.mem_of_getElem? item)))

theorem render_kept (admitted : c.admits .render) (isArray : Bool) :
    c.Answers ctx.node b (Rule.render ctx isArray) := by
  refine .lift law good (fun _ => required_blames) fun entities held₀ =>
    .lift law good (fun _ => required_blames) fun eye held₁ =>
    .lift law good (fun _ => required_blames) fun target held₂ => ?_
  have has₀ := sees.required held₀
  have has₁ := sees.required held₁
  have has₂ := sees.required held₂
  cases isArray with
  | false => exact (renderOne_kept law good admitted has₀ has₁ has₂).alone law good
  | true =>
    refine (spread_kept law good has₁).bind law fun eyes b₁ first eyesHas => ?_
    have good₁ := law.good good first
    refine (spread_kept law good₁ (law.stays has₂ first)).bind law fun targets b₂ second targetsHas => ?_
    have good₂ := law.good good₁ second
    split
    · exact .fail law good₂ ⟨rfl, fun m => by rintro ⟨⟩⟩
    · have one : ∀ e ∈ eyes.zip targets, ∀ b₃, c.leads b₂ b₃ →
          c.Kept ctx.node b₃ (Rule.renderOne ctx entities e.1 e.2) fun v d => c.vouches d v := by
        intro e member b₃ third
        obtain ⟨left, right⟩ := List.of_mem_zip member
        exact renderOne_kept law (law.good good₂ third) admitted
          (law.stays has₀ (law.trans first (law.trans second third)))
          (law.stays (eyesHas _ left) (law.trans second third)) (law.stays (targetsHas _ right) third)
      exact (Kept.mapM law good₂ one).bind law fun _ _ third all =>
        (Kept.group law (law.good good₂ third) all).alone law (law.good good₂ third)

theorem sink_kept {kind : OperationKind} (admitted : c.admits kind) : c.Answers ctx.node b (Rule.sink ctx kind) := by
  refine .lift law good (fun _ => required_blames) fun value held => ?_
  have known : ∀ h ∈ [value], c.vouches b h := List.forall_mem_singleton.2 (sees.required held)
  exact .bind law (.record law good admitted known) fun _ _ leads _ =>
    .pure law (law.good good leads) fun _ none => by cases none

theorem add_kept (admitted : c.admits .add) : c.Answers ctx.node b (Rule.add ctx) :=
  .lift law good (fun _ => required_blames) fun _ held₀ => .lift law good (fun _ => required_blames) fun _ held₁ =>
    .lift law good (fun _ => outputType_blames) fun _ _ =>
      single_kept law good admitted (law.yields _ nofun) (List.forall_mem_cons.2 ⟨sees.required held₀,
        List.forall_mem_singleton.2 (sees.required held₁)⟩)

theorem sample2D_kept (admitted : c.admits .sample2D) : c.Answers ctx.node b (Rule.sample2D ctx) :=
  .lift law good (fun _ => required_blames) fun _ held => .lift law good (fun _ => outputType_blames) fun _ _ =>
    single_kept law good admitted (law.yields _ nofun)
      (List.forall_mem_cons.2 ⟨sees.required held, sees.optional⟩)

theorem editorRender_kept (admitted : c.admits .editorRender) : c.Answers ctx.node b (Rule.editorRender ctx) :=
  .lift law good (fun _ => outputType_blames) fun _ _ =>
    single_kept law good admitted (law.yields _ nofun) sees.optional

/-- A rule keeps to a discipline that admits what its kind records. -/
theorem evaluate_kept {k : Kind} (admits : ∀ o, k.Records o → c.admits o) : c.Answers ctx.node b (k.evaluate ctx) := by
  cases k with
  | provider p =>
    exact single_kept law good (admits _ rfl) (law.yields _ (by cases p <;> nofun)) fun _ none => by cases none
  | convert fromType toType => exact convert_kept law good sees
  | concat element inputs => exact group_kept law good sees _
  | select element index => exact select_kept law good sees (admits _ rfl)
  | render isArray => exact render_kept law good sees (admits _ rfl) isArray
  | editorRender => exact editorRender_kept law good sees (admits _ rfl)
  | requireLock inputs => exact group_kept law good sees _
  | screen => exact sink_kept law good sees (admits _ rfl)
  | property name type => exact named_kept law good (admits _ rfl) (law.yields _ nofun) name
  | vertexAttribute name type => exact named_kept law good (admits _ rfl) (law.yields _ nofun) name
  | sampler name => exact named_kept law good (admits _ rfl) (law.yields _ nofun) name
  | add type => exact add_kept law good sees (admits _ rfl)
  | sample2D => exact sample2D_kept law good sees (admits _ rfl)
  | materialOutput => exact sink_kept law good sees (admits _ rfl)

end Rules

end Custody

/-! ## Passes -/

namespace Graph

variable [Evaluator ε] {g : Graph}

/-- However a visit ends, it preserves what each compilation preserves. -/
theorem visit_keeps {keeps : Progress ε → Progress ε → Prop} (refl : ∀ p, keeps p p)
    (trans : ∀ {p q r}, keeps p q → keeps q r → keeps p r)
    (compile : ∀ id n p, g.nodes.get? id = some n → keeps p (g.compileNode id n p).2)
    (path : List NodeId) (id : NodeId) (p : Progress ε) : keeps p (g.visit path id p).2 := by
  refine visit.induct g (fun path id p => keeps p (g.visit path id p).2)
    (fun path id pins p => keeps p (g.visitInputs path id pins p).2)
    ?unregistered ?compiled ?cycle ?stopped ?settled ?noPins ?unfed ?free ?feederStopped ?feederSettled path id p
  case unregistered =>
    intro path id p unregistered
    rw [visit_unregistered unregistered]
    exact refl p
  case compiled =>
    intro path id p n hn compiled
    rw [visit_compiled hn compiled]
    exact refl p
  case cycle =>
    intro path id p n hn fresh met
    rw [visit_cycle hn fresh met]
    exact refl p
  case stopped =>
    intro path id p n hn fresh new stop q stopped ih
    rw [stopped] at ih
    rw [visit_stopped hn fresh new stopped]
    exact ih
  case settled =>
    intro path id p n hn fresh new q settled ih
    rw [settled] at ih
    rw [visit_settled hn fresh new settled]
    exact trans ih (compile id n q hn)
  case noPins =>
    intro path id p
    rw [visitInputs_nil]
    exact refl p
  case unfed =>
    intro path id p pin pins stop unfed
    rw [visitInputs_unfed unfed]
    exact refl p
  case free =>
    intro path id p pin pins free ih
    rw [visitInputs_free free]
    exact ih
  case feederStopped =>
    intro path id p pin pins feeder fed stop q stopped ih
    rw [stopped] at ih
    rw [visitInputs_stopped fed stopped]
    exact ih
  case feederSettled =>
    intro path id p pin pins feeder fed q settled ih rest
    rw [settled] at ih
    rw [visitInputs_fed fed settled]
    exact trans ih rest

variable {c : Custody ε} {p : Progress ε}

/-- A pass in good order: its back end is good and its values are vouched for. -/
structure Orderly (c : Custody ε) (p : Progress ε) : Prop where
  good : c.good p.backend
  values : ∀ e ∈ p.values, c.vouches p.backend e.2

omit [Evaluator ε] in
/-- A node sees values of the pass. -/
theorem Orderly.sees (h : Orderly c p) {id : NodeId} {n : Node} {ctx : Context}
    (made : g.context p.values id n = .ok ctx) : c.Sees p.backend ctx ∧ ctx.node = id := by
  obtain ⟨slots, inputs, made⟩ := bind_eq_ok_iff.1 made
  obtain ⟨types, -, made⟩ := bind_eq_ok_iff.1 made
  cases made
  refine ⟨fun s listed v held => ?_, rfl⟩
  obtain ⟨pin, -, slot⟩ := mapM_mem inputs s listed
  obtain ⟨input, -, slot⟩ := bind_eq_ok_iff.1 slot
  split at slot
  · cases slot
    cases held
  · rename_i output _
    obtain ⟨o, -, slot⟩ := bind_eq_ok_iff.1 slot
    cases slot
    obtain ⟨front, back, entries, -⟩ := List.lookup_eq_some_iff.1 held
    exact h.values (output, v) (entries ▸ List.mem_append_right front List.mem_cons_self)

/-- Compiling a node keeps to a discipline that admits what its kind records. -/
theorem compileNode_kept (law : c.Lawful) (h : Orderly c p) {id : NodeId} {n : Node}
    (admits : ∀ o, n.kind.Records o → c.admits o) :
    c.leads p.backend (g.compileNode id n p).2.backend ∧ Orderly c (g.compileNode id n p).2
      ∧ ∀ e, (g.compileNode id n p).1 = .error (.error e) → e.Blames id := by
  unfold compileNode
  cases made : g.context p.values id n with
  | error f => exact ⟨law.refl h.good, h, fun e stopped => by cases stopped⟩
  | ok ctx =>
    obtain ⟨sees, rfl⟩ := h.sees made
    obtain ⟨leads, answers, blames⟩ := Custody.evaluate_kept law h.good sees admits
    dsimp only
    cases ran : (n.kind.evaluate ctx).run p.backend with
    | mk answer b =>
      rw [ran] at leads answers blames
      have good := law.good h.good leads
      have stay : ∀ e ∈ p.values, c.vouches b e.2 := fun e member => law.stays (h.values e member) leads
      cases answer with
      | error stop => exact ⟨leads, ⟨good, stay⟩, fun e stopped => blames e (by cases stopped; rfl)⟩
      | ok values =>
        dsimp only
        split
        · refine ⟨leads, ⟨good, fun e member => ?_⟩, fun e stopped => by cases stopped⟩
          rcases List.mem_append.1 member with new | old
          · exact answers values rfl e.2 (List.of_mem_zip (List.mem_reverse.1 new)).2
          · exact stay e old
        · exact ⟨leads, ⟨good, stay⟩, fun e stopped => by cases stopped⟩

/-- Where every rule leads, an evaluation leads as well. -/
theorem evaluate_leads (leads : ε → ε → Prop) (refl : ∀ b, leads b b)
    (trans : ∀ {b b' b''}, leads b b' → leads b' b'' → leads b b'')
    (rule : ∀ (k : Kind) ctx b, leads b ((k.evaluate ctx).run b).2) (g : Graph) (b : ε) :
    leads b (g.evaluate b).backend := by
  have compile : ∀ id n (p : Progress ε), leads p.backend (g.compileNode id n p).2.backend := by
    intro id n p
    unfold compileNode
    cases g.context p.values id n with
    | error f => exact refl _
    | ok ctx =>
      have one := rule n.kind ctx p.backend
      dsimp only
      cases ran : (n.kind.evaluate ctx).run p.backend with
      | mk answer b =>
        rw [ran] at one
        cases answer with
        | error stop => exact one
        | ok values =>
          dsimp only
          split <;> exact one
  cases chosen : g.terminal with
  | none =>
    rw [evaluate_unchosen chosen]
    exact refl b
  | some terminal =>
    obtain ⟨-, backend, -⟩ := evaluate_chosen chosen b
    rw [backend]
    exact @visit_keeps ε _ g (fun p q => leads p.backend q.backend) (fun p => refl p.backend) trans
      (fun id n p _ => compile id n p) [] terminal ⟨b, [], [], [.evaluating g.id terminal]⟩

end Graph

end FrameGraph
