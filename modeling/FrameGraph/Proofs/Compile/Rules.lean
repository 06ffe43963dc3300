/-
  FrameGraph.Proofs.Compile.Rules: a rule records what the reference rule answers.

  A step against a back end mirrors a computation of trees if both stop with the same mistake
  or both answer, and then the handles stand for the trees; the back end has only grown
  meanwhile (`Mirrors`). Mirroring goes through sequences and lists of steps, so the rule of
  each kind is compared with its reference step by step. Together: a node whose inputs stand
  for trees compiles to what the reference computes from these trees (`evaluate_mirrors`),
  whatever the back end, as long as it is lawful.
-/

import FrameGraph.Proofs.Compile.Recording
import FrameGraph.Proofs.Results

namespace FrameGraph

open Evaluator (addOperation addArray operation? arrayMembers? conversion?)

variable {α β γ δ : Type}

/-! ## Same mistakes, related answers -/

inductive Alike (related : α → β → Prop) : Except Stop α → Except CompileError β → Prop
  | failed (e : CompileError) : Alike related (.error (.error e)) (.error e)
  | answered {a : α} {t : β} (same : related a t) : Alike related (.ok a) (.ok t)

theorem Alike.bind {related : α → β → Prop} {wanted : γ → δ → Prop} {e : Except Stop α}
    {r : Except CompileError β} {f : α → Except Stop γ} {k : β → Except CompileError δ}
    (first : Alike related e r) (next : ∀ a t, related a t → Alike wanted (f a) (k t)) :
    Alike wanted (e >>= f) (r >>= k) := by
  cases first with
  | failed e => exact .failed e
  | answered same => exact next _ _ same

theorem run_bind {ε : Type} (x : Build ε α) (f : α → Build ε β) (b : ε) :
    (x >>= f).run b = match x.run b with
      | (.ok a, b') => (f a).run b'
      | (.error e, b') => (.error e, b') := by
  show (ExceptT.run x >>= ExceptT.bindCont f) b = _
  simp only [bind, StateT.bind]
  cases h : x.run b with
  | mk a b' => cases a <;> rfl

theorem Alike.map {related wanted : α → β → Prop} {e : Except Stop α} {r : Except CompileError β} {f : β → β}
    (h : Alike related e r) (next : ∀ a t, related a t → wanted a (f t)) : Alike wanted e (f <$> r) := by
  cases h with
  | failed e => exact .failed e
  | answered same => exact .answered (next _ _ same)

theorem Alike.of_ok {related : α → β → Prop} {a : α} {r : Except CompileError β} (h : Alike related (.ok a) r) :
    ∃ t, r = .ok t ∧ related a t := by
  cases h with
  | answered same => exact ⟨_, rfl, same⟩

theorem Alike.of_error {related : α → β → Prop} {stop : Stop} {r : Except CompileError β}
    (h : Alike related (.error stop) r) : ∃ e, stop = .error e ∧ r = .error e := by
  cases h with
  | failed e => exact ⟨e, rfl, rfl⟩

variable {ε : Type} [Evaluator ε] {b : ε}

structure Mirrors (related : ε → α → β → Prop) (b : ε) (x : Build ε α) (r : Except CompileError β) : Prop where
  grown : Extends b (x.run b).2
  alike : Alike (related (x.run b).2) (x.run b).1 r

/-- One handle for each tree. -/
abbrev All (b : ε) : List Handle → List Tree → Prop := List.Forall₂ (Denotes b)

namespace Mirrors

variable {related : ε → α → β → Prop} {wanted : ε → γ → δ → Prop} {f : α → Build ε γ}
  {k : β → Except CompileError δ}

theorem pure {a : α} {t : β} (same : related b a t) : Mirrors related b (pure a) (.ok t) :=
  ⟨.refl b, .answered same⟩

theorem fail (e : CompileError) : Mirrors related b (Build.fail e) (.error e) :=
  ⟨.refl b, .failed e⟩

/-- What follows a step that answers starts from the back end that the step leaves. -/
theorem bind {x : Build ε α} {t : β} {r : Except CompileError δ} (first : Mirrors related b x (.ok t))
    (next : ∀ b' a, Extends b b' → related b' a t → Mirrors wanted b' (f a) r) :
    Mirrors wanted b (x >>= f) r := by
  obtain ⟨grown, alike⟩ := first
  have run := run_bind x f b
  cases hx : x.run b with
  | mk answer b' =>
    rw [hx] at grown alike run
    dsimp only at grown alike run
    cases alike with
    | answered same =>
      obtain ⟨grown', alike'⟩ := next b' _ grown same
      dsimp only at run
      exact ⟨by rw [run]; exact grown.trans grown', by rw [run]; exact alike'⟩

/-! ## Single steps -/

theorem known {a : α} {e : Except Stop α} {r : Except CompileError δ} (h : e = .ok a)
    (next : Mirrors wanted b (f a) r) : Mirrors wanted b (Rule.lift e >>= f) r := by
  subst h
  exact ⟨next.grown, next.alike⟩

/-- What is decided without the back end leaves it as it is. -/
theorem lift {related : α → β → Prop} {e : Except Stop α} {r : Except CompileError β} (same : Alike related e r)
    (next : ∀ a t, related a t → Mirrors wanted b (f a) (k t)) :
    Mirrors wanted b (Rule.lift e >>= f) (r >>= k) := by
  cases same with
  | failed e => exact ⟨.refl b, .failed e⟩
  | answered same => exact next _ _ same

variable {value : Handle} {r : Except CompileError δ}

theorem members {f : Option (List Handle) → Build ε γ}
    (next : Mirrors wanted b (f (arrayMembers? b value)) r) : Mirrors wanted b (Build.members? value >>= f) r :=
  ⟨next.grown, next.alike⟩

theorem operation {f : Option Operation → Build ε γ} (next : Mirrors wanted b (f (operation? b value)) r) :
    Mirrors wanted b (Build.operation? value >>= f) r :=
  ⟨next.grown, next.alike⟩

theorem conversion {source target : String} {f : Option Conversion → Build ε γ}
    (next : Mirrors wanted b (f (conversion? b source target)) r) :
    Mirrors wanted b (Build.conversion? source target >>= f) r :=
  ⟨next.grown, next.alike⟩

theorem alone {x : Build ε Handle} {tree : Tree} (h : Mirrors Denotes b x (.ok tree)) :
    Mirrors All b (do return [← x]) (.ok [tree]) :=
  h.bind fun _ _ _ d => pure (.cons d .nil)

/-- Steps that never fail, one for each element of a list. -/
theorem mapM (stands : ε → α → β → Prop) {f : α → Build ε Handle} {g : β → Tree}
    (mono : ∀ {b b' a t}, Extends b b' → stands b a t → stands b' a t)
    (step : ∀ {b a t}, stands b a t → Mirrors Denotes b (f a) (.ok (g t))) {as : List α} {ts : List β}
    (each : List.Forall₂ (stands b) as ts) : Mirrors All b (as.mapM f) (.ok (ts.map g)) := by
  induction as generalizing ts b with
  | nil =>
    cases each
    exact pure .nil
  | cons a as ih =>
    obtain _ | ⟨first, others⟩ := each
    rename_i t ts
    rw [List.mapM_cons]
    refine (step first).bind fun b' v grown d => ?_
    refine (ih (others.imp fun _ _ s => mono grown s)).bind fun b'' vs grown' ds => ?_
    exact pure (.cons (d.mono grown') ds)

theorem spread {f : List Handle → Build ε γ} (next : Mirrors wanted b (f ((arrayMembers? b value).getD [value])) r) :
    Mirrors wanted b (Rule.spread value >>= f) r :=
  ⟨next.grown, next.alike⟩

variable [LawfulEvaluator ε]

theorem record (op : Operation) {trees : List Tree} (operands : All b op.operands trees) :
    Mirrors Denotes b (Build.record op) (.ok (.operation op.kind op.name op.type trees)) := by
  have grown := LawfulEvaluator.addOperation_extends b op
  have each := operands.imp fun _ _ d => d.mono grown
  exact ⟨grown, .answered
    ⟨op.operands, LawfulEvaluator.addOperation_recorded b op, denotesAll_iff.2 each⟩⟩

theorem group {name : String} {members : List Handle} {trees : List Tree} (each : All b members trees) :
    Mirrors Denotes b (Build.group name members) (.ok (.group trees)) := by
  have grown := LawfulEvaluator.addArray_extends b name members
  have each := each.imp fun _ _ d => d.mono grown
  exact ⟨grown, .answered ⟨members, LawfulEvaluator.addArray_recorded b name members, denotesAll_iff.2 each⟩⟩

end Mirrors

/-! ## Inputs -/

/-- An input of a node and what the reference sees of it. -/
structure Stands (b : ε) (s : InputSlot) (t : Reference.Slot) : Prop where
  name : s.name = t.name
  type : s.type = t.type
  tree : Option.Rel (Denotes b) s.value t.tree

section Inputs

variable {c : Context} {s : InputSlot} {t : Reference.Slot} {ss : List InputSlot} {ts : List Reference.Slot}

theorem demand_alike (h : Stands b s t) : Alike (Denotes b) (c.demand s) (Reference.demand c.node t) := by
  obtain ⟨pin, type, value⟩ := s
  obtain ⟨pin', type', tree⟩ := t
  obtain ⟨rfl, -, same⟩ := h
  unfold Context.demand Reference.demand
  dsimp only
  cases same with
  | some d => exact .answered d
  | none => exact .failed _

theorem demands_alike (h : List.Forall₂ (Stands b) ss ts) :
    Alike (All b) (ss.mapM c.demand) (ts.mapM (Reference.demand c.node)) := by
  induction h with
  | nil => exact .answered .nil
  | cons first others ih =>
    rw [List.mapM_cons, List.mapM_cons]
    exact (demand_alike first).bind fun _ _ d => ih.bind fun _ _ ds => .answered (.cons d ds)

theorem tree_toList (h : Stands b s t) : All b s.value.toList t.tree.toList := by
  obtain ⟨pin, type, value⟩ := s
  obtain ⟨pin', type', tree⟩ := t
  obtain ⟨-, -, same⟩ := h
  dsimp only
  cases same with
  | some d => exact .cons d .nil
  | none => exact .nil

end Inputs

/-! ## Rules -/

theorem getElem?_rel {related : α → β → Prop} {as : List α} {ts : List β} (h : List.Forall₂ related as ts)
    (i : Nat) : Option.Rel related as[i]? ts[i]? := by
  induction h generalizing i with
  | nil => exact .none
  | cons first others ih =>
    cases i with
    | zero => exact .some first
    | succ i => simpa using ih i

theorem zip_pairs {as : List α} {ts : List β} {cs : List γ} {us : List δ} {first : α → β → Prop}
    {second : γ → δ → Prop} (h : List.Forall₂ first as ts) (h' : List.Forall₂ second cs us) :
    List.Forall₂ (fun x y => first x.1 y.1 ∧ second x.2 y.2) (as.zip cs) (ts.zip us) := by
  induction h generalizing cs us with
  | nil => exact .nil
  | cons same others ih =>
    cases h' with
    | nil => exact .nil
    | cons same' others' => exact .cons ⟨same, same'⟩ (ih others')

theorem paired_cons {related : α → β → Prop} {as : List α} {ts : List β} {n : Nat}
    (h : List.Forall₂ related as ts) (more : ts.length = n + 1) :
    ∃ a as' t ts', as = a :: as' ∧ ts = t :: ts' ∧ related a t ∧ List.Forall₂ related as' ts'
      ∧ ts'.length = n := by
  cases h with
  | nil => cases more
  | cons same rest => exact ⟨_, _, _, _, rfl, rfl, same, rest, Nat.succ.inj more⟩

theorem paired_one {related : α → β → Prop} {as : List α} {ts : List β} (h : List.Forall₂ related as ts)
    (one : ts.length = 1) : ∃ a t, as = [a] ∧ ts = [t] ∧ related a t := by
  obtain ⟨a, as, t, ts, rfl, rfl, same, rest, none⟩ := paired_cons h one
  obtain rfl := List.length_eq_zero_iff.1 none
  cases rest
  exact ⟨a, t, rfl, rfl, same⟩

theorem paired_two {related : α → β → Prop} {as : List α} {ts : List β} (h : List.Forall₂ related as ts)
    (two : ts.length = 2) :
    ∃ a a' t t', as = [a, a'] ∧ ts = [t, t'] ∧ related a t ∧ related a' t' := by
  obtain ⟨a, as, t, ts, rfl, rfl, same, rest, one⟩ := paired_cons h two
  obtain ⟨a', t', rfl, rfl, same'⟩ := paired_one rest one
  exact ⟨a, a', t, t', rfl, rfl, same, same'⟩

section Rules

variable [LawfulEvaluator ε] {node : NodeId} {s : InputSlot} {t : Reference.Slot} {type : PinType}

theorem single_mirrors (op : Operation) {trees : List Tree} (operands : All b op.operands trees) :
    Mirrors All b (Rule.single op) (.ok [.operation op.kind op.name op.type trees]) :=
  (Mirrors.record op operands).alone

theorem convert_mirrors {registry : Registry} (offers : Offers b registry) (h : Stands b s t) :
    Mirrors All b (Rule.convert ⟨node, [s], [type]⟩) (Reference.convert registry node [t] [type]) := by
  refine .known rfl (.known rfl ?_)
  refine .lift (demand_alike (c := ⟨node, [s], [type]⟩) h) fun value tree d => ?_
  refine Mirrors.conversion ?_
  rw [h.type, offers]
  cases registry t.type.base type.base with
  | none => exact .fail _
  | some c =>
    have whole : Mirrors All b
        (Rule.single ((c.conversion.operation value type).named (Rule.convertName t.type type)))
        (.ok [.operation c.kind (Rule.convertName t.type type) type [tree]]) :=
      single_mirrors ((c.conversion.operation value type).named _) (.cons d .nil)
    dsimp only
    unfold Reference.converted
    cases t.type.isArray with
    | false => exact whole
    | true =>
      refine .members ?_
      have known := d.members?
      cases tree with
      | operation kind name type operands =>
        rw [known]
        exact whole
      | group trees =>
        obtain ⟨ms, found, each⟩ := known
        rw [found]
        have one : ∀ {b : ε} {m : Handle} {tree : Tree}, Denotes b m tree → Mirrors Denotes b
            (Build.record (c.conversion.operation m type.element)) (.ok (.plain c.kind type.element [tree])) :=
          fun d => .record (c.conversion.operation _ type.element) (.cons d .nil)
        exact (Mirrors.mapM Denotes (fun grown d => d.mono grown) one each).bind fun _ _ _ ds => (Mirrors.group ds).alone

theorem group_mirrors {c : Context} {name : String} {slots : List Reference.Slot}
    (h : List.Forall₂ (Stands b) c.inputs slots) :
    Mirrors All b (Rule.group c name) (Reference.group c.node slots) :=
  .lift (demands_alike h) fun _ _ ds => (Mirrors.group ds).alone

theorem select_mirrors {index : Nat} (h : Stands b s t) :
    Mirrors All b (Rule.select ⟨node, [s], [type]⟩ index) (Reference.select node index [t] [type]) := by
  refine .lift (demand_alike (c := ⟨node, [s], [type]⟩) h) fun value tree d => ?_
  refine .members ?_
  have known := d.members?
  cases tree with
  | group trees =>
    obtain ⟨ms, found, each⟩ := known
    rw [found]
    dsimp only
    have picked := getElem?_rel each index
    generalize ms[index]? = item at picked
    generalize trees[index]? = tree at picked
    cases picked with
    | some d => exact .pure (.cons d .nil)
    | none =>
      rw [each.length_eq]
      exact .fail _
  | operation kind name arrayType operands =>
    rw [known]
    refine .operation (.known rfl ?_)
    obtain ⟨inputs, found, -⟩ := id d
    rw [found]
    exact single_mirrors ((Operation.plain (.selectElement index) type [value]).named _) (.cons d .nil)

theorem renderOne_mirrors {c : Context} (outputs : c.outputs = [type]) {entities eye target : Handle}
    {a e r : Tree} (da : Denotes b entities a) (de : Denotes b eye e) (dr : Denotes b target r) :
    Mirrors Denotes b (Rule.renderOne c entities eye target) (.ok (Reference.renderOne type a e r)) := by
  refine .operation (.known (a := type) (by simp [Context.outputType, outputs]) ?_)
  have named : Rule.renderName (operation? b target) = Reference.renderName r := by
    unfold Reference.renderName
    rw [← dr.name?]
    cases operation? b target <;> rfl
  rw [named]
  exact .record ((Operation.plain .render type [entities, eye, target]).named (Reference.renderName r))
    (.cons da (.cons de (.cons dr .nil)))

/-- The members of a value, or the value alone, stand for those of its tree. -/
theorem spread_all {value : Handle} {tree : Tree} (d : Denotes b value tree) :
    All b ((arrayMembers? b value).getD [value]) (Reference.spread tree) := by
  have known := d.members?
  cases tree with
  | operation kind name type operands =>
    rw [known]
    exact .cons d .nil
  | group trees =>
    obtain ⟨ms, found, each⟩ := known
    rw [found]
    exact each

theorem render_mirrors {isArray : Bool} {s₀ s₁ s₂ s₃ : InputSlot} {t₀ t₁ t₂ t₃ : Reference.Slot}
    (h₀ : Stands b s₀ t₀) (h₁ : Stands b s₁ t₁) (h₂ : Stands b s₂ t₂) :
    Mirrors All b (Rule.render ⟨node, [s₀, s₁, s₂, s₃], [type]⟩ isArray)
      (Reference.render node isArray [t₀, t₁, t₂, t₃] [type]) := by
  refine .lift (demand_alike (c := ⟨node, [s₀, s₁, s₂, s₃], [type]⟩) h₀) fun entities a da => ?_
  refine .lift (demand_alike (c := ⟨node, [s₀, s₁, s₂, s₃], [type]⟩) h₁) fun eye e de => ?_
  refine .lift (demand_alike (c := ⟨node, [s₀, s₁, s₂, s₃], [type]⟩) h₂) fun target r dr => ?_
  cases isArray with
  | false => exact (renderOne_mirrors rfl da de dr).alone
  | true =>
    have eyes := spread_all de
    have targets := spread_all dr
    refine .spread (.spread ?_)
    show Mirrors All b _ (Reference.renderAll node type a e r)
    unfold Reference.renderAll
    rw [eyes.length_eq, targets.length_eq]
    by_cases same : (Reference.spread e).length = (Reference.spread r).length
    · rw [if_neg (not_not_intro same), if_neg (not_not_intro same)]
      have pairs := (zip_pairs eyes targets).imp fun _ _ d => (⟨da, d⟩ : _ ∧ _)
      refine (Mirrors.mapM (fun b x t => Denotes b entities a ∧ Denotes b x.1 t.1 ∧ Denotes b x.2 t.2)
        ?_ ?_ pairs).bind fun _ _ _ ds => (Mirrors.group ds).alone
      · exact fun grown d => ⟨d.1.mono grown, d.2.1.mono grown, d.2.2.mono grown⟩
      · exact fun d => renderOne_mirrors rfl d.1 d.2.1 d.2.2
    · rw [if_pos same, if_pos same]
      exact .fail _

theorem sink_mirrors {kind : OperationKind} {ss : List InputSlot} {ts : List Reference.Slot}
    (h : Stands b s t) : Mirrors All b (Rule.sink ⟨node, s :: ss, []⟩ kind) (Reference.sink node (t :: ts)) := by
  refine .lift (demand_alike (c := ⟨node, s :: ss, []⟩) h) fun value tree d => ?_
  refine (Mirrors.record (.plain kind .untyped [value]) (.cons d .nil)).bind fun _ _ _ _ => ?_
  exact .pure .nil

theorem named_mirrors {kind : OperationKind} {name : String} {ss : List InputSlot} :
    Mirrors All b (Rule.named ⟨node, ss, [type]⟩ kind name) (Reference.named kind name [type]) :=
  .known rfl (single_mirrors ((Operation.plain kind type []).named name) .nil)

theorem add_mirrors {s' : InputSlot} {t' : Reference.Slot} (h : Stands b s t) (h' : Stands b s' t') :
    Mirrors All b (Rule.add ⟨node, [s, s'], [type]⟩) (Reference.add node [t, t'] [type]) := by
  refine .lift (demand_alike (c := ⟨node, [s, s'], [type]⟩) h) fun value tree d => ?_
  refine .lift (demand_alike (c := ⟨node, [s, s'], [type]⟩) h') fun value' tree' d' => ?_
  exact .known rfl (single_mirrors (.plain .add type [value, value']) (.cons d (.cons d' .nil)))

theorem sample2D_mirrors {s' : InputSlot} {t' : Reference.Slot} (h : Stands b s t) (h' : Stands b s' t') :
    Mirrors All b (Rule.sample2D ⟨node, [s, s'], [type]⟩) (Reference.sample2D node [t, t'] [type]) := by
  refine .lift (demand_alike (c := ⟨node, [s, s'], [type]⟩) h) fun value tree d => ?_
  exact .known rfl (single_mirrors (.plain .sample2D type (value :: s'.value.toList)) (.cons d (tree_toList h')))

theorem editorRender_mirrors (h : Stands b s t) :
    Mirrors All b (Rule.editorRender ⟨node, [s], [type]⟩) (Reference.editorRender [t] [type]) :=
  .known rfl (single_mirrors (.plain .editorRender type s.value.toList) (tree_toList h))

/-! ## All kinds -/

theorem evaluate_mirrors {k : Kind} {c : Context} {slots : List Reference.Slot} {registry : Registry}
    (offers : Offers b registry) (inputs : List.Forall₂ (Stands b) c.inputs slots) (hi : slots.length = k.inputSpecs.length)
    (ho : c.outputs.length = k.outputSpecs.length) :
    Mirrors All b (k.evaluate c) (Reference.rule registry c.node k slots c.outputs) := by
  obtain ⟨node, ss, outputs⟩ := c
  dsimp only at inputs ho
  cases k with
  | provider p => exact single_mirrors ((Operation.plain p.operation p.outputType []).named p.label) .nil
  | convert fromType toType =>
    obtain ⟨s, t, rfl, rfl, h⟩ := paired_one inputs hi
    obtain ⟨type, rfl⟩ := List.length_eq_one_iff.1 ho
    exact convert_mirrors offers h
  | concat element count => exact group_mirrors inputs
  | select element index =>
    obtain ⟨s, t, rfl, rfl, h⟩ := paired_one inputs hi
    obtain ⟨type, rfl⟩ := List.length_eq_one_iff.1 ho
    exact select_mirrors h
  | render isArray =>
    obtain ⟨s₀, ss, t₀, ts, rfl, rfl, h₀, inputs, hi⟩ := paired_cons inputs hi
    obtain ⟨s₁, ss, t₁, ts, rfl, rfl, h₁, inputs, hi⟩ := paired_cons inputs hi
    obtain ⟨s₂, s₃, t₂, t₃, rfl, rfl, h₂, -⟩ := paired_two inputs hi
    obtain ⟨type, rfl⟩ := List.length_eq_one_iff.1 ho
    show Mirrors All b _ (Reference.render node isArray [t₀, t₁, t₂, t₃] [type])
    exact render_mirrors h₀ h₁ h₂
  | editorRender =>
    obtain ⟨s, t, rfl, rfl, h⟩ := paired_one inputs hi
    obtain ⟨type, rfl⟩ := List.length_eq_one_iff.1 ho
    exact editorRender_mirrors h
  | requireLock count => exact group_mirrors inputs
  | screen =>
    obtain ⟨s, s', t, t', rfl, rfl, h, -⟩ := paired_two inputs hi
    obtain rfl := List.length_eq_zero_iff.1 ho
    show Mirrors All b _ (Reference.sink node [t, t'])
    exact sink_mirrors h
  | property name type =>
    obtain ⟨type, rfl⟩ := List.length_eq_one_iff.1 ho
    exact named_mirrors
  | vertexAttribute name type =>
    obtain ⟨type, rfl⟩ := List.length_eq_one_iff.1 ho
    exact named_mirrors
  | sampler name =>
    obtain ⟨type, rfl⟩ := List.length_eq_one_iff.1 ho
    exact named_mirrors
  | add type =>
    obtain ⟨s, s', t, t', rfl, rfl, h, h'⟩ := paired_two inputs hi
    obtain ⟨type, rfl⟩ := List.length_eq_one_iff.1 ho
    exact add_mirrors h h'
  | sample2D =>
    obtain ⟨s, s', t, t', rfl, rfl, h, h'⟩ := paired_two inputs hi
    obtain ⟨type, rfl⟩ := List.length_eq_one_iff.1 ho
    exact sample2D_mirrors h h'
  | materialOutput =>
    obtain ⟨s, t, rfl, rfl, h⟩ := paired_one inputs hi
    obtain rfl := List.length_eq_zero_iff.1 ho
    show Mirrors All b _ (Reference.sink node [t])
    exact sink_mirrors h

end Rules

/-! ## Numbers of answers -/

namespace Reference

/-- If there are answers at all, there are this many. -/
def Counts (n : Nat) (r : Except CompileError (List Tree)) : Prop := ∀ trees, r = .ok trees → trees.length = n

theorem counts_ok (trees : List Tree) : Counts trees.length (.ok trees) := by
  intro trees' h
  cases h
  rfl

theorem counts_error {n : Nat} {e : CompileError} : Counts n (.error e) := by
  intro trees h
  cases h

theorem counts_bind {n : Nat} {x : Except CompileError α} {f : α → Except CompileError (List Tree)}
    (h : ∀ a, Counts n (f a)) : Counts n (x >>= f) := by
  intro trees answer
  obtain ⟨a, -, answer⟩ := bind_eq_ok_iff.1 answer
  exact h a trees answer

theorem convert_counts {registry : Registry} {node : NodeId} (s : Slot) (type : PinType) :
    Counts 1 (convert registry node [s] [type]) := by
  refine counts_bind fun tree => ?_
  cases registry s.type.base type.base with
  | none => exact counts_error
  | some c => exact counts_ok _

theorem select_counts {node : NodeId} (index : Nat) (s : Slot) (type : PinType) :
    Counts 1 (select node index [s] [type]) := by
  refine counts_bind fun tree => ?_
  cases tree with
  | operation kind name type operands => exact counts_ok _
  | group members =>
    dsimp only
    cases members[index]? with
    | none => exact counts_error
    | some item => exact counts_ok _

theorem renderAll_counts {node : NodeId} {type : PinType} {entities eye target : Tree} :
    Counts 1 (renderAll node type entities eye target) := by
  unfold renderAll
  dsimp only
  split
  · exact counts_error
  · exact counts_ok _

theorem render_counts {node : NodeId} (isArray : Bool) (t₀ t₁ t₂ t₃ : Slot) (type : PinType) :
    Counts 1 (render node isArray [t₀, t₁, t₂, t₃] [type]) := by
  refine counts_bind fun entities => counts_bind fun eye => counts_bind fun target => ?_
  cases isArray with
  | false => exact counts_ok _
  | true => exact renderAll_counts

/-- Every output gets a tree. -/
theorem rule_counts {registry : Registry} {node : NodeId} {k : Kind} {slots : List Slot} {outputs : List PinType}
    (hi : slots.length = k.inputSpecs.length) (ho : outputs.length = k.outputSpecs.length) :
    Counts k.outputSpecs.length (rule registry node k slots outputs) := by
  cases k with
  | provider p => exact counts_ok _
  | convert fromType toType =>
    obtain ⟨s, rfl⟩ := List.length_eq_one_iff.1 hi
    obtain ⟨type, rfl⟩ := List.length_eq_one_iff.1 ho
    exact convert_counts s type
  | concat element count => exact counts_bind fun _ => counts_ok _
  | select element index =>
    obtain ⟨s, rfl⟩ := List.length_eq_one_iff.1 hi
    obtain ⟨type, rfl⟩ := List.length_eq_one_iff.1 ho
    exact select_counts index s type
  | render isArray =>
    obtain ⟨type, rfl⟩ := List.length_eq_one_iff.1 ho
    obtain ⟨t₀, ts, rfl⟩ := List.exists_cons_of_length_eq_add_one hi
    obtain ⟨t₁, t₂, t₃, rfl⟩ := List.length_eq_three.1 (Nat.succ.inj hi)
    exact render_counts isArray t₀ t₁ t₂ t₃ type
  | editorRender =>
    obtain ⟨s, rfl⟩ := List.length_eq_one_iff.1 hi
    obtain ⟨type, rfl⟩ := List.length_eq_one_iff.1 ho
    exact counts_ok _
  | requireLock count => exact counts_bind fun _ => counts_ok _
  | screen =>
    obtain ⟨s, s', rfl⟩ := List.length_eq_two.1 hi
    exact counts_bind fun _ => counts_ok _
  | property name type | vertexAttribute name type | sampler name =>
    obtain ⟨type, rfl⟩ := List.length_eq_one_iff.1 ho
    exact counts_ok _
  | add type =>
    obtain ⟨s, s', rfl⟩ := List.length_eq_two.1 hi
    obtain ⟨type, rfl⟩ := List.length_eq_one_iff.1 ho
    exact counts_bind fun _ => counts_bind fun _ => counts_ok _
  | sample2D =>
    obtain ⟨s, s', rfl⟩ := List.length_eq_two.1 hi
    obtain ⟨type, rfl⟩ := List.length_eq_one_iff.1 ho
    exact counts_bind fun _ => counts_ok _
  | materialOutput =>
    obtain ⟨s, rfl⟩ := List.length_eq_one_iff.1 hi
    exact counts_bind fun _ => counts_ok _

end Reference

end FrameGraph
