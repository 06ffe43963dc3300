/-
  FrameGraph.Proofs.Compile.Artifacts: what an artifact depends on.

  Two loaded graphs that look alike from their terminals compile to the same pipeline and to the
  same program, or fail with the same mistake under the new names; tracing makes no difference
  (`artifacts_renamed`). Compiling leaves only marks and values behind, and neither they nor
  those of an earlier evaluation, successful or not, have an effect on what a graph compiles to.
-/

import FrameGraph.Proofs.Compile.Cycles
import FrameGraph.Proofs.Compile.Renaming
import FrameGraph.Proofs.Results

namespace FrameGraph

namespace Pipeline.Builder

/-! ## Pipelines -/

/-- Builders with the same table. Whether they trace is not looked at. -/
structure Alike (b c : Builder) : Prop where
  entries : b.entries = c.entries
  conversions : b.conversions = c.conversions
  taken : b.taken = c.taken

theorem Alike.push {b c : Builder} (h : Alike b c) (e : Entry) :
    (b.push e).2 = (c.push e).2 ∧ Alike (b.push e).1 (c.push e).1 := by
  refine ⟨?_, ?_, h.conversions, h.taken⟩ <;> simp only [Builder.push, h.entries]

theorem indistinct_alike : Indistinct Alike where
  operation h handle := by simp only [Evaluator.operation?, h.entries]
  members h handle := by simp only [Evaluator.arrayMembers?, h.entries]
  conversion h := by
    funext source target
    simp only [Evaluator.conversion?, h.conversions]
  send h r := by
    cases r with
    | operation op => exact h.push (.operation op)
    | group name members => exact h.push (.group name members)

theorem Alike.transfer {b c : Builder} (h : Alike b c) {sink : Pipeline} :
    (b.transfer sink).result = (c.transfer sink).result := by
  have operations : b.operations = c.operations := by simp only [Builder.operations, h.entries]
  rw [Builder.transfer_result, Builder.transfer_result, h.taken, operations, h.entries]

/-! ## Faults of extraction name no nodes -/

section Faults

variable {entries : Array Entry} {f : Fault} (node : NodeId → NodeId)

theorem flatten_fault {depth : Nat} {value : Handle} (h : flatten entries depth value = .error f) :
    f.renamed node = f := by
  induction depth generalizing value with
  | zero =>
    cases h
    rfl
  | succ depth ih =>
    unfold flatten at h
    split at h
    · cases h
      rfl
    · cases h
    · rename_i members _
      cases each : members.mapM (flatten entries depth) with
      | ok positions =>
        rw [each] at h
        cases h
      | error f' =>
        rw [each] at h
        cases h
        obtain ⟨member, -, failed⟩ := mapM_error each
        exact ih failed

theorem resolve_fault {value : Handle} (h : resolve entries value = .error f) : f.renamed node = f := by
  unfold resolve at h
  cases flat : flatten entries entries.size value with
  | error f' =>
    rw [flat] at h
    cases h
    exact flatten_fault node flat
  | ok positions =>
    rw [flat] at h
    simp only [bind, Except.bind] at h
    split at h <;> cases h

theorem resolveOperation_fault {op : Operation} (h : resolveOperation entries op = .error f) :
    f.renamed node = f := by
  unfold resolveOperation at h
  cases each : op.operands.mapM (resolve entries) with
  | ok operands =>
    rw [each] at h
    cases h
  | error f' =>
    rw [each] at h
    cases h
    obtain ⟨operand, -, failed⟩ := mapM_error each
    exact resolve_fault node failed

theorem transfer_renamed (b : Builder) (sink : Pipeline) :
    (b.transfer sink).result.mapError (Stop.renamed node) = (b.transfer sink).result := by
  rw [transfer_result]
  split
  · rfl
  · cases each : b.operations.mapM (resolveOperation b.entries) with
    | ok operations => rfl
    | error f =>
      obtain ⟨op, -, failed⟩ := mapM_error each
      exact congrArg (fun f => Except.error (Stop.fault f)) (resolveOperation_fault node failed)

end Faults

theorem evaluateGraph_result (b : Builder) (g : Graph) :
    (b.evaluateGraph g).2.result = (g.evaluate b).result >>= fun _ =>
      ((g.evaluate b).backend.transfer .empty).result := by
  unfold evaluateGraph
  dsimp only
  cases (g.evaluate b).result with
  | error stop => rfl
  | ok done => exact extract_result _

theorem evaluateGraph_graph (b : Builder) (g : Graph) : (b.evaluateGraph g).2.graph = (g.evaluate b).graph := by
  unfold evaluateGraph
  dsimp only
  split <;> rfl

end Pipeline.Builder

/-! ## Programs -/

namespace Program.Builder

theorem extract_renamed (b : Builder) (node : NodeId → NodeId) :
    (b.extract.result.mapError Stop.error).mapError (Stop.renamed node) = b.extract.result.mapError .error := by
  unfold extract
  split <;> rfl

theorem evaluateGraph_result (b : Builder) (g : Graph) :
    (b.evaluateGraph g).2.result = (g.evaluate b).result >>= fun _ =>
      (g.evaluate b).backend.extract.result.mapError .error := by
  unfold evaluateGraph
  dsimp only
  cases (g.evaluate b).result <;> rfl

theorem evaluateGraph_graph (b : Builder) (g : Graph) : (b.evaluateGraph g).2.graph = (g.evaluate b).graph := by
  unfold evaluateGraph
  dsimp only
  split <;> rfl

end Program.Builder

namespace Graph

variable {g g' : Graph} {node : NodeId → NodeId} {pin : PinId → PinId}

/-! ## Nothing is left behind -/

theorem resetEvaluation_evaluate {ε : Type} [Evaluator ε] (g : Graph) (b : ε) :
    (g.evaluate b).graph.resetEvaluation = g.resetEvaluation := by
  cases chosen : g.terminal with
  | none => rw [evaluate_unchosen chosen]
  | some terminal =>
    obtain ⟨graph, -⟩ := evaluate_chosen chosen b
    rw [graph]
    simp only [resetEvaluation, withResults, Table.map, Table.mapWithKey_mapWithKey]

/-- An evaluated graph compiles as it would have before. -/
theorem evaluate_again {ε ε' : Type} [Evaluator ε] [Evaluator ε'] (g : Graph) (earlier : ε) (b : ε') :
    ((g.evaluate earlier).graph.evaluate b).result = (g.evaluate b).result
      ∧ ((g.evaluate earlier).graph.evaluate b).backend = (g.evaluate b).backend := by
  obtain ⟨result, backend⟩ := evaluate_resetEvaluation (g.evaluate earlier).graph b
  obtain ⟨result', backend'⟩ := evaluate_resetEvaluation g b
  rw [resetEvaluation_evaluate] at result backend
  exact ⟨result.symm.trans result', backend.symm.trans backend'⟩

/-- Compiling writes marks and values and nothing else, and reads none. -/
structure Traceless (s : Settings) (g : Graph) : Prop where
  pipelineGraph : (s.compilePipeline g).graph.resetEvaluation = g.resetEvaluation
  materialGraph : (s.generateMaterial g).graph.resetEvaluation = g.resetEvaluation
  pipelineAgain : ∀ {ε : Type} [Evaluator ε] (earlier : ε),
    (s.compilePipeline (g.evaluate earlier).graph).result = (s.compilePipeline g).result
  materialAgain : ∀ {ε : Type} [Evaluator ε] (earlier : ε),
    (s.generateMaterial (g.evaluate earlier).graph).result = (s.generateMaterial g).result

theorem compilePipeline_result (s : Settings) (g : Graph) : (s.compilePipeline g).result
    = (g.evaluate (Pipeline.Builder.standard s)).result >>= fun _ =>
      ((g.evaluate (Pipeline.Builder.standard s)).backend.transfer .empty).result :=
  (Pipeline.Builder.standard s).evaluateGraph_result g

theorem transferPipeline_result (s : Settings) (g : Graph) (sink : Pipeline) : (s.transferPipeline g sink).result
    = (g.evaluate (Pipeline.Builder.standard s)).result >>= fun _ =>
      ((g.evaluate (Pipeline.Builder.standard s)).backend.transfer sink).result := by
  unfold Settings.transferPipeline
  dsimp only
  cases (g.evaluate (Pipeline.Builder.standard s)).result <;> rfl

theorem generateMaterial_result (s : Settings) (g : Graph) : (s.generateMaterial g).result
    = (g.evaluate (Program.Builder.standard s)).result >>= fun _ =>
      (g.evaluate (Program.Builder.standard s)).backend.extract.result.mapError .error :=
  (Program.Builder.standard s).evaluateGraph_result g

/-- A program that is generated is the one that the evaluation has written. -/
theorem generateMaterial_ok_iff {s : Settings} {source : Program.Source} : (s.generateMaterial g).result = .ok source
    ↔ (g.evaluate (Program.Builder.standard s)).result = .ok ()
      ∧ (g.evaluate (Program.Builder.standard s)).backend.taken = false
      ∧ source = (g.evaluate (Program.Builder.standard s)).backend.source := by
  rw [generateMaterial_result, bind_eq_ok_iff]
  unfold Program.Builder.extract
  cases (g.evaluate (Program.Builder.standard s)).backend.taken with
  | true => simp [Except.mapError]
  | false =>
    constructor
    · intro made
      obtain ⟨⟨⟩, done, made⟩ := made
      cases made
      exact ⟨done, rfl, rfl⟩
    · intro written
      obtain ⟨done, -, rfl⟩ := written
      exact ⟨(), done, rfl⟩

/-- A pass of bounded depth tells that a program comes of a graph. -/
theorem generates_within {σ : Type} {made : Except σ Graph} {s : Settings} (depth : Nat)
    (within : made.map (fun g => (decide (g.nodes.size < depth),
        (g.evaluateWithin depth (Program.Builder.standard s)).map fun e => (e.result, e.backend.taken)))
      = .ok (true, some (.ok (), false))) :
    ∃ g, made = .ok g
      ∧ (s.generateMaterial g).result = .ok (g.evaluate (Program.Builder.standard s)).backend.source := by
  have evaluated := map_evaluate_within (f := fun e : Evaluation Program.Builder => (e.result, e.backend.taken))
    depth within
  cases made with
  | error e => cases evaluated
  | ok g =>
    obtain ⟨done, fresh⟩ := Prod.mk.inj (Except.ok.inj evaluated)
    exact ⟨g, rfl, generateMaterial_ok_iff.2 ⟨done, fresh, rfl⟩⟩

theorem traceless (s : Settings) (g : Graph) : Traceless s g where
  pipelineGraph := by
    have graph : (s.compilePipeline g).graph = _ := (Pipeline.Builder.standard s).evaluateGraph_graph g
    rw [graph, resetEvaluation_evaluate]
  materialGraph := by
    have graph : (s.generateMaterial g).graph = _ := (Program.Builder.standard s).evaluateGraph_graph g
    rw [graph, resetEvaluation_evaluate]
  pipelineAgain earlier := by
    obtain ⟨result, backend⟩ := evaluate_again g earlier (Pipeline.Builder.standard s)
    rw [compilePipeline_result, compilePipeline_result, result, backend]
  materialAgain earlier := by
    obtain ⟨result, backend⟩ := evaluate_again g earlier (Program.Builder.standard s)
    rw [generateMaterial_result, generateMaterial_result, result, backend]

/-! ## Artifacts of graphs that look alike -/

/-- Evaluations that match, followed by steps that match, come to the same up to names. -/
theorem renamed_bind {α β : Type} {x y : Except Stop α} {f f' : α → Except Stop β} (same : Matches node x y)
    (next : ∀ a, f' a = f a) (fixed : ∀ a, (f a).mapError (Stop.renamed node) = f a) :
    (y >>= f') = (x >>= f).mapError (Stop.renamed node) := by
  cases same with
  | answered a => exact (next a).trans (fixed a).symm
  | stopped s => rfl

theorem artifacts_renamed {stored stored' : Graph} (loaded : stored.restore = .ok g)
    (loaded' : stored'.restore = .ok g') (renames : Renames g g' node pin) (s s' : Settings) :
    (s'.compilePipeline g').result = (s.compilePipeline g).result.mapError (Stop.renamed node)
      ∧ (s.generateMaterial g').result = (s.generateMaterial g).result.mapError (Stop.renamed node)
      ∧ Traceless s g := by
  obtain ⟨⟨sound, -⟩, rfl⟩ := restore_eq_ok_iff.1 loaded
  obtain ⟨⟨sound', -⟩, rfl⟩ := restore_eq_ok_iff.1 loaded'
  refine ⟨?_, ?_, traceless s _⟩
  · have start : Pipeline.Builder.Alike (.standard s) (.standard s') := ⟨rfl, rfl, rfl⟩
    obtain ⟨same, after⟩ := evaluate_abreast Pipeline.Builder.indistinct_alike renames sound sound' start
    rw [compilePipeline_result, compilePipeline_result]
    exact renamed_bind same (fun _ => after.transfer.symm) fun _ => Pipeline.Builder.transfer_renamed node _ _
  · obtain ⟨same, after⟩ :=
      evaluate_abreast indistinct_eq renames sound sound' (Eq.refl (Program.Builder.standard s))
    rw [generateMaterial_result, generateMaterial_result, after]
    exact renamed_bind same (fun _ => rfl) fun _ => Program.Builder.extract_renamed _ node

/-- `targetOnScreen` under other names, evaluated before, with nodes beside it that lead nowhere. -/
def clutteredScreen : Graph where
  id := .zero
  name := "Copy"
  nextId := 50
  terminal := some ⟨12⟩
  nodes := .ofList [(⟨30⟩, ⟨⟨30⟩, .provider .camera, .origin, [], [⟨31⟩], true⟩),
    (⟨12⟩, ⟨⟨12⟩, .screen, .origin, [⟨13⟩, ⟨14⟩], [], false⟩),
    (⟨32⟩, ⟨⟨32⟩, .convert ⟨Base.camera, false⟩ .untyped, .origin, [⟨33⟩], [⟨34⟩], false⟩),
    (⟨10⟩, ⟨⟨10⟩, .provider .target, .origin, [], [⟨11⟩], true⟩)]
  inputPins := .ofList [(⟨14⟩, ⟨⟨14⟩, ⟨12⟩, "Require", .scalar Base.require, true, none⟩),
    (⟨13⟩, ⟨⟨13⟩, ⟨12⟩, "Target", .scalar Base.target, false, some ⟨11⟩⟩),
    (⟨33⟩, ⟨⟨33⟩, ⟨32⟩, "From", .scalar Base.camera, false, some ⟨31⟩⟩)]
  outputPins := .ofList [(⟨31⟩, ⟨⟨31⟩, ⟨30⟩, "Camera", .scalar Base.camera, some ⟨0⟩⟩),
    (⟨34⟩, ⟨⟨34⟩, ⟨32⟩, "To", .untyped, none⟩), (⟨11⟩, ⟨⟨11⟩, ⟨10⟩, "Target", .scalar Base.target, some ⟨7⟩⟩)]
  links := .ofList [(⟨40⟩, ⟨⟨40⟩, ⟨33⟩, ⟨31⟩⟩), (⟨15⟩, ⟨⟨15⟩, ⟨13⟩, ⟨11⟩⟩)]

theorem targetOnScreen_renames :
    Renames targetOnScreen clutteredScreen (fun id => ⟨id.val + 10⟩) fun k => ⟨k.val + 10⟩ := by
  refine renames_of_entries rfl (fun a b same => ?_) (fun a b same => ?_) ?_ ?_ ?_
  · exact congrArg NodeId.mk (Nat.add_right_cancel (NodeId.mk.inj same))
  · exact congrArg PinId.mk (Nat.add_right_cancel (PinId.mk.inj same))
  all_goals decide

theorem artifacts_renamed_screen : targetOnScreen.restore = .ok targetOnScreen
    ∧ clutteredScreen.restore = .ok clutteredScreen
    ∧ Renames targetOnScreen clutteredScreen (fun id => ⟨id.val + 10⟩) (fun k => ⟨k.val + 10⟩)
    ∧ (Settings.standard.compilePipeline clutteredScreen).result
      = (Settings.standard.compilePipeline targetOnScreen).result.mapError (Stop.renamed fun id => ⟨id.val + 10⟩)
    ∧ (Settings.standard.generateMaterial clutteredScreen).result
      = (Settings.standard.generateMaterial targetOnScreen).result.mapError (Stop.renamed fun id => ⟨id.val + 10⟩)
    ∧ Traceless .standard targetOnScreen := by
  have loaded : targetOnScreen.restore = .ok targetOnScreen := by decide
  have loaded' : clutteredScreen.restore = .ok clutteredScreen := by decide
  exact ⟨loaded, loaded', targetOnScreen_renames,
    artifacts_renamed loaded loaded' targetOnScreen_renames .standard .standard⟩

end Graph

end FrameGraph
