/-
  FrameGraph.Proofs.Compile.Ordering: pipelines run dependencies first.

  A builder's operations are recorded in the order of the pass's journal, a block of places for
  each node (`Journal.places`). A node's turn comes after that of everything that feeds it, so
  in a finished pipeline its operations stand behind all of theirs, also where an input only
  asks for an order and its value becomes no operand (`pipeline_ordered`).
-/

import Mathlib.Data.List.Forall2
import Mathlib.Data.List.Nodup
import FrameGraph.Compiler
import FrameGraph.Proofs.Compile.Artifacts
import FrameGraph.Proofs.Compile.Cycles
import FrameGraph.Proofs.Compile.Journal

namespace FrameGraph

open Pipeline (Builder)

/-! ## Operations are only added at the end -/

namespace Pipeline.Builder

theorem operations_push (b : Builder) (e : Entry) :
    (b.push e).1.operations = b.operations ++ e.operation?.toList := by
  unfold operations push
  rw [Array.toList_push, List.filterMap_append]
  cases e <;> rfl

theorem operations_send (b : Builder) (r : Request) :
    (r.send b).1.operations = b.operations ++ r.operation?.toList := by
  cases r with
  | operation op => exact b.operations_push (.operation op)
  | group name members => exact b.operations_push (.group name members)

theorem operations_sendAll (b : Builder) (rs : List Request) :
    (Request.sendAll b rs).1.operations = b.operations ++ rs.filterMap Request.operation? := by
  induction rs generalizing b with
  | nil => exact (List.append_nil _).symm
  | cons r rs ih =>
    refine (ih (r.send b).1).trans ?_
    rw [operations_send, List.append_assoc, List.filterMap_cons]
    cases r <;> rfl

end Pipeline.Builder

/-- A place among the operations that the compilation recorded. -/
def Compilation.Places (c : Compilation Builder) (place : Nat) : Prop :=
  c.before.operations.length ≤ place ∧ place < c.after.operations.length

namespace Graph

variable {g : Graph} {p q r : Progress Builder} {id : NodeId} {n : Node} {js : List (Compilation Builder)}

theorem Journal.operations (h : g.Journal p js q) : p.backend.operations <+: q.backend.operations := by
  obtain ⟨rs, sent⟩ := h.sends
  rw [sent, Pipeline.Builder.operations_sendAll]
  exact List.prefix_append _ _

/-- What a compilation recorded is still there at the end. -/
theorem Journal.recorded (h : g.Journal p js q) {c : Compilation Builder} (member : c ∈ js) :
    c.after.operations <+: q.backend.operations := by
  obtain ⟨ks, ls, rfl⟩ := List.append_of_mem member
  obtain ⟨m, n, m', -, -, -, after, rest⟩ := h.split
  rw [after]
  exact rest.operations

/-- Each place that was filled on the way belongs to a compilation. -/
theorem Journal.places (h : g.Journal p js q) {place : Nat} (old : p.backend.operations.length ≤ place) :
    place < q.backend.operations.length ↔ ∃ c ∈ js, c.Places place := by
  constructor
  · intro filled
    induction h with
    | nil p => omega
    | @cons p q r id n js step rest ih =>
      by_cases first : place < q.backend.operations.length
      · exact ⟨_, List.mem_cons_self, old, first⟩
      · obtain ⟨c, member, places⟩ := ih (by omega) filled
        exact ⟨c, List.mem_cons_of_mem _ member, places⟩
  · intro found
    obtain ⟨c, member, -, before⟩ := found
    have le := (h.recorded member).length_le
    omega

/-- Two compilations of one node are the same. -/
theorem Journal.same (h : g.Journal p js q) {c d : Compilation Builder} (hc : c ∈ js) (hd : d ∈ js)
    (node : c.node = d.node) : c = d :=
  List.inj_on_of_nodup_map h.once.1 hc hd node

/-- Whatever feeds a node, directly or not, has recorded all its operations before the node's
turn. -/
theorem Journal.ordered (h : g.Journal p js q) (fresh : p.compiled = []) {c d : Compilation Builder} (hc : c ∈ js)
    (hd : d ∈ js) (hn : g.nodes.get? d.node = some n) {input : InputPin} (member : input ∈ g.inputsOf n)
    {output : OutputPin} (source : g.source? input = some output) (up : g.Upstream output.node c.node) :
    c.after.operations <+: d.before.operations := by
  obtain ⟨ks, ls, rfl⟩ := List.append_of_mem hd
  obtain ⟨m, n', m', first, step, before, -, -⟩ := h.split
  cases step.registered.symm.trans hn
  -- Before the turn of `d`, the first part of the journal has compiled the node of `c`.
  have start : g.Closed p := by
    intro id done
    rw [fresh] at done
    cases done
  have done := step.feeders (first.closed start) member source up
  rw [first.compiled_eq, fresh, List.append_nil, List.mem_reverse] at done
  obtain ⟨c', earlier, node⟩ := List.mem_map.1 done
  obtain rfl : c' = c := h.same (List.mem_append_left _ earlier) hc node
  rw [before]
  exact first.recorded earlier

/-! ## Finished pipelines -/

/-- The operations of a pipeline are those that the compilations of a journal recorded, in that
order, and each stands behind all operations of the nodes that feed its own. -/
structure Scheduled (g : Graph) (b : Builder) (pipeline : Pipeline) (js : List (Compilation Builder)) : Prop where
  operations : (pipeline.operations.map fun op => (op.kind, op.name, op.type))
    = (g.evaluate b).backend.operations.map fun op => (op.kind, op.name, op.type)
  recorded : ∀ c ∈ js, c.after.operations <+: (g.evaluate b).backend.operations
  places : ∀ place, place < pipeline.size ↔ ∃ c ∈ js, c.Places place
  ordered : ∀ id n, g.nodes.get? id = some n → ∀ input ∈ g.inputsOf n, ∀ output, g.source? input = some output →
    ∀ c ∈ js, ∀ d ∈ js, g.Upstream output.node c.node → d.node = id → ∀ i j, c.Places i → d.Places j → i < j

theorem resolveOperation_keeps {entries : Array Pipeline.Entry} {op : Operation} {out : PipelineOperation}
    (h : Builder.resolveOperation entries op = .ok out) :
    (out.kind, out.name, out.type) = (op.kind, op.name, op.type) := by
  obtain ⟨inputs, -, made⟩ := bind_eq_ok_iff.1 h
  cases made
  rfl

/-- A builder that gives a pipeline has been through the pass and gives all its operations. -/
theorem evaluateGraph_eq_ok {b : Builder} {pipeline : Pipeline} (h : (b.evaluateGraph g).2.result = .ok pipeline) :
    (g.evaluate b).result = .ok () ∧ (pipeline.operations.map fun op => (op.kind, op.name, op.type))
      = (g.evaluate b).backend.operations.map fun op => (op.kind, op.name, op.type) := by
  rw [Builder.evaluateGraph_result] at h
  obtain ⟨_, evaluated, taken⟩ := bind_eq_ok_iff.1 h
  refine ⟨evaluated, ?_⟩
  rw [Builder.transfer_result] at taken
  split at taken
  · cases taken
  · cases each : (g.evaluate b).backend.operations.mapM
        (Builder.resolveOperation (g.evaluate b).backend.entries) with
    | error f =>
      rw [each] at taken
      cases taken
    | ok out =>
      rw [each] at taken
      cases taken
      have kept := (mapM_eq_ok each).imp fun op out resolved => (resolveOperation_keeps resolved).symm
      have same := List.forall₂_map_left_iff.2 (List.forall₂_map_right_iff.2 kept)
      rw [List.forall₂_eq_eq_eq] at same
      exact same.symm

/-- A pipeline runs each node upstream of the terminal once, and dependencies first. -/
theorem pipeline_ordered {stored : Graph} (loaded : stored.restore = .ok g) (conversions : ConversionTable)
    (trace : Bool) {pipeline : Pipeline}
    (compiled : ((Builder.offering conversions trace).evaluateGraph g).2.result = .ok pipeline) :
    ∃ terminal js, g.terminal = some terminal ∧ g.PassRecorded (Builder.offering conversions trace) terminal js
      ∧ g.Scheduled (Builder.offering conversions trace) pipeline js := by
  obtain ⟨⟨sound, -⟩, rfl⟩ := restore_eq_ok_iff.1 loaded
  obtain ⟨evaluated, operations⟩ := evaluateGraph_eq_ok compiled
  cases chosen : stored.rewired.terminal with
  | none =>
    rw [evaluate_unchosen chosen] at evaluated
    cases evaluated
  | some terminal =>
    obtain ⟨js, pass⟩ := evaluate_journal sound chosen evaluated
    obtain ⟨p, journal, -, backend⟩ := pass.ran
    refine ⟨terminal, js, rfl, pass, ⟨operations, ?_, ?_, ?_⟩⟩
    · intro c member
      rw [backend]
      exact journal.recorded member
    · intro place
      have size : pipeline.size = p.backend.operations.length := by
        have lengths := congrArg List.length operations
        rwa [List.length_map, List.length_map, backend] at lengths
      rw [size]
      exact journal.places (Nat.zero_le place)
    · intro id n hn input member output source c hc d hd up node i j before after
      subst node
      have earlier := (journal.ordered rfl hc hd hn member source up).length_le
      obtain ⟨-, last⟩ := before
      obtain ⟨first, -⟩ := after
      omega

/-- A screen that shows the camera's target, but not before something is rendered into it. -/
def renderedScreen : Graph where
  id := .zero
  name := untitled
  nextId := 26
  terminal := some ⟨16⟩
  nodes := .ofList [(⟨0⟩, ⟨⟨0⟩, .provider .entities, .origin, [], [⟨1⟩], false⟩),
    (⟨2⟩, ⟨⟨2⟩, .provider .camera, .origin, [], [⟨3⟩], false⟩),
    (⟨4⟩, ⟨⟨4⟩, .convert (.scalar Base.camera) (.scalar Base.eye), .origin, [⟨5⟩], [⟨6⟩], false⟩),
    (⟨7⟩, ⟨⟨7⟩, .convert (.scalar Base.camera) (.scalar Base.target), .origin, [⟨8⟩], [⟨9⟩], false⟩),
    (⟨10⟩, ⟨⟨10⟩, .render false, .origin, [⟨11⟩, ⟨12⟩, ⟨13⟩, ⟨14⟩], [⟨15⟩], false⟩),
    (⟨16⟩, ⟨⟨16⟩, .screen, .origin, [⟨17⟩, ⟨18⟩], [], false⟩)]
  inputPins := .ofList [(⟨5⟩, ⟨⟨5⟩, ⟨4⟩, "From", .scalar Base.camera, false, some ⟨3⟩⟩),
    (⟨8⟩, ⟨⟨8⟩, ⟨7⟩, "From", .scalar Base.camera, false, some ⟨3⟩⟩),
    (⟨11⟩, ⟨⟨11⟩, ⟨10⟩, "Entities", .array Base.entity, false, some ⟨1⟩⟩),
    (⟨12⟩, ⟨⟨12⟩, ⟨10⟩, "Eye", .scalar Base.eye, false, some ⟨6⟩⟩),
    (⟨13⟩, ⟨⟨13⟩, ⟨10⟩, "Target", .scalar Base.target, false, some ⟨9⟩⟩),
    (⟨14⟩, ⟨⟨14⟩, ⟨10⟩, "Require", .scalar Base.require, true, none⟩),
    (⟨17⟩, ⟨⟨17⟩, ⟨16⟩, "Target", .scalar Base.target, false, some ⟨9⟩⟩),
    (⟨18⟩, ⟨⟨18⟩, ⟨16⟩, "Require", .scalar Base.require, true, some ⟨15⟩⟩)]
  outputPins := .ofList [(⟨1⟩, ⟨⟨1⟩, ⟨0⟩, "Entities", .array Base.entity, none⟩),
    (⟨3⟩, ⟨⟨3⟩, ⟨2⟩, "Camera", .scalar Base.camera, none⟩), (⟨6⟩, ⟨⟨6⟩, ⟨4⟩, "To", .scalar Base.eye, none⟩),
    (⟨9⟩, ⟨⟨9⟩, ⟨7⟩, "To", .scalar Base.target, none⟩),
    (⟨15⟩, ⟨⟨15⟩, ⟨10⟩, "Require", .scalar Base.require, none⟩)]
  links := .ofList [(⟨19⟩, ⟨⟨19⟩, ⟨11⟩, ⟨1⟩⟩), (⟨20⟩, ⟨⟨20⟩, ⟨5⟩, ⟨3⟩⟩), (⟨21⟩, ⟨⟨21⟩, ⟨8⟩, ⟨3⟩⟩),
    (⟨22⟩, ⟨⟨22⟩, ⟨12⟩, ⟨6⟩⟩), (⟨23⟩, ⟨⟨23⟩, ⟨13⟩, ⟨9⟩⟩), (⟨24⟩, ⟨⟨24⟩, ⟨17⟩, ⟨9⟩⟩), (⟨25⟩, ⟨⟨25⟩, ⟨18⟩, ⟨15⟩⟩)]

def renderedPipeline : Pipeline where
  operations := [⟨.provideCamera, "Camera provider", .scalar Base.camera, []⟩,
    ⟨.targetFromCamera, "Convert (Camera->Target)", .scalar Base.target, [.single 0]⟩,
    ⟨.provideEntities, "Entities", .array Base.entity, []⟩,
    ⟨.eyeFromCamera, "Convert (Camera->Eye)", .scalar Base.eye, [.single 0]⟩,
    ⟨.render, "Render to Convert (Camera->Target)", .scalar Base.require, [.single 2, .single 3, .single 1]⟩,
    ⟨.outputToScreen, "OutputToScreen", .untyped, [.single 1]⟩]

/-- The render pass is nowhere an operand of the output, and still comes before it. -/
theorem pipeline_ordered_rendered : renderedScreen.restore = .ok renderedScreen
    ∧ ((Builder.offering Conversions.pipeline.table false).evaluateGraph renderedScreen).2.result
      = .ok renderedPipeline
    ∧ ∃ terminal js, renderedScreen.terminal = some terminal
      ∧ renderedScreen.PassRecorded (Builder.offering Conversions.pipeline.table false) terminal js
      ∧ renderedScreen.Scheduled (Builder.offering Conversions.pipeline.table false) renderedPipeline js := by
  have loaded : renderedScreen.restore = .ok renderedScreen := by decide
  have compiled : ((Builder.offering Conversions.pipeline.table false).evaluateGraph renderedScreen).2.result
      = .ok renderedPipeline := by
    rw [Builder.evaluateGraph_result]
    exact evaluate_within (f := fun e : Evaluation Builder => e.result >>= fun _ => (e.backend.transfer .empty).result)
      (show renderedScreen.nodes.size < 7 by decide) rfl
  exact ⟨loaded, compiled, pipeline_ordered loaded Conversions.pipeline.table false compiled⟩

end Graph

end FrameGraph
