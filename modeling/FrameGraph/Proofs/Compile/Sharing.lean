/-
  FrameGraph.Proofs.Compile.Sharing: pipelines behind one another in one sink.

  The operands of a pipeline are positions of earlier operations. Taking a pipeline counts them
  from its own first operation, wherever the sink puts it (`Transparent`). To be positions in the
  whole list they have to be moved by what the sink holds (`Located`, `located_iff`). The two are
  the same only if the sink was empty or nothing that is added reads anything
  (`located_unmoved_iff`). Otherwise the operands stay within the list and name operations that are
  not the ones they stand for: a second screen is given the target of the first
  (`a_second_pipeline_reads_from_the_first`).
-/

import Mathlib.Data.List.Forall2
import FrameGraph.Proofs.Compile.Artifacts
import FrameGraph.Proofs.Compile.Cycles
import FrameGraph.Proofs.Compile.Extraction
import FrameGraph.Proofs.Compile.Meaning

namespace FrameGraph

/-! ## Moving a pipeline -/

/-- The same operand behind `base` more operations. -/
def Operand.moved (base : Nat) : Operand → Operand
  | single index => .single (base + index)
  | many indices => .many (indices.map (base + ·))

def PipelineOperation.moved (base : Nat) (op : PipelineOperation) : PipelineOperation :=
  { op with inputs := op.inputs.map (Operand.moved base) }

theorem map_eq_self_iff {α : Type} {f : α → α} {l : List α} : l.map f = l ↔ ∀ a ∈ l, f a = a := by
  conv_lhs => rhs; rw [← List.map_id l]
  exact List.map_inj_left

theorem Operand.moved_eq_iff {base : Nat} {operand : Operand} :
    operand.moved base = operand ↔ base = 0 ∨ operand.positions = [] := by
  -- Moving does nothing by no operations, or if there is nothing to move.
  cases operand with
  | single index =>
    rw [moved, positions, single.injEq]
    constructor
    · intro same
      exact .inl (by omega)
    · rintro (rfl | none)
      · exact Nat.zero_add index
      · cases none
  | many indices =>
    rw [moved, positions, many.injEq, map_eq_self_iff]
    constructor
    · intro same
      cases indices with
      | nil => exact .inr rfl
      | cons k ks => exact .inl (by have first := same k (.head _); omega)
    · rintro (rfl | rfl)
      · exact fun k _ => Nat.zero_add k
      · exact List.forall_mem_nil _

theorem PipelineOperation.moved_eq_iff {base : Nat} {op : PipelineOperation} :
    op.moved base = op ↔ base = 0 ∨ ∀ operand ∈ op.inputs, operand.positions = [] := by
  have inputs : op.moved base = op ↔ op.inputs.map (Operand.moved base) = op.inputs := by
    cases op
    simp only [moved, mk.injEq, true_and]
  simp only [inputs, map_eq_self_iff, Operand.moved_eq_iff, ← forall_or_left]

theorem map_moved_eq_iff {base : Nat} {ops : List PipelineOperation} : ops.map (.moved base) = ops
    ↔ base = 0 ∨ ∀ op ∈ ops, ∀ operand ∈ op.inputs, operand.positions = [] := by
  simp only [map_eq_self_iff, PipelineOperation.moved_eq_iff, ← forall_or_left]

namespace Pipeline.Builder

/-! ## Positions in a sink -/

/-- Behind `base` operations of others, the operand names the operations that the value stands for. -/
def Names (b : Builder) (base : Nat) (value : Handle) (operand : Operand) : Prop :=
  ∃ own, b.Resolves value own ∧ operand = own.moved base

/-- The operation as it has to stand in a list where the first of the pipeline has position `base`. -/
structure Places (b : Builder) (base : Nat) (recorded : Operation) (op : PipelineOperation) : Prop where
  kind : op.kind = recorded.kind
  name : op.name = recorded.name
  type : op.type = recorded.type
  inputs : List.Forall₂ (b.Names base) recorded.operands op.inputs

/-- What is recorded, with the positions that it has in a list where it begins at `base`. -/
def Located (b : Builder) (base : Nat) (ops : List PipelineOperation) : Prop :=
  List.Forall₂ (b.Places base) (b.recordings.map Prod.snd) ops

variable {b : Builder} {base : Nat} {ops : List PipelineOperation}

theorem Extracts.places {recorded : Operation} {op : PipelineOperation} (h : b.Extracts recorded op) :
    b.Places base recorded (op.moved base) := by
  refine ⟨h.kind, h.name, h.type, List.forall₂_map_right_iff.2 (h.inputs.imp ?_)⟩
  intro value own resolves
  exact ⟨own, resolves, rfl⟩

theorem Names.unique {value : Handle} {operand operand' : Operand} (h : b.Names base value operand)
    (h' : b.Names base value operand') : operand = operand' := by
  obtain ⟨own, resolves, rfl⟩ := h
  obtain ⟨own', resolves', rfl⟩ := h'
  rw [resolves.unique resolves']

theorem Places.unique {recorded : Operation} {op op' : PipelineOperation} (h : b.Places base recorded op)
    (h' : b.Places base recorded op') : op = op' := by
  obtain ⟨kind, name, type, inputs⟩ := op
  obtain ⟨kind', name', type', inputs'⟩ := op'
  obtain ⟨rfl, rfl, rfl, reads⟩ := h
  obtain ⟨rfl, rfl, rfl, reads'⟩ := h'
  have named : Relator.RightUnique (b.Names base) := fun _ _ _ => Names.unique
  have same : inputs = inputs' := named.forall₂ reads reads'
  rw [same]

/-- Only moving the pipeline as a whole makes its operands positions in the list. -/
theorem located_iff (transparent : b.Transparent ops) {ops' : List PipelineOperation} :
    b.Located base ops' ↔ ops' = ops.map (.moved base) := by
  have moved : b.Located base (ops.map (.moved base)) :=
    List.forall₂_map_right_iff.2 (transparent.each.imp fun _ _ => Extracts.places)
  have placed : Relator.RightUnique (b.Places base) := fun _ _ _ => Places.unique
  exact ⟨fun located => placed.forall₂ located moved, fun same => same ▸ moved⟩

theorem located_unmoved_iff (transparent : b.Transparent ops) :
    b.Located base ops ↔ base = 0 ∨ ∀ op ∈ ops, ∀ operand ∈ op.inputs, operand.positions = [] := by
  rw [located_iff transparent, eq_comm, map_moved_eq_iff]

end Pipeline.Builder

namespace Graph

open Pipeline.Builder (standard)

variable {s : Settings} {g : Graph} {p combined : Pipeline}

/-- Whatever the sink holds, what is added to it is the graph's own pipeline. -/
theorem transferPipeline_appends (made : (s.transferPipeline g p).result = .ok combined) :
    ∃ ops, combined = p.append ops ∧ (g.evaluate (standard s)).backend.Transparent ops := by
  have continues := g.evaluate_continues (Pipeline.Builder.backward_of_empty rfl)
    (Pipeline.Builder.offers_new .pipeline s.trace)
  obtain ⟨ops, transparent, taking⟩ := Pipeline.Builder.transfer_transparent continues.backward continues.taken
  rw [transferPipeline_result] at made
  obtain ⟨_, -, taken⟩ := bind_eq_ok_iff.1 made
  exact ⟨ops, Except.ok.inj (taken.symm.trans (taking p)), transparent⟩

/-- The operands of what is added count from the first operation that is added, and are positions in
the whole list if nothing stands before it or nothing is read. -/
theorem transferPipeline_located (made : (s.transferPipeline g p).result = .ok combined) :
    ∃ ops, combined = p.append ops
      ∧ (g.evaluate (standard s)).backend.Transparent ops
      ∧ (∀ ops', (g.evaluate (standard s)).backend.Located p.size ops' ↔ ops' = ops.map (.moved p.size))
      ∧ ((g.evaluate (standard s)).backend.Located p.size ops
        ↔ p.size = 0 ∨ ∀ op ∈ ops, ∀ operand ∈ op.inputs, operand.positions = []) := by
  obtain ⟨ops, appended, transparent⟩ := transferPipeline_appends made
  exact ⟨ops, appended, transparent, fun ops' => Pipeline.Builder.located_iff transparent,
    Pipeline.Builder.located_unmoved_iff transparent⟩

/-- What `targetOnScreen` compiles to. -/
def screenPipeline : Pipeline :=
  ⟨[⟨.provideTarget, "Target provider", .scalar Base.target, []⟩,
    ⟨.outputToScreen, "OutputToScreen", .untyped, [.single 0]⟩]⟩

theorem transferPipeline_screen (p : Pipeline) :
    (Settings.standard.transferPipeline targetOnScreen p).result = .ok (p.append screenPipeline.operations) := by
  rw [transferPipeline_result]
  exact evaluate_within (f := fun e : Evaluation Pipeline.Builder => e.result >>= fun _ => (e.backend.transfer p).result)
    (show targetOnScreen.nodes.size < 3 by decide) rfl

theorem transferPipeline_located_screen :
    (Settings.standard.transferPipeline targetOnScreen screenPipeline).result
      = .ok (screenPipeline.append screenPipeline.operations)
    ∧ ∃ ops, screenPipeline.append screenPipeline.operations = screenPipeline.append ops
      ∧ (targetOnScreen.evaluate (standard .standard)).backend.Transparent ops
      ∧ (∀ ops', (targetOnScreen.evaluate (standard .standard)).backend.Located screenPipeline.size ops'
        ↔ ops' = ops.map (.moved screenPipeline.size))
      ∧ ((targetOnScreen.evaluate (standard .standard)).backend.Located screenPipeline.size ops
        ↔ screenPipeline.size = 0 ∨ ∀ op ∈ ops, ∀ operand ∈ op.inputs, operand.positions = []) :=
  ⟨transferPipeline_screen _, transferPipeline_located (transferPipeline_screen _)⟩

theorem screenPipeline_located (base : Nat) :
    (targetOnScreen.evaluate (standard .standard)).backend.Located base screenPipeline.operations ↔ base = 0 := by
  obtain ⟨ops, appended, transparent⟩ := transferPipeline_appends (transferPipeline_screen .empty)
  obtain rfl : screenPipeline.operations = ops := congrArg Pipeline.operations appended
  rw [Pipeline.Builder.located_unmoved_iff transparent]
  simp [screenPipeline, Operand.positions]

/-- The screen that is added reads from the target that was there. -/
theorem a_second_pipeline_reads_from_the_first :
    (targetOnScreen.evaluate (standard .standard)).backend.Located 0 screenPipeline.operations
    ∧ (Settings.standard.transferPipeline targetOnScreen screenPipeline).result
      = .ok ⟨[⟨.provideTarget, "Target provider", .scalar Base.target, []⟩,
          ⟨.outputToScreen, "OutputToScreen", .untyped, [.single 0]⟩,
          ⟨.provideTarget, "Target provider", .scalar Base.target, []⟩,
          ⟨.outputToScreen, "OutputToScreen", .untyped, [.single 0]⟩]⟩
    ∧ ¬ (targetOnScreen.evaluate (standard .standard)).backend.Located 2 screenPipeline.operations :=
  ⟨(screenPipeline_located 0).2 rfl, transferPipeline_screen _,
    fun located => absurd ((screenPipeline_located 2).1 located) (by decide)⟩

end Graph

end FrameGraph
