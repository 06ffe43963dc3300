/-
  FrameGraph.Proofs.Compile.Deliveries: a pipeline is given out once.

  A fresh builder is called in any order: graphs are evaluated against it, its pipeline is
  extracted or transferred to a sink. Until the pipeline is taken the table only grows, and the
  sink is left alone (`Open`). The first taking, either way, gives each operation that was
  recorded, in order and behind what the sink holds; every later one is refused and leaves the sink
  as it is, whatever was evaluated in between (`Spent`). One call leads from each to the other
  (`Serves.call`). Compiling a graph into a sink appends what compiling it gives
  (`transferPipeline_compiles`).
-/

import Mathlib.Data.List.Induction
import FrameGraph.Proofs.Compile.Ordering
import FrameGraph.Proofs.Workbench

namespace FrameGraph

open Request (sendAll)

/-! ## Evaluations send requests -/

/-- Whatever graph is evaluated and however that ends, requests are all that reaches the back end. -/
theorem Graph.evaluate_requests {ε : Type} [Evaluator ε] (g : Graph) (b : ε) :
    ∃ rs, (g.evaluate b).backend = (sendAll b rs).1 := by
  refine evaluate_leads (fun b b' => ∃ rs, b' = (sendAll b rs).1) (fun b => ⟨[], rfl⟩) ?_ evaluate_sends g b
  intro b b' b'' first next
  obtain ⟨rs, rfl⟩ := first
  obtain ⟨more, rfl⟩ := next
  exact ⟨rs ++ more, by rw [Request.sendAll_append]⟩

namespace Pipeline.Builder

/-! ## Calls -/

inductive Way where
  | extract
  | transfer

inductive Call where
  | evaluate (g : Graph)
  | take (way : Way)

def Call.takes : Call → Bool
  | evaluate _ => false
  | take _ => true

/-- A builder, and the sink that its pipeline may be transferred to. -/
structure Desk where
  builder : Builder
  sink : Pipeline

namespace Desk

/-- What taking the pipeline answers: the pipeline that is given out, or the sink with it. -/
def take (d : Desk) : Way → Except Stop Pipeline × Desk
  | .extract => (d.builder.extract.result, { d with builder := d.builder.extract.builder })
  | .transfer =>
    let taking := d.builder.transfer d.sink
    (taking.result, ⟨taking.builder, taking.sink⟩)

def call (d : Desk) : Call → Desk
  | .evaluate g => { d with builder := (g.evaluate d.builder).backend }
  | .take way => (d.take way).2

/-- The pipeline that is given out consists of some operations, either way. -/
structure Delivers (d : Desk) (ops : List PipelineOperation) : Prop where
  transparent : d.builder.Transparent ops
  extracted : (d.take .extract).1 = .ok ⟨ops⟩ ∧ (d.take .extract).2.sink = d.sink
  transferred : (d.take .transfer).1 = .ok (d.sink.append ops) ∧ (d.take .transfer).2.sink = d.sink.append ops

/-- Nothing is given out, and nothing changes. -/
def Refuses (d : Desk) : Prop := ∀ way, d.take way = (.error (.error .alreadyCompiled), d)

variable {d start : Desk} {history : List Call}

theorem take_taken (taken : d.builder.taken = true) : d.Refuses := by
  have refused (sink : Pipeline) : d.builder.transfer sink
      = ⟨d.builder, sink, [.pipelineTakenTwice], .error (.error .alreadyCompiled)⟩ := if_pos taken
  intro way
  cases way with
  | extract =>
    simp only [take, extract_result, extract_builder, refused]
    rfl
  | transfer =>
    simp only [take, refused]
    rfl

theorem take_untaken (usable : d.builder.Usable) (untaken : d.builder.taken = false) : ∃ ops, d.Delivers ops := by
  obtain ⟨ops, transparent, taking⟩ := transfer_transparent usable.backward untaken
  exact ⟨ops, transparent, ⟨(extract_result _).trans (taking .empty), rfl⟩, taking d.sink,
    Taking.sink_eq (taking d.sink)⟩

theorem take_builder (d : Desk) (way : Way) : ∃ sink, (d.take way).2.builder = (d.builder.transfer sink).builder := by
  cases way with
  | extract => exact ⟨.empty, extract_builder _⟩
  | transfer => exact ⟨d.sink, rfl⟩

theorem transfer_takes (b : Builder) (sink : Pipeline) : (b.transfer sink).builder.taken = true := by
  rw [transfer_builder]
  split
  · assumption
  · rfl

/-! ## Histories -/

def after (start : Desk) (history : List Call) : Desk := history.foldl call start

theorem after_concat (start : Desk) (history : List Call) (c : Call) :
    start.after (history ++ [c]) = (start.after history).call c := by
  rw [after, List.foldl_append]
  rfl

theorem takes_concat (history : List Call) (c : Call) :
    (history ++ [c]).any Call.takes = (history.any Call.takes || c.takes) := by
  simp only [List.any_append, List.any_cons, List.any_nil, Bool.or_false]

/-- Before the first taking: what was asked for since the start is recorded, and is given out. -/
structure Open (start : Desk) (history : List Call) : Prop where
  sink : (start.after history).sink = start.sink
  recorded : ∃ rs, (start.after history).builder = (sendAll start.builder rs).1
    ∧ (start.after history).builder.operations = start.builder.operations ++ rs.filterMap Request.operation?
  delivers : ∃ ops, (start.after history).Delivers ops

/-- After it: nothing is given out, and the sink is as the first taking left it. -/
structure Spent (start : Desk) (history : List Call) : Prop where
  refuses : (start.after history).Refuses
  sink : ∃ before way later, history = before ++ .take way :: later ∧ before.any Call.takes = false
    ∧ (start.after history).sink = ((start.after before).take way).2.sink

def Serves (start : Desk) (history : List Call) : Prop :=
  if history.any Call.takes then Spent start history else Open start history

/-- A builder that can be used on, and that knows whether its pipeline was taken. -/
structure Follows (start : Desk) (history : List Call) : Prop where
  usable : (start.after history).builder.Usable
  taken : (start.after history).builder.taken = history.any Call.takes

theorem Follows.call (h : Follows start history) (c : Call) : Follows start (history ++ [c]) := by
  constructor <;> rw [after_concat]
  · cases c with
    | evaluate g => exact h.usable.evaluate g
    | take way =>
      obtain ⟨sink, builder⟩ := (start.after history).take_builder way
      rw [Desk.call, builder]
      exact (h.usable.transfer sink).1
  · rw [takes_concat, ← h.taken]
    cases c with
    | evaluate g =>
      obtain ⟨registry, offers⟩ := h.usable.offers
      rw [Call.takes, Bool.or_false]
      exact (g.evaluate_continues h.usable.backward offers).taken
    | take way =>
      obtain ⟨sink, builder⟩ := (start.after history).take_builder way
      rw [Desk.call, builder, transfer_takes, Call.takes, Bool.or_true]

theorem Open.evaluate (h : Open start history) (g : Graph) (follows : Follows start (history ++ [.evaluate g]))
    (untaken : (history ++ [Call.evaluate g]).any Call.takes = false) : Open start (history ++ [.evaluate g]) := by
  obtain ⟨rs, sent, -⟩ := h.recorded
  obtain ⟨more, later⟩ := g.evaluate_requests (start.after history).builder
  have grown : (start.after (history ++ [.evaluate g])).builder = (sendAll start.builder (rs ++ more)).1 := by
    rw [after_concat, Request.sendAll_append, ← sent]
    exact later
  refine ⟨?_, ⟨rs ++ more, grown, ?_⟩, take_untaken follows.usable (follows.taken.trans untaken)⟩
  · rw [after_concat]
    exact h.sink
  · rw [grown, operations_sendAll]

theorem spent_take (way : Way) (untaken : history.any Call.takes = false)
    (follows : Follows start (history ++ [.take way])) : Spent start (history ++ [.take way]) := by
  refine ⟨take_taken (follows.taken.trans ?_), history, way, [], rfl, untaken, ?_⟩
  · rw [takes_concat, Call.takes, Bool.or_true]
  · rw [after_concat]
    rfl

theorem Spent.call (h : Spent start history) (c : Call) (follows : Follows start (history ++ [c]))
    (taken : history.any Call.takes = true) : Spent start (history ++ [c]) := by
  obtain ⟨before, way, later, rfl, first, sink⟩ := h.sink
  refine ⟨take_taken (follows.taken.trans ?_), before, way, later ++ [c], by simp, first, ?_⟩
  · rw [takes_concat, taken, Bool.true_or]
  · -- Evaluating leaves the sink, and so does a taking that is refused.
    rw [after_concat, ← sink]
    cases c with
    | evaluate g => rfl
    | take way => rw [Desk.call, h.refuses way]

theorem Serves.call (h : Serves start history) (c : Call) (follows : Follows start (history ++ [c])) :
    Serves start (history ++ [c]) := by
  unfold Serves at h ⊢
  cases taken : history.any Call.takes with
  | true =>
    rw [if_pos taken] at h
    rw [if_pos (by rw [takes_concat, taken, Bool.true_or])]
    exact h.call c follows taken
  | false =>
    rw [if_neg (by rw [taken]; decide)] at h
    cases c with
    | evaluate g =>
      have untaken : (history ++ [Call.evaluate g]).any Call.takes = false := by rw [takes_concat, taken]; rfl
      rw [if_neg (by rw [untaken]; decide)]
      exact h.evaluate g follows untaken
    | take way =>
      rw [if_pos (by rw [takes_concat, Call.takes, Bool.or_true])]
      exact spent_take way taken follows

theorem follows_serves (usable : start.builder.Usable) (fresh : start.builder.taken = false) (history : List Call) :
    Follows start history ∧ Serves start history := by
  -- By induction on the last call: what it finds depends on whether one before it has taken the pipeline.
  induction history using List.reverseRecOn with
  | nil =>
    exact ⟨⟨usable, fresh⟩, rfl, ⟨[], rfl, (List.append_nil _).symm⟩, take_untaken usable fresh⟩
  | append_singleton history c ih =>
    obtain ⟨follows, serves⟩ := ih
    exact ⟨follows.call c, serves.call c (follows.call c)⟩

end Desk

end Pipeline.Builder

/-! ## Entry points -/

namespace Pipeline.Builder

/-- The sink has no part in what is given out. -/
theorem transfer_append (b : Builder) (sink : Pipeline) :
    (b.transfer sink).result = (b.transfer .empty).result.map fun p => sink.append p.operations := by
  rw [transfer_result, transfer_result]
  split
  · rfl
  · cases b.operations.mapM (resolveOperation b.entries) <;> rfl

end Pipeline.Builder

namespace Graph

theorem transferPipeline_compiles (s : Settings) (g : Graph) (sink : Pipeline) : (s.transferPipeline g sink).result
    = (s.compilePipeline g).result.map fun p => sink.append p.operations := by
  rw [compilePipeline_result, transferPipeline_result]
  cases (g.evaluate (Pipeline.Builder.standard s)).result with
  | error stop => rfl
  | ok => exact Pipeline.Builder.transfer_append _ sink

open Pipeline.Builder in
/-- A pipeline is given out once and in full, behind what the sink holds, also by the entry points. -/
theorem pipeline_delivered :
    (∀ (conversions : Conversions) (trace : Bool) (sink : Pipeline) (history : List Call),
      Desk.Serves ⟨.new conversions trace, sink⟩ history)
    ∧ ∀ (s : Settings) (g : Graph) (sink : Pipeline),
      (s.transferPipeline g sink).result = (s.compilePipeline g).result.map (fun p => sink.append p.operations)
        ∧ (s.transferPipeline (s.compilePipeline g).graph sink).result
          = (s.compilePipeline g).result.map (fun p => sink.append p.operations) := by
  refine ⟨fun conversions trace sink history => ?_, fun s g sink => ⟨transferPipeline_compiles s g sink, ?_⟩⟩
  · exact (Desk.follows_serves (usable_new conversions trace) rfl history).2
  · have graph : (s.compilePipeline g).graph = (g.evaluate (standard s)).graph := evaluateGraph_graph _ g
    rw [transferPipeline_compiles, graph, (traceless s g).pipelineAgain]

end Graph

end FrameGraph
