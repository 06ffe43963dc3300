/-
  FrameGraph.Proofs.Workbench: any use of the library, without a fault.

  A workbench holds graphs, new or loaded, and back ends of both kinds. Graphs are edited, and
  evaluated against any of the back ends, again and again, before and after an artifact was
  taken, and however the last evaluation ended. Mistakes are answered and work goes on; a fault
  would end it (`settle`). What carries the work is that graphs stay sound and tables refer
  backward (`Orderly`): every action keeps both and none faults (`perform_orderly`), so no
  sequence of actions reaches a fault (`run_orderly`).
-/

import FrameGraph.Proofs.Compile.Contracts
import FrameGraph.Proofs.Compile.Extraction
import FrameGraph.Proofs.Store.Runs

namespace FrameGraph

/-! ## Actions -/

/-- What is left after a call: a mistake leaves the state, a fault ends the work. -/
def settle {α σ : Type} (answer : Except Stop α) (after : σ) : Except Fault σ :=
  match answer with
  | .error (.fault f) => .error f
  | .error (.error _) | .ok _ => .ok after

/-- An edit, with the faults of an evaluation among edits. -/
def Edit.attempt : Edit → Graph → Except Fault Graph
  | evaluate backend, g => settle (g.evaluate backend).result (g.evaluate backend).graph
  | e, g => e.apply g

structure Bench where
  graphs : List Graph
  pipelines : List Pipeline.Builder
  programs : List Program.Builder

inductive Action : Type 1 where
  | newGraph (id : Uuid) (name : String)
  | loadGraph (text : String)
  | edit (graph : Nat) (e : Edit)
  | newPipeline (conversions : Conversions) (trace : Bool)
  | newProgram (settings : Settings) (conversions : Conversions)
  | evaluatePipeline (graph builder : Nat)
  | evaluateProgram (graph builder : Nat)
  | transferPipeline (builder : Nat) (sink : Pipeline)
  | extractPipeline (builder : Nat)
  | extractProgram (builder : Nat)

namespace Bench

def empty : Bench := ⟨[], [], []⟩

/-- Graphs and back ends are named by their places. An action on a place that holds none, and
loading a text that is refused, change nothing. -/
def perform (w : Bench) : Action → Except Fault Bench
  | .newGraph id name => .ok { w with graphs := w.graphs ++ [.new id name] }
  | .loadGraph text =>
    match Graph.parse text with
    | .error _ => .ok w
    | .ok g => .ok { w with graphs := w.graphs ++ [g] }
  | .edit i e =>
    match w.graphs[i]? with
    | none => .ok w
    | some g => do return { w with graphs := w.graphs.set i (← e.attempt g) }
  | .newPipeline conversions trace => .ok { w with pipelines := w.pipelines ++ [.new conversions trace] }
  | .newProgram settings conversions => .ok { w with programs := w.programs ++ [.new settings conversions] }
  | .evaluatePipeline i j =>
    match w.graphs[i]?, w.pipelines[j]? with
    | some g, some b =>
      let e := g.evaluate b
      settle e.result { w with graphs := w.graphs.set i e.graph, pipelines := w.pipelines.set j e.backend }
    | _, _ => .ok w
  | .evaluateProgram i j =>
    match w.graphs[i]?, w.programs[j]? with
    | some g, some b =>
      let e := g.evaluate b
      settle e.result { w with graphs := w.graphs.set i e.graph, programs := w.programs.set j e.backend }
    | _, _ => .ok w
  | .transferPipeline j sink =>
    match w.pipelines[j]? with
    | none => .ok w
    | some b =>
      let taking := b.transfer sink
      settle taking.result { w with pipelines := w.pipelines.set j taking.builder }
  | .extractPipeline j =>
    match w.pipelines[j]? with
    | none => .ok w
    | some b =>
      let taking := b.extract
      settle taking.result { w with pipelines := w.pipelines.set j taking.builder }
  | .extractProgram j =>
    match w.programs[j]? with
    | none => .ok w
    | some b => .ok { w with programs := w.programs.set j b.extract.builder }

def run (actions : List Action) (w : Bench) : Except Fault Bench := actions.foldlM perform w

end Bench

/-! ## Calls without faults -/

theorem settle_eq {α σ : Type} {answer : Except Stop α} (faultless : ∀ f, answer ≠ .error (.fault f)) (after : σ) :
    settle answer after = .ok after := by
  unfold settle
  split
  · exact absurd rfl (faultless _)
  · rfl
  · rfl

theorem attempt_eq {g : Graph} (sound : g.Sound) (sized : Graph.Every (fun o => o.shape.Sized) g) (e : Edit) :
    e.attempt g = e.apply g := by
  cases e with
  | evaluate backend => exact settle_eq (Graph.evaluate_answers sound sized backend) _
  | _ => rfl

namespace Pipeline.Builder

/-- A builder that can be evaluated against and taken from. -/
structure Usable (b : Builder) : Prop where
  backward : b.Backward
  offers : ∃ registry, Offers b registry

theorem usable_new (conversions : Conversions) (trace : Bool) : (new conversions trace).Usable :=
  ⟨backward_of_empty rfl, _, offers_new conversions trace⟩

theorem Usable.evaluate {b : Builder} (h : b.Usable) (g : Graph) : (g.evaluate b).backend.Usable := by
  obtain ⟨registry, offers⟩ := h.offers
  have continues := g.evaluate_continues h.backward offers
  exact ⟨continues.backward, registry, continues.offers offers⟩

/-- Taking a pipeline leaves an empty table, and a builder that refuses to give one as it was. -/
theorem Usable.transfer {b : Builder} (h : b.Usable) (sink : Pipeline) :
    (b.transfer sink).builder.Usable ∧ ∀ f, (b.transfer sink).result ≠ .error (.fault f) := by
  by_cases again : b.taken = true
  · rw [transfer_builder, transfer_result, if_pos again, if_pos again]
    exact ⟨h, fun f failed => by cases failed⟩
  · obtain ⟨ops, -, taking⟩ := transfer_transparent h.backward (Bool.eq_false_iff.2 again)
    refine ⟨?_, fun f failed => by rw [taking] at failed; cases failed⟩
    rw [transfer_builder, if_neg again]
    obtain ⟨registry, offers⟩ := h.offers
    exact ⟨backward_of_empty rfl, registry, offers⟩

theorem Usable.extract {b : Builder} (h : b.Usable) :
    b.extract.builder.Usable ∧ ∀ f, b.extract.result ≠ .error (.fault f) := by
  rw [extract_builder, extract_result]
  exact h.transfer .empty

end Pipeline.Builder

/-! ## The work goes on -/

namespace Bench

structure Orderly (w : Bench) : Prop where
  graphs : ∀ g ∈ w.graphs, g.Sound ∧ Graph.Every (fun o => o.shape.Sized) g
  pipelines : ∀ b ∈ w.pipelines, b.Usable

theorem forall_mem_set {α : Type} {P : α → Prop} {l : List α} (all : ∀ a ∈ l, P a) (i : Nat) {b : α} (new : P b) :
    ∀ a ∈ l.set i b, P a := by
  intro a member
  rcases List.mem_or_eq_of_mem_set member with old | rfl
  · exact all a old
  · exact new

theorem forall_mem_snoc {α : Type} {P : α → Prop} {l : List α} (all : ∀ a ∈ l, P a) {b : α} (new : P b) :
    ∀ a ∈ l ++ [b], P a :=
  List.forall_mem_append.2 ⟨all, List.forall_mem_singleton.2 new⟩

variable {w : Bench}

theorem evaluated {ε : Type} [Evaluator ε] {g : Graph} (sound : g.Sound)
    (sized : Graph.Every (fun o => o.shape.Sized) g) (b : ε) :
    (g.evaluate b).graph.Sound ∧ Graph.Every (fun o => o.shape.Sized) (g.evaluate b).graph := by
  obtain ⟨sound', every⟩ := sound.evaluate b
  exact ⟨sound', every _ sized⟩

theorem perform_orderly (h : w.Orderly) (a : Action) : ∃ w', w.perform a = .ok w' ∧ w'.Orderly := by
  have same : ∃ w', (.ok w : Except Fault Bench) = .ok w' ∧ w'.Orderly := ⟨w, rfl, h⟩
  cases a with
  | newGraph id name =>
    exact ⟨_, rfl, forall_mem_snoc h.graphs (Graph.Start.sound (.new id name)), h.pipelines⟩
  | loadGraph text =>
    rw [perform]
    split
    · exact same
    · rename_i g parsed
      exact ⟨_, rfl, forall_mem_snoc h.graphs (Graph.Start.sound (.loaded text parsed)), h.pipelines⟩
  | edit i e =>
    rw [perform]
    split
    · exact same
    · rename_i g place
      obtain ⟨sound, sized⟩ := h.graphs g (List.mem_of_getElem? place)
      obtain ⟨g', applied, sound', every⟩ := Graph.apply_sound sound sized (Graph.within_anything e)
      rw [attempt_eq sound sized, applied]
      exact ⟨_, rfl, forall_mem_set h.graphs i ⟨sound', every _ Outline.durable_sized sized⟩, h.pipelines⟩
  | newPipeline conversions trace =>
    exact ⟨_, rfl, h.graphs, forall_mem_snoc h.pipelines (Pipeline.Builder.usable_new conversions trace)⟩
  | newProgram settings conversions => exact ⟨_, rfl, h.graphs, h.pipelines⟩
  | evaluatePipeline i j =>
    rw [perform]
    split
    · rename_i g b place place'
      obtain ⟨sound, sized⟩ := h.graphs g (List.mem_of_getElem? place)
      have usable := h.pipelines b (List.mem_of_getElem? place')
      exact ⟨_, settle_eq (Graph.evaluate_answers sound sized b) _, forall_mem_set h.graphs i (evaluated sound sized b),
        forall_mem_set h.pipelines j (usable.evaluate g)⟩
    · exact same
  | evaluateProgram i j =>
    rw [perform]
    split
    · rename_i g b place place'
      obtain ⟨sound, sized⟩ := h.graphs g (List.mem_of_getElem? place)
      exact ⟨_, settle_eq (Graph.evaluate_answers sound sized b) _, forall_mem_set h.graphs i (evaluated sound sized b),
        h.pipelines⟩
    · exact same
  | transferPipeline j sink =>
    rw [perform]
    split
    · exact same
    · rename_i b place
      obtain ⟨usable, faultless⟩ := (h.pipelines b (List.mem_of_getElem? place)).transfer sink
      exact ⟨_, settle_eq faultless _, h.graphs, forall_mem_set h.pipelines j usable⟩
  | extractPipeline j =>
    rw [perform]
    split
    · exact same
    · rename_i b place
      obtain ⟨usable, faultless⟩ := (h.pipelines b (List.mem_of_getElem? place)).extract
      exact ⟨_, settle_eq faultless _, h.graphs, forall_mem_set h.pipelines j usable⟩
  | extractProgram j =>
    rw [perform]
    split
    · exact same
    · exact ⟨_, rfl, h.graphs, h.pipelines⟩

theorem run_orderly (actions : List Action) (h : w.Orderly) : ∃ w', run actions w = .ok w' ∧ w'.Orderly := by
  induction actions generalizing w with
  | nil => exact ⟨w, rfl, h⟩
  | cons a actions ih =>
    obtain ⟨next, performed, orderly⟩ := perform_orderly h a
    obtain ⟨w', rest, orderly'⟩ := ih orderly
    refine ⟨w', ?_, orderly'⟩
    rw [run, List.foldlM_cons, performed]
    exact rest

/-- Whatever is done with graphs and back ends, nothing faults. -/
theorem run_answers (actions : List Action) : ∃ w, run actions empty = .ok w := by
  have start : empty.Orderly := ⟨List.forall_mem_nil _, List.forall_mem_nil _⟩
  obtain ⟨w, ran, -⟩ := run_orderly actions start
  exact ⟨w, ran⟩

/-- A node without its pins, which the loader refuses, does fault when it is compiled. -/
example :
    let short : Node := ⟨⟨0⟩, .screen, .origin, [], [], false⟩
    let g : Graph := { Graph.new .zero Graph.untitled with terminal := some ⟨0⟩, nodes := .ofList [(⟨0⟩, short)] }
    run [.newPipeline .pipeline false, .evaluatePipeline 0 0] ⟨[g], [], []⟩ = .error (.missingSlot 0) := by cbv

end Bench

end FrameGraph
