/-
  FrameGraph.Proofs.Compile.Interchange: one back end can stand in for the other.

  Evaluating a loaded graph against a fresh pipeline builder and against a fresh program
  builder comes to the same, whatever conversions the two offer in common: they are sent the
  same requests, hand out the same handles and answer alike ever after, and the graph gets the
  same marks and values.
-/

import FrameGraph.Proofs.Compile.Contracts
import FrameGraph.Proofs.Compile.Renaming

namespace FrameGraph.Graph

open Evaluator (operation? arrayMembers?)

variable {ε ε' : Type} [Evaluator ε] [Evaluator ε']

/-- An evaluation cannot tell two back ends apart. It succeeds or fails with a mistake, against
both alike. -/
structure Interchanges (g : Graph) (b : ε) (c : ε') : Prop where
  result : (g.evaluate b).result = (g.evaluate c).result
  answers : Faultless (g.evaluate b).result
  graph : (g.evaluate b).graph = (g.evaluate c).graph
  operations : ∀ h, operation? (g.evaluate b).backend h = operation? (g.evaluate c).backend h
  members : ∀ h, arrayMembers? (g.evaluate b).backend h = arrayMembers? (g.evaluate c).backend h
  requests : ∃ rs, (g.evaluate b).backend = (Request.sendAll b rs).1
    ∧ (g.evaluate c).backend = (Request.sendAll c rs).1 ∧ (Request.sendAll b rs).2 = (Request.sendAll c rs).2

variable {g : Graph}

omit [Evaluator ε] [Evaluator ε'] in
/-- Passes that are abreast under the same names leave the same marks and values. -/
theorem Abreast.withResults_eq {related : ε → ε' → Prop} {p : Progress ε} {p' : Progress ε'}
    (abreast : Abreast related g (fun id => id) (fun k => k) p p') : g.withResults p = g.withResults p' := by
  have compiled : p'.compiled = p.compiled := abreast.compiled.trans (List.map_id _)
  have values : p'.values = p.values := abreast.values.trans (List.map_id _)
  rw [withResults, withResults, compiled, values]

/-- Back ends that are alike when fresh can be interchanged. -/
theorem evaluate_interchanges {related : ε → ε' → Prop} (alike : Indistinct related) {b : ε} {c : ε'}
    (start : related b c) (sound : g.Sound) (sized : Every (fun o => o.shape.Sized) g) : g.Interchanges b c := by
  have alikeAfter := alike.afterSame start
  have first := afterSame_start b c
  obtain ⟨same, rs, sent, sent'⟩ := evaluate_abreast alikeAfter (Renames.refl g) sound sound first
  have after : AfterSame b c (g.evaluate b).backend (g.evaluate c).backend := ⟨rs, sent, sent'⟩
  refine ⟨?_, evaluate_answers sound sized b, ?_, alikeAfter.operation after, alikeAfter.members after, rs, sent,
    sent', (alike.sendAll start rs).1⟩
  · have renamed := same.mapError_eq
    cases result : (g.evaluate b).result with
    | ok done => rw [renamed, result]; rfl
    | error stop => rw [renamed, result]; exact congrArg Except.error (Stop.renamed_id stop).symm
  · cases chosen : g.terminal with
    | none => rw [evaluate_unchosen chosen, evaluate_unchosen chosen]
    | some terminal =>
      obtain ⟨graph, -⟩ := evaluate_chosen chosen b
      obtain ⟨graph', -⟩ := evaluate_chosen chosen c
      rw [graph, graph']
      exact (terminal_abreast alikeAfter (Renames.refl g) sound sound chosen first _ _).progress.withResults_eq

/-- The two back ends can be interchanged under any loaded graph, and no request changes what
either has answered. -/
theorem evaluation_interchanges {stored : Graph} (loaded : stored.restore = .ok g) (conversions : ConversionTable)
    (trace : Bool) (settings : Settings) :
    g.Interchanges (Pipeline.Builder.offering conversions trace) (Program.Builder.offering settings conversions)
      ∧ Steady (Pipeline.Builder.offering conversions trace)
      ∧ Steady (Program.Builder.offering settings conversions) := by
  obtain ⟨⟨sound, sized⟩, rfl⟩ := restore_eq_ok_iff.1 loaded
  exact ⟨evaluate_interchanges indistinct_aligned (aligned_offering conversions trace settings) sound sized,
    steady _, steady _⟩

theorem evaluation_interchanges_screen : targetOnScreen.restore = .ok targetOnScreen
    ∧ targetOnScreen.Interchanges (Pipeline.Builder.offering Conversions.pipeline.table true)
        (Program.Builder.offering .standard Conversions.pipeline.table)
    ∧ Steady (Pipeline.Builder.offering Conversions.pipeline.table true)
    ∧ Steady (Program.Builder.offering .standard Conversions.pipeline.table) := by
  have loaded : targetOnScreen.restore = .ok targetOnScreen := by decide
  exact ⟨loaded, evaluation_interchanges loaded Conversions.pipeline.table true .standard⟩

end FrameGraph.Graph
