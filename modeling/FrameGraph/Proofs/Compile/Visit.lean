/-
  FrameGraph.Proofs.Compile.Visit: one step of a pass at a time.

  What a visit does is said here case by case, so that nothing later opens the recursion. A
  first consequence: a pass does not see the marks and values that an earlier pass has left
  (`evaluate_resetEvaluation`), so an evaluated graph compiles as its reset does.
-/

import FrameGraph.Compiler

namespace FrameGraph.Graph

variable {ε : Type} [Evaluator ε] {g : Graph} {path : List NodeId} {id : NodeId} {p : Progress ε}

/-! ## Visiting a node -/

theorem visit_unregistered (h : g.nodes.get? id = none) :
    g.visit path id p = (.error (.fault (.unregisteredNode id)), p) := by
  rw [visit]
  split
  · rfl
  · rename_i hn
    rw [h] at hn
    cases hn

section Registered

variable {n : Node} (hn : g.nodes.get? id = some n)
include hn

/-- A visit to a registered node. Unless it was compiled before or is on the path, all depends on what
comes of visiting its inputs. -/
theorem visit_registered : g.visit path id p =
    if id ∈ p.compiled then (.ok (), p)
    else if id ∈ path then (.error (.error (.cyclicDependency id)), p)
    else match g.visitInputs (id :: path) id n.inputs p with
      | (.error stop, q) => (.error stop, q)
      | (.ok (), q) => g.compileNode id n q := by
  rw [visit]
  split
  · rename_i h
    rw [h] at hn
    cases hn
  · rename_i m hm
    rw [hn] at hm
    cases hm
    rfl

theorem visit_compiled (compiled : id ∈ p.compiled) : g.visit path id p = (.ok (), p) := by
  rw [visit_registered hn, if_pos compiled]

variable (fresh : id ∉ p.compiled)
include fresh

theorem visit_cycle (met : id ∈ path) : g.visit path id p = (.error (.error (.cyclicDependency id)), p) := by
  rw [visit_registered hn, if_neg fresh, if_pos met]

variable (new : id ∉ path) {q : Progress ε}
include new

theorem visit_stopped {stop : Stop} (inputs : g.visitInputs (id :: path) id n.inputs p = (.error stop, q)) :
    g.visit path id p = (.error stop, q) := by
  rw [visit_registered hn, if_neg fresh, if_neg new, inputs]

theorem visit_settled (inputs : g.visitInputs (id :: path) id n.inputs p = (.ok (), q)) :
    g.visit path id p = g.compileNode id n q := by
  rw [visit_registered hn, if_neg fresh, if_neg new, inputs]

end Registered

/-! ## Visiting what feeds a node -/

section Inputs

variable {pin : PinId} {pins : List PinId}

theorem visitInputs_nil : g.visitInputs path id [] p = (.ok (), p) := by
  rw [visitInputs]

theorem visitInputs_unfed {stop : Stop} (h : g.feeder? id pin = .error stop) :
    g.visitInputs path id (pin :: pins) p = (.error stop, p) := by
  rw [visitInputs, h]

theorem visitInputs_free (h : g.feeder? id pin = .ok none) :
    g.visitInputs path id (pin :: pins) p = g.visitInputs path id pins p := by
  rw [visitInputs, h]

variable {feeder : NodeId} (h : g.feeder? id pin = .ok (some feeder))
include h

theorem visitInputs_stopped {stop : Stop} {q : Progress ε} (fed : g.visit path feeder p = (.error stop, q)) :
    g.visitInputs path id (pin :: pins) p = (.error stop, q) := by
  rw [visitInputs, h]
  dsimp only
  rw [fed]

theorem visitInputs_fed {q : Progress ε} (fed : g.visit path feeder p = (.ok (), q)) :
    g.visitInputs path id (pin :: pins) p = g.visitInputs path id pins q := by
  rw [visitInputs, h]
  dsimp only
  rw [fed]

end Inputs

/-! ## The whole pass -/

theorem evaluate_unchosen (none : g.terminal = none) (b : ε) :
    g.evaluate b = ⟨g, b, [], .error (.error .noTerminalNode)⟩ := by
  unfold evaluate
  rw [none]

/-- With a terminal, an evaluation is a visit to it. -/
theorem evaluate_chosen {terminal : NodeId} (chosen : g.terminal = some terminal) (b : ε) :
    (g.evaluate b).graph = g.withResults (g.visit [] terminal ⟨b, [], [], [.evaluating g.id terminal]⟩).2
      ∧ (g.evaluate b).backend = (g.visit [] terminal ⟨b, [], [], [.evaluating g.id terminal]⟩).2.backend
      ∧ (g.evaluate b).result = (g.visit [] terminal ⟨b, [], [], [.evaluating g.id terminal]⟩).1 := by
  unfold evaluate
  rw [chosen]
  exact ⟨rfl, rfl, rfl⟩

/-! ## Marks do not matter -/

theorem node_resetEvaluation (id : NodeId) :
    g.resetEvaluation.nodes.get? id = (g.nodes.get? id).map fun n => { n with evaluated := false } :=
  Table.get?_map ..

theorem output_resetEvaluation (pin : PinId) :
    g.resetEvaluation.outputPins.get? pin = (g.outputPins.get? pin).map fun p => { p with value := none } :=
  Table.get?_map ..

theorem getOutput_resetEvaluation (pin : PinId) :
    g.resetEvaluation.getOutput pin = (g.getOutput pin).map fun p => { p with value := none } := by
  simp only [getOutput, output_resetEvaluation]
  cases g.outputPins.get? pin <;> rfl

theorem feeder?_resetEvaluation (node : NodeId) (pin : PinId) :
    g.resetEvaluation.feeder? node pin = g.feeder? node pin := by
  have input : g.resetEvaluation.getInput pin = g.getInput pin := rfl
  simp only [feeder?, input, getOutput_resetEvaluation]
  cases g.getInput pin with
  | error f => rfl
  | ok i =>
    dsimp only
    cases i.connection with
    | none => rfl
    | some o =>
      dsimp only
      cases g.getOutput o <;> rfl

theorem context_resetEvaluation (values : List (PinId × Handle)) (id : NodeId) (n : Node) :
    g.resetEvaluation.context values id { n with evaluated := false } = g.context values id n := by
  have slot : g.resetEvaluation.inputSlot values = g.inputSlot values := by
    funext pin
    have input : g.resetEvaluation.getInput pin = g.getInput pin := rfl
    simp only [inputSlot, input, getOutput_resetEvaluation]
    cases g.getInput pin with
    | error f => rfl
    | ok i =>
      simp only [bind, Except.bind]
      cases i.connection with
      | none => rfl
      | some o =>
        dsimp only
        cases g.getOutput o <;> rfl
  have type : (fun pin => do return (← g.resetEvaluation.getOutput pin).type : PinId → Except Fault PinType)
      = fun pin => do return (← g.getOutput pin).type := by
    funext pin
    rw [getOutput_resetEvaluation]
    cases g.getOutput pin <;> rfl
  simp only [context, slot, type]

theorem compileNode_resetEvaluation (id : NodeId) (n : Node) (p : Progress ε) :
    g.resetEvaluation.compileNode id { n with evaluated := false } p = g.compileNode id n p := by
  simp only [compileNode, context_resetEvaluation]

theorem visit_resetEvaluation (path : List NodeId) (id : NodeId) (p : Progress ε) :
    g.resetEvaluation.visit path id p = g.visit path id p := by
  refine visit.induct g (fun path id p => g.resetEvaluation.visit path id p = g.visit path id p)
    (fun path id pins p => g.resetEvaluation.visitInputs path id pins p = g.visitInputs path id pins p)
    ?_ ?_ ?_ ?_ ?_ ?_ ?_ ?_ ?_ ?_ path id p
  · intro path id p h
    have h' : g.resetEvaluation.nodes.get? id = none := by simp [node_resetEvaluation, h]
    rw [visit_unregistered h, visit_unregistered h']
  · intro path id p n hn compiled
    have hn' := by simpa [hn] using node_resetEvaluation (g := g) id
    rw [visit_compiled hn compiled, visit_compiled hn' compiled]
  · intro path id p n hn fresh met
    have hn' := by simpa [hn] using node_resetEvaluation (g := g) id
    rw [visit_cycle hn fresh met, visit_cycle hn' fresh met]
  · intro path id p n hn fresh new stop q stopped ih
    have hn' := by simpa [hn] using node_resetEvaluation (g := g) id
    rw [visit_stopped hn fresh new stopped, visit_stopped hn' fresh new (ih.trans stopped)]
  · intro path id p n hn fresh new q settled ih
    have hn' := by simpa [hn] using node_resetEvaluation (g := g) id
    rw [visit_settled hn fresh new settled, visit_settled hn' fresh new (ih.trans settled)]
    exact compileNode_resetEvaluation id n q
  · intro path id p
    rw [visitInputs_nil, visitInputs_nil]
  · intro path id p pin pins stop unfed
    have unfed' := (feeder?_resetEvaluation id pin).trans unfed
    rw [visitInputs_unfed unfed, visitInputs_unfed unfed']
  · intro path id p pin pins free ih
    have free' := (feeder?_resetEvaluation id pin).trans free
    rw [visitInputs_free free, visitInputs_free free', ih]
  · intro path id p pin pins feeder fed stop q stopped ih
    have fed' := (feeder?_resetEvaluation id pin).trans fed
    rw [visitInputs_stopped fed stopped, visitInputs_stopped fed' (ih.trans stopped)]
  · intro path id p pin pins feeder fed q settled ih rest
    have fed' := (feeder?_resetEvaluation id pin).trans fed
    rw [visitInputs_fed fed settled, visitInputs_fed fed' (ih.trans settled), rest]

/-- An earlier evaluation has no effect on what a graph compiles to. -/
theorem evaluate_resetEvaluation (g : Graph) (backend : ε) :
    (g.resetEvaluation.evaluate backend).result = (g.evaluate backend).result
      ∧ (g.resetEvaluation.evaluate backend).backend = (g.evaluate backend).backend := by
  have terminal : g.resetEvaluation.terminal = g.terminal := rfl
  have id : g.resetEvaluation.id = g.id := rfl
  simp only [evaluate, terminal, id]
  cases g.terminal with
  | none => exact ⟨rfl, rfl⟩
  | some t => simp only [visit_resetEvaluation, and_self]

end FrameGraph.Graph
