/-
  FrameGraph.Proofs.Compile.Cycles: a pass finds a cycle if and only if there is one.

  The path of a visit leads from each of its nodes to the visited one, so meeting one of them
  again closes a cycle. Conversely a node is compiled when all that feeds it has been, so no
  compiled node lies on a cycle or above one (`Compiles.clear`), and a memory of what was
  compiled hides no cycle. What stops a pass is therefore a cycle or a mistake that the order of
  the pins puts before every cycle (`MetFirst`).

  A pass ends because its path holds no node twice: a recursion that is only allowed to go as
  deep as there are nodes does the same (`visitWithin_eq`), and can be computed
  (`evaluate_within`).
-/

import Mathlib.Logic.Relation
import FrameGraph.Proofs.Compile.Contracts
import FrameGraph.Proofs.Compile.Custody
import FrameGraph.Proofs.Compile.Journal

namespace FrameGraph.Graph

open Relation (TransGen ReflTransGen)

variable {ε : Type} {g : Graph}

/-! ## Cycles of links -/

/-- An input of the node is linked to an output of the feeder. -/
def FedBy (g : Graph) (id feeder : NodeId) : Prop :=
  ∃ n input output, g.nodes.get? id = some n ∧ input ∈ g.inputsOf n ∧ g.source? input = some output
    ∧ output.node = feeder

/-- One comes back to the node by going from inputs to what feeds them. -/
def OnCycle (g : Graph) (id : NodeId) : Prop := TransGen g.FedBy id id

/-- There is no cycle above the node. -/
def Clear (g : Graph) (id : NodeId) : Prop := ∀ m, g.Upstream id m → ¬ g.OnCycle m

theorem upstream_iff {id m : NodeId} : g.Upstream id m ↔ ReflTransGen g.FedBy id m := by
  constructor
  · intro up
    induction up with
    | terminal => exact .refl
    | feeder up hn member source ih => exact ih.tail ⟨_, _, _, hn, member, source, rfl⟩
  · intro reaches
    induction reaches with
    | refl => exact .terminal
    | tail _ edge ih =>
      obtain ⟨n, input, output, hn, member, source, rfl⟩ := edge
      exact .feeder ih hn member source

/-- What is fed by clear nodes is clear, unless it feeds itself. -/
theorem clear_of_feeders {id : NodeId} (feeders : ∀ feeder, g.FedBy id feeder → g.Clear feeder)
    (open_end : ¬ g.OnCycle id) : g.Clear id := by
  intro m up
  rcases ReflTransGen.cases_head (upstream_iff.1 up) with rfl | ⟨feeder, edge, reaches⟩
  · exact open_end
  · exact feeders feeder edge m (upstream_iff.2 reaches)

/-! ## What is compiled is clear -/

section Compiled

variable [Evaluator ε] {p q : Progress ε}

/-- A node is compiled after everything above it, so it does not lie above itself. -/
theorem Compiles.clear {id : NodeId} {n : Node} (step : g.Compiles p id n q) (closed : g.Closed p)
    (clear : ∀ m ∈ p.compiled, g.Clear m) : ∀ m ∈ q.compiled, g.Clear m := by
  intro m done
  rw [step.compiled_eq] at done
  rcases List.mem_cons.1 done with rfl | done
  · have compiled : ∀ feeder, g.FedBy m feeder → ∀ k, g.Upstream feeder k → k ∈ p.compiled := by
      intro feeder edge k up
      obtain ⟨n', input, output, hn', member, source, rfl⟩ := edge
      cases step.registered.symm.trans hn'
      exact step.feeders closed member source up
    refine clear_of_feeders (fun feeder edge => clear feeder (compiled feeder edge feeder .terminal)) fun cycle => ?_
    obtain ⟨feeder, edge, back⟩ := TransGen.head'_iff.1 cycle
    exact step.fresh (compiled feeder edge m (upstream_iff.2 back))
  · exact clear m done

theorem Journal.clear {js : List (Compilation ε)} (h : g.Journal p js q) (closed : g.Closed p)
    (clear : ∀ m ∈ p.compiled, g.Clear m) : ∀ m ∈ q.compiled, g.Clear m := by
  induction h with
  | nil p => exact clear
  | cons step rest ih => exact ih (step.closed closed) (step.clear closed clear)

end Compiled

/-! ## What stops a pass -/

/-- Nothing above the pin lies on a cycle. -/
def ClearBehind (g : Graph) (pin : PinId) : Prop :=
  ∀ input output, g.inputPins.get? pin = some input → g.source? input = some output → g.Clear output.node

/-- A mistake that a search through the pins in order meets before it can get to a cycle. -/
inductive MetFirst (g : Graph) : NodeId → CompileError → Prop
  | missing {id : NodeId} {n : Node} {before after : List PinId} {pin : PinId} {input : InputPin} :
    g.nodes.get? id = some n → n.inputs = before ++ pin :: after → (∀ k ∈ before, g.ClearBehind k) →
    g.inputPins.get? pin = some input → g.source? input = none → input.optional = false →
    MetFirst g id (.missingRequiredInput id input.name)
  | rule {id : NodeId} {n : Node} {e : CompileError} : g.nodes.get? id = some n →
    (∀ k ∈ n.inputs, g.ClearBehind k) → e.Blames id → MetFirst g id e
  | above {id : NodeId} {n : Node} {before after : List PinId} {pin : PinId} {input : InputPin}
    {output : OutputPin} {e : CompileError} : g.nodes.get? id = some n → n.inputs = before ++ pin :: after →
    (∀ k ∈ before, g.ClearBehind k) → g.inputPins.get? pin = some input → g.source? input = some output →
    MetFirst g output.node e → MetFirst g id e

/-- A mistake that tells of a cycle, or is met before any. -/
def Caught (g : Graph) (id : NodeId) (e : CompileError) : Prop :=
  (∃ n, e = .cyclicDependency n ∧ g.Upstream id n ∧ g.OnCycle n) ∨ g.MetFirst id e

theorem MetFirst.ne_cyclic {id n : NodeId} (h : g.MetFirst id (.cyclicDependency n)) : False := by
  generalize eq : CompileError.cyclicDependency n = e at h
  induction h with
  | missing => cases eq
  | rule _ _ blames => exact blames.2 n eq.symm
  | above _ _ _ _ _ _ ih => exact ih eq

section Visits

variable [Evaluator ε]

/-- A visit with everything compiled below its path, and nothing of it on a cycle. -/
structure Searching (g : Graph) (path : List NodeId) (p : Progress ε) : Prop where
  avoids : Avoids path p.compiled
  closed : g.Closed p
  clear : ∀ m ∈ p.compiled, g.Clear m

/-- A visit that succeeds has looked at everything above the node. -/
theorem Searching.visited (sound : g.Sound) {path : List NodeId} {id : NodeId} {p q : Progress ε}
    (h : g.Searching path p) (done : g.visit path id p = (.ok (), q)) : g.Searching path q ∧ g.Clear id := by
  obtain ⟨js, journal, -, avoids, compiled⟩ := visit_journal sound path id p h.avoids done
  have clear := journal.clear h.closed h.clear
  exact ⟨⟨avoids, journal.closed h.closed, clear⟩, clear id compiled⟩

/-- A discipline that asks for nothing. -/
def lenient : Custody ε := ⟨fun _ => True, fun _ _ => True, fun _ _ => True, fun _ => True, fun _ => True⟩

omit [Evaluator ε] in
theorem orderly_lenient (p : Progress ε) : Orderly lenient p := ⟨trivial, fun _ _ => trivial⟩

theorem lenient_lawful : (lenient : Custody ε).Lawful where
  refl _ := trivial
  trans _ _ := trivial
  good _ _ := trivial
  stays _ _ := trivial
  members _ _ _ _ _ := trivial
  record _ _ _ := ⟨trivial, fun _ => trivial⟩
  group _ _ _ := ⟨trivial, trivial⟩
  conversion _ _ _ _ _ := ⟨trivial, trivial, fun _ _ => trivial⟩
  yields _ _ := trivial

/-- The mistake of a feeder counts for the node, if nothing before it leads to a cycle. -/
theorem Caught.above {id : NodeId} {n : Node} {before after : List PinId} {pin : PinId} {input : InputPin}
    {output : OutputPin} {e : CompileError} (hn : g.nodes.get? id = some n)
    (place : n.inputs = before ++ pin :: after) (clear : ∀ k ∈ before, g.ClearBehind k)
    (hi : g.inputPins.get? pin = some input) (source : g.source? input = some output)
    (h : g.Caught output.node e) : g.Caught id e := by
  rcases h with ⟨n', rfl, up, cycle⟩ | first
  · have listed : pin ∈ n.inputs := place ▸ List.mem_append_right _ List.mem_cons_self
    have feeds : g.Upstream id output.node :=
      .feeder .terminal hn (List.mem_filterMap.2 ⟨pin, listed, hi⟩) source
    exact .inl ⟨n', rfl, feeds.trans up, cycle⟩
  · exact .inr (.above hn place clear hi source first)

/-- A visit that stops with a mistake has met a cycle, or the mistake before any cycle. -/
theorem visit_caught (sound : g.Sound) (path : List NodeId) (id : NodeId) (p : Progress ε)
    (searching : g.Searching path p) (above : ∀ m ∈ path, TransGen g.FedBy m id) {e : CompileError}
    (stopped : (g.visit path id p).1 = .error (.error e)) : g.Caught id e := by
  refine visit.induct g
    (fun path id p => g.Searching path p → (∀ m ∈ path, TransGen g.FedBy m id) →
      ∀ e, (g.visit path id p).1 = .error (.error e) → g.Caught id e)
    (fun path id pins p => g.Searching path p → (∀ m ∈ path, ReflTransGen g.FedBy m id) →
      ∀ n before, g.nodes.get? id = some n → n.inputs = before ++ pins → (∀ k ∈ before, g.ClearBehind k) →
      (∀ e, (g.visitInputs path id pins p).1 = .error (.error e) → g.Caught id e)
        ∧ ((g.visitInputs path id pins p).1 = .ok () → ∀ k ∈ n.inputs, g.ClearBehind k))
    ?unregistered ?compiled ?cycle ?stopped ?settled ?noPins ?unfed ?free ?feederStopped ?feederSettled
    path id p searching above e stopped
  case unregistered =>
    intro path id p unregistered _ _ e stopped
    rw [visit_unregistered unregistered] at stopped
    cases stopped
  case compiled =>
    intro path id p n hn compiled _ _ e stopped
    rw [visit_compiled hn compiled] at stopped
    cases stopped
  case cycle =>
    intro path id p n hn fresh met _ above e stopped
    rw [visit_cycle hn fresh met] at stopped
    cases stopped
    exact .inl ⟨id, rfl, .terminal, above id met⟩
  case stopped =>
    intro path id p n hn fresh new stop q failed ih searching above e stopped
    rw [visit_stopped hn fresh new failed] at stopped
    have down : ∀ m ∈ id :: path, ReflTransGen g.FedBy m id :=
      List.forall_mem_cons.2 ⟨.refl, fun m member => (above m member).to_reflTransGen⟩
    obtain ⟨caught, -⟩ := ih ⟨searching.avoids.cons fresh, searching.closed, searching.clear⟩ down n [] hn rfl
      (List.forall_mem_nil _)
    exact caught e (by rw [failed]; exact stopped)
  case settled =>
    intro path id p n hn fresh new q settled ih searching above e stopped
    rw [visit_settled hn fresh new settled] at stopped
    have down : ∀ m ∈ id :: path, ReflTransGen g.FedBy m id :=
      List.forall_mem_cons.2 ⟨.refl, fun m member => (above m member).to_reflTransGen⟩
    obtain ⟨-, clear⟩ := ih ⟨searching.avoids.cons fresh, searching.closed, searching.clear⟩ down n [] hn rfl
      (List.forall_mem_nil _)
    have blames : ∀ e, (g.compileNode id n q).1 = .error (.error e) → e.Blames id :=
      (compileNode_kept lenient_lawful (orderly_lenient q) fun _ _ => trivial).2.2
    exact .inr (.rule hn (clear (by rw [settled])) (blames e stopped))
  case noPins =>
    intro path id p _ _ n before hn place clear
    rw [visitInputs_nil]
    refine ⟨fun e stopped => (by cases stopped), fun _ => ?_⟩
    rwa [place, List.append_nil]
  case unfed =>
    intro path id p pin pins stop unfed _ _ n before hn place clear
    rw [visitInputs_unfed unfed]
    refine ⟨fun e stopped => ?_, fun ok => by cases ok⟩
    obtain ⟨input, hi, -⟩ := sound.inputListed id n hn pin (place ▸ List.mem_append_right _ List.mem_cons_self)
    obtain ⟨source, required, rfl⟩ := sound.unfed hi unfed
    cases stopped
    exact .inr (.missing hn place clear hi source required)
  case free =>
    intro path id p pin pins free ih searching down n before hn place clear
    obtain ⟨input, hi, -⟩ := sound.inputListed id n hn pin (place ▸ List.mem_append_right _ List.mem_cons_self)
    obtain ⟨source, -⟩ := sound.free hi free
    rw [visitInputs_free free]
    refine ih searching down n (before ++ [pin]) hn (by rw [place, List.append_assoc]; rfl) fun k member => ?_
    rcases List.mem_append.1 member with earlier | here
    · exact clear k earlier
    · intro input' output hi' source'
      rw [List.mem_singleton.1 here, hi] at hi'
      cases hi'
      rw [source] at source'
      cases source'
  case feederStopped =>
    intro path id p pin pins feeder fed stop q failed ih searching down n before hn place clear
    rw [visitInputs_stopped fed failed]
    refine ⟨fun e stopped => ?_, fun ok => by cases ok⟩
    have listed : pin ∈ n.inputs := place ▸ List.mem_append_right _ List.mem_cons_self
    obtain ⟨input, hi, -⟩ := sound.inputListed id n hn pin listed
    obtain ⟨output, -, source, rfl, -⟩ := sound.fed hi fed
    have edge : g.FedBy id output.node := ⟨n, input, output, hn, List.mem_filterMap.2 ⟨pin, listed, hi⟩, source, rfl⟩
    exact (ih searching (fun m member => .tail' (down m member) edge) e (by rw [failed]; exact stopped)).above
      hn place clear hi source
  case feederSettled =>
    intro path id p pin pins feeder fed q settled _ rest searching down n before hn place clear
    rw [visitInputs_fed fed settled]
    obtain ⟨searching', behind⟩ := searching.visited sound settled
    have listed : pin ∈ n.inputs := place ▸ List.mem_append_right _ List.mem_cons_self
    obtain ⟨input, hi, -⟩ := sound.inputListed id n hn pin listed
    obtain ⟨output, -, source, rfl, -⟩ := sound.fed hi fed
    refine rest searching' down n (before ++ [pin]) hn (by rw [place, List.append_assoc]; rfl) fun k member => ?_
    rcases List.mem_append.1 member with earlier | here
    · exact clear k earlier
    · intro input' output' hi' source'
      rw [List.mem_singleton.1 here, hi] at hi'
      cases hi'
      cases source.symm.trans source'
      exact behind

end Visits

/-! ## How deep a pass goes -/

section Depth

variable [Evaluator ε]

/-- Going through pins with a way to visit their feeders that may give up. -/
def inputsWithin (g : Graph) (visit : NodeId → Progress ε → Option (Except Stop Unit × Progress ε))
    (node : NodeId) : List PinId → Progress ε → Option (Except Stop Unit × Progress ε)
  | [], p => some (.ok (), p)
  | pin :: pins, p =>
    match g.feeder? node pin with
    | .error stop => some (.error stop, p)
    | .ok none => inputsWithin g visit node pins p
    | .ok (some feeder) =>
      match visit feeder p with
      | none => none
      | some (.error stop, p) => some (.error stop, p)
      | some (.ok (), p) => inputsWithin g visit node pins p

/-- A visit that gives up when it would have to go deeper than a limit. -/
def visitWithin (g : Graph) : Nat → List NodeId → NodeId → Progress ε → Option (Except Stop Unit × Progress ε)
  | 0, _, _, _ => none
  | depth + 1, path, id, p =>
    match g.nodes.get? id with
    | none => some (.error (.fault (.unregisteredNode id)), p)
    | some n =>
      if id ∈ p.compiled then some (.ok (), p)
      else if id ∈ path then some (.error (.error (.cyclicDependency id)), p)
      else
        match g.inputsWithin (g.visitWithin depth (id :: path)) id n.inputs p with
        | none => none
        | some (.error stop, p) => some (.error stop, p)
        | some (.ok (), p) => some (g.compileNode id n p)

def evaluateWithin (g : Graph) (depth : Nat) (backend : ε) : Option (Evaluation ε) :=
  match g.terminal with
  | none => some ⟨g, backend, [], .error (.error .noTerminalNode)⟩
  | some terminal =>
    (g.visitWithin depth [] terminal ⟨backend, [], [], [.evaluating g.id terminal]⟩).map fun (answer, p) =>
      let finished := match answer with
        | .ok () => [.evaluated p.compiled.length]
        | .error _ => []
      ⟨g.withResults p, p.backend, p.events ++ finished, answer⟩

theorem inputsWithin_eq {path : List NodeId} {visit : NodeId → Progress ε → Option (Except Stop Unit × Progress ε)}
    (same : ∀ feeder p, visit feeder p = some (g.visit path feeder p)) (id : NodeId) (pins : List PinId)
    (p : Progress ε) : g.inputsWithin visit id pins p = some (g.visitInputs path id pins p) := by
  induction pins generalizing p with
  | nil => rw [inputsWithin, visitInputs_nil]
  | cons pin pins ih =>
    rw [inputsWithin]
    cases fed : g.feeder? id pin with
    | error stop => rw [visitInputs_unfed fed]
    | ok feeder? =>
      cases feeder? with
      | none => rw [visitInputs_free fed, ← ih p]
      | some feeder =>
        dsimp only
        rw [same]
        cases visited : g.visit path feeder p with
        | mk answer q =>
          cases answer with
          | error stop => rw [visitInputs_stopped fed visited]
          | ok => rw [visitInputs_fed fed visited, ← ih q]

/-- The nodes off the path are as many as a visit can go deeper. -/
theorem visitWithin_eq {depth : Nat} {path : List NodeId} (enough : g.offPath path < depth) (id : NodeId)
    (p : Progress ε) : g.visitWithin depth path id p = some (g.visit path id p) := by
  induction depth generalizing path id p with
  | zero => omega
  | succ depth ih =>
    rw [visitWithin]
    cases hn : g.nodes.get? id with
    | none => rw [visit_unregistered hn]
    | some n =>
      dsimp only
      split
      · rename_i compiled
        rw [visit_compiled hn compiled]
      · rename_i fresh
        split
        · rename_i met
          rw [visit_cycle hn fresh met]
        · rename_i new
          have shorter := offPath_lt hn new
          rw [inputsWithin_eq fun feeder q => ih (by omega) feeder q]
          cases visited : g.visitInputs (id :: path) id n.inputs p with
          | mk answer q =>
            cases answer with
            | error stop => rw [visit_stopped hn fresh new visited]
            | ok => rw [visit_settled hn fresh new visited]

omit [Evaluator ε] in
theorem offPath_nil (g : Graph) : g.offPath [] = g.nodes.size := by
  simp [offPath, Table.size, Table.keys]

theorem evaluateWithin_eq {depth : Nat} (enough : g.nodes.size < depth) (b : ε) :
    g.evaluateWithin depth b = some (g.evaluate b) := by
  unfold evaluateWithin evaluate
  cases g.terminal with
  | none => rfl
  | some terminal =>
    dsimp only
    rw [visitWithin_eq (by rwa [offPath_nil])]
    rfl

/-- So what a pass leaves can be computed. -/
theorem evaluate_within {α : Type} {f : Evaluation ε → α} {a : α} {depth : Nat} {b : ε}
    (enough : g.nodes.size < depth) (within : (g.evaluateWithin depth b).map f = some a) : f (g.evaluate b) = a := by
  rw [evaluateWithin_eq enough] at within
  exact Option.some.inj within

theorem map_evaluate_within {α σ : Type} {made : Except σ Graph} {f : Evaluation ε → α} {a : α} {b : ε} (depth : Nat)
    (within : made.map (fun g => (decide (g.nodes.size < depth), (g.evaluateWithin depth b).map f))
      = .ok (true, some a)) : made.map (fun g => f (g.evaluate b)) = .ok a := by
  cases made with
  | error e => cases within
  | ok g =>
    obtain ⟨enough, left⟩ := Prod.mk.inj (Except.ok.inj within)
    exact congrArg Except.ok (evaluate_within (of_decide_eq_true enough) left)

end Depth

/-! ## Whole passes -/

/-- The answer of a pass from a terminal, next to the cycles of the graph. -/
structure Detects (g : Graph) (terminal : NodeId) (result : Except Stop Unit) : Prop where
  answers : result = .ok () ∨ ∃ e, result = .error (.error e)
  sound : ∀ n, result = .error (.error (.cyclicDependency n)) → g.Upstream terminal n ∧ g.OnCycle n
  complete : result = .ok () → ∀ n, g.Upstream terminal n → ¬ g.OnCycle n
  refuses : ∀ n, g.Upstream terminal n → g.OnCycle n →
    ∃ e, result = .error (.error e) ∧ ((∃ m, e = .cyclicDependency m) ∨ g.MetFirst terminal e)
  shares : ∀ n, ¬ g.OnCycle n → result ≠ .error (.error (.cyclicDependency n))

/-- A pass through a loaded graph ends no deeper than there are nodes, and finds a cycle exactly
when there is one above the terminal. -/
theorem evaluation_detects [Evaluator ε] {stored g : Graph} (loaded : stored.restore = .ok g) {terminal : NodeId}
    (chosen : g.terminal = some terminal) (b : ε) :
    (∀ depth, g.nodes.size < depth → g.evaluateWithin depth b = some (g.evaluate b))
      ∧ g.Detects terminal (g.evaluate b).result := by
  obtain ⟨⟨sound, sized⟩, rfl⟩ := restore_eq_ok_iff.1 loaded
  refine ⟨fun depth enough => evaluateWithin_eq enough b, ?_⟩
  have faultless := evaluate_answers sound sized b
  obtain ⟨-, -, result⟩ := evaluate_chosen chosen b
  have start : Searching stored.rewired [] (⟨b, [], [], [.evaluating stored.rewired.id terminal]⟩ : Progress ε) :=
    ⟨fun _ none => (by cases none), fun _ none => (by cases none), fun _ none => by cases none⟩
  have caught : ∀ e, (stored.rewired.evaluate b).result = .error (.error e) → stored.rewired.Caught terminal e := by
    intro e stopped
    rw [result] at stopped
    exact visit_caught sound [] terminal _ start (fun _ none => by cases none) stopped
  have clear : (stored.rewired.evaluate b).result = .ok () → stored.rewired.Clear terminal := by
    intro done
    rw [result] at done
    exact (start.visited sound (Prod.ext done rfl)).2
  have answers : (stored.rewired.evaluate b).result = .ok ()
      ∨ ∃ e, (stored.rewired.evaluate b).result = .error (.error e) := by
    cases answer : (stored.rewired.evaluate b).result with
    | ok => exact .inl rfl
    | error stop =>
      cases stop with
      | error e => exact .inr ⟨e, rfl⟩
      | fault f => exact absurd answer (faultless f)
  have found : ∀ n, (stored.rewired.evaluate b).result = .error (.error (.cyclicDependency n)) →
      stored.rewired.Upstream terminal n ∧ stored.rewired.OnCycle n := by
    intro n stopped
    rcases caught _ stopped with ⟨m, same, up, cycle⟩ | first
    · cases same
      exact ⟨up, cycle⟩
    · exact first.ne_cyclic.elim
  refine ⟨answers, found, clear, fun n up cycle => ?_, fun n open_end stopped => open_end (found n stopped).2⟩
  rcases answers with done | ⟨e, stopped⟩
  · exact absurd cycle (clear done n up)
  · refine ⟨e, stopped, ?_⟩
    rcases caught e stopped with ⟨m, same, -, -⟩ | first
    · exact .inl ⟨m, same⟩
    · exact .inr first

/-- An attribute that is added to itself, and the sum to the sum of both. -/
def loopedSum : Graph where
  id := .zero
  name := untitled
  nextId := 17
  terminal := some ⟨10⟩
  nodes := .ofList [(⟨0⟩, ⟨⟨0⟩, .vertexAttribute "color" (.scalar Base.vec4), .origin, [], [⟨1⟩], false⟩),
    (⟨2⟩, ⟨⟨2⟩, .add (.scalar Base.vec4), .origin, [⟨3⟩, ⟨4⟩], [⟨5⟩], false⟩),
    (⟨6⟩, ⟨⟨6⟩, .add (.scalar Base.vec4), .origin, [⟨7⟩, ⟨8⟩], [⟨9⟩], false⟩),
    (⟨10⟩, ⟨⟨10⟩, .materialOutput, .origin, [⟨11⟩], [], false⟩)]
  inputPins := .ofList [(⟨3⟩, ⟨⟨3⟩, ⟨2⟩, "A", .scalar Base.vec4, false, some ⟨1⟩⟩),
    (⟨4⟩, ⟨⟨4⟩, ⟨2⟩, "B", .scalar Base.vec4, false, some ⟨1⟩⟩),
    (⟨7⟩, ⟨⟨7⟩, ⟨6⟩, "A", .scalar Base.vec4, false, some ⟨5⟩⟩),
    (⟨8⟩, ⟨⟨8⟩, ⟨6⟩, "B", .scalar Base.vec4, false, some ⟨9⟩⟩),
    (⟨11⟩, ⟨⟨11⟩, ⟨10⟩, "Color", .scalar Base.vec4, false, some ⟨9⟩⟩)]
  outputPins := .ofList [(⟨1⟩, ⟨⟨1⟩, ⟨0⟩, "Value", .scalar Base.vec4, none⟩),
    (⟨5⟩, ⟨⟨5⟩, ⟨2⟩, "Result", .scalar Base.vec4, none⟩), (⟨9⟩, ⟨⟨9⟩, ⟨6⟩, "Result", .scalar Base.vec4, none⟩)]
  links := .ofList [(⟨12⟩, ⟨⟨12⟩, ⟨3⟩, ⟨1⟩⟩), (⟨13⟩, ⟨⟨13⟩, ⟨4⟩, ⟨1⟩⟩), (⟨14⟩, ⟨⟨14⟩, ⟨7⟩, ⟨5⟩⟩),
    (⟨15⟩, ⟨⟨15⟩, ⟨8⟩, ⟨9⟩⟩), (⟨16⟩, ⟨⟨16⟩, ⟨11⟩, ⟨9⟩⟩)]

/-- The attribute is reached twice and passed; the second sum is found to feed itself. -/
theorem evaluation_detects_loop : loopedSum.restore = .ok loopedSum ∧ loopedSum.terminal = some ⟨10⟩
    ∧ (loopedSum.evaluateWithin 5 (Program.Builder.new .standard .material)).map Evaluation.result
      = some (.error (.error (.cyclicDependency ⟨6⟩)))
    ∧ (∀ depth, loopedSum.nodes.size < depth → loopedSum.evaluateWithin depth (Program.Builder.new .standard .material)
        = some (loopedSum.evaluate (Program.Builder.new .standard .material)))
    ∧ loopedSum.Detects ⟨10⟩ (loopedSum.evaluate (Program.Builder.new .standard .material)).result := by
  have loaded : loopedSum.restore = .ok loopedSum := by decide
  exact ⟨loaded, rfl, by decide, evaluation_detects loaded rfl _⟩

end FrameGraph.Graph
