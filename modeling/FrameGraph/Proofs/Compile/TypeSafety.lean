/-
  FrameGraph.Proofs.Compile.TypeSafety: compiled values have the types of their pins.

  Links join pins of one type and pins agree with the kinds of their nodes, so the values that
  a node sees have the types of its inputs, and what its rule makes of them has the types of
  its outputs: each compilation keeps the values of a pass well typed (`TypedSoFar.compiles`),
  and so does a journal. After an evaluation that succeeded, every value and every operand is
  well typed, whichever nodes a session of edits has put together (`session_typed`).
-/

import Mathlib.Data.List.Forall2
import FrameGraph.Proofs.Compile.Cycles
import FrameGraph.Proofs.Compile.Journal
import FrameGraph.Proofs.Compile.Typing
import FrameGraph.Proofs.Store.Agreement

namespace FrameGraph

open Evaluator (operation? arrayMembers?)

variable {ε : Type} [Evaluator ε]

/-- The compilation recorded the operation behind a handle. -/
def Compilation.Records (c : Compilation ε) (h : Handle) (op : Operation) : Prop :=
  operation? c.after h = some op ∧ operation? c.before h = none

namespace Graph

variable {g : Graph} {registry : Registry} {p q r : Progress ε} {id : NodeId} {n : Node}

/-! ## What is recorded on the way -/

section Lawful

variable [LawfulEvaluator ε] {js : List (Compilation ε)}

/-- Each operation was there before, or some compilation recorded it. -/
theorem Journal.operation_recorded (h : g.Journal p js q) {handle : Handle} {op : Operation}
    (found : operation? q.backend handle = some op) :
    operation? p.backend handle = some op ∨ ∃ c ∈ js, c.Records handle op := by
  induction h with
  | nil p => exact .inl found
  | @cons p q r id n js step rest ih =>
    rcases ih found with here | later
    · cases before : operation? p.backend handle with
      | none => exact .inr ⟨_, List.mem_cons_self, here, before⟩
      | some op' =>
        rw [step.grows.operation before] at here
        exact .inl here
    · obtain ⟨c, member, records⟩ := later
      exact .inr ⟨c, List.mem_cons_of_mem _ member, records⟩

end Lawful

/-! ## Values of a pass -/

/-- The pass offers known conversions, and values belong to outputs of compiled nodes and have
their types. -/
structure TypedSoFar (g : Graph) (registry : Registry) (p : Progress ε) : Prop where
  conversions : Offers p.backend registry
  values : ∀ pin v, p.values.lookup pin = some v → ∃ o, g.outputPins.get? pin = some o ∧ o.node ∈ p.compiled
    ∧ WellTyped p.backend v o.type

/-- A linked input has the type of the output that feeds it. -/
theorem Sound.linked_type (sound : g.Sound) {pin output : PinId} {input : InputPin} {o : OutputPin}
    (hi : g.inputPins.get? pin = some input) (fed : input.connection = some output)
    (ho : g.outputPins.get? output = some o) : o.type = input.type := by
  obtain ⟨k, l, hl, rfl, rfl⟩ := (sound.remembered pin input output hi).1 fed
  exact (sound.typed k l o input hl ho hi).1

/-- What a node sees has the types of its inputs. -/
theorem TypedSoFar.holds (sound : g.Sound) (h : g.TypedSoFar registry p) {pin : PinId} {input : InputPin}
    (hi : g.inputPins.get? pin = some input) : Holds p.backend (seen p.values input) := by
  intro v held
  obtain ⟨output, fed, stored⟩ := Option.bind_eq_some_iff.1 held
  obtain ⟨o, ho, -, typed⟩ := h.values output v stored
  have type : o.type = input.type := sound.linked_type hi fed ho
  rwa [type] at typed

/-- The values of a node's outputs belong to them and have their types. -/
theorem entered_typed {b : ε} {pins : List PinId}
    (listed : ∀ pin ∈ pins, ∃ o, g.outputPins.get? pin = some o ∧ o.node = id) {values : List Handle}
    (typed : List.Forall₂ (WellTyped b) values ((pins.filterMap g.outputPins.get?).map OutputPin.type)) :
    ∀ e ∈ pins.zip values, ∃ o, g.outputPins.get? e.1 = some o ∧ o.node = id ∧ WellTyped b e.2 o.type := by
  induction pins generalizing values with
  | nil =>
    intro e none
    cases none
  | cons pin pins ih =>
    obtain ⟨o, ho, owner⟩ := listed pin List.mem_cons_self
    rw [List.filterMap_cons_some ho, List.map_cons] at typed
    cases typed with
    | cons first rest =>
      intro e member
      rcases List.mem_cons.1 member with rfl | member
      · exact ⟨o, ho, owner, first⟩
      · exact ih (fun k hk => listed k (List.mem_cons_of_mem _ hk)) rest e member

/-! ## Pins in agreement with the kind -/

theorem map_filterMap_known {κ α β : Type} {look : κ → Option α} {f : α → β} {h : κ → β} {keys : List κ}
    (known : ∀ k ∈ keys, ∃ a, look k = some a ∧ f a = h k) : (keys.filterMap look).map f = keys.map h := by
  rw [List.map_filterMap, ← List.filterMap_eq_map]
  refine List.filterMap_congr fun k member => ?_
  obtain ⟨a, found, same⟩ := known k member
  rw [found, Option.map_some, same]
  rfl

theorem Listed.inputTypes (listed : g.Listed) (hn : g.nodes.get? id = some n) (fits : (g.outline n).Fits) :
    (g.inputsOf n).map InputPin.type = n.kind.inputSpecs.map PinSpec.type := by
  have declared : (n.inputs.map g.inputSpecAt).map PinSpec.type = n.kind.inputSpecs.map PinSpec.type :=
    fits.step.inputs
  rw [← declared, List.map_map]
  refine map_filterMap_known fun pin member => ?_
  obtain ⟨input, hi, -⟩ := listed.inputListed id n hn pin member
  exact ⟨input, hi, by simp [inputSpecAt, hi]⟩

theorem Listed.outputTypes (listed : g.Listed) (hn : g.nodes.get? id = some n) (fits : (g.outline n).Fits) :
    (g.outputsOf n).map OutputPin.type = n.kind.outputSpecs.map PinSpec.type := by
  have declared : (n.outputs.map g.outputSpecAt).map PinSpec.type = n.kind.outputSpecs.map PinSpec.type :=
    fits.step.outputs
  rw [← declared, List.map_map]
  refine map_filterMap_known fun pin member => ?_
  obtain ⟨o, ho, -⟩ := listed.outputListed id n hn pin member
  exact ⟨o, ho, by simp [outputSpecAt, ho, PinSpec.required]⟩

/-! ## One compilation and many -/

/-- The values of a pass do not change when a node is compiled. -/
theorem TypedSoFar.lookup (sound : g.Sound) (h : g.TypedSoFar registry p) (step : g.Compiles p id n q)
    {pin : PinId} {v : Handle} (stored : p.values.lookup pin = some v) : q.values.lookup pin = some v := by
  obtain ⟨c, values, b, -, -, -, rfl⟩ := compileNode_eq_ok step.compiled
  obtain ⟨o, ho, compiled, -⟩ := h.values pin v stored
  have other : pin ∉ n.outputs := by
    intro mine
    obtain ⟨o', ho', owner⟩ := sound.outputListed id n step.registered pin mine
    cases ho.symm.trans ho'
    exact step.fresh (owner ▸ compiled)
  exact (lookup_not_entered other _).trans stored

section Exact

variable [ExactEvaluator ε] {js : List (Compilation ε)}

/-- A compilation keeps values well typed and records operations that read the node's inputs. -/
theorem TypedSoFar.compiles (sound : g.Sound) (fits : (g.outline n).Fits) (h : g.TypedSoFar registry p)
    (step : g.Compiles p id n q) :
    g.TypedSoFar registry q ∧ Adds ((g.inputsOf n).map (seen p.values)) p.backend q.backend := by
  obtain ⟨c, values, b, context, ran, count, rfl⟩ := compileNode_eq_ok step.compiled
  have known := sound.context_eq p.values step.registered
  rw [context] at known
  cases known
  have inputs : ((g.inputsOf n).map (seen p.values)).map InputSlot.type = n.kind.inputSpecs.map PinSpec.type := by
    rw [List.map_map]
    exact sound.inputTypes step.registered fits
  have holds : ∀ s ∈ (g.inputsOf n).map (seen p.values), Holds p.backend s := by
    intro s member
    obtain ⟨input, listed, rfl⟩ := List.mem_map.1 member
    exact h.holds sound (sound.mem_inputsOf listed).1
  have rule := evaluate_typed (c := ⟨id, (g.inputsOf n).map (seen p.values), (g.outputsOf n).map OutputPin.type⟩)
    h.conversions fits.tidy inputs (sound.outputTypes step.registered fits) holds
  have ended : Ends (Types _ p.backend) ((n.kind.evaluate _).run p.backend) := rule
  rw [ran] at ended
  cases ended with
  | answered kept =>
    obtain ⟨adds, typed⟩ := kept
    refine ⟨⟨h.conversions.stays adds.grows, fun pin v stored => ?_⟩, adds⟩
    dsimp only at stored
    rw [List.lookup_append, Option.or_eq_some_iff] at stored
    rcases stored with new | ⟨-, old⟩
    · obtain ⟨front, back, entries, -⟩ := List.lookup_eq_some_iff.1 new
      have entered : (pin, v) ∈ n.outputs.zip values :=
        List.mem_reverse.1 (entries ▸ List.mem_append_right front List.mem_cons_self)
      obtain ⟨o, ho, owner, wellTyped⟩ :=
        entered_typed (sound.outputListed id n step.registered) typed (pin, v) entered
      exact ⟨o, ho, owner ▸ List.mem_cons_self, wellTyped⟩
    · obtain ⟨o, ho, compiled, wellTyped⟩ := h.values pin v old
      exact ⟨o, ho, List.mem_cons_of_mem _ compiled, wellTyped.mono adds.grows⟩

theorem Journal.typed (sound : g.Sound) (fit : Every Outline.Fits g) (h : g.Journal p js q)
    (start : g.TypedSoFar registry p) :
    g.TypedSoFar registry q ∧ ∀ pin v, p.values.lookup pin = some v → q.values.lookup pin = some v := by
  induction h with
  | nil p => exact ⟨start, fun _ _ stored => stored⟩
  | @cons p q r id n js step rest ih =>
    obtain ⟨typed, -⟩ := start.compiles sound (fit id n step.registered) step
    obtain ⟨last, kept⟩ := ih typed
    exact ⟨last, fun pin v stored => kept pin v (start.lookup sound step stored)⟩

end Exact

/-! ## After an evaluation -/

/-- What an evaluation leaves is well typed throughout: the values of the nodes that it marks,
and each operand of each operation, which is read from the input at the operand's place of the
node that was compiled when the operation was recorded. -/
structure TypeSafe (g : Graph) (e : Evaluation ε) (js : List (Compilation ε)) : Prop where
  values : ∀ id n, e.graph.nodes.get? id = some n → n.evaluated = true → ∀ pin ∈ n.outputs,
    ∃ output v, e.graph.outputPins.get? pin = some output ∧ output.value = some v
      ∧ WellTyped e.backend v output.type
  recorded : ∀ h op, operation? e.backend h = some op → ∃ c ∈ js, c.Records h op
  operands : ∀ c ∈ js, ∀ n, g.nodes.get? c.node = some n → ∀ h op, c.Records h op →
    ∀ (place : Nat) (v : Handle), op.operands[place]? = some v →
      ∃ input output w, (e.graph.inputsOf n)[place]? = some input ∧ e.graph.source? input = some output
        ∧ output.value = some w
        ∧ (v = w ∧ WellTyped e.backend v input.type
          ∨ ∃ ms, arrayMembers? e.backend w = some ms ∧ v ∈ ms ∧ WellTyped e.backend v input.type.element)

/-- An operand that a compilation read is found in the graph after the pass. -/
theorem TypedSoFar.operand (h : g.TypedSoFar registry p) (kept : ∀ pin v, p.values.lookup pin = some v →
    q.values.lookup pin = some v) {b : ε} (grows : Extends b q.backend) {place : Nat} {s : InputSlot} {v : Handle}
    (slot : ((g.inputsOf n).map (seen p.values))[place]? = some s) (read : ReadFrom b s v) :
    ∃ input output w, ((g.withResults q).inputsOf n)[place]? = some input
      ∧ (g.withResults q).source? input = some output ∧ output.value = some w
      ∧ (v = w ∧ WellTyped q.backend v input.type
        ∨ ∃ ms, arrayMembers? q.backend w = some ms ∧ v ∈ ms ∧ WellTyped q.backend v input.type.element) := by
  rw [List.getElem?_map] at slot
  obtain ⟨input, listed, rfl⟩ := Option.map_eq_some_iff.1 slot
  obtain ⟨w, held, typed⟩ := read.mono grows
  obtain ⟨output, fed, stored⟩ := Option.bind_eq_some_iff.1 held
  obtain ⟨o, ho, -, -⟩ := h.values output w stored
  have source : (g.withResults q).source? input = some { o with value := q.values.lookup output } := by
    unfold source?
    rw [fed]
    exact Table.get?_mapWithKey_eq_some.2 ⟨o, ho, rfl⟩
  exact ⟨input, _, w, listed, source, kept output w stored, typed⟩

theorem evaluate_fitting [ExactEvaluator ε] (sound : g.Sound) (sized : Every (fun o => o.shape.Sized) g)
    (fit : Every Outline.Fits g) {b : ε} (offers : Offers b registry) (empty : ∀ h, operation? b h = none)
    (done : (g.evaluate b).result = .ok ()) :
    ∃ terminal js, g.terminal = some terminal ∧ g.PassRecorded b terminal js ∧ g.TypeSafe (g.evaluate b) js := by
  cases chosen : g.terminal with
  | none =>
    rw [evaluate_unchosen chosen] at done
    cases done
  | some terminal =>
    obtain ⟨js, pass⟩ := evaluate_journal sound chosen done
    obtain ⟨q, journal, graph, backend⟩ := pass.ran
    have start : g.TypedSoFar registry (⟨b, [], [], [.evaluating g.id terminal]⟩ : Progress ε) :=
      ⟨offers, fun _ _ stored => by cases stored⟩
    obtain ⟨typed, -⟩ := journal.typed sound fit start
    have realizes := evaluate_realizes sound sized chosen offers
    refine ⟨terminal, js, rfl, pass, ?_, ?_, ?_⟩
    · intro id n hn marked pin listed
      obtain ⟨trees, -, values⟩ := realizes.values id n hn marked
      obtain ⟨tree, -, output, v, found, value, -⟩ := lookup_zip values listed
      refine ⟨output, v, found, value, ?_⟩
      rw [graph] at found
      obtain ⟨o, ho, rfl⟩ := Table.get?_mapWithKey_eq_some.1 found
      obtain ⟨o', ho', -, wellTyped⟩ := typed.values pin v value
      cases ho.symm.trans ho'
      rw [backend]
      exact wellTyped
    · intro h op found
      rw [backend] at found
      rcases journal.operation_recorded found with old | new
      · rw [empty h] at old
        cases old
      · exact new
    · intro c member n hn h op records place v operand
      obtain ⟨ks, ls, rfl⟩ := List.append_of_mem member
      obtain ⟨m, n', m', first, step, before, after, last⟩ := journal.split
      cases step.registered.symm.trans hn
      obtain ⟨typed, -⟩ := first.typed sound fit start
      obtain ⟨typed', adds⟩ := typed.compiles sound (fit c.node n hn) step
      obtain ⟨-, kept⟩ := last.typed sound fit typed'
      -- A new operation of this compilation reads the node's inputs as they were at its turn, and
      -- the rest of the journal changes neither the values nor where they lead.
      obtain ⟨found, fresh⟩ := records
      rw [after] at found
      rw [before] at fresh
      have reads : ReadsInputs m'.backend ((g.inputsOf n).map (seen m.values)) op.operands := by
        rcases adds.reads h op found with old | new
        · rw [fresh] at old
          cases old
        · exact new
      obtain ⟨s, slot, read⟩ := reads place v operand
      rw [graph, backend]
      exact typed.operand (fun pin v stored => kept pin v (typed.lookup sound step stored)) last.grows slot read

theorem evaluate_typeSafe [ExactEvaluator ε] (sound : g.Sound) (sized : Every (fun o => o.shape.Sized) g)
    (agree : Every Outline.Agrees g) {b : ε} (offers : Offers b registry) (empty : ∀ h, operation? b h = none)
    (done : (g.evaluate b).result = .ok ()) :
    ∃ terminal js, g.terminal = some terminal ∧ g.PassRecorded b terminal js ∧ g.TypeSafe (g.evaluate b) js :=
  evaluate_fitting sound sized (fun k n hn => (agree k n hn).fits) offers empty done

/-- If an evaluation succeeds, it leaves a journal and everything well typed. -/
def EvaluatesTyped (g : Graph) (b : ε) : Prop := (g.evaluate b).result = .ok () →
  ∃ terminal js, g.terminal = some terminal ∧ g.PassRecorded b terminal js ∧ g.TypeSafe (g.evaluate b) js

theorem fitting_typed (sound : g.Sound) (sized : Every (fun o => o.shape.Sized) g) (fit : Every Outline.Fits g)
    (conversions : Conversions) : (∀ trace, g.EvaluatesTyped (Pipeline.Builder.new conversions trace))
      ∧ ∀ settings, g.EvaluatesTyped (Program.Builder.new settings conversions) :=
  ⟨fun trace => evaluate_fitting sound sized fit (Pipeline.Builder.offers_new conversions trace) fun _ => rfl,
    fun settings => evaluate_fitting sound sized fit (Program.Builder.offers_new settings conversions) fun _ => rfl⟩

/-- However a new graph is edited with fresh kinds, what an evaluation that succeeds leaves is well
typed, whichever pairs of types the back end maps to known conversions. -/
theorem session_typed {id : Uuid} {name : String} {edits : List Edit} (fresh : ∀ e ∈ edits, e.Within freshKinds)
    (ran : Edit.run edits (.new id name) = .ok g) (conversions : Conversions) :
    (∀ trace, g.EvaluatesTyped (Pipeline.Builder.new conversions trace))
      ∧ ∀ settings, g.EvaluatesTyped (Program.Builder.new settings conversions) := by
  obtain ⟨g', ran', sound, every⟩ := run_sound fresh (sound_new id name) every_new
  cases ran.symm.trans ran'
  have sized := every _ Outline.durable_sized every_new
  have agree := every _ Outline.durable_agrees every_new
  constructor
  · intro trace done
    exact evaluate_typeSafe sound sized agree (Pipeline.Builder.offers_new conversions trace) (fun _ => rfl) done
  · intro settings done
    exact evaluate_typeSafe sound sized agree (Program.Builder.offers_new settings conversions) (fun _ => rfl) done

/-- Two cameras in one array pass, and the second one's target on the screen. -/
def twoCameras : List Edit :=
  [.addNode (.provider .entities) .origin, .addNode (.provider .camera) .origin,
    .addNode (.provider .editorCamera) .origin, .addNode (.newConcat (.scalar Base.camera)) .origin,
    .addNode (.newConvert (.array Base.camera) (.array Base.eye)) .origin,
    .addNode (.newConvert (.array Base.camera) (.array Base.target)) .origin, .addNode .newRender .origin,
    .addNode (.newSelect (.scalar Base.target) 1) .origin, .addNode .screen .origin,
    .connect ⟨3⟩ ⟨7⟩, .connect ⟨5⟩ ⟨8⟩, .connect ⟨9⟩ ⟨11⟩, .connect ⟨9⟩ ⟨14⟩, .connect ⟨1⟩ ⟨17⟩, .connect ⟨12⟩ ⟨18⟩,
    .connect ⟨15⟩ ⟨19⟩, .connect ⟨15⟩ ⟨23⟩, .connect ⟨24⟩ ⟨26⟩, .connect ⟨21⟩ ⟨27⟩, .setTerminal ⟨25⟩]

theorem session_typed_cameras : (∀ e ∈ twoCameras, e.Within freshKinds)
    ∧ ∃ g, Edit.run twoCameras (.new .zero untitled) = .ok g
      ∧ (g.evaluate (Pipeline.Builder.new .pipeline false)).result = .ok ()
      ∧ ∃ terminal js, g.terminal = some terminal
        ∧ g.PassRecorded (Pipeline.Builder.new .pipeline false) terminal js
        ∧ g.TypeSafe (g.evaluate (Pipeline.Builder.new .pipeline false)) js := by
  have fresh : ∀ e ∈ twoCameras, e.Within freshKinds := by
    simp only [twoCameras, List.forall_mem_cons, Edit.Within, freshKinds, and_true, true_and]
    exact ⟨.provider _, .provider _, .provider _, .concat _, .convert _ _, .convert _ _, .render, .select _ _,
      .screen, by simp⟩
  have evaluated : (Edit.run twoCameras (.new .zero untitled)).map
      (fun g => (g.evaluate (Pipeline.Builder.new .pipeline false)).result) = .ok (.ok ()) :=
    map_evaluate_within (f := fun e : Evaluation Pipeline.Builder => e.result) 10 (by decide +kernel)
  obtain ⟨g, ran, -, -⟩ := run_sound fresh (sound_new .zero untitled) every_new
  rw [ran] at evaluated
  have done : (g.evaluate (Pipeline.Builder.new .pipeline false)).result = .ok () := Except.ok.inj evaluated
  exact ⟨fresh, g, ran, done, (session_typed fresh ran .pipeline).1 false done⟩

end Graph

end FrameGraph
