/-
  FrameGraph.Proofs.Compile.Aftermath: what a pass leaves behind, also when it fails.

  A pass that stops has a journal too, of the compilations that it had completed. It stopped
  either on its way to a node or in the rule of one, which had then been reported but had asked
  for nothing, and neither is in the journal (`visit_halts`). So the marks, the values and the
  back end after a pass can be told from its journal alone, whether or not the pass came to its
  end and whatever marks and values were there before (`evaluation_leaves`).
-/

import FrameGraph.Proofs.Compile.Cycles
import FrameGraph.Proofs.Compile.Restraint

namespace FrameGraph

open Request (sendAll)

variable {ε : Type} [Evaluator ε]

/-- What the rule of a compiled node has asked for. -/
def Compilation.Asked (g : Graph) (c : Compilation ε) (rs : List Request) : Prop :=
  ∃ n known context values, g.nodes.get? c.node = some n ∧ g.context known c.node n = .ok context
    ∧ (n.kind.evaluate context).run c.before = (.ok values, c.after) ∧ c.after = (sendAll c.before rs).1

namespace Graph

variable {g : Graph} {p q r : Progress ε} {id : NodeId} {n : Node} {js ks : List (Compilation ε)} {stop : Stop}

/-! ## Where a pass stops -/

/-- A rule that stops is to blame, and nothing but the report of it is new. -/
theorem compileNode_stops (sound : g.Sound) (sized : Every (fun o => o.shape.Sized) g)
    (hn : g.nodes.get? id = some n) (h : g.compileNode id n p = (.error stop, r)) :
    (∃ e, stop = .error e ∧ e.node? = some id)
      ∧ r = { p with events := p.events ++ [.compiling id n.kind.label] } := by
  have faultless := compileNode_answers sound sized hn p
  have blames : ∀ e, (g.compileNode id n p).1 = .error (.error e) → e.Blames id :=
    (compileNode_kept lenient_lawful (orderly_lenient p) fun _ _ => trivial).2.2
  rw [h] at faultless blames
  refine ⟨?_, ?_⟩
  · cases stop with
    | error e => exact ⟨e, rfl, (blames e rfl).1⟩
    | fault f => exact absurd rfl (faultless f)
  · obtain ⟨inputCount, outputCount⟩ := sized_outline_iff.1 (sized id n hn)
    unfold compileNode at h
    rw [sound.context_eq p.values hn] at h
    generalize hc : (⟨id, (g.inputsOf n).map (seen p.values), (g.outputsOf n).map OutputPin.type⟩ : Context) = c at h
    have outputs : c.outputs.length = n.kind.outputSpecs.length := by
      rw [← hc, List.length_map, sound.outputsOf_length hn, outputCount]
    have untouched := evaluate_untouched outputs p.backend
    cases ran : (n.kind.evaluate c).run p.backend with
    | mk answer b =>
      dsimp only at h
      unfold Untouched at untouched
      rw [ran] at h untouched
      cases answer with
      | error stop' =>
        obtain rfl : b = p.backend := untouched stop' rfl
        cases h
        rfl
      | ok values =>
        dsimp only at h
        split at h
        · cases h
        · cases h
          exact absurd rfl (faultless _)

/-- The pass has stopped at a node, on its way to it or in its rule, after compilations that leave
out this node and those of the path. -/
def Halts (g : Graph) (path : List NodeId) (p : Progress ε) (stop : Stop) (r : Progress ε) : Prop :=
  ∃ js q e id, g.Journal p js q ∧ Avoids path q.compiled ∧ stop = .error e ∧ e.node? = some id ∧ id ∉ q.compiled
    ∧ (r = q ∨ ∃ label, r = { q with events := q.events ++ [.compiling id label] })

theorem Halts.tail {path : List NodeId} (h : g.Halts (id :: path) p stop r) : g.Halts path p stop r := by
  obtain ⟨js, q, e, m, journal, avoids, rest⟩ := h
  exact ⟨js, q, e, m, journal, avoids.tail, rest⟩

theorem Halts.after {path : List NodeId} (first : g.Journal p js q) (h : g.Halts path q stop r) :
    g.Halts path p stop r := by
  obtain ⟨ks, q', e, m, journal, rest⟩ := h
  exact ⟨js ++ ks, q', e, m, first.append journal, rest⟩

/-- A visit that stops leaves out what was on its path, the visited node among it. -/
theorem visit_halts (sound : g.Sound) (sized : Every (fun o => o.shape.Sized) g) (path : List NodeId)
    (id : NodeId) (p : Progress ε) (registered : ∃ n, g.nodes.get? id = some n) (avoids : Avoids path p.compiled)
    (stopped : g.visit path id p = (.error stop, r)) : g.Halts (id :: path) p stop r := by
  refine visit.induct g
    (fun path id p => (∃ n, g.nodes.get? id = some n) → Avoids path p.compiled →
      ∀ stop r, g.visit path id p = (.error stop, r) → g.Halts (id :: path) p stop r)
    (fun path id pins p => (∃ n, g.nodes.get? id = some n ∧ ∀ pin ∈ pins, pin ∈ n.inputs) → id ∈ path →
      Avoids path p.compiled → ∀ stop r, g.visitInputs path id pins p = (.error stop, r) → g.Halts path p stop r)
    ?unregistered ?compiled ?cycle ?stopped ?settled ?noPins ?unfed ?free ?feederStopped ?feederSettled
    path id p registered avoids stop r stopped
  case unregistered =>
    intro path id p unregistered registered
    obtain ⟨n, hn⟩ := registered
    rw [unregistered] at hn
    cases hn
  case compiled =>
    intro path id p n hn compiled _ _ stop r stopped
    rw [visit_compiled hn compiled] at stopped
    cases stopped
  case cycle =>
    intro path id p n hn fresh met _ avoids stop r stopped
    rw [visit_cycle hn fresh met] at stopped
    cases stopped
    exact ⟨[], p, _, id, .nil p, avoids.cons fresh, rfl, rfl, fresh, .inl rfl⟩
  case stopped =>
    intro path id p n hn fresh new stop' r' failed ih _ avoids stop r stopped
    rw [visit_stopped hn fresh new failed] at stopped
    cases stopped
    exact ih ⟨n, hn, fun _ listed => listed⟩ List.mem_cons_self (avoids.cons fresh) _ _ failed
  case settled =>
    intro path id p n hn fresh new q settled _ _ avoids stop r stopped
    rw [visit_settled hn fresh new settled] at stopped
    obtain ⟨js, journal, -, avoids, -⟩ := (visits_journal sound).2 (id :: path) id n.inputs p (avoids.cons fresh)
      ⟨n, hn, fun _ listed => listed⟩ q settled
    obtain ⟨⟨e, rfl, blames⟩, rfl⟩ := compileNode_stops sound sized hn stopped
    exact ⟨js, q, e, id, journal, avoids, rfl, blames, avoids id List.mem_cons_self, .inr ⟨_, rfl⟩⟩
  case noPins =>
    intro path id p _ _ _ stop r stopped
    rw [visitInputs_nil] at stopped
    cases stopped
  case unfed =>
    intro path id p pin pins stop' unfed lists met avoids stop r stopped
    obtain ⟨n, hn, listed⟩ := lists
    obtain ⟨input, hi, -⟩ := sound.inputListed id n hn pin (listed pin List.mem_cons_self)
    obtain ⟨-, -, rfl⟩ := sound.unfed hi unfed
    rw [visitInputs_unfed unfed] at stopped
    cases stopped
    exact ⟨[], p, _, id, .nil p, avoids, rfl, rfl, avoids id met, .inl rfl⟩
  case free =>
    intro path id p pin pins free ih lists met avoids stop r stopped
    obtain ⟨n, hn, listed⟩ := lists
    rw [visitInputs_free free] at stopped
    exact ih ⟨n, hn, fun k member => listed k (List.mem_cons_of_mem _ member)⟩ met avoids stop r stopped
  case feederStopped =>
    intro path id p pin pins feeder fed stop' r' failed ih lists _ avoids stop r stopped
    obtain ⟨n, hn, listed⟩ := lists
    obtain ⟨input, hi, -⟩ := sound.inputListed id n hn pin (listed pin List.mem_cons_self)
    obtain ⟨o, m, -, -, hm⟩ := sound.fed hi fed
    rw [visitInputs_stopped fed failed] at stopped
    cases stopped
    exact (ih ⟨m, hm⟩ avoids _ _ failed).tail
  case feederSettled =>
    intro path id p pin pins feeder fed q settled _ rest lists met avoids stop r stopped
    obtain ⟨n, hn, listed⟩ := lists
    rw [visitInputs_fed fed settled] at stopped
    obtain ⟨js, journal, -, avoids, -⟩ := visit_journal sound path feeder p avoids settled
    exact .after journal
      (rest ⟨n, hn, fun k member => listed k (List.mem_cons_of_mem _ member)⟩ met avoids stop r stopped)

/-! ## Marks, values and requests -/

/-- The outputs of compiled nodes have values, and no others. -/
def Entered (g : Graph) (p : Progress ε) : Prop :=
  ∀ pin, (p.values.lookup pin).isSome = true ↔ ∃ id ∈ p.compiled, ∃ n, g.nodes.get? id = some n ∧ pin ∈ n.outputs

theorem Compiles.entered (step : g.Compiles p id n q) (h : g.Entered p) : g.Entered q := by
  obtain ⟨c, values, b, -, -, count, rfl⟩ := compileNode_eq_ok step.compiled
  intro pin
  have new : ((n.outputs.zip values).reverse.lookup pin).isSome = true ↔ pin ∈ n.outputs := by
    have keys : (n.outputs.zip values).map Prod.fst = n.outputs := List.map_fst_zip (Nat.le_of_eq count.symm)
    rw [List.lookup_isSome_iff]
    simp only [List.mem_reverse, beq_iff_eq]
    constructor
    · intro entered
      obtain ⟨e, member, rfl⟩ := entered
      exact (List.of_mem_zip member).1
    · intro listed
      rw [← keys] at listed
      obtain ⟨e, member, rfl⟩ := List.mem_map.1 listed
      exact ⟨e, member, rfl⟩
  have here : pin ∈ n.outputs ↔ ∃ m, g.nodes.get? id = some m ∧ pin ∈ m.outputs := by simp [step.registered]
  dsimp only
  rw [List.lookup_append, Option.isSome_or, Bool.or_eq_true, new, h pin, here]
  simp only [List.mem_cons, exists_eq_or_imp]

theorem Journal.entered (h : g.Journal p js q) (start : g.Entered p) : g.Entered q := by
  induction h with
  | nil p => exact start
  | cons step rest ih => exact ih (step.entered start)

omit [Evaluator ε] in
/-- An output has a value if and only if its node is compiled. -/
theorem Entered.owner (h : g.Entered p) (listed : g.Listed) {pin : PinId} {o : OutputPin}
    (ho : g.outputPins.get? pin = some o) : (p.values.lookup pin).isSome = true ↔ o.node ∈ p.compiled := by
  obtain ⟨n, hn, mine⟩ := listed.outputOwner pin o ho
  rw [h pin]
  constructor
  · intro compiled
    obtain ⟨id, done, m, hm, lists⟩ := compiled
    rwa [listed.output_unique hn hm mine lists]
  · intro done
    exact ⟨o.node, done, n, hn, mine⟩

/-- A compilation runs the rule of its node, which asks for something. -/
theorem Compiles.asked (step : g.Compiles p id n q) : ∃ rs, Compilation.Asked g ⟨id, p.backend, q.backend⟩ rs := by
  obtain ⟨c, values, b, context, ran, -, rfl⟩ := compileNode_eq_ok step.compiled
  obtain ⟨rs, sent⟩ := evaluate_sends n.kind c p.backend
  rw [ran] at sent
  exact ⟨rs, n, p.values, c, values, step.registered, context, ran, sent⟩

theorem Journal.asked (h : g.Journal p js q) : ∃ asked : List (List Request),
    List.Forall₂ (Compilation.Asked g) js asked ∧ q.backend = (sendAll p.backend asked.flatten).1 := by
  induction h with
  | nil p => exact ⟨[], .nil, rfl⟩
  | cons step rest ih =>
    obtain ⟨rs, own⟩ := step.asked
    obtain ⟨asked, others, last⟩ := ih
    refine ⟨rs :: asked, .cons own others, ?_⟩
    obtain ⟨-, -, -, -, -, -, -, sent⟩ := own
    dsimp only at sent
    rw [last, sent, List.flatten_cons, Request.sendAll_append]

omit [Evaluator ε] in
theorem node_withResults {m : Node} :
    (g.withResults p).nodes.get? id = some m ↔
      ∃ n, g.nodes.get? id = some n ∧ { n with evaluated := decide (id ∈ p.compiled) } = m :=
  Table.get?_mapWithKey_eq_some

omit [Evaluator ε] in
theorem output_withResults {pin : PinId} {o : OutputPin} :
    (g.withResults p).outputPins.get? pin = some o ↔
      ∃ o', g.outputPins.get? pin = some o' ∧ { o' with value := p.values.lookup pin } = o :=
  Table.get?_mapWithKey_eq_some

/-! ## Whole passes -/

/-- A journal that starts with nothing, and ends with the graph and the back end that are left. -/
structure Journaled (g : Graph) (b : ε) (terminal : NodeId) (js : List (Compilation ε)) (p : Progress ε) :
    Prop where
  journal : g.Journal ⟨b, [], [], [.evaluating g.id terminal]⟩ js p
  graph : (g.evaluate b).graph = g.withResults p
  backend : (g.evaluate b).backend = p.backend

/-- What a pass leaves behind, next to the list of its compilations. -/
structure Aftermath (g : Graph) (b : ε) (terminal : NodeId) (js : List (Compilation ε)) : Prop where
  ran : ∃ p, g.Journaled b terminal js p
  once : (js.map Compilation.node).Nodup
  /-- The nodes that it has reported are those, and perhaps one more that failed. -/
  reported : ∃ failed : Option NodeId, (∀ id ∈ failed, id ∉ js.map Compilation.node)
    ∧ (g.evaluate b).events.filterMap Event.compiling? = js.map Compilation.node ++ failed.toList
  marked : ∀ id n, (g.evaluate b).graph.nodes.get? id = some n →
    (n.evaluated = true ↔ id ∈ js.map Compilation.node)
  valued : ∀ pin o, (g.evaluate b).graph.outputPins.get? pin = some o →
    (o.value.isSome = true ↔ o.node ∈ js.map Compilation.node)
  fed : ∀ id n, (g.evaluate b).graph.nodes.get? id = some n → n.evaluated = true →
    ∀ input ∈ (g.evaluate b).graph.inputsOf n, ∀ output, (g.evaluate b).graph.source? input = some output →
      ∃ m, (g.evaluate b).graph.nodes.get? output.node = some m ∧ m.evaluated = true
  answers : (g.evaluate b).result = .ok () ∨ ∃ e, (g.evaluate b).result = .error (.error e)
  finished : (g.evaluate b).result = .ok () → ∀ id, id ∈ js.map Compilation.node ↔ g.Upstream terminal id
  stopped : ∀ e, (g.evaluate b).result = .error (.error e) →
    terminal ∉ js.map Compilation.node ∧ ∃ id, e.node? = some id ∧ id ∉ js.map Compilation.node
  /-- The back end has got what the rules of these nodes have asked for, and nothing else. -/
  received : ∃ asked : List (List Request), List.Forall₂ (Compilation.Asked g) js asked
    ∧ (g.evaluate b).backend = (sendAll b asked.flatten).1

namespace Journaled

variable {b : ε} {terminal : NodeId} (h : g.Journaled b terminal js p)
include h

theorem compiled_iff (id : NodeId) : id ∈ p.compiled ↔ id ∈ js.map Compilation.node := by
  rw [h.journal.compiled_eq, List.append_nil, List.mem_reverse]

theorem marked {m : Node} (hm : (g.evaluate b).graph.nodes.get? id = some m) :
    m.evaluated = true ↔ id ∈ js.map Compilation.node := by
  rw [h.graph] at hm
  obtain ⟨n, -, rfl⟩ := node_withResults.1 hm
  exact decide_eq_true_iff.trans (h.compiled_iff id)

theorem valued (listed : g.Listed) {pin : PinId} {o : OutputPin}
    (ho : (g.evaluate b).graph.outputPins.get? pin = some o) :
    o.value.isSome = true ↔ o.node ∈ js.map Compilation.node := by
  have start : g.Entered (⟨b, [], [], [.evaluating g.id terminal]⟩ : Progress ε) := fun pin => by simp
  rw [h.graph] at ho
  obtain ⟨o', ho', rfl⟩ := output_withResults.1 ho
  exact ((h.journal.entered start).owner listed ho').trans (h.compiled_iff _)

/-- What feeds a marked node is marked, because it was compiled when the node's turn came. -/
theorem fed (listed : g.Listed) {m : Node} (hm : (g.evaluate b).graph.nodes.get? id = some m)
    (done : m.evaluated = true) {input : InputPin} (member : input ∈ (g.evaluate b).graph.inputsOf m)
    {output : OutputPin} (source : (g.evaluate b).graph.source? input = some output) :
    ∃ k, (g.evaluate b).graph.nodes.get? output.node = some k ∧ k.evaluated = true := by
  have start : Closed g (⟨b, [], [], [.evaluating g.id terminal]⟩ : Progress ε) := fun _ none => by cases none
  have compiled := (h.compiled_iff id).2 ((h.marked hm).1 done)
  rw [h.graph] at hm member source ⊢
  obtain ⟨n, hn, rfl⟩ := node_withResults.1 hm
  obtain ⟨pin, connected, ho⟩ := Option.bind_eq_some_iff.1 source
  obtain ⟨o, ho', rfl⟩ := output_withResults.1 ho
  have settled := h.journal.closed start id compiled n hn input member
  have source : g.source? input = some o := Option.bind_eq_some_iff.2 ⟨pin, connected, ho'⟩
  rw [Settled, source] at settled
  obtain ⟨k, hk, -⟩ := listed.outputOwner pin o ho'
  exact ⟨_, node_withResults.2 ⟨k, hk, rfl⟩, decide_eq_true settled⟩

/-- What a journal settles, however the pass ended, and what is left to say about the end. -/
theorem aftermath (sound : g.Sound)
    (reported : ∃ failed : Option NodeId, (∀ id ∈ failed, id ∉ js.map Compilation.node)
      ∧ (g.evaluate b).events.filterMap Event.compiling? = js.map Compilation.node ++ failed.toList)
    (answers : (g.evaluate b).result = .ok () ∨ ∃ e, (g.evaluate b).result = .error (.error e))
    (finished : (g.evaluate b).result = .ok () → ∀ id, id ∈ js.map Compilation.node ↔ g.Upstream terminal id)
    (stopped : ∀ e, (g.evaluate b).result = .error (.error e) →
      terminal ∉ js.map Compilation.node ∧ ∃ id, e.node? = some id ∧ id ∉ js.map Compilation.node) :
    g.Aftermath b terminal js where
  ran := ⟨p, h⟩
  once := h.journal.once.1
  reported := reported
  marked _ _ := h.marked
  valued _ _ := h.valued sound.toListed
  fed _ _ hn done _ member _ source := h.fed sound.toListed hn done member source
  answers := answers
  finished := finished
  stopped := stopped
  received := by
    obtain ⟨asked, each, sent⟩ := h.journal.asked
    exact ⟨asked, each, h.backend.trans sent⟩

end Journaled

/-- A pass that finished leaves everything upstream of the terminal. -/
theorem PassRecorded.aftermath (sound : g.Sound) {b : ε} {terminal : NodeId}
    (recorded : g.PassRecorded b terminal js) (done : (g.evaluate b).result = .ok ()) : g.Aftermath b terminal js := by
  obtain ⟨p, journal, graph, backend⟩ := recorded.ran
  have reported : (g.evaluate b).events.filterMap Event.compiling?
      = js.map Compilation.node ++ (none : Option NodeId).toList := by
    rw [recorded.reported, Option.toList_none, List.append_nil]
  refine Journaled.aftermath ⟨journal, graph, backend⟩ sound ⟨none, fun _ absent => (by cases absent), reported⟩ (.inl done)
    (fun _ => recorded.upstream) fun e stopped => ?_
  rw [done] at stopped
  cases stopped

/-- A pass that stopped leaves out the terminal and the node at which it stopped. -/
theorem Halts.aftermath (sound : g.Sound) {b : ε} {terminal : NodeId} (chosen : g.terminal = some terminal)
    (visited : g.visit [] terminal ⟨b, [], [], [.evaluating g.id terminal]⟩ = (.error stop, r))
    (halted : g.Halts [terminal] ⟨b, [], [], [.evaluating g.id terminal]⟩ stop r) :
    ∃ js, g.Aftermath b terminal js := by
  obtain ⟨graph, backend, result⟩ := evaluate_chosen chosen b
  have events : (g.evaluate b).events = r.events := by
    simp only [evaluate, chosen, visited, List.append_nil]
  rw [visited] at graph backend result
  obtain ⟨js, q, e, id, journal, avoids, rfl, blames, fresh, place⟩ := halted
  have left : g.Journaled b terminal js q := by
    refine ⟨journal, ?_, ?_⟩
    · rcases place with rfl | ⟨label, rfl⟩ <;> exact graph
    · rcases place with rfl | ⟨label, rfl⟩ <;> exact backend
  rw [left.compiled_iff] at fresh
  have out := (left.compiled_iff terminal).not.1 (avoids terminal List.mem_cons_self)
  have past : q.events.filterMap Event.compiling? = js.map Compilation.node := journal.events
  have reported : ∃ failed : Option NodeId, (∀ id ∈ failed, id ∉ js.map Compilation.node)
      ∧ (g.evaluate b).events.filterMap Event.compiling? = js.map Compilation.node ++ failed.toList := by
    rcases place with rfl | ⟨label, rfl⟩
    · exact ⟨none, fun _ absent => (by cases absent), by rw [events, past, Option.toList_none, List.append_nil]⟩
    · refine ⟨some id, fun _ same => by cases same; exact fresh, ?_⟩
      rw [events, List.filterMap_append, past]
      rfl
  refine ⟨js, left.aftermath sound reported (.inr ⟨e, result⟩) (fun ok => ?_) fun e' stopped => ?_⟩
  · rw [result] at ok
    cases ok
  · rw [result] at stopped
    cases stopped
    exact ⟨out, id, blames, fresh⟩

/-- Whether or not a pass through a loaded graph comes to its end, and whatever marks and values
were left in the graph before, it leaves those of the nodes that it compiled. -/
theorem evaluation_leaves {stored g : Graph} (loaded : stored.restore = .ok g) {terminal : NodeId}
    (chosen : g.terminal = some terminal) (b : ε) : ∃ js, g.Aftermath b terminal js := by
  obtain ⟨⟨sound, sized⟩, rfl⟩ := restore_eq_ok_iff.1 loaded
  obtain ⟨-, -, result⟩ := evaluate_chosen chosen b
  cases visited : stored.rewired.visit [] terminal ⟨b, [], [], [.evaluating stored.rewired.id terminal]⟩ with
  | mk answer r =>
    rw [visited] at result
    cases answer with
    | ok =>
      obtain ⟨js, recorded⟩ := evaluate_journal sound chosen result
      exact ⟨js, recorded.aftermath sound result⟩
    | error stop =>
      exact (visit_halts sound sized [] terminal _ (sound.terminalKnown terminal chosen)
        (fun _ none => by cases none) visited).aftermath sound chosen visited

/-- A target twice in an array, from which a third item is selected for the screen. An earlier pass
has marked everything. -/
def missingItem : Graph where
  id := .zero
  name := untitled
  nextId := 16
  terminal := some ⟨9⟩
  nodes := .ofList [(⟨0⟩, ⟨⟨0⟩, .provider .target, .origin, [], [⟨1⟩], true⟩),
    (⟨2⟩, ⟨⟨2⟩, .concat (.scalar Base.target) 2, .origin, [⟨3⟩, ⟨4⟩], [⟨5⟩], true⟩),
    (⟨6⟩, ⟨⟨6⟩, .select (.scalar Base.target) 2, .origin, [⟨7⟩], [⟨8⟩], true⟩),
    (⟨9⟩, ⟨⟨9⟩, .screen, .origin, [⟨10⟩, ⟨11⟩], [], true⟩)]
  inputPins := .ofList [(⟨3⟩, ⟨⟨3⟩, ⟨2⟩, "Object 1", .scalar Base.target, false, some ⟨1⟩⟩),
    (⟨4⟩, ⟨⟨4⟩, ⟨2⟩, "Object 2", .scalar Base.target, false, some ⟨1⟩⟩),
    (⟨7⟩, ⟨⟨7⟩, ⟨6⟩, "Objects", .array Base.target, false, some ⟨5⟩⟩),
    (⟨10⟩, ⟨⟨10⟩, ⟨9⟩, "Target", .scalar Base.target, false, some ⟨8⟩⟩),
    (⟨11⟩, ⟨⟨11⟩, ⟨9⟩, "Require", .scalar Base.require, true, none⟩)]
  outputPins := .ofList [(⟨1⟩, ⟨⟨1⟩, ⟨0⟩, "Target", .scalar Base.target, some ⟨7⟩⟩),
    (⟨5⟩, ⟨⟨5⟩, ⟨2⟩, "Array", .array Base.target, some ⟨7⟩⟩),
    (⟨8⟩, ⟨⟨8⟩, ⟨6⟩, "Item", .scalar Base.target, some ⟨7⟩⟩)]
  links := .ofList [(⟨12⟩, ⟨⟨12⟩, ⟨3⟩, ⟨1⟩⟩), (⟨13⟩, ⟨⟨13⟩, ⟨4⟩, ⟨1⟩⟩), (⟨14⟩, ⟨⟨14⟩, ⟨7⟩, ⟨5⟩⟩),
    (⟨15⟩, ⟨⟨15⟩, ⟨10⟩, ⟨8⟩⟩)]

/-- The selection fails: the target and the array are all that is left of the pass. -/
theorem evaluation_leaves_array : missingItem.restore = .ok missingItem ∧ missingItem.terminal = some ⟨9⟩
    ∧ (missingItem.evaluateWithin 5 (Pipeline.Builder.new .pipeline false)).map (fun e =>
        (e.result, e.graph.nodes.values.map Node.evaluated, e.graph.outputPins.values.map OutputPin.value))
      = some (.error (.error (.indexOutOfRange ⟨6⟩ 2 2)), [true, true, false, false],
          [some ⟨0⟩, some ⟨1⟩, none])
    ∧ (missingItem.evaluateWithin 5 (Pipeline.Builder.new .pipeline false)).map (fun e => e.backend.entries)
      = some #[.operation ((Operation.plain .provideTarget (.scalar Base.target) []).named Provider.target.label),
          .group "Concat Target" [⟨0⟩, ⟨0⟩]]
    ∧ ∃ js, missingItem.Aftermath (Pipeline.Builder.new .pipeline false) ⟨9⟩ js := by
  have loaded : missingItem.restore = .ok missingItem := by decide
  exact ⟨loaded, rfl, by decide, by decide, evaluation_leaves loaded rfl _⟩

end Graph

end FrameGraph
