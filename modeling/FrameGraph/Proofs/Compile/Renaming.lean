/-
  FrameGraph.Proofs.Compile.Renaming: only what the terminal depends on matters, and not under
  which names.

  Two graphs look alike from their terminals if the nodes and pins upstream of one terminal can
  be given the names that they have upstream of the other, with the same kinds, pins and
  connections (`Renames`). Nothing is asked of the rest of the graphs, nor of positions, marks,
  links, names of outputs, or the order of tables. Passes over two such graphs go abreast, also
  against different back ends as long as nodes cannot tell them apart: they compile the same
  nodes under their two names, keep the same values, and stop with the same mistake
  (`visit_abreast`, `evaluate_abreast`).
-/

import FrameGraph.Proofs.Compile.Meaning
import FrameGraph.Proofs.Compile.Parallel

namespace FrameGraph.Graph

/-! ## What the terminal depends on -/

/-- The terminal or a node upstream of it. -/
def Used (g : Graph) (id : NodeId) : Prop := ∃ t, g.terminal = some t ∧ g.Upstream t id

def UsedPin (g : Graph) (pin : PinId) : Prop := ∃ id n, g.Used id ∧ g.nodes.get? id = some n ∧ pin ∈ n.pins

/-- Nodes and pins that the terminal of `g` depends on are found in `g'` under other names. -/
structure Renames (g g' : Graph) (node : NodeId → NodeId) (pin : PinId → PinId) : Prop where
  terminal : g'.terminal = g.terminal.map node
  nodesApart : ∀ a b, g.Used a → g.Used b → node a = node b → a = b
  pinsApart : ∀ a b, g.UsedPin a → g.UsedPin b → pin a = pin b → a = b
  nodes : ∀ id n, g.Used id → g.nodes.get? id = some n → ∃ n', g'.nodes.get? (node id) = some n'
    ∧ n'.kind = n.kind ∧ n'.inputs = n.inputs.map pin ∧ n'.outputs = n.outputs.map pin
  inputs : ∀ k p, g.UsedPin k → g.inputPins.get? k = some p → ∃ p', g'.inputPins.get? (pin k) = some p'
    ∧ p'.name = p.name ∧ p'.type = p.type ∧ p'.optional = p.optional ∧ p'.connection = p.connection.map pin
  outputs : ∀ k p, g.UsedPin k → g.outputPins.get? k = some p →
    ∃ p', g'.outputPins.get? (pin k) = some p' ∧ p'.type = p.type

theorem Renames.refl (g : Graph) : Renames g g (fun id => id) fun k => k where
  terminal := by cases g.terminal <;> rfl
  nodesApart _ _ _ _ same := same
  pinsApart _ _ _ _ same := same
  nodes id n _ hn := ⟨n, hn, rfl, (List.map_id _).symm, (List.map_id _).symm⟩
  inputs k p _ hp := ⟨p, hp, rfl, rfl, rfl, by cases p.connection <;> rfl⟩
  outputs k p _ hp := ⟨p, hp, rfl⟩

variable {g g' : Graph} {node : NodeId → NodeId} {pin : PinId → PinId} {id : NodeId} {n : Node}

/-- Under names that are apart everywhere, it is enough to compare the entries of the tables. -/
theorem renames_of_entries (terminal : g'.terminal = g.terminal.map node)
    (nodesApart : ∀ a b, node a = node b → a = b) (pinsApart : ∀ a b, pin a = pin b → a = b)
    (nodes : ∀ e ∈ g.nodes.entries, (g'.nodes.get? (node e.1)).map (fun n => (n.kind, n.inputs, n.outputs))
      = some (e.2.kind, e.2.inputs.map pin, e.2.outputs.map pin))
    (inputs : ∀ e ∈ g.inputPins.entries, (g'.inputPins.get? (pin e.1)).map
      (fun p => (p.name, p.type, p.optional, p.connection))
        = some (e.2.name, e.2.type, e.2.optional, e.2.connection.map pin))
    (outputs : ∀ e ∈ g.outputPins.entries, (g'.outputPins.get? (pin e.1)).map OutputPin.type = some e.2.type) :
    Renames g g' node pin where
  terminal := terminal
  nodesApart a b _ _ same := nodesApart a b same
  pinsApart a b _ _ same := pinsApart a b same
  nodes id n _ hn := by
    obtain ⟨n', hn', same⟩ := Option.map_eq_some_iff.1 (nodes (id, n) (Table.get?_eq_some_iff.1 hn))
    simp only [Prod.mk.injEq] at same
    exact ⟨n', hn', same⟩
  inputs k p _ hp := by
    obtain ⟨p', hp', same⟩ := Option.map_eq_some_iff.1 (inputs (k, p) (Table.get?_eq_some_iff.1 hp))
    simp only [Prod.mk.injEq] at same
    exact ⟨p', hp', same⟩
  outputs k p _ hp := by
    obtain ⟨p', hp', same⟩ := Option.map_eq_some_iff.1 (outputs (k, p) (Table.get?_eq_some_iff.1 hp))
    exact ⟨p', hp', same⟩

theorem Used.input (used : g.Used id) (hn : g.nodes.get? id = some n) {k : PinId} (listed : k ∈ n.inputs) :
    g.UsedPin k :=
  ⟨id, n, used, hn, List.mem_append_left _ listed⟩

theorem Used.output (used : g.Used id) (hn : g.nodes.get? id = some n) {k : PinId} (listed : k ∈ n.outputs) :
    g.UsedPin k :=
  ⟨id, n, used, hn, List.mem_append_right _ listed⟩

theorem Used.feeder (used : g.Used id) (hn : g.nodes.get? id = some n) {k : PinId} {p : InputPin} {o : OutputPin}
    (listed : k ∈ n.inputs) (hp : g.inputPins.get? k = some p) (source : g.source? p = some o) :
    g.Used o.node := by
  obtain ⟨t, chosen, up⟩ := used
  exact ⟨t, chosen, .feeder up hn (List.mem_filterMap.2 ⟨k, listed, hp⟩) source⟩

/-! ## One input under two names -/

section Input

variable (renames : Renames g g' node pin) (sound : g.Sound) (sound' : g'.Sound) (used : g.Used id)
  (hn : g.nodes.get? id = some n) {k : PinId} (listed : k ∈ n.inputs) {p : InputPin}
  (hp : g.inputPins.get? k = some p)

include sound renames used hn in
/-- An output of a used node has the new name of its pin and of its node. -/
theorem Renames.output_eq (sound' : g'.Sound) {output : PinId} (listed : output ∈ n.outputs) :
    ∃ o', g'.outputPins.get? (pin output) = some o' ∧ o'.node = node id := by
  obtain ⟨o, ho, -⟩ := sound.outputListed id n hn output listed
  obtain ⟨n', hn', -, -, outputs⟩ := renames.nodes id n used hn
  obtain ⟨o', ho', owner⟩ := sound'.outputListed (node id) n' hn' (pin output)
    (outputs ▸ List.mem_map_of_mem listed)
  exact ⟨o', ho', owner⟩

include renames sound sound' used hn listed hp

theorem Renames.feeder_unfed {stop : Stop} (unfed : g.feeder? id k = .error stop) :
    ∃ stop', g'.feeder? (node id) (pin k) = .error stop'
      ∧ Matches node (.error stop : Except Stop Unit) (.error stop') := by
  obtain ⟨source, required, rfl⟩ := sound.unfed hp unfed
  obtain ⟨p', hp', name, -, optional, connection⟩ := renames.inputs k p (used.input hn listed) hp
  have source' : g'.source? p' = none := by simp [source?, connection, sound.unlinked hp source]
  refine ⟨.error (.missingRequiredInput (node id) p.name), ?_, .stopped (.error (.missingRequiredInput id p.name))⟩
  rw [sound'.feeder?_eq hp', source', optional, required, name]
  rfl

theorem Renames.feeder_free (free : g.feeder? id k = .ok none) : g'.feeder? (node id) (pin k) = .ok none := by
  obtain ⟨source, optional⟩ := sound.free hp free
  obtain ⟨p', hp', -, -, optional', connection⟩ := renames.inputs k p (used.input hn listed) hp
  have source' : g'.source? p' = none := by simp [source?, connection, sound.unlinked hp source]
  rw [sound'.feeder?_eq hp', source', optional', optional]
  rfl

theorem Renames.feeder_fed {feeder : NodeId} (fed : g.feeder? id k = .ok (some feeder)) :
    g'.feeder? (node id) (pin k) = .ok (some (node feeder)) ∧ g.Used feeder := by
  obtain ⟨o, m, source, rfl, -⟩ := sound.fed hp fed
  obtain ⟨p', hp', -, -, -, connection⟩ := renames.inputs k p (used.input hn listed) hp
  have upstream := used.feeder hn listed hp source
  obtain ⟨linked, ho⟩ := sound.connection_eq source
  obtain ⟨m, hm, mine⟩ := sound.outputOwner o.id o ho
  obtain ⟨o', ho', owner⟩ := renames.output_eq sound upstream hm sound' mine
  have source' : g'.source? p' = some o' := by simp [source?, connection, linked, ho']
  refine ⟨?_, upstream⟩
  rw [sound'.feeder?_eq hp', source', ← owner]

end Input

/-! ## What a node sees -/

/-- Values that are looked up under new names. -/
theorem lookup_renamed {values : List (PinId × Handle)} {k : PinId}
    (apart : ∀ e ∈ values, pin e.1 = pin k → e.1 = k) :
    (values.map fun e => (pin e.1, e.2)).lookup (pin k) = values.lookup k := by
  induction values with
  | nil => rfl
  | cons e values ih =>
    have rest := ih fun e he => apart e (List.mem_cons_of_mem _ he)
    by_cases same : e.1 = k
    · subst same
      rw [List.map_cons, List.lookup_cons_self, List.lookup_cons_self]
    · have other : (k == e.1) = false := by simpa using Ne.symm same
      have other' : (pin k == pin e.1) = false := by
        simpa using fun eq => same (apart e List.mem_cons_self (Eq.symm eq))
      rw [List.map_cons, List.lookup_cons, List.lookup_cons, other, other']
      exact rest

theorem map_filterMap_renamed {α α' β : Type} {look : PinId → Option α} {look' : PinId → Option α'} {f : α → β}
    {f' : α' → β} {pins : List PinId} (each : ∀ k ∈ pins, (look' (pin k)).map f' = (look k).map f) :
    ((pins.map pin).filterMap look').map f' = (pins.filterMap look).map f := by
  rw [List.filterMap_map, List.map_filterMap, List.map_filterMap]
  exact List.filterMap_congr each

variable {values : List (PinId × Handle)}

theorem Renames.context_eq (renames : Renames g g' node pin) (sound : g.Sound) (sound' : g'.Sound)
    (used : g.Used id) (hn : g.nodes.get? id = some n) (usedPins : ∀ e ∈ values, g.UsedPin e.1) {n' : Node}
    (hn' : g'.nodes.get? (node id) = some n') (inputs : n'.inputs = n.inputs.map pin)
    (outputs : n'.outputs = n.outputs.map pin) :
    ∃ c, g.context values id n = .ok c
      ∧ g'.context (values.map fun e => (pin e.1, e.2)) (node id) n' = .ok (c.renamed node) := by
  refine ⟨_, sound.context_eq values hn, (sound'.context_eq _ hn').trans (congrArg Except.ok ?_)⟩
  have slots : (g'.inputsOf n').map (seen (values.map fun e => (pin e.1, e.2)))
      = (g.inputsOf n).map (seen values) := by
    rw [inputsOf, inputsOf, inputs]
    refine map_filterMap_renamed fun k listed => ?_
    obtain ⟨p, hp, -⟩ := sound.inputListed id n hn k listed
    obtain ⟨p', hp', name, type, -, connection⟩ := renames.inputs k p (used.input hn listed) hp
    rw [hp, hp', Option.map_some, Option.map_some, seen, seen, name, type, connection]
    cases fed : p.connection with
    | none => rfl
    | some output =>
      obtain ⟨o, ho, source⟩ := sound.source?_eq hp fed
      obtain ⟨m, hm, mine⟩ := sound.outputOwner output o ho
      have usedOutput := (used.feeder hn listed hp source).output hm mine
      have found : (values.map fun e => (pin e.1, e.2)).lookup (pin output) = values.lookup output :=
        lookup_renamed fun e he same => renames.pinsApart _ _ (usedPins e he) usedOutput same
      simp only [Option.map_some, Option.bind_some, found]
  have types : (g'.outputsOf n').map OutputPin.type = (g.outputsOf n).map OutputPin.type := by
    rw [outputsOf, outputsOf, outputs]
    refine map_filterMap_renamed fun k listed => ?_
    obtain ⟨o, ho, -⟩ := sound.outputListed id n hn k listed
    obtain ⟨o', ho', type⟩ := renames.outputs k o (used.output hn listed) ho
    rw [ho, ho', Option.map_some, Option.map_some, type]
  rw [slots, types]
  rfl

/-! ## Two passes abreast -/

variable {ε ε' : Type} [Evaluator ε] [Evaluator ε'] {related : ε → ε' → Prop}

/-- Two passes have done the same so far, under two sets of names. -/
structure Abreast (related : ε → ε' → Prop) (g : Graph) (node : NodeId → NodeId) (pin : PinId → PinId)
    (p : Progress ε) (p' : Progress ε') : Prop where
  backends : related p.backend p'.backend
  compiled : p'.compiled = p.compiled.map node
  values : p'.values = p.values.map fun e => (pin e.1, e.2)
  used : ∀ id ∈ p.compiled, g.Used id
  usedPins : ∀ e ∈ p.values, g.UsedPin e.1

/-- The passes end a step alike and are abreast again. -/
structure StaysAbreast (related : ε → ε' → Prop) (g : Graph) (node : NodeId → NodeId) (pin : PinId → PinId)
    (out : Except Stop Unit × Progress ε) (out' : Except Stop Unit × Progress ε') : Prop where
  answer : Matches node out.1 out'.1
  progress : Abreast related g node pin out.2 out'.2

theorem mem_renamed {ids : List NodeId} (renames : Renames g g' node pin) (usedIds : ∀ m ∈ ids, g.Used m)
    (used : g.Used id) : node id ∈ ids.map node ↔ id ∈ ids := by
  constructor
  · intro met
    obtain ⟨m, member, same⟩ := List.mem_map.1 met
    rwa [← renames.nodesApart m id (usedIds m member) used same]
  · exact fun met => List.mem_map_of_mem met

variable {p : Progress ε} {p' : Progress ε'}

omit [Evaluator ε] [Evaluator ε'] in
/-- A node that compiles enters the values of its outputs in both passes. -/
theorem Abreast.entered (abreast : Abreast related g node pin p p') (used : g.Used id)
    (hn : g.nodes.get? id = some n) {b : ε} {b' : ε'} (backends : related b b') (values : List Handle)
    (events events' : List Event) :
    Abreast related g node pin ⟨b, id :: p.compiled, (n.outputs.zip values).reverse ++ p.values, events⟩
      ⟨b', node id :: p'.compiled, ((n.outputs.map pin).zip values).reverse ++ p'.values, events'⟩ where
  backends := backends
  compiled := by rw [abreast.compiled, List.map_cons]
  values := by
    rw [abreast.values, List.zip_map_left, ← List.map_reverse, List.map_append]
    rfl
  used m done := by
    rcases List.mem_cons.1 done with rfl | done
    · exact used
    · exact abreast.used m done
  usedPins e he := by
    rcases List.mem_append.1 he with new | old
    · have listed : e.1 ∈ n.outputs := (List.of_mem_zip (List.mem_reverse.1 new)).1
      exact used.output hn listed
    · exact abreast.usedPins e old

/-- A node that is new to both passes goes on as its inputs do. -/
theorem node_abreast {path : List NodeId} (renames : Renames g g' node pin)
    (abreast : Abreast related g node pin p p') (used : g.Used id) (usedPath : ∀ m ∈ path, g.Used m)
    (hn : g.nodes.get? id = some n) (fresh : id ∉ p.compiled) (new : id ∉ path) {n' : Node}
    (hn' : g'.nodes.get? (node id) = some n') (listed : n'.inputs = n.inputs.map pin)
    (inputs : StaysAbreast related g node pin (g.visitInputs (id :: path) id n.inputs p)
      (g'.visitInputs ((id :: path).map node) (node id) (n.inputs.map pin) p'))
    (compile : ∀ q q', Abreast related g node pin q q' →
      StaysAbreast related g node pin (g.compileNode id n q) (g'.compileNode (node id) n' q')) :
    StaysAbreast related g node pin (g.visit path id p) (g'.visit (path.map node) (node id) p') := by
  have fresh' : node id ∉ p'.compiled :=
    abreast.compiled ▸ fun met => fresh ((mem_renamed renames abreast.used used).1 met)
  have new' : node id ∉ path.map node := fun met => new ((mem_renamed renames usedPath used).1 met)
  rw [← listed, List.map_cons] at inputs
  cases visited : g.visitInputs (id :: path) id n.inputs p with
  | mk answer q =>
    cases visited' : g'.visitInputs (node id :: path.map node) (node id) n'.inputs p' with
    | mk answer' q' =>
      rw [visited, visited'] at inputs
      obtain ⟨same, after⟩ := inputs
      dsimp only at same after
      cases same with
      | answered done =>
        rw [visit_settled hn fresh new visited, visit_settled hn' fresh' new' visited']
        exact compile q q' after
      | stopped s =>
        rw [visit_stopped hn fresh new visited, visit_stopped hn' fresh' new' visited']
        exact ⟨.stopped s, after⟩

/-- A fed pin and those after it keep two passes abreast if the feeder does and, once it is
compiled, the others do. -/
theorem inputs_abreast_fed {path path' : List NodeId} {id' feeder feeder' : NodeId} {k k' : PinId}
    {pins pins' : List PinId} (fed : g.feeder? id k = .ok (some feeder))
    (fed' : g'.feeder? id' k' = .ok (some feeder'))
    (feeds : StaysAbreast related g node pin (g.visit path feeder p) (g'.visit path' feeder' p'))
    (rest : ∀ q q', g.visit path feeder p = (.ok (), q) → Abreast related g node pin q q' →
      StaysAbreast related g node pin (g.visitInputs path id pins q) (g'.visitInputs path' id' pins' q')) :
    StaysAbreast related g node pin (g.visitInputs path id (k :: pins) p)
      (g'.visitInputs path' id' (k' :: pins') p') := by
  cases visited : g.visit path feeder p with
  | mk answer q =>
    cases visited' : g'.visit path' feeder' p' with
    | mk answer' q' =>
      rw [visited, visited'] at feeds
      obtain ⟨same, after⟩ := feeds
      dsimp only at same after
      cases same with
      | answered done =>
        rw [visitInputs_fed fed visited, visitInputs_fed fed' visited']
        exact rest q q' visited after
      | stopped s =>
        rw [visitInputs_stopped fed visited, visitInputs_stopped fed' visited']
        exact ⟨.stopped s, after⟩

section Passes

variable (alike : Indistinct related) (renames : Renames g g' node pin) (sound : g.Sound) (sound' : g'.Sound)
include alike renames sound sound'

theorem Abreast.compileNode (abreast : Abreast related g node pin p p') (used : g.Used id)
    (hn : g.nodes.get? id = some n) {n' : Node} (hn' : g'.nodes.get? (node id) = some n') (kind : n'.kind = n.kind)
    (inputs : n'.inputs = n.inputs.map pin) (outputs : n'.outputs = n.outputs.map pin) :
    StaysAbreast related g node pin (g.compileNode id n p) (g'.compileNode (node id) n' p') := by
  obtain ⟨c, seen, seen'⟩ := renames.context_eq sound sound' used hn abreast.usedPins hn' inputs outputs
  rw [← abreast.values] at seen'
  obtain ⟨same, backends⟩ := evaluate_parallel alike node c n.kind p.backend p'.backend abreast.backends
  unfold Graph.compileNode
  rw [seen, seen', kind, outputs, List.length_map]
  dsimp only
  cases hx : (n.kind.evaluate c).run p.backend with
  | mk answer b =>
    cases hy : (n.kind.evaluate (c.renamed node)).run p'.backend with
    | mk answer' b' =>
      rw [hx, hy] at same backends
      dsimp only at same backends ⊢
      cases same with
      | stopped s => exact ⟨.stopped s, { abreast with backends := backends }⟩
      | answered values =>
        dsimp only
        by_cases count : values.length = n.outputs.length
        · rw [if_pos count, if_pos count]
          exact ⟨.answered (), abreast.entered used hn backends values _ _⟩
        · rw [if_neg count, if_neg count]
          exact ⟨.stopped (.fault (.wrongValueCount id)), { abreast with backends := backends }⟩

/-- Visiting a node under its two names keeps two passes abreast. -/
theorem visit_abreast (path : List NodeId) (id : NodeId) (p : Progress ε) (p' : Progress ε')
    (abreast : Abreast related g node pin p p') (used : g.Used id) (usedPath : ∀ m ∈ path, g.Used m)
    (registered : ∃ n, g.nodes.get? id = some n) :
    StaysAbreast related g node pin (g.visit path id p) (g'.visit (path.map node) (node id) p') := by
  have onPath : ∀ {path : List NodeId} {id : NodeId}, g.Used id → (∀ m ∈ path, g.Used m) →
      ∀ m ∈ id :: path, g.Used m := by
    intro path id used usedPath m met
    rcases List.mem_cons.1 met with rfl | met
    · exact used
    · exact usedPath m met
  -- The induction follows the first pass. Each case shows that the second takes the same branch,
  -- which needs the names on the path and among the compiled nodes to be names of used nodes.
  refine visit.induct g
    (fun path id p => ∀ p' : Progress ε', Abreast related g node pin p p' → g.Used id → (∀ m ∈ path, g.Used m) →
      (∃ n, g.nodes.get? id = some n) →
      StaysAbreast related g node pin (g.visit path id p) (g'.visit (path.map node) (node id) p'))
    (fun path id pins p => ∀ p' : Progress ε', Abreast related g node pin p p' → g.Used id →
      (∀ m ∈ path, g.Used m) → (∃ n, g.nodes.get? id = some n ∧ ∀ k ∈ pins, k ∈ n.inputs) →
      StaysAbreast related g node pin (g.visitInputs path id pins p)
        (g'.visitInputs (path.map node) (node id) (pins.map pin) p'))
    ?unregistered ?compiled ?cycle ?stopped ?settled ?noPins ?unfed ?free ?feederStopped ?feederSettled
    path id p p' abreast used usedPath registered
  case unregistered =>
    intro path id p unregistered _ _ _ _ registered
    obtain ⟨n, hn⟩ := registered
    rw [unregistered] at hn
    cases hn
  case compiled =>
    intro path id p n hn compiled p' abreast used _ _
    obtain ⟨n', hn', -⟩ := renames.nodes id n used hn
    have compiled' : node id ∈ p'.compiled :=
      abreast.compiled ▸ (mem_renamed renames abreast.used used).2 compiled
    rw [visit_compiled hn compiled, visit_compiled hn' compiled']
    exact ⟨.answered (), abreast⟩
  case cycle =>
    intro path id p n hn fresh met p' abreast used usedPath _
    obtain ⟨n', hn', -⟩ := renames.nodes id n used hn
    have fresh' : node id ∉ p'.compiled :=
      abreast.compiled ▸ fun met => fresh ((mem_renamed renames abreast.used used).1 met)
    have met' := (mem_renamed renames usedPath used).2 met
    rw [visit_cycle hn fresh met, visit_cycle hn' fresh' met']
    exact ⟨.stopped (.error (.cyclicDependency id)), abreast⟩
  case stopped =>
    intro path id p n hn fresh new stop q stopped ih p' abreast used usedPath _
    obtain ⟨n', hn', kind, inputs, outputs⟩ := renames.nodes id n used hn
    exact node_abreast renames abreast used usedPath hn fresh new hn' inputs
      (ih p' abreast used (onPath used usedPath) ⟨n, hn, fun _ listed => listed⟩) fun q q' abreast =>
        abreast.compileNode alike renames sound sound' used hn hn' kind inputs outputs
  case settled =>
    intro path id p n hn fresh new q settled ih p' abreast used usedPath _
    obtain ⟨n', hn', kind, inputs, outputs⟩ := renames.nodes id n used hn
    exact node_abreast renames abreast used usedPath hn fresh new hn' inputs
      (ih p' abreast used (onPath used usedPath) ⟨n, hn, fun _ listed => listed⟩) fun q q' abreast =>
        abreast.compileNode alike renames sound sound' used hn hn' kind inputs outputs
  case noPins =>
    intro path id p p' abreast _ _ _
    rw [List.map_nil, visitInputs_nil, visitInputs_nil]
    exact ⟨.answered (), abreast⟩
  case unfed =>
    intro path id p k pins stop unfed p' abreast used _ lists
    obtain ⟨n, hn, listed⟩ := lists
    obtain ⟨i, hi, -⟩ := sound.inputListed id n hn k (listed k List.mem_cons_self)
    obtain ⟨stop', unfed', same⟩ :=
      renames.feeder_unfed sound sound' used hn (listed k List.mem_cons_self) hi unfed
    rw [List.map_cons, visitInputs_unfed unfed, visitInputs_unfed unfed']
    exact ⟨same, abreast⟩
  case free =>
    intro path id p k pins free ih p' abreast used usedPath lists
    obtain ⟨n, hn, listed⟩ := lists
    obtain ⟨i, hi, -⟩ := sound.inputListed id n hn k (listed k List.mem_cons_self)
    have free' := renames.feeder_free sound sound' used hn (listed k List.mem_cons_self) hi free
    rw [List.map_cons, visitInputs_free free, visitInputs_free free']
    exact ih p' abreast used usedPath ⟨n, hn, fun m member => listed m (List.mem_cons_of_mem _ member)⟩
  case feederStopped =>
    intro path id p k pins feeder fed stop q stopped ih p' abreast used usedPath lists
    obtain ⟨n, hn, listed⟩ := lists
    obtain ⟨i, hi, -⟩ := sound.inputListed id n hn k (listed k List.mem_cons_self)
    obtain ⟨o, m, -, rfl, hm⟩ := sound.fed hi fed
    obtain ⟨fed', usedFeeder⟩ := renames.feeder_fed sound sound' used hn (listed k List.mem_cons_self) hi fed
    -- The feeder stopped, so neither pass comes to the other pins.
    refine inputs_abreast_fed fed fed' (ih p' abreast usedFeeder usedPath ⟨m, hm⟩) fun q' r ok => ?_
    rw [stopped] at ok
    cases ok
  case feederSettled =>
    intro path id p k pins feeder fed q settled ih rest p' abreast used usedPath lists
    obtain ⟨n, hn, listed⟩ := lists
    obtain ⟨i, hi, -⟩ := sound.inputListed id n hn k (listed k List.mem_cons_self)
    obtain ⟨o, m, -, rfl, hm⟩ := sound.fed hi fed
    obtain ⟨fed', usedFeeder⟩ := renames.feeder_fed sound sound' used hn (listed k List.mem_cons_self) hi fed
    refine inputs_abreast_fed fed fed' (ih p' abreast usedFeeder usedPath ⟨m, hm⟩) fun q' r ok abreast => ?_
    rw [settled] at ok
    cases ok
    exact rest r abreast used usedPath ⟨n, hn, fun m member => listed m (List.mem_cons_of_mem _ member)⟩

theorem terminal_abreast {terminal : NodeId} (chosen : g.terminal = some terminal) {b : ε} {b' : ε'}
    (start : related b b') (events events' : List Event) :
    StaysAbreast related g node pin (g.visit [] terminal ⟨b, [], [], events⟩)
      (g'.visit [] (node terminal) ⟨b', [], [], events'⟩) := by
  have fresh : Abreast related g node pin ⟨b, [], [], events⟩ ⟨b', [], [], events'⟩ :=
    ⟨start, rfl, rfl, (fun _ none => by cases none), fun _ none => by cases none⟩
  exact visit_abreast alike renames sound sound' [] terminal _ _ fresh ⟨terminal, chosen, .terminal⟩
    (fun _ none => by cases none) (sound.terminalKnown terminal chosen)

/-- Graphs that look alike from their terminals are evaluated alike. -/
theorem evaluate_abreast {b : ε} {b' : ε'} (start : related b b') :
    Matches node (g.evaluate b).result (g'.evaluate b').result
      ∧ related (g.evaluate b).backend (g'.evaluate b').backend := by
  cases chosen : g.terminal with
  | none =>
    have none' : g'.terminal = none := by rw [renames.terminal, chosen]; rfl
    rw [evaluate_unchosen chosen, evaluate_unchosen none']
    exact ⟨.stopped (.error .noTerminalNode), start⟩
  | some terminal =>
    have chosen' : g'.terminal = some (node terminal) := by rw [renames.terminal, chosen]; rfl
    obtain ⟨-, backend, result⟩ := evaluate_chosen chosen b
    obtain ⟨-, backend', result'⟩ := evaluate_chosen chosen' b'
    obtain ⟨same, after⟩ := terminal_abreast alike renames sound sound' chosen start _ _
    rw [backend, result, backend', result']
    exact ⟨same, after.backends⟩

end Passes

end FrameGraph.Graph
