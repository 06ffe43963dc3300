/-
  FrameGraph.Proofs.Store.Removing: a node that is removed takes what hangs on it and nothing else.

  With the node go the pins that it lists and the links that touch one of them, whichever way they
  lead. All that is seen elsewhere is that an input forgets the output that fed it, if that was an
  output of the node (`fedBy_without`). Everything that is left stands in its table in the order in
  which it stood before (`Removes`), so that adding a node and removing it again costs the ids that
  were handed out and nothing more (`removeNode_removes`).
-/

import FrameGraph.Proofs.Store.Runs

namespace FrameGraph.Graph

/-- `g'` is `g` without the node `n`, its pins, and the links at them. -/
structure Removes (g : Graph) (id : NodeId) (n : Node) (g' : Graph) : Prop where
  nodes : g'.nodes.entries = g.nodes.entries.filter fun e => decide (e.1 ≠ id)
  inputPins : g'.inputPins.entries = (g.inputPins.entries.filter fun e => decide (e.1 ∉ n.inputs)).map fun e =>
    (e.1, { e.2 with connection := e.2.connection.filter fun pin => decide (pin ∉ n.outputs) })
  outputPins : g'.outputPins.entries = g.outputPins.entries.filter fun e => decide (e.1 ∉ n.outputs)
  links : g'.links.entries = g.links.entries.filter fun e => decide (e.2.input ∉ n.pins ∧ e.2.output ∉ n.pins)
  terminal : g'.terminal = if g.terminal = some id then none else g.terminal
  heading : g'.id = g.id ∧ g'.name = g.name ∧ g'.nextId = g.nextId

variable {g : Graph} {id : NodeId} {n : Node}

/-! ## What is left of the links -/

theorem not_mem_linksAt_iff (h : g.Linked) {k : LinkId} {l : Link} (hl : g.links.get? k = some l) :
    k ∉ g.linksAt n ↔ l.input ∉ n.pins ∧ l.output ∉ n.pins := by
  rw [mem_linksAt_iff h, hl, ← not_or]
  simp

theorem get?_links_without (h : g.Linked) {k : LinkId} {l : Link} : (g.without id n).links.get? k = some l
    ↔ g.links.get? k = some l ∧ l.input ∉ n.pins ∧ l.output ∉ n.pins := by
  rw [without, Table.get?_eraseAll_eq_some]
  exact and_congr_right fun hl => not_mem_linksAt_iff h hl

/-- Inputs of other nodes forget an output only if it goes. -/
theorem fedBy_without (h : g.Sound) (hn : g.nodes.get? id = some n) {pin : PinId} {p : InputPin}
    (hp : g.inputPins.get? pin = some p) (stays : pin ∉ n.inputs) :
    fedBy (g.without id n).links pin = p.connection.filter fun o => decide (o ∉ n.outputs) := by
  have single : Single (g.without id n).links :=
    single_of_fewer h.single fun k l hl => ((get?_links_without h.toLinked).1 hl).1
  refine Option.ext fun o => ?_
  rw [fedBy_eq_some_iff single, Option.filter_eq_some_iff, decide_eq_true_iff, h.remembered pin p o hp]
  constructor
  · intro linked
    obtain ⟨k, l, hl, enters, rfl⟩ := linked
    obtain ⟨old, -, leaves⟩ := (get?_links_without h.toLinked).1 hl
    exact ⟨⟨k, l, old, enters, rfl⟩, fun listed => leaves (List.mem_append_right _ listed)⟩
  · intro linked
    obtain ⟨⟨k, l, hl, rfl, rfl⟩, stays'⟩ := linked
    -- an input is no output, so that the pins of the node are none of the two ends
    obtain ⟨⟨o, ho⟩, i, hi⟩ := h.ends k l hl
    have entered : l.input ∉ n.outputs := by
      intro listed
      obtain ⟨_, known, -⟩ := h.outputListed id n hn l.input listed
      exact h.apart (Table.mem_keys_of_get? hi) (Table.mem_keys_of_get? known)
    have left : l.output ∉ n.inputs := by
      intro listed
      obtain ⟨_, known, -⟩ := h.inputListed id n hn l.output listed
      exact h.apart (Table.mem_keys_of_get? known) (Table.mem_keys_of_get? ho)
    have away : l.input ∉ n.pins ∧ l.output ∉ n.pins := by
      simp only [Node.pins, List.mem_append, not_or]
      exact ⟨⟨stays, entered⟩, left, stays'⟩
    exact ⟨k, l, (get?_links_without h.toLinked).2 ⟨hl, away⟩, rfl, rfl⟩

theorem without_removes (h : g.Sound) (hn : g.nodes.get? id = some n) : g.Removes id n (g.without id n).rewired where
  nodes := rfl
  inputPins := by
    simp only [rewired, Table.mapWithKey]
    show ((g.inputPins.eraseAll n.inputs).entries.map _) = _
    rw [Table.entries_eraseAll]
    refine List.map_congr_left fun e he => ?_
    obtain ⟨stored, stays⟩ := List.mem_filter.1 he
    rw [fedBy_without h hn (Table.get?_of_mem stored) (of_decide_eq_true stays)]
  outputPins := Table.entries_eraseAll ..
  links := by
    have kept : ∀ e ∈ g.links.entries, decide (e.1 ∉ g.linksAt n)
        = decide (e.2.input ∉ n.pins ∧ e.2.output ∉ n.pins) := fun e he =>
      decide_eq_decide.2 (not_mem_linksAt_iff h.toLinked (Table.get?_of_mem he))
    rw [← List.filter_congr kept]
    exact Table.entries_eraseAll ..
  terminal := rfl
  heading := ⟨rfl, rfl, rfl⟩

/-! ## A node that has just been added -/

/-- Taking out what was put behind everything else. -/
theorem filter_append_new {α : Type} {old new : List α} {p : α → Bool} (kept : ∀ a ∈ old, p a = true)
    (gone : ∀ a ∈ new, p a = false) : (old ++ new).filter p = old := by
  have none : new.filter p = [] := List.filter_eq_nil_iff.2 fun a ha => by simp [gone a ha]
  rw [List.filter_append, List.filter_eq_self.2 kept, none, List.append_nil]

/-- The pins of a new node are numbered behind all others. -/
theorem Added.pins_new {kind : Kind} {position : Position} {g' : Graph} (a : g.Added kind position g')
    (numbered : g.Numbered) (hn : g'.nodes.get? ⟨g.nextId⟩ = some n) :
    g'.nodes.entries = g.nodes.entries ++ [(⟨g.nextId⟩, n)]
      ∧ n.inputs = (freshInputs ⟨g.nextId⟩ (g.nextId + 1) kind.inputSpecs).map Prod.fst
      ∧ n.outputs = (freshOutputs ⟨g.nextId⟩ (g.nextId + 1 + kind.inputSpecs.length) kind.outputSpecs).map Prod.fst
      ∧ ∀ pin ∈ n.pins, g.nextId < pin.val := by
  rcases a.get?_node.1 hn with old | new
  · exact absurd (numbered.node_lt (Table.mem_keys_of_get? old)) (Nat.lt_irrefl _)
  · cases new
    refine ⟨a.nodes, rfl, rfl, fun pin listed => ?_⟩
    simp only [Node.pins, keys_freshInputs, keys_freshOutputs, ← List.map_append, List.range'_append_1] at listed
    obtain ⟨i, hi, rfl⟩ := List.mem_map.1 listed
    exact (List.mem_range'_1.1 hi).1

theorem Added.removed {kind : Kind} {position : Position} {g' g'' : Graph} (a : g.Added kind position g') (h : g.Sound)
    (hn : g'.nodes.get? ⟨g.nextId⟩ = some n) (r : g'.Removes ⟨g.nextId⟩ n g'') :
    g'' = { g with nextId := g'.nextId } := by
  obtain ⟨entries, inputs, outputs, high⟩ := a.pins_new h.toNumbered hn
  have low : ∀ {pin : PinId}, pin.val < g.nextId → pin ∉ n.pins := fun below listed =>
    Nat.lt_asymm below (high _ listed)
  have input_low : ∀ {pin p}, g.inputPins.get? pin = some p → pin ∉ n.pins := fun hp =>
    low (h.input_lt (Table.mem_keys_of_get? hp))
  have output_low : ∀ {pin p}, g.outputPins.get? pin = some p → pin ∉ n.pins := fun hp =>
    low (h.output_lt (Table.mem_keys_of_get? hp))
  have nodes : g''.nodes = g.nodes := by
    refine Table.ext ?_
    rw [r.nodes, entries]
    refine filter_append_new (fun e he => decide_eq_true fun here => ?_) (by simp)
    have below : e.1.val < g.nextId := h.node_lt (List.mem_map.2 ⟨e, he, rfl⟩)
    exact absurd (congrArg NodeId.val here) (Nat.ne_of_lt below)
  have inputPins : g''.inputPins = g.inputPins := by
    refine Table.ext ?_
    have kept : ∀ e ∈ g.inputPins.entries, decide (e.1 ∉ n.inputs) = true := fun e he =>
      decide_eq_true fun listed => input_low (Table.get?_of_mem he) (List.mem_append_left _ listed)
    have gone : ∀ e ∈ freshInputs ⟨g.nextId⟩ (g.nextId + 1) kind.inputSpecs, decide (e.1 ∉ n.inputs) = false := by
      intro e he
      rw [inputs, decide_eq_false_iff_not, not_not]
      exact List.mem_map.2 ⟨e, he, rfl⟩
    rw [r.inputPins, a.inputPins, filter_append_new kept gone]
    refine (List.map_congr_left fun e he => ?_).trans (List.map_id _)
    -- no old input was fed by a new output
    have same : e.2.connection.filter (fun pin => decide (pin ∉ n.outputs)) = e.2.connection := by
      refine Option.ext fun o => ?_
      rw [Option.filter_eq_some_iff, decide_eq_true_iff]
      refine and_iff_left_of_imp fun fed => ?_
      obtain ⟨k, l, hl, -, rfl⟩ := (h.remembered e.1 e.2 o (Table.get?_of_mem he)).1 fed
      obtain ⟨⟨o, ho⟩, -⟩ := h.ends k l hl
      exact fun listed => output_low ho (List.mem_append_right _ listed)
    rw [same]
    rfl
  have outputPins : g''.outputPins = g.outputPins := by
    refine Table.ext ?_
    rw [r.outputPins, a.outputPins]
    refine filter_append_new (fun e he => decide_eq_true fun listed => ?_) fun e he => ?_
    · exact output_low (Table.get?_of_mem he) (List.mem_append_right _ listed)
    · rw [outputs, decide_eq_false_iff_not, not_not]
      exact List.mem_map.2 ⟨e, he, rfl⟩
  have links : g''.links = g.links := by
    refine Table.ext ?_
    rw [r.links, a.links, List.filter_eq_self]
    intro e he
    obtain ⟨⟨o, ho⟩, i, hi⟩ := h.ends e.1 e.2 (Table.get?_of_mem he)
    exact decide_eq_true ⟨input_low hi, output_low ho⟩
  have terminal : g''.terminal = g.terminal := by
    rw [r.terminal, a.terminal, if_neg]
    intro here
    obtain ⟨m, hm⟩ := h.terminalKnown _ here
    exact absurd (h.node_lt (Table.mem_keys_of_get? hm)) (Nat.lt_irrefl _)
  have same_id : g''.id = g.id := by rw [r.heading.1, a.graph]
  have same_name : g''.name = g.name := by rw [r.heading.2.1, a.graph]
  calc g'' = ⟨g''.id, g''.name, g''.nextId, g''.terminal, g''.nodes, g''.inputPins, g''.outputPins, g''.links⟩ := rfl
    _ = { g with nextId := g'.nextId } := by
      rw [same_id, same_name, r.heading.2.2, terminal, nodes, inputPins, outputPins, links]

/-! ## Removing a node -/

/-- Removing a node answers with it and takes it out, and an id of none changes nothing. What was
added last can be taken out again. -/
theorem removeNode_removes (h : g.Sound) (id : NodeId) :
    (∀ n, g.nodes.get? id = some n →
        (g.removeNode id).result = some n ∧ g.Removes id n (g.removeNode id).graph)
      ∧ (g.nodes.get? id = none → (g.removeNode id).result = none ∧ (g.removeNode id).graph = g)
      ∧ ∀ kind position, ((g.addNode kind position).graph.removeNode (g.addNode kind position).result).graph
        = { g with nextId := (g.addNode kind position).graph.nextId } := by
  refine ⟨fun n hn => ?_, fun unknown => ?_, fun kind position => ?_⟩
  · refine ⟨by simp only [removeNode, hn], ?_⟩
    rw [removeNode_graph h.toLinked hn]
    exact without_removes h hn
  · simp [removeNode, unknown]
  · have a := added h.toNumbered kind position
    have made := a.get?_node.2 (.inr rfl)
    have sound := a.sound h
    have named : (g.addNode kind position).result = ⟨g.nextId⟩ := rfl
    rw [named, removeNode_graph sound.toLinked made]
    exact a.removed h made (without_removes sound made)

/-- Two sums of a property, of which the first is an operand of both. -/
def nestedSums : Except Fault Graph :=
  Edit.run [.addNode (.property "Gain" (.scalar Base.float)) .origin, .addNode .newAdd .origin,
    .addNode .newAdd .origin, .connect ⟨1⟩ ⟨3⟩, .connect ⟨5⟩ ⟨4⟩, .connect ⟨5⟩ ⟨7⟩, .connect ⟨1⟩ ⟨8⟩,
    .setTerminal ⟨2⟩] (.new .zero untitled)

/-- Without the first sum, the second one keeps the operand that is the property. -/
theorem removeNode_removes_sum : ∃ g n, nestedSums = .ok g ∧ g.Sound ∧ g.terminal = some ⟨2⟩
    ∧ g.links.keys = [⟨10⟩, ⟨11⟩, ⟨12⟩, ⟨13⟩] ∧ g.nodes.get? ⟨2⟩ = some n
    ∧ (g.removeNode ⟨2⟩).result = some n ∧ g.Removes ⟨2⟩ n (g.removeNode ⟨2⟩).graph
    ∧ (g.removeNode ⟨2⟩).graph.terminal = none ∧ (g.removeNode ⟨2⟩).graph.links.keys = [⟨13⟩]
    ∧ (g.removeNode ⟨2⟩).graph.inputPins.values.map InputPin.connection = [none, some ⟨1⟩] := by
  obtain ⟨g, ran, sound, -⟩ := Start.runs (.new .zero untitled) _
  have before : nestedSums.map (fun g => (g.terminal, g.links.keys))
      = .ok (some ⟨2⟩, [⟨10⟩, ⟨11⟩, ⟨12⟩, ⟨13⟩]) := by decide
  have after : nestedSums.map (fun g => ((g.removeNode ⟨2⟩).graph.terminal, (g.removeNode ⟨2⟩).graph.links.keys,
      (g.removeNode ⟨2⟩).graph.inputPins.values.map InputPin.connection))
      = .ok (none, [⟨13⟩], [none, some ⟨1⟩]) := by decide
  rw [nestedSums, ran] at before after
  simp only [Except.map, Except.ok.injEq, Prod.mk.injEq] at before after
  obtain ⟨terminal, links⟩ := before
  obtain ⟨terminal', links', connections⟩ := after
  obtain ⟨n, hn⟩ := sound.terminalKnown _ terminal
  obtain ⟨answer, removes⟩ := (removeNode_removes sound ⟨2⟩).1 n hn
  exact ⟨g, n, ran, sound, terminal, links, hn, answer, removes, terminal', links', connections⟩

end FrameGraph.Graph
