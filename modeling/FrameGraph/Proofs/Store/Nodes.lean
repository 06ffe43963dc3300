/-
  FrameGraph.Proofs.Store.Nodes: adding and removing nodes keeps a graph sound.

  New pins get the numbers from the counter on, in order, and come last in their table
  (`addInputs_eq`, `addOutputs_eq`); so does the new node (`added`). Removing a node takes
  exactly its pins and the links that touch them (`removeNode_graph`).
-/

import FrameGraph.Graph.Nodes
import FrameGraph.Proofs.Store.Links

namespace FrameGraph.Graph

/-! ## Numbers -/

/-- Ids drawn from the counter are new. -/
theorem Numbered.grown {g g' : Graph} (h : g.Numbered) {n : Nat}
    (drawn : g'.ids.Perm (List.range' g.nextId n ++ g.ids)) (counter : g'.nextId = g.nextId + n) :
    g'.Numbered := by
  constructor
  · rw [drawn.nodup_iff, List.nodup_append]
    refine ⟨List.nodup_range', h.distinct, ?_⟩
    intro a ha b hb same
    subst same
    have low := (List.mem_range'_1.1 ha).1
    have high := h.below a hb
    omega
  · intro i hi
    rcases List.mem_append.1 (drawn.subset hi) with hi | hi
    · have high := (List.mem_range'_1.1 hi).2
      omega
    · have high := h.below i hi
      omega

section Keys

variable {g : Graph} (h : g.Numbered)
include h

theorem Numbered.node_lt {k : NodeId} (hk : k ∈ g.nodes.keys) : k.val < g.nextId :=
  h.below _ (by simp only [ids, List.mem_append, List.mem_map]; exact .inl (.inl (.inl ⟨k, hk, rfl⟩)))

theorem Numbered.input_lt {k : PinId} (hk : k ∈ g.inputPins.keys) : k.val < g.nextId :=
  h.below _ (by simp only [ids, List.mem_append, List.mem_map]; exact .inl (.inl (.inr ⟨k, hk, rfl⟩)))

theorem Numbered.output_lt {k : PinId} (hk : k ∈ g.outputPins.keys) : k.val < g.nextId :=
  h.below _ (by simp only [ids, List.mem_append, List.mem_map]; exact .inl (.inr ⟨k, hk, rfl⟩))

theorem Numbered.link_lt {k : LinkId} (hk : k ∈ g.links.keys) : k.val < g.nextId :=
  h.below _ (by simp only [ids, List.mem_append, List.mem_map]; exact .inr ⟨k, hk, rfl⟩)

theorem Numbered.pins_lt (listed : g.Listed) {id : NodeId} {n : Node} (hn : g.nodes.get? id = some n) :
    ∀ pin ∈ n.pins, pin.val < g.nextId := by
  intro pin hpin
  rcases List.mem_append.1 hpin with hpin | hpin
  · obtain ⟨p, hp, -⟩ := listed.inputListed id n hn pin hpin
    exact h.input_lt (Table.mem_keys_of_get? hp)
  · obtain ⟨p, hp, -⟩ := listed.outputListed id n hn pin hpin
    exact h.output_lt (Table.mem_keys_of_get? hp)

theorem Numbered.link_fresh : (⟨g.nextId⟩ : LinkId) ∉ g.links.keys :=
  fun hk => Nat.lt_irrefl _ (h.link_lt hk)

/-- Every link enters an input that was numbered before now. -/
theorem Numbered.entered_lt (linked : g.Linked) {k : LinkId} {l : Link} (hl : g.links.get? k = some l) :
    l.input.val < g.nextId :=
  have ⟨_, hi⟩ := (linked.ends k l hl).2
  h.input_lt (Table.mem_keys_of_get? hi)

end Keys

/-! ## New pins -/

/-- The inputs that are made from some declarations, numbered from a start. -/
def freshInputs (node : NodeId) : Nat → List PinSpec → List (PinId × InputPin)
  | _, [] => []
  | start, spec :: specs =>
    (⟨start⟩, ⟨⟨start⟩, node, spec.name, spec.type, spec.optional, none⟩)
      :: freshInputs node (start + 1) specs

def freshOutputs (node : NodeId) : Nat → List PinSpec → List (PinId × OutputPin)
  | _, [] => []
  | start, spec :: specs =>
    (⟨start⟩, ⟨⟨start⟩, node, spec.name, spec.type, none⟩) :: freshOutputs node (start + 1) specs

theorem keys_freshInputs (node : NodeId) (specs : List PinSpec) (start : Nat) :
    (freshInputs node start specs).map Prod.fst = (List.range' start specs.length).map PinId.mk := by
  induction specs generalizing start with
  | nil => rfl
  | cons spec specs ih => simp [freshInputs, ih, List.range'_succ]

theorem keys_freshOutputs (node : NodeId) (specs : List PinSpec) (start : Nat) :
    (freshOutputs node start specs).map Prod.fst = (List.range' start specs.length).map PinId.mk := by
  induction specs generalizing start with
  | nil => rfl
  | cons spec specs ih => simp [freshOutputs, ih, List.range'_succ]

theorem nodup_fresh (start count : Nat) : ((List.range' start count).map PinId.mk).Nodup :=
  List.Pairwise.map _ (fun _ _ ne eq => ne (congrArg PinId.val eq)) List.nodup_range'

theorem mem_freshInputs {node : NodeId} {specs : List PinSpec} {start : Nat} {k : PinId} {p : InputPin}
    (h : (k, p) ∈ freshInputs node start specs) :
    p.id = k ∧ p.node = node ∧ p.connection = none ∧ start ≤ k.val := by
  induction specs generalizing start with
  | nil => cases h
  | cons spec specs ih =>
    rcases List.mem_cons.1 h with h | h
    · cases h
      exact ⟨rfl, rfl, rfl, Nat.le_refl _⟩
    · obtain ⟨key, owner, free, low⟩ := ih h
      exact ⟨key, owner, free, Nat.le_of_succ_le low⟩

theorem getElem?_freshInputs {node : NodeId} {specs : List PinSpec} {start i : Nat} {spec : PinSpec}
    (h : specs[i]? = some spec) : (freshInputs node start specs)[i]?
      = some (⟨start + i⟩, ⟨⟨start + i⟩, node, spec.name, spec.type, spec.optional, none⟩) := by
  induction specs generalizing start i with
  | nil => cases h
  | cons first specs ih =>
    cases i with
    | zero =>
      cases h
      rfl
    | succ i =>
      have next := @ih (start + 1) i h
      rw [Nat.add_assoc, Nat.add_comm 1 i] at next
      exact next

theorem mem_freshOutputs {node : NodeId} {specs : List PinSpec} {start : Nat} {k : PinId} {p : OutputPin}
    (h : (k, p) ∈ freshOutputs node start specs) : p.id = k ∧ p.node = node := by
  induction specs generalizing start with
  | nil => cases h
  | cons spec specs ih =>
    rcases List.mem_cons.1 h with h | h
    · cases h
      exact ⟨rfl, rfl⟩
    · exact ih h

theorem addInputs_eq (node : NodeId) (specs : List PinSpec) {g : Graph}
    (below : ∀ k ∈ g.inputPins.keys, k.val < g.nextId) :
    ∃ pins : Table PinId InputPin, pins.entries = g.inputPins.entries ++ freshInputs node g.nextId specs ∧
      addInputs node specs g = ({ g with nextId := g.nextId + specs.length, inputPins := pins },
        (freshInputs node g.nextId specs).map Prod.fst) := by
  induction specs generalizing g with
  | nil => exact ⟨g.inputPins, by simp [freshInputs], rfl⟩
  | cons spec specs ih =>
    have new : (⟨g.nextId⟩ : PinId) ∉ g.inputPins.keys := fun hk => Nat.lt_irrefl _ (below _ hk)
    have below' : ∀ k ∈ (g.addInput node spec).1.inputPins.keys, k.val < (g.addInput node spec).1.nextId := by
      intro k hk
      simp only [addInput, Table.keys_insert, new, if_false, List.mem_append, List.mem_singleton] at hk ⊢
      rcases hk with hk | rfl
      · exact Nat.lt_succ_of_lt (below k hk)
      · exact Nat.lt_succ_self _
    obtain ⟨pins, entries, eq⟩ := ih below'
    refine ⟨pins, ?_, ?_⟩
    · rw [entries]
      simp [addInput, Table.entries_insert_of_new new, freshInputs]
    · simp only [addInputs, eq]
      simp [addInput, freshInputs, Nat.add_assoc, Nat.add_comm 1]

theorem addOutputs_eq (node : NodeId) (specs : List PinSpec) {g : Graph}
    (below : ∀ k ∈ g.outputPins.keys, k.val < g.nextId) :
    ∃ pins : Table PinId OutputPin, pins.entries = g.outputPins.entries ++ freshOutputs node g.nextId specs ∧
      addOutputs node specs g = ({ g with nextId := g.nextId + specs.length, outputPins := pins },
        (freshOutputs node g.nextId specs).map Prod.fst) := by
  induction specs generalizing g with
  | nil => exact ⟨g.outputPins, by simp [freshOutputs], rfl⟩
  | cons spec specs ih =>
    have new : (⟨g.nextId⟩ : PinId) ∉ g.outputPins.keys := fun hk => Nat.lt_irrefl _ (below _ hk)
    have below' : ∀ k ∈ (g.addOutput node spec).1.outputPins.keys, k.val < (g.addOutput node spec).1.nextId := by
      intro k hk
      simp only [addOutput, Table.keys_insert, new, if_false, List.mem_append, List.mem_singleton] at hk ⊢
      rcases hk with hk | rfl
      · exact Nat.lt_succ_of_lt (below k hk)
      · exact Nat.lt_succ_self _
    obtain ⟨pins, entries, eq⟩ := ih below'
    refine ⟨pins, ?_, ?_⟩
    · rw [entries]
      simp [addOutput, Table.entries_insert_of_new new, freshOutputs]
    · simp only [addOutputs, eq]
      simp [addOutput, freshOutputs, Nat.add_assoc, Nat.add_comm 1]

/-! ## A new node -/

/-- `g'` is `g` with a node of some kind and its pins behind everything else. -/
structure Added (g : Graph) (kind : Kind) (position : Position) (g' : Graph) : Prop where
  graph : g' = { g with nextId := g'.nextId, nodes := g'.nodes, inputPins := g'.inputPins,
                        outputPins := g'.outputPins }
  nextId : g'.nextId = g.nextId + (1 + kind.inputSpecs.length + kind.outputSpecs.length)
  nodes : g'.nodes.entries = g.nodes.entries ++ [(⟨g.nextId⟩, ⟨⟨g.nextId⟩, kind, position,
    (freshInputs ⟨g.nextId⟩ (g.nextId + 1) kind.inputSpecs).map Prod.fst,
    (freshOutputs ⟨g.nextId⟩ (g.nextId + 1 + kind.inputSpecs.length) kind.outputSpecs).map Prod.fst,
    false⟩)]
  inputPins : g'.inputPins.entries
    = g.inputPins.entries ++ freshInputs ⟨g.nextId⟩ (g.nextId + 1) kind.inputSpecs
  outputPins : g'.outputPins.entries = g.outputPins.entries
    ++ freshOutputs ⟨g.nextId⟩ (g.nextId + 1 + kind.inputSpecs.length) kind.outputSpecs

theorem added {g : Graph} (h : g.Numbered) (kind : Kind) (position : Position) :
    g.Added kind position (g.addNode kind position).graph := by
  obtain ⟨inputs, inputs_entries, inputs_eq⟩ :=
    addInputs_eq ⟨g.nextId⟩ kind.inputSpecs (g := { g with nextId := g.nextId + 1 })
      fun k hk => Nat.lt_succ_of_lt (h.input_lt hk)
  obtain ⟨outputs, outputs_entries, outputs_eq⟩ :=
    addOutputs_eq ⟨g.nextId⟩ kind.outputSpecs
      (g := { g with nextId := g.nextId + 1 + kind.inputSpecs.length, inputPins := inputs })
      fun k hk => Nat.lt_of_lt_of_le (h.output_lt hk) (by simp only; omega)
  have new : (⟨g.nextId⟩ : NodeId) ∉ g.nodes.keys := fun hk => Nat.lt_irrefl _ (h.node_lt hk)
  constructor
  all_goals simp only [addNode, inputs_eq, outputs_eq]
  · omega
  · exact Table.entries_insert_of_new new
  · exact inputs_entries
  · exact outputs_entries

section Added

variable {g g' : Graph} {kind : Kind} {position : Position} (a : g.Added kind position g')
include a

theorem Added.links : g'.links = g.links := by rw [a.graph]

theorem Added.terminal : g'.terminal = g.terminal := by rw [a.graph]

theorem Added.get?_node {k : NodeId} {n : Node} :
    g'.nodes.get? k = some n ↔ g.nodes.get? k = some n ∨ (k, n) = (⟨g.nextId⟩, ⟨⟨g.nextId⟩, kind, position,
      (freshInputs ⟨g.nextId⟩ (g.nextId + 1) kind.inputSpecs).map Prod.fst,
      (freshOutputs ⟨g.nextId⟩ (g.nextId + 1 + kind.inputSpecs.length) kind.outputSpecs).map Prod.fst,
      false⟩) := by
  rw [Table.get?_eq_some_iff, a.nodes, List.mem_append, List.mem_singleton, Table.get?_eq_some_iff]

theorem Added.get?_input {k : PinId} {p : InputPin} :
    g'.inputPins.get? k = some p ↔ g.inputPins.get? k = some p
      ∨ (k, p) ∈ freshInputs ⟨g.nextId⟩ (g.nextId + 1) kind.inputSpecs := by
  rw [Table.get?_eq_some_iff, a.inputPins, List.mem_append, Table.get?_eq_some_iff]

theorem Added.get?_output {k : PinId} {p : OutputPin} :
    g'.outputPins.get? k = some p ↔ g.outputPins.get? k = some p
      ∨ (k, p) ∈ freshOutputs ⟨g.nextId⟩ (g.nextId + 1 + kind.inputSpecs.length) kind.outputSpecs := by
  rw [Table.get?_eq_some_iff, a.outputPins, List.mem_append, Table.get?_eq_some_iff]

theorem Added.ids : g'.ids.Perm
    (List.range' g.nextId (1 + kind.inputSpecs.length + kind.outputSpecs.length) ++ g.ids) := by
  rw [List.perm_iff_count]
  intro i
  have inputs := congrArg (List.map PinId.val) (keys_freshInputs ⟨g.nextId⟩ kind.inputSpecs (g.nextId + 1))
  have outputs := congrArg (List.map PinId.val)
    (keys_freshOutputs ⟨g.nextId⟩ kind.outputSpecs (g.nextId + 1 + kind.inputSpecs.length))
  have whole : List.range' g.nextId (1 + kind.inputSpecs.length + kind.outputSpecs.length)
      = g.nextId :: (List.range' (g.nextId + 1) kind.inputSpecs.length
        ++ List.range' (g.nextId + 1 + kind.inputSpecs.length) kind.outputSpecs.length) := by
    rw [List.range'_append_1, Nat.add_assoc, Nat.add_comm 1, List.range'_succ]
  simp only [List.map_map, Function.comp_def, List.map_id'] at inputs outputs
  simp only [Graph.ids, Table.keys, a.nodes, a.inputPins, a.outputPins, a.links, whole, List.map_append,
    List.map_cons, List.map_nil, List.map_map, Function.comp_def, inputs, outputs, List.count_append,
    List.count_cons, List.count_nil]
  omega

theorem Added.numbered (h : g.Numbered) : g'.Numbered := h.grown a.ids a.nextId

theorem Added.listed (h : g.Listed) : g'.Listed where
  nodeKey k n hn := by
    rcases a.get?_node.1 hn with old | new
    · exact h.nodeKey k n old
    · cases new
      rfl
  inputKey k p hp := by
    rcases a.get?_input.1 hp with old | new
    · exact h.inputKey k p old
    · exact (mem_freshInputs new).1
  outputKey k p hp := by
    rcases a.get?_output.1 hp with old | new
    · exact h.outputKey k p old
    · exact (mem_freshOutputs new).1
  once k n hn := by
    rcases a.get?_node.1 hn with old | new
    · exact h.once k n old
    · cases new
      simp only [Node.pins, keys_freshInputs, keys_freshOutputs, ← List.map_append, List.range'_append_1]
      exact nodup_fresh _ _
  inputOwner k p hp := by
    rcases a.get?_input.1 hp with old | new
    · obtain ⟨n, hn, hk⟩ := h.inputOwner k p old
      exact ⟨n, a.get?_node.2 (.inl hn), hk⟩
    · rw [(mem_freshInputs new).2.1]
      exact ⟨_, a.get?_node.2 (.inr rfl), List.mem_map.2 ⟨_, new, rfl⟩⟩
  outputOwner k p hp := by
    rcases a.get?_output.1 hp with old | new
    · obtain ⟨n, hn, hk⟩ := h.outputOwner k p old
      exact ⟨n, a.get?_node.2 (.inl hn), hk⟩
    · rw [(mem_freshOutputs new).2]
      exact ⟨_, a.get?_node.2 (.inr rfl), List.mem_map.2 ⟨_, new, rfl⟩⟩
  inputListed k n hn pin hpin := by
    rcases a.get?_node.1 hn with old | new
    · obtain ⟨p, hp, owner⟩ := h.inputListed k n old pin hpin
      exact ⟨p, a.get?_input.2 (.inl hp), owner⟩
    · cases new
      obtain ⟨⟨k, p⟩, new, rfl⟩ := List.mem_map.1 hpin
      exact ⟨p, a.get?_input.2 (.inr new), (mem_freshInputs new).2.1⟩
  outputListed k n hn pin hpin := by
    rcases a.get?_node.1 hn with old | new
    · obtain ⟨p, hp, owner⟩ := h.outputListed k n old pin hpin
      exact ⟨p, a.get?_output.2 (.inl hp), owner⟩
    · cases new
      obtain ⟨⟨k, p⟩, new, rfl⟩ := List.mem_map.1 hpin
      exact ⟨p, a.get?_output.2 (.inr new), (mem_freshOutputs new).2⟩
  terminalKnown t ht := by
    rw [a.terminal] at ht
    obtain ⟨n, hn⟩ := h.terminalKnown t ht
    exact ⟨n, a.get?_node.2 (.inl hn)⟩

theorem Added.linked (numbered : g.Numbered) (h : g.Linked) : g'.Linked where
  linkKey k l hl := h.linkKey k l (a.links ▸ hl)
  ends k l hl := by
    obtain ⟨⟨o, ho⟩, i, hi⟩ := h.ends k l (a.links ▸ hl)
    exact ⟨⟨o, a.get?_output.2 (.inl ho)⟩, i, a.get?_input.2 (.inl hi)⟩
  single := a.links ▸ h.single
  remembered pin p o hp := by
    rw [a.links]
    rcases a.get?_input.1 hp with old | new
    · exact h.remembered pin p o old
    · obtain ⟨-, -, free, low⟩ := mem_freshInputs new
      rw [free]
      refine ⟨fun h => (by cases h), ?_⟩
      intro linked
      obtain ⟨k, l, hl, rfl, -⟩ := linked
      have high := numbered.entered_lt h hl
      omega

theorem Added.typed (linked : g.Linked) (h : g.Typed) : g'.Typed := by
  intro k l o i hl ho hi
  rw [a.links] at hl
  obtain ⟨⟨o', ho'⟩, i', hi'⟩ := linked.ends k l hl
  have same_o : o' = o := Option.some.inj ((a.get?_output.2 (.inl ho')).symm.trans ho)
  have same_i : i' = i := Option.some.inj ((a.get?_input.2 (.inl hi')).symm.trans hi)
  exact same_o ▸ same_i ▸ h k l o' i' hl ho' hi'

theorem Added.sound (h : g.Sound) : g'.Sound :=
  { a.numbered h.toNumbered, a.listed h.toListed, a.linked h.toNumbered h.toLinked with
    typed := a.typed h.toLinked h.typed }

end Added

/-! ## Removing a node -/

/-- The links that touch a pin of a node. -/
def linksAt (g : Graph) (n : Node) : List LinkId := (g.linksTouching n.pins).map Link.id

/-- A graph without a node, its pins and the links that touch them. -/
def without (g : Graph) (id : NodeId) (n : Node) : Graph :=
  { g with
    terminal := if g.terminal = some id then none else g.terminal
    nodes := g.nodes.erase id
    inputPins := g.inputPins.eraseAll n.inputs
    outputPins := g.outputPins.eraseAll n.outputs
    links := g.links.eraseAll (g.linksAt n) }

theorem removeNode_graph {g : Graph} (h : g.Linked) {id : NodeId} {n : Node}
    (hn : g.nodes.get? id = some n) : (g.removeNode id).graph = (g.without id n).rewired := by
  have h' : ({ g with nodes := g.nodes.erase id } : Graph).Linked := ⟨h.linkKey, h.ends, h.single, h.remembered⟩
  simp only [removeNode, hn]
  rw [disconnectAll_graph _ _ h']
  have erased : ∀ f : PinId → InputPin → InputPin, n.inputs.foldl Table.erase (g.inputPins.mapWithKey f)
      = (g.inputPins.eraseAll n.inputs).mapWithKey f :=
    fun f => Table.eraseAll_mapWithKey f g.inputPins n.inputs
  simp only [eraseInputs, eraseOutputs, rewired, without, linksAt, erased]
  rfl

theorem mem_linksAt_iff {g : Graph} (h : g.Linked) {n : Node} {k : LinkId} :
    k ∈ g.linksAt n ↔ ∃ l, g.links.get? k = some l ∧ (l.input ∈ n.pins ∨ l.output ∈ n.pins) := by
  have touches : ∀ l : Link, n.pins.any l.touches = true ↔ l.input ∈ n.pins ∨ l.output ∈ n.pins := by
    intro l
    simp only [List.any_eq_true, Link.touches, Bool.or_eq_true, beq_iff_eq]
    constructor
    · intro listed
      obtain ⟨pin, hpin, rfl | rfl⟩ := listed
      · exact .inl hpin
      · exact .inr hpin
    · intro listed
      rcases listed with hpin | hpin
      · exact ⟨_, hpin, .inl rfl⟩
      · exact ⟨_, hpin, .inr rfl⟩
  simp only [linksAt, linksTouching, List.mem_map, List.mem_filter, touches]
  constructor
  · intro linked
    obtain ⟨l, ⟨hl, meets⟩, rfl⟩ := linked
    obtain ⟨k, hk⟩ := Table.mem_values_iff.1 hl
    exact ⟨l, h.linkKey k l hk ▸ hk, meets⟩
  · intro linked
    obtain ⟨l, hk, meets⟩ := linked
    exact ⟨l, ⟨Table.mem_values_iff.2 ⟨k, hk⟩, meets⟩, h.linkKey k l hk⟩

section Without

variable {g : Graph} {id : NodeId} {n : Node} (hn : g.nodes.get? id = some n)
include hn

theorem Listed.without (h : g.Listed) : (g.without id n).Listed where
  nodeKey k m hm := h.nodeKey k m (Table.get?_erase_eq_some.1 hm).1
  inputKey k p hp := h.inputKey k p (Table.get?_eraseAll_eq_some.1 hp).1
  outputKey k p hp := h.outputKey k p (Table.get?_eraseAll_eq_some.1 hp).1
  once k m hm := h.once k m (Table.get?_erase_eq_some.1 hm).1
  inputOwner k p hp := by
    obtain ⟨old, kept⟩ := Table.get?_eraseAll_eq_some.1 hp
    obtain ⟨m, hm, hk⟩ := h.inputOwner k p old
    refine ⟨m, Table.get?_erase_eq_some.2 ⟨hm, fun owner => kept ?_⟩, hk⟩
    rw [owner, hn] at hm
    exact Option.some.inj hm ▸ hk
  outputOwner k p hp := by
    obtain ⟨old, kept⟩ := Table.get?_eraseAll_eq_some.1 hp
    obtain ⟨m, hm, hk⟩ := h.outputOwner k p old
    refine ⟨m, Table.get?_erase_eq_some.2 ⟨hm, fun owner => kept ?_⟩, hk⟩
    rw [owner, hn] at hm
    exact Option.some.inj hm ▸ hk
  inputListed k m hm pin hpin := by
    obtain ⟨old, ne⟩ := Table.get?_erase_eq_some.1 hm
    obtain ⟨p, hp, owner⟩ := h.inputListed k m old pin hpin
    exact ⟨p, Table.get?_eraseAll_eq_some.2 ⟨hp, fun gone => ne (h.input_unique old hn hpin gone)⟩, owner⟩
  outputListed k m hm pin hpin := by
    obtain ⟨old, ne⟩ := Table.get?_erase_eq_some.1 hm
    obtain ⟨p, hp, owner⟩ := h.outputListed k m old pin hpin
    exact ⟨p, Table.get?_eraseAll_eq_some.2 ⟨hp, fun gone => ne (h.output_unique old hn hpin gone)⟩, owner⟩
  terminalKnown t ht := by
    simp only [Graph.without] at ht
    split at ht
    · cases ht
    · rename_i other
      obtain ⟨m, hm⟩ := h.terminalKnown t ht
      exact ⟨m, Table.get?_erase_eq_some.2 ⟨hm, fun eq => other (eq ▸ ht)⟩⟩

omit hn in
theorem Linked.without_node (h : g.Linked) : (g.without id n).rewired.Linked := by
  have fewer : ∀ k l, (g.without id n).links.get? k = some l → g.links.get? k = some l :=
    fun _ _ => get?_of_eraseAll
  refine linked_rewired (fun k l hl => h.linkKey k l (fewer k l hl)) ?_ (single_of_fewer h.single fewer)
  intro k l hl
  obtain ⟨old, kept⟩ := Table.get?_eraseAll_eq_some.1 hl
  obtain ⟨⟨o, ho⟩, i, hi⟩ := h.ends k l old
  have away : l.input ∉ n.pins ∧ l.output ∉ n.pins := by
    rw [← not_or]
    exact fun meets => kept ((mem_linksAt_iff h).2 ⟨l, old, meets⟩)
  simp only [Node.pins, List.mem_append, not_or] at away
  exact ⟨⟨o, Table.get?_eraseAll_eq_some.2 ⟨ho, away.2.2⟩⟩, i, Table.get?_eraseAll_eq_some.2 ⟨hi, away.1.1⟩⟩

omit hn in
theorem Typed.without (h : g.Typed) : (g.without id n).Typed :=
  fun k l o i hl ho hi => h k l o i (get?_of_eraseAll hl) (Table.get?_eraseAll_eq_some.1 ho).1
    (Table.get?_eraseAll_eq_some.1 hi).1

omit hn in
theorem ids_without (g : Graph) (id : NodeId) (n : Node) : (g.without id n).ids.Sublist g.ids := by
  simp only [ids, Graph.without, Table.keys_erase, Table.keys_eraseAll]
  exact (((List.filter_sublist.map _).append (List.filter_sublist.map _)).append
    (List.filter_sublist.map _)).append (List.filter_sublist.map _)

omit hn in
theorem Numbered.without (h : g.Numbered) : (g.without id n).Numbered :=
  h.fewer (ids_without g id n) (Nat.le_refl _)

end Without

theorem Sound.removeNode {g : Graph} (h : g.Sound) (id : NodeId) : (g.removeNode id).graph.Sound := by
  cases hn : g.nodes.get? id with
  | none => simpa [Graph.removeNode, hn] using h
  | some n =>
    rw [removeNode_graph h.toLinked hn]
    exact { h.toNumbered.without.rewired, (h.toListed.without hn).rewired, h.toLinked.without_node with
      typed := h.typed.without.rewired }

end FrameGraph.Graph
