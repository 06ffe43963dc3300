/-
  FrameGraph.Proofs.Store.Sound: what the four tables of a graph owe each other.

  A graph is sound if every object is stored under its own id, ids are used once and lie below
  the counter, each pin is listed once and by its owner (`Listed`), each link joins registered
  pins of one type that is not the untyped one (`Typed`), and an input remembers the output of
  the only link that enters it (`Linked`).

  The memories of inputs can be computed from the links (`rewired`), so a change of links is a
  change of the link table and nothing else (`Linked.relinked`). Kinds and pin types can change
  under a sound graph as long as everything else stays (`repainted`): only `Typed` looks at
  them.
-/

import FrameGraph.Graph.Basic
import FrameGraph.Proofs.Tables

namespace FrameGraph.Graph

/-! ## The parts of the invariant -/

/-- The numbers of all objects, table by table. -/
def ids (g : Graph) : List Nat :=
  g.nodes.keys.map NodeId.val ++ g.inputPins.keys.map PinId.val
    ++ g.outputPins.keys.map PinId.val ++ g.links.keys.map LinkId.val

structure Numbered (g : Graph) : Prop where
  distinct : g.ids.Nodup
  below : ∀ i ∈ g.ids, i < g.nextId

/-- Nodes and pins agree on who owns which pin, and the terminal is a node. -/
structure Listed (g : Graph) : Prop where
  nodeKey : ∀ k n, g.nodes.get? k = some n → n.id = k
  inputKey : ∀ k p, g.inputPins.get? k = some p → p.id = k
  outputKey : ∀ k p, g.outputPins.get? k = some p → p.id = k
  once : ∀ k n, g.nodes.get? k = some n → n.pins.Nodup
  inputOwner : ∀ k p, g.inputPins.get? k = some p → ∃ n, g.nodes.get? p.node = some n ∧ k ∈ n.inputs
  outputOwner : ∀ k p, g.outputPins.get? k = some p →
    ∃ n, g.nodes.get? p.node = some n ∧ k ∈ n.outputs
  inputListed : ∀ k n, g.nodes.get? k = some n → ∀ pin ∈ n.inputs,
    ∃ p, g.inputPins.get? pin = some p ∧ p.node = k
  outputListed : ∀ k n, g.nodes.get? k = some n → ∀ pin ∈ n.outputs,
    ∃ p, g.outputPins.get? pin = some p ∧ p.node = k
  terminalKnown : ∀ t, g.terminal = some t → ∃ n, g.nodes.get? t = some n

/-- Links join registered pins, one at most enters an input, and the input remembers it. -/
structure Linked (g : Graph) : Prop where
  linkKey : ∀ k l, g.links.get? k = some l → l.id = k
  ends : ∀ k l, g.links.get? k = some l →
    (∃ o, g.outputPins.get? l.output = some o) ∧ ∃ i, g.inputPins.get? l.input = some i
  single : ∀ k l k' l', g.links.get? k = some l → g.links.get? k' = some l' →
    l.input = l'.input → k = k'
  remembered : ∀ pin p o, g.inputPins.get? pin = some p →
    (p.connection = some o ↔ ∃ k l, g.links.get? k = some l ∧ l.input = pin ∧ l.output = o)

def Typed (g : Graph) : Prop :=
  ∀ k l o i, g.links.get? k = some l → g.outputPins.get? l.output = some o →
    g.inputPins.get? l.input = some i → o.type = i.type ∧ o.type.isUntyped = false

structure Sound (g : Graph) : Prop extends Numbered g, Listed g, Linked g where
  typed : g.Typed

/-- No two nodes list one input. -/
theorem Listed.input_unique {g : Graph} (h : g.Listed) {k k' : NodeId} {n n' : Node}
    (hn : g.nodes.get? k = some n) (hn' : g.nodes.get? k' = some n') {pin : PinId} (listed : pin ∈ n.inputs)
    (listed' : pin ∈ n'.inputs) : k = k' := by
  obtain ⟨p, hp, owner⟩ := h.inputListed k n hn pin listed
  obtain ⟨p', hp', owner'⟩ := h.inputListed k' n' hn' pin listed'
  cases hp.symm.trans hp'
  rw [← owner, owner']

/-- No two nodes list one output. -/
theorem Listed.output_unique {g : Graph} (h : g.Listed) {k k' : NodeId} {n n' : Node}
    (hn : g.nodes.get? k = some n) (hn' : g.nodes.get? k' = some n') {pin : PinId} (listed : pin ∈ n.outputs)
    (listed' : pin ∈ n'.outputs) : k = k' := by
  obtain ⟨p, hp, owner⟩ := h.outputListed k n hn pin listed
  obtain ⟨p', hp', owner'⟩ := h.outputListed k' n' hn' pin listed'
  cases hp.symm.trans hp'
  rw [← owner, owner']

theorem sound_new (id : Uuid) (name : String) : (new id name).Sound := by
  have none : (new id name).ids = [] := rfl
  refine ⟨⟨by simp [none], by simp [none]⟩, ⟨?_, ?_, ?_, ?_, ?_, ?_, ?_, ?_, ?_⟩, ⟨?_, ?_, ?_, ?_⟩, ?_⟩
  all_goals intro k; intros; simp_all [new]

theorem compatible_iff {a b : PinType} :
    a.compatible b = true ↔ a = b ∧ a.isUntyped = false := by
  simp [PinType.compatible]

/-! ## Memories of inputs -/

/-- The output of the link that enters a pin, by the link table. -/
def fedBy (links : Table LinkId Link) (pin : PinId) : Option PinId :=
  (links.values.find? fun l => l.input == pin).map Link.output

/-- Every input remembers what the link table says. -/
def rewired (g : Graph) : Graph :=
  { g with inputPins := g.inputPins.mapWithKey fun k p => { p with connection := fedBy g.links k } }

/-- No two links enter one pin. -/
def Single (links : Table LinkId Link) : Prop :=
  ∀ k l k' l', links.get? k = some l → links.get? k' = some l' → l.input = l'.input → k = k'

theorem find?_entering {links : Table LinkId Link} (single : Single links) {pin : PinId} {k : LinkId}
    {l : Link} (hl : links.get? k = some l) (enters : l.input = pin) :
    (links.values.find? fun l => l.input == pin) = some l := by
  cases hf : links.values.find? fun l => l.input == pin with
  | none =>
    have none_enters := List.find?_eq_none.1 hf l (Table.mem_values_iff.2 ⟨k, hl⟩)
    exact absurd enters (by simpa using none_enters)
  | some l' =>
    obtain ⟨k', hl', enters'⟩ := Table.find?_values hf
    have same : k = k' := single k l k' l' hl hl' (by rw [enters]; simpa using (Eq.symm (eq_of_beq enters')))
    rw [same, hl'] at hl
    exact hl

theorem fedBy_eq_some_iff {links : Table LinkId Link} (single : Single links) {pin o : PinId} :
    fedBy links pin = some o ↔ ∃ k l, links.get? k = some l ∧ l.input = pin ∧ l.output = o := by
  constructor
  · intro h
    obtain ⟨l, hl, out⟩ := Option.map_eq_some_iff.1 h
    obtain ⟨k, hk, enters⟩ := Table.find?_values hl
    exact ⟨k, l, hk, eq_of_beq enters, out⟩
  · intro linked
    obtain ⟨k, l, hk, enters, out⟩ := linked
    simp [fedBy, find?_entering single hk enters, out]

theorem Linked.rewired_eq {g : Graph} (h : g.Linked) : g.rewired = g := by
  have same : ∀ k p, (k, p) ∈ g.inputPins.entries →
      ({ p with connection := fedBy g.links k } : InputPin) = p := by
    intro k p hp
    have agree : fedBy g.links k = p.connection := by
      apply Option.ext
      intro o
      rw [fedBy_eq_some_iff h.single, h.remembered k p o (Table.get?_of_mem hp)]
    rw [agree]
  simp only [rewired, Table.mapWithKey_id same]

theorem rewired_inputPins_get? {g : Graph} {pin : PinId} {p : InputPin} :
    g.rewired.inputPins.get? pin = some p ↔
      ∃ q, g.inputPins.get? pin = some q ∧ { q with connection := fedBy g.links pin } = p :=
  Table.get?_mapWithKey_eq_some

/-- The memories that a graph held before do not matter to what it is rewired to. -/
theorem rewired_absorbs (g : Graph) (links links' : Table LinkId Link) :
    ({ ({ g with links := links } : Graph).rewired with links := links' } : Graph).rewired
      = ({ g with links := links' } : Graph).rewired := by
  simp only [rewired, Table.mapWithKey_mapWithKey]

/-- Any table of single links between registered pins can take the place of a graph's links. -/
theorem linked_rewired {g : Graph} (key : ∀ k l, g.links.get? k = some l → l.id = k)
    (ends : ∀ k l, g.links.get? k = some l →
      (∃ o, g.outputPins.get? l.output = some o) ∧ ∃ i, g.inputPins.get? l.input = some i)
    (single : Single g.links) : g.rewired.Linked where
  linkKey := key
  ends k l hl := by
    obtain ⟨output, i, hi⟩ := ends k l hl
    exact ⟨output, _, rewired_inputPins_get?.2 ⟨i, hi, rfl⟩⟩
  single := single
  remembered pin p o hp := by
    obtain ⟨q, -, rfl⟩ := rewired_inputPins_get?.1 hp
    exact fedBy_eq_some_iff single

theorem Linked.relinked {g : Graph} (h : g.Linked) {links : Table LinkId Link}
    (fewer : ∀ k l, links.get? k = some l → g.links.get? k = some l) :
    ({ g with links := links } : Graph).rewired.Linked :=
  linked_rewired (fun k l hl => h.linkKey k l (fewer k l hl)) (fun k l hl => h.ends k l (fewer k l hl))
    fun k l k' l' hl hl' => h.single k l k' l' (fewer k l hl) (fewer k' l' hl')

theorem Listed.rewired {g : Graph} (h : g.Listed) : g.rewired.Listed where
  nodeKey := h.nodeKey
  inputKey k p hp := by
    obtain ⟨q, hq, rfl⟩ := rewired_inputPins_get?.1 hp
    exact h.inputKey k q hq
  outputKey := h.outputKey
  once := h.once
  inputOwner k p hp := by
    obtain ⟨q, hq, rfl⟩ := rewired_inputPins_get?.1 hp
    exact h.inputOwner k q hq
  outputOwner := h.outputOwner
  inputListed k n hn pin hpin := by
    obtain ⟨q, hq, owner⟩ := h.inputListed k n hn pin hpin
    exact ⟨_, rewired_inputPins_get?.2 ⟨q, hq, rfl⟩, owner⟩
  outputListed := h.outputListed
  terminalKnown := h.terminalKnown

theorem Typed.rewired {g : Graph} (h : g.Typed) : g.rewired.Typed := by
  intro k l o i hl ho hi
  obtain ⟨q, hq, rfl⟩ := rewired_inputPins_get?.1 hi
  exact h k l o q hl ho hq

@[simp] theorem ids_rewired (g : Graph) : g.rewired.ids = g.ids := by
  simp [ids, Graph.rewired]

theorem Numbered.rewired {g : Graph} (h : g.Numbered) : g.rewired.Numbered :=
  ⟨by simpa using h.distinct, fun i hi => h.below i (by simpa using hi)⟩

/-! ## Fewer and more objects -/

/-- Objects may go, and the counter may rise. -/
theorem Numbered.fewer {g h : Graph} (hg : g.Numbered) (ids : h.ids.Sublist g.ids)
    (counter : g.nextId ≤ h.nextId) : h.Numbered :=
  ⟨hg.distinct.sublist ids, fun i hi => Nat.lt_of_lt_of_le (hg.below i (ids.subset hi)) counter⟩

end FrameGraph.Graph
