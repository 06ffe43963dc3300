/-
  FrameGraph.Proofs.Store.Repainted: changing what objects carry, in place.

  Kinds, positions and marks of nodes, types of pins and values of outputs can change without
  anything moving (`repainted`): who owns which pin, the links and all numbers stay. Giving a
  node a shape is one such change (`setShape_eq`): the node then has that shape (`shapeAt_reshaped`),
  and every other node keeps its own (`shapeAt_reshaped_of_ne`). A graph whose kinds and types
  are all set to what they are is the same graph (`recast_eq_self`).
-/

import FrameGraph.Proofs.Results
import FrameGraph.Proofs.Shapes
import FrameGraph.Proofs.Store.Links

namespace FrameGraph.Graph

/-! ## Any change in place -/

def repainted (g : Graph) (node : NodeId → Node → Node) (input : PinId → InputPin → InputPin)
    (output : PinId → OutputPin → OutputPin) : Graph :=
  { g with
    nodes := g.nodes.mapWithKey node
    inputPins := g.inputPins.mapWithKey input
    outputPins := g.outputPins.mapWithKey output }

/-- The parts of an object that others refer to stay. -/
structure Keeps (node : NodeId → Node → Node) (input : PinId → InputPin → InputPin)
    (output : PinId → OutputPin → OutputPin) : Prop where
  node : ∀ k n, (node k n).id = n.id ∧ (node k n).inputs = n.inputs ∧ (node k n).outputs = n.outputs
  inputLabel : ∀ k p, (input k p).name = p.name ∧ (input k p).optional = p.optional
  input : ∀ k p, (input k p).id = p.id ∧ (input k p).node = p.node ∧ (input k p).connection = p.connection
  output : ∀ k p, (output k p).id = p.id ∧ (output k p).node = p.node ∧ (output k p).name = p.name

section Repainted

variable {g : Graph} {node : NodeId → Node → Node} {input : PinId → InputPin → InputPin}
  {output : PinId → OutputPin → OutputPin}

theorem repainted_node {k : NodeId} {n : Node} :
    (g.repainted node input output).nodes.get? k = some n ↔ ∃ m, g.nodes.get? k = some m ∧ node k m = n :=
  Table.get?_mapWithKey_eq_some

theorem repainted_input {k : PinId} {p : InputPin} :
    (g.repainted node input output).inputPins.get? k = some p
      ↔ ∃ q, g.inputPins.get? k = some q ∧ input k q = p :=
  Table.get?_mapWithKey_eq_some

theorem repainted_output {k : PinId} {p : OutputPin} :
    (g.repainted node input output).outputPins.get? k = some p
      ↔ ∃ q, g.outputPins.get? k = some q ∧ output k q = p :=
  Table.get?_mapWithKey_eq_some

theorem Numbered.repainted (h : g.Numbered) : (g.repainted node input output).Numbered := by
  have same : (g.repainted node input output).ids = g.ids := by simp [ids, Graph.repainted]
  exact ⟨same ▸ h.distinct, fun i hi => h.below i (same ▸ hi)⟩

theorem Listed.repainted (keeps : Keeps node input output) (h : g.Listed) :
    (g.repainted node input output).Listed where
  nodeKey k n hn := by
    obtain ⟨m, hm, rfl⟩ := repainted_node.1 hn
    rw [(keeps.node k m).1, h.nodeKey k m hm]
  inputKey k p hp := by
    obtain ⟨q, hq, rfl⟩ := repainted_input.1 hp
    rw [(keeps.input k q).1, h.inputKey k q hq]
  outputKey k p hp := by
    obtain ⟨q, hq, rfl⟩ := repainted_output.1 hp
    rw [(keeps.output k q).1, h.outputKey k q hq]
  once k n hn := by
    obtain ⟨m, hm, rfl⟩ := repainted_node.1 hn
    rw [Node.pins, (keeps.node k m).2.1, (keeps.node k m).2.2]
    exact h.once k m hm
  inputOwner k p hp := by
    obtain ⟨q, hq, rfl⟩ := repainted_input.1 hp
    obtain ⟨n, hn, hk⟩ := h.inputOwner k q hq
    rw [(keeps.input k q).2.1]
    exact ⟨_, repainted_node.2 ⟨n, hn, rfl⟩, by rw [(keeps.node _ n).2.1]; exact hk⟩
  outputOwner k p hp := by
    obtain ⟨q, hq, rfl⟩ := repainted_output.1 hp
    obtain ⟨n, hn, hk⟩ := h.outputOwner k q hq
    rw [(keeps.output k q).2.1]
    exact ⟨_, repainted_node.2 ⟨n, hn, rfl⟩, by rw [(keeps.node _ n).2.2]; exact hk⟩
  inputListed k n hn pin hpin := by
    obtain ⟨m, hm, rfl⟩ := repainted_node.1 hn
    rw [(keeps.node k m).2.1] at hpin
    obtain ⟨p, hp, owner⟩ := h.inputListed k m hm pin hpin
    exact ⟨_, repainted_input.2 ⟨p, hp, rfl⟩, by rw [(keeps.input pin p).2.1]; exact owner⟩
  outputListed k n hn pin hpin := by
    obtain ⟨m, hm, rfl⟩ := repainted_node.1 hn
    rw [(keeps.node k m).2.2] at hpin
    obtain ⟨p, hp, owner⟩ := h.outputListed k m hm pin hpin
    exact ⟨_, repainted_output.2 ⟨p, hp, rfl⟩, by rw [(keeps.output pin p).2.1]; exact owner⟩
  terminalKnown t ht := by
    obtain ⟨n, hn⟩ := h.terminalKnown t ht
    exact ⟨_, repainted_node.2 ⟨n, hn, rfl⟩⟩

theorem Linked.repainted (keeps : Keeps node input output) (h : g.Linked) :
    (g.repainted node input output).Linked where
  linkKey := h.linkKey
  ends k l hl := by
    obtain ⟨⟨o, ho⟩, i, hi⟩ := h.ends k l hl
    exact ⟨⟨_, repainted_output.2 ⟨o, ho, rfl⟩⟩, _, repainted_input.2 ⟨i, hi, rfl⟩⟩
  single := h.single
  remembered pin p o hp := by
    obtain ⟨q, hq, rfl⟩ := repainted_input.1 hp
    rw [(keeps.input pin q).2.2]
    exact h.remembered pin q o hq

/-- Links stay typed where types stay. -/
theorem Typed.repainted (inputs : ∀ k p, (input k p).type = p.type)
    (outputs : ∀ k p, (output k p).type = p.type) (h : g.Typed) :
    (g.repainted node input output).Typed := by
  intro k l o i hl ho hi
  obtain ⟨o', ho', rfl⟩ := repainted_output.1 ho
  obtain ⟨i', hi', rfl⟩ := repainted_input.1 hi
  rw [inputs, outputs]
  exact h k l o' i' hl ho' hi'

theorem Sound.repainted (keeps : Keeps node input output) (inputs : ∀ k p, (input k p).type = p.type)
    (outputs : ∀ k p, (output k p).type = p.type) (h : g.Sound) :
    (g.repainted node input output).Sound :=
  { h.toNumbered.repainted, h.toListed.repainted keeps, h.toLinked.repainted keeps with
    typed := h.typed.repainted inputs outputs }

end Repainted

/-! ## Kinds and types -/

def recast (g : Graph) (kind : NodeId → Kind → Kind) (input output : PinId → PinType → PinType) : Graph :=
  g.repainted (fun k n => { n with kind := kind k n.kind }) (fun k p => { p with type := input k p.type })
    (fun k p => { p with type := output k p.type })

theorem keeps_recast (kind : NodeId → Kind → Kind) (input output : PinId → PinType → PinType) :
    Keeps (fun k n => { n with kind := kind k n.kind }) (fun k p => { p with type := input k p.type })
      (fun k p => { p with type := output k p.type }) :=
  ⟨fun _ _ => ⟨rfl, rfl, rfl⟩, fun _ _ => ⟨rfl, rfl⟩, fun _ _ => ⟨rfl, rfl, rfl⟩, fun _ _ => ⟨rfl, rfl, rfl⟩⟩

theorem recast_recast (g : Graph) (kind kind' : NodeId → Kind → Kind)
    (input input' output output' : PinId → PinType → PinType) :
    (g.recast kind input output).recast kind' input' output'
      = g.recast (fun k x => kind' k (kind k x)) (fun k t => input' k (input k t))
        fun k t => output' k (output k t) := by
  simp only [recast, repainted, Table.mapWithKey_mapWithKey]

theorem recast_eq_self {g : Graph} {kind : NodeId → Kind → Kind} {input output : PinId → PinType → PinType}
    (kinds : ∀ k n, g.nodes.get? k = some n → kind k n.kind = n.kind)
    (inputs : ∀ k p, g.inputPins.get? k = some p → input k p.type = p.type)
    (outputs : ∀ k p, g.outputPins.get? k = some p → output k p.type = p.type) :
    g.recast kind input output = g := by
  have n : g.nodes.mapWithKey (fun k n => { n with kind := kind k n.kind }) = g.nodes :=
    Table.mapWithKey_id fun k n hn => by rw [kinds k n (Table.get?_of_mem hn)]
  have i : g.inputPins.mapWithKey (fun k p => { p with type := input k p.type }) = g.inputPins :=
    Table.mapWithKey_id fun k p hp => by rw [inputs k p (Table.get?_of_mem hp)]
  have o : g.outputPins.mapWithKey (fun k p => { p with type := output k p.type }) = g.outputPins :=
    Table.mapWithKey_id fun k p hp => by rw [outputs k p (Table.get?_of_mem hp)]
  simp only [recast, repainted, n, i, o]

/-! ## Shapes in place -/

def inputTypeAt (g : Graph) (pin : PinId) : PinType :=
  ((g.inputPins.get? pin).map InputPin.type).getD .untyped

def outputTypeAt (g : Graph) (pin : PinId) : PinType :=
  ((g.outputPins.get? pin).map OutputPin.type).getD .untyped

def shapeAt (g : Graph) (n : Node) : Shape :=
  ⟨n.kind, n.inputs.map g.inputTypeAt, n.outputs.map g.outputTypeAt⟩

theorem shape_eq {g : Graph} (h : g.Listed) {id : NodeId} {n : Node} (hn : g.nodes.get? id = some n) :
    g.shape id = .ok (g.shapeAt n) := by
  have inputs : g.inputTypes n.inputs = .ok (n.inputs.map g.inputTypeAt) := by
    refine mapM_ok fun pin hpin => ?_
    obtain ⟨p, hp, -⟩ := h.inputListed id n hn pin hpin
    simp [getInput, inputTypeAt, hp, bind, Except.bind, pure, Except.pure]
  have outputs : g.outputTypes n.outputs = .ok (n.outputs.map g.outputTypeAt) := by
    refine mapM_ok fun pin hpin => ?_
    obtain ⟨p, hp, -⟩ := h.outputListed id n hn pin hpin
    simp [getOutput, outputTypeAt, hp, bind, Except.bind, pure, Except.pure]
  simp [shape, getNode, hn, inputs, outputs, shapeAt, bind, Except.bind, pure, Except.pure]

/-- The kind of one node. -/
def setKind (id : NodeId) (kind : Kind) (k : NodeId) (old : Kind) : Kind := if k = id then kind else old

/-- The types of some pins, in order. -/
def setTypes (pins : List PinId) (types : List PinType) (k : PinId) (old : PinType) : PinType :=
  ((pins.zip types).lookup k).getD old

def reshaped (g : Graph) (id : NodeId) (n : Node) (s : Shape) : Graph :=
  g.recast (setKind id s.kind) (setTypes n.inputs s.inputs) (setTypes n.outputs s.outputs)

theorem nodup_zip {α β : Type} {as : List α} (h : as.Nodup) (bs : List β) : ((as.zip bs).map Prod.fst).Nodup := by
  induction as generalizing bs with
  | nil => simp
  | cons a as ih =>
    cases bs with
    | nil => simp
    | cons b bs =>
      rw [List.nodup_cons] at h
      simp only [List.zip_cons_cons, List.map_cons, List.nodup_cons]
      refine ⟨fun ha => h.1 ?_, ih h.2 bs⟩
      obtain ⟨⟨a', b'⟩, hab, rfl⟩ := List.mem_map.1 ha
      exact (List.of_mem_zip hab).1

theorem setShape_eq {g : Graph} (h : g.Listed) {id : NodeId} {n : Node} (hn : g.nodes.get? id = some n)
    (s : Shape) : g.setShape id s = .ok (g.reshaped id n s) := by
  have distinct := List.nodup_append.1 (h.once id n hn)
  have assign_input : ∀ k (p : InputPin),
      Table.assigned (fun t (p : InputPin) => { p with type := t }) (n.inputs.zip s.inputs) k p
        = { p with type := setTypes n.inputs s.inputs k p.type } := by
    intro k p
    simp only [Table.assigned, setTypes]
    cases (n.inputs.zip s.inputs).lookup k <;> rfl
  have assign_output : ∀ k (p : OutputPin),
      Table.assigned (fun t (p : OutputPin) => { p with type := t }) (n.outputs.zip s.outputs) k p
        = { p with type := setTypes n.outputs s.outputs k p.type } := by
    intro k p
    simp only [Table.assigned, setTypes]
    cases (n.outputs.zip s.outputs).lookup k <;> rfl
  have kinds : ∀ k (m : Node), (if k = id then { m with kind := s.kind } else m)
      = { m with kind := setKind id s.kind k m.kind } := by
    intro k m
    unfold setKind
    split <;> rfl
  simp only [setShape, getNode, hn, bind, Except.bind, pure, Except.pure, assignInputs, assignOutputs]
  rw [Table.foldl_modify (fun t (p : InputPin) => { p with type := t }) (nodup_zip distinct.1 _),
    Table.foldl_modify (fun t (p : OutputPin) => { p with type := t }) (nodup_zip distinct.2.1 _)]
  simp only [reshaped, recast, repainted, Table.modify, kinds]
  congr 2
  · exact Table.mapWithKey_congr fun k p _ => assign_input k p
  · exact Table.mapWithKey_congr fun k p _ => assign_output k p

theorem updateShape_eq {g : Graph} (h : g.Listed) {id : NodeId} {n : Node} (hn : g.nodes.get? id = some n)
    {f : Shape → Except Fault Shape} {s : Shape} (hs : f (g.shapeAt n) = .ok s) :
    g.updateShape id f = .ok (g.reshaped id n s) := by
  simp [updateShape, shape_eq h hn, hs, setShape_eq h hn, bind, Except.bind]

/-! ## Which pins a shape reaches -/

theorem lookup_zip_map {β : Type} (f : PinId → β) (pins : List PinId) (k : PinId) :
    (pins.zip (pins.map f)).lookup k = if k ∈ pins then some (f k) else none := by
  induction pins with
  | nil => rfl
  | cons pin pins ih =>
    by_cases here : k = pin
    · simp [here]
    · have other : (k == pin) = false := by simpa using here
      simp [List.lookup_cons, other, ih, here]

/-- Types read off a graph and written back. -/
theorem setTypes_map (f : PinId → PinType) (pins : List PinId) (k : PinId) (old : PinType) :
    setTypes pins (pins.map f) k old = if k ∈ pins then f k else old := by
  rw [setTypes, lookup_zip_map]
  split <;> rfl

theorem setTypes_of_not_mem {pins : List PinId} {k : PinId} (h : k ∉ pins) (types : List PinType)
    (old : PinType) : setTypes pins types k old = old := by
  have none : (pins.zip types).lookup k = none := by
    rw [List.lookup_eq_none_iff]
    intro pair hab
    obtain ⟨a, b⟩ := pair
    simp only [bne_iff_ne, ne_eq]
    intro same
    subst same
    exact h (List.of_mem_zip hab).1
  simp [setTypes, none]

/-- Distinct pins get the types one by one. -/
theorem map_setTypes {pins : List PinId} (distinct : pins.Nodup) {types : List PinType}
    (length : types.length = pins.length) (old : PinId → PinType) :
    (pins.map fun k => setTypes pins types k (old k)) = types := by
  induction pins generalizing types with
  | nil => exact (List.eq_nil_of_length_eq_zero length).symm
  | cons pin pins ih =>
    obtain ⟨t, ts, rfl⟩ := List.exists_cons_of_length_eq_add_one length
    rw [List.nodup_cons] at distinct
    have tail : ∀ k ∈ pins, setTypes (pin :: pins) (t :: ts) k (old k) = setTypes pins ts k (old k) := by
      intro k hk
      have other : (k == pin) = false := by
        simp only [beq_eq_false_iff_ne, ne_eq]
        intro same
        subst same
        exact distinct.1 hk
      simp [setTypes, List.lookup_cons, other]
    rw [List.map_cons, List.map_congr_left tail, ih distinct.2 (by simpa using length)]
    simp [setTypes]

section Reshaped

variable {g : Graph} (h : g.Listed) {id : NodeId} {n : Node} (hn : g.nodes.get? id = some n)

theorem reshaped_node {s : Shape} {k : NodeId} {m : Node} :
    (g.reshaped id n s).nodes.get? k = some m
      ↔ ∃ old, g.nodes.get? k = some old ∧ { old with kind := setKind id s.kind k old.kind } = m :=
  repainted_node

theorem reshaped_node_of_old (id : NodeId) (n : Node) (s : Shape) {k : NodeId} {m : Node} (hm : g.nodes.get? k = some m) :
    (g.reshaped id n s).nodes.get? k = some { m with kind := setKind id s.kind k m.kind } :=
  reshaped_node.2 ⟨m, hm, rfl⟩

theorem Listed.reshaped (h : g.Listed) (id : NodeId) (n : Node) (s : Shape) : (g.reshaped id n s).Listed :=
  h.repainted (keeps_recast ..)

include hn in
theorem reshaped_node_self (s : Shape) :
    (g.reshaped id n s).nodes.get? id = some { n with kind := s.kind } :=
  reshaped_node.2 ⟨n, hn, by simp [setKind]⟩

theorem reshaped_node_of_ne (s : Shape) {k : NodeId} (ne : k ≠ id) {m : Node} :
    (g.reshaped id n s).nodes.get? k = some m ↔ g.nodes.get? k = some m := by
  rw [reshaped_node]
  simp [setKind, ne]

theorem inputTypeAt_reshaped (s : Shape) {pin : PinId} {p : InputPin} (hp : g.inputPins.get? pin = some p) :
    (g.reshaped id n s).inputTypeAt pin = setTypes n.inputs s.inputs pin (g.inputTypeAt pin) := by
  simp [inputTypeAt, reshaped, recast, repainted, hp]

theorem outputTypeAt_reshaped (s : Shape) {pin : PinId} {p : OutputPin} (hp : g.outputPins.get? pin = some p) :
    (g.reshaped id n s).outputTypeAt pin = setTypes n.outputs s.outputs pin (g.outputTypeAt pin) := by
  simp [outputTypeAt, reshaped, recast, repainted, hp]

include h hn

theorem shapeAt_reshaped {s : Shape} (inputs : s.inputs.length = n.inputs.length)
    (outputs : s.outputs.length = n.outputs.length) :
    (g.reshaped id n s).shapeAt { n with kind := s.kind } = s := by
  have distinct := List.nodup_append.1 (h.once id n hn)
  have types_in : n.inputs.map (g.reshaped id n s).inputTypeAt = s.inputs := by
    rw [← map_setTypes distinct.1 inputs g.inputTypeAt]
    refine List.map_congr_left fun pin hpin => ?_
    obtain ⟨p, hp, -⟩ := h.inputListed id n hn pin hpin
    exact inputTypeAt_reshaped s hp
  have types_out : n.outputs.map (g.reshaped id n s).outputTypeAt = s.outputs := by
    rw [← map_setTypes distinct.2.1 outputs g.outputTypeAt]
    refine List.map_congr_left fun pin hpin => ?_
    obtain ⟨p, hp, -⟩ := h.outputListed id n hn pin hpin
    exact outputTypeAt_reshaped s hp
  rw [shapeAt, types_in, types_out]

theorem shapeAt_reshaped_of_ne (s : Shape) {k : NodeId} (ne : k ≠ id) {m : Node}
    (hm : g.nodes.get? k = some m) : (g.reshaped id n s).shapeAt m = g.shapeAt m := by
  have types_in : m.inputs.map (g.reshaped id n s).inputTypeAt = m.inputs.map g.inputTypeAt := by
    refine List.map_congr_left fun pin hpin => ?_
    obtain ⟨p, hp, -⟩ := h.inputListed k m hm pin hpin
    rw [inputTypeAt_reshaped s hp, setTypes_of_not_mem fun listed => ne (h.input_unique hm hn hpin listed)]
  have types_out : m.outputs.map (g.reshaped id n s).outputTypeAt = m.outputs.map g.outputTypeAt := by
    refine List.map_congr_left fun pin hpin => ?_
    obtain ⟨p, hp, -⟩ := h.outputListed k m hm pin hpin
    rw [outputTypeAt_reshaped s hp, setTypes_of_not_mem fun listed => ne (h.output_unique hm hn hpin listed)]
  rw [shapeAt, shapeAt, types_in, types_out]

end Reshaped

/-- A node that gets the shape that it has. -/
theorem reshaped_shapeAt {g : Graph} {id : NodeId} {n : Node} (hn : g.nodes.get? id = some n) :
    g.reshaped id n (g.shapeAt n) = g := by
  refine recast_eq_self (fun k m hm => ?_) (fun k p hp => ?_) fun k p hp => ?_
  · unfold setKind
    split
    · rename_i here
      rw [here, hn] at hm
      cases hm
      rfl
    · rfl
  · simp only [shapeAt, setTypes_map]
    split
    · simp [inputTypeAt, hp]
    · rfl
  · simp only [shapeAt, setTypes_map]
    split
    · simp [outputTypeAt, hp]
    · rfl

end FrameGraph.Graph
