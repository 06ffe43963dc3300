/-
  FrameGraph.Proofs.Store.Outlines: what a node looks like together with its pins.

  The outline of a node is its kind and the declarations that its pins, as they are stored,
  would come from. Facts about every node's outline (`Every`) are looked after by the edits in
  the same few ways: a node keeps its outline, gets a shape that follows the one it had
  (`Becomes`), is made from its kind (`ofKind`) or gets another number of inputs (`resized`). A
  fact that stays true in these ways is `Durable`; the numbers of pins are one (`durable_sized`).
-/

import FrameGraph.Graph.Configure
import FrameGraph.Proofs.Store.Nodes
import FrameGraph.Proofs.Store.Repainted

namespace FrameGraph

/-- What edits may put into nodes. -/
structure Policy where
  kind : Kind → Prop
  position : Position → Prop
  index : Nat → Prop

structure Outline where
  kind : Kind
  position : Position
  inputs : List PinSpec
  outputs : List PinSpec

namespace Outline

/-- The outline that a kind asks for. -/
def ofKind (kind : Kind) (position : Position) : Outline :=
  ⟨kind, position, kind.inputSpecs, kind.outputSpecs⟩

def shape (o : Outline) : Shape := ⟨o.kind, o.inputs.map PinSpec.type, o.outputs.map PinSpec.type⟩

def labels (o : Outline) : List (String × Bool) × List (String × Bool) :=
  (o.inputs.map fun s => (s.name, s.optional), o.outputs.map fun s => (s.name, s.optional))

/-- What the outline of a node may turn into while the node keeps its pins. -/
structure Becomes (policy : Policy) (o o' : Outline) : Prop where
  shape : o.shape.Follows policy.index o'.shape
  labels : o'.labels = o.labels
  position : o'.position = o.position

def resized (o : Outline) (count : Nat) : Outline :=
  ⟨o.kind.withInputCount count, o.position, o.inputs.take count ++ Graph.missingInputs o.kind o.inputs.length count,
    o.outputs⟩

/-- Whether a node may have some number of inputs. -/
def Takes (kind : Kind) (count : Nat) : Prop := ∃ least, kind.minInputs? = some least ∧ least ≤ count

/-- Edits that touch a node keep the fact true of it. -/
structure Durable (policy : Policy) (P : Outline → Prop) : Prop where
  sized : ∀ o, P o → o.shape.Sized
  fresh : ∀ kind position, policy.kind kind → policy.position position → P (.ofKind kind position)
  moved : ∀ o position, P o → policy.position position → P { o with position }
  becomes : ∀ o o', P o → o.Becomes policy o' → P o'
  resized : ∀ o count, P o → Takes o.kind count → P (o.resized count)

variable {policy : Policy}

theorem Becomes.sized {o o' : Outline} (b : o.Becomes policy o') (h : o.shape.Sized) : o'.shape.Sized :=
  b.shape.sized h

theorem missingInputs_concat (element : PinType) (inputs current count : Nat) :
    Graph.missingInputs (.concat element inputs) current count
      = (List.range' current (count - current)).map (Kind.concatInput element) :=
  congrFun List.filterMap_eq_map _

theorem missingInputs_requireLock (inputs current count : Nat) :
    Graph.missingInputs (.requireLock inputs) current count
      = (List.range' current (count - current)).map Kind.lockInput :=
  congrFun List.filterMap_eq_map _

theorem missingInputs_length {kind : Kind} {count : Nat} (takes : Takes kind count) (current : Nat) :
    (Graph.missingInputs kind current count).length = count - current := by
  obtain ⟨least, minimal, -⟩ := takes
  cases kind with
  | concat element inputs => simp [missingInputs_concat]
  | requireLock inputs => simp [missingInputs_requireLock]
  | _ => cases minimal

theorem withInputCount_lengths {kind : Kind} {count : Nat} (takes : Takes kind count) :
    (kind.withInputCount count).inputSpecs.length = count
      ∧ (kind.withInputCount count).outputSpecs.length = kind.outputSpecs.length := by
  obtain ⟨least, minimal, -⟩ := takes
  cases kind <;> simp_all [Kind.minInputs?, Kind.withInputCount, Kind.inputSpecs, Kind.outputSpecs]

theorem sized_ofKind (kind : Kind) (position : Position) : (ofKind kind position).shape.Sized := by
  constructor <;> simp [ofKind, shape]

theorem durable_sized : Durable policy fun o => o.shape.Sized where
  sized _ h := h
  fresh kind position _ _ := sized_ofKind kind position
  moved _ _ h _ := h
  becomes _ _ h b := b.sized h
  resized o count h takes := by
    obtain ⟨inputs, outputs⟩ := withInputCount_lengths takes
    constructor
    · simp only [Outline.shape, resized, List.length_map, List.length_append, List.length_take,
        missingInputs_length takes, inputs]
      omega
    · have before := h.outputs
      simp only [Outline.shape, resized, List.length_map, outputs] at before ⊢
      exact before

end Outline

namespace Graph

variable {policy : Policy}

def inputSpecAt (g : Graph) (pin : PinId) : PinSpec :=
  ((g.inputPins.get? pin).map fun p => ⟨p.name, p.type, p.optional⟩).getD ⟨"", .untyped, false⟩

def outputSpecAt (g : Graph) (pin : PinId) : PinSpec :=
  ((g.outputPins.get? pin).map fun p => .required p.name p.type).getD ⟨"", .untyped, false⟩

def outline (g : Graph) (n : Node) : Outline :=
  ⟨n.kind, n.position, n.inputs.map g.inputSpecAt, n.outputs.map g.outputSpecAt⟩

/-- Something holds of every node's outline. -/
def Every (P : Outline → Prop) (g : Graph) : Prop :=
  ∀ k n, g.nodes.get? k = some n → P (g.outline n)

theorem every_new {P : Outline → Prop} {id : Uuid} {name : String} : Every P (new id name) := by
  intro k n hn
  cases hn

theorem Every.sized {P : Outline → Prop} (durable : Outline.Durable policy P) {g : Graph} (h : Every P g) :
    Every (fun o => o.shape.Sized) g :=
  fun k n hn => durable.sized _ (h k n hn)

theorem outline_shape (g : Graph) (n : Node) : (g.outline n).shape = g.shapeAt n := by
  have inputs : ∀ pin, (g.inputSpecAt pin).type = g.inputTypeAt pin := by
    intro pin
    unfold inputSpecAt inputTypeAt
    cases g.inputPins.get? pin <;> rfl
  have outputs : ∀ pin, (g.outputSpecAt pin).type = g.outputTypeAt pin := by
    intro pin
    unfold outputSpecAt outputTypeAt
    cases g.outputPins.get? pin <;> rfl
  simp [Outline.shape, outline, shapeAt, Function.comp_def, inputs, outputs]

/-! ## Nodes that look as before -/

theorem outline_congr {g g' : Graph} {n : Node}
    (inputs : ∀ pin ∈ n.inputs, g'.inputSpecAt pin = g.inputSpecAt pin)
    (outputs : ∀ pin ∈ n.outputs, g'.outputSpecAt pin = g.outputSpecAt pin) :
    g'.outline n = g.outline n := by
  rw [outline, outline, List.map_congr_left inputs, List.map_congr_left outputs]

/-- Only the tables of pins matter. -/
theorem outline_of_pins {g g' : Graph} (inputs : g'.inputPins = g.inputPins)
    (outputs : g'.outputPins = g.outputPins) (n : Node) : g'.outline n = g.outline n :=
  outline_congr (fun pin _ => by simp only [inputSpecAt, inputs]) fun pin _ => by
    simp only [outputSpecAt, outputs]

theorem outline_rewired (g : Graph) (n : Node) : g.rewired.outline n = g.outline n := by
  refine outline_congr (fun pin _ => ?_) fun _ _ => rfl
  simp only [inputSpecAt, rewired, Table.get?_mapWithKey, Option.map_map]
  rfl

theorem Every.rewired {P : Outline → Prop} {g : Graph} (h : Every P g) : Every P g.rewired :=
  fun k n hn => outline_rewired g n ▸ h k n hn

/-- Links, counter and terminal are no part of an outline. -/
theorem Every.congr {P : Outline → Prop} {g g' : Graph} (h : Every P g) (nodes : g'.nodes = g.nodes)
    (inputs : g'.inputPins = g.inputPins) (outputs : g'.outputPins = g.outputPins) : Every P g' := by
  intro k n hn
  rw [outline_of_pins inputs outputs]
  exact h k n (nodes ▸ hn)

theorem Every.repainted {P : Outline → Prop} {g : Graph} (h : Every P g)
    {node : NodeId → Node → Node} {input : PinId → InputPin → InputPin}
    {output : PinId → OutputPin → OutputPin} (keeps : Keeps node input output)
    (kinds : ∀ k n, (node k n).kind = n.kind)
    (placed : ∀ k n o, P o → o.position = n.position → P { o with position := (node k n).position })
    (inputs : ∀ k p, (input k p).type = p.type)
    (outputs : ∀ k p, (output k p).type = p.type) : Every P (g.repainted node input output) := by
  intro k n hn
  obtain ⟨m, hm, rfl⟩ := repainted_node.1 hn
  have same : (g.repainted node input output).outline (node k m)
      = { g.outline m with position := (node k m).position } := by
    have specs_in : ∀ pin, (g.repainted node input output).inputSpecAt pin = g.inputSpecAt pin := by
      intro pin
      simp only [inputSpecAt, Graph.repainted, Table.get?_mapWithKey]
      cases g.inputPins.get? pin <;> simp [keeps.inputLabel, inputs]
    have specs_out : ∀ pin, (g.repainted node input output).outputSpecAt pin = g.outputSpecAt pin := by
      intro pin
      simp only [outputSpecAt, Graph.repainted, Table.get?_mapWithKey]
      cases g.outputPins.get? pin <;> simp [keeps.output, outputs]
    rw [outline, outline, (keeps.node k m).2.1, (keeps.node k m).2.2, kinds,
      List.map_congr_left fun pin _ => specs_in pin, List.map_congr_left fun pin _ => specs_out pin]
  exact same ▸ placed k m _ (h k m hm) rfl

/-! ## Nodes that come and go -/

theorem Every.without {P : Outline → Prop} {g : Graph} (listed : g.Listed) (h : Every P g) {id : NodeId}
    {n : Node} (hn : g.nodes.get? id = some n) : Every P (g.without id n) := by
  intro k m hm
  obtain ⟨old, ne⟩ := Table.get?_erase_eq_some.1 hm
  have same : (g.without id n).outline m = g.outline m := by
    refine outline_congr (fun pin hpin => ?_) fun pin hpin => ?_
    · obtain ⟨p, hp, -⟩ := (listed.without hn).inputListed k m hm pin hpin
      simp only [inputSpecAt, hp, (Table.get?_eraseAll_eq_some.1 hp).1]
    · obtain ⟨p, hp, -⟩ := (listed.without hn).outputListed k m hm pin hpin
      simp only [outputSpecAt, hp, (Table.get?_eraseAll_eq_some.1 hp).1]
  exact same ▸ h k m old

theorem Every.removeNode {P : Outline → Prop} {g : Graph} (sound : g.Sound) (h : Every P g) (id : NodeId) :
    Every P (g.removeNode id).graph := by
  cases hn : g.nodes.get? id with
  | none => simpa [Graph.removeNode, hn] using h
  | some n =>
    rw [removeNode_graph sound.toLinked hn]
    exact (h.without sound.toListed hn).rewired

theorem map_freshInputs {g : Graph} (node : NodeId) (specs : List PinSpec) (start : Nat)
    (present : ∀ k p, (k, p) ∈ freshInputs node start specs → g.inputPins.get? k = some p) :
    ((freshInputs node start specs).map Prod.fst).map g.inputSpecAt = specs := by
  induction specs generalizing start with
  | nil => rfl
  | cons spec specs ih =>
    have first := present _ _ List.mem_cons_self
    have rest := ih (start + 1) fun k p hp => present k p (List.mem_cons_of_mem _ hp)
    simp only [freshInputs, List.map_cons, rest, inputSpecAt, first]
    rfl

theorem map_freshOutputs {g : Graph} (node : NodeId) (specs : List PinSpec) (start : Nat)
    (required : ∀ s ∈ specs, s.optional = false)
    (present : ∀ k p, (k, p) ∈ freshOutputs node start specs → g.outputPins.get? k = some p) :
    ((freshOutputs node start specs).map Prod.fst).map g.outputSpecAt = specs := by
  induction specs generalizing start with
  | nil => rfl
  | cons spec specs ih =>
    have first := present _ _ List.mem_cons_self
    have rest := ih (start + 1) (fun s hs => required s (List.mem_cons_of_mem _ hs))
      fun k p hp => present k p (List.mem_cons_of_mem _ hp)
    have always := required spec List.mem_cons_self
    simp only [freshOutputs, List.map_cons, rest, outputSpecAt, first]
    cases spec
    cases always
    rfl

theorem outputSpecs_required (kind : Kind) : ∀ s ∈ kind.outputSpecs, s.optional = false := by
  cases kind <;> simp [Kind.outputSpecs, Kind.requireOutput, PinSpec.required]

theorem Every.added {P : Outline → Prop} {g g' : Graph} {kind : Kind} {position : Position}
    (a : g.Added kind position g') (listed : g.Listed) (h : Every P g) (fresh : P (.ofKind kind position)) :
    Every P g' := by
  intro k n hn
  rcases a.get?_node.1 hn with old | new
  · have same : g'.outline n = g.outline n := by
      refine outline_congr (fun pin hpin => ?_) fun pin hpin => ?_
      · obtain ⟨p, hp, -⟩ := listed.inputListed k n old pin hpin
        simp only [inputSpecAt, hp, a.get?_input.2 (.inl hp)]
      · obtain ⟨p, hp, -⟩ := listed.outputListed k n old pin hpin
        simp only [outputSpecAt, hp, a.get?_output.2 (.inl hp)]
    exact same ▸ h k n old
  · cases new
    rw [outline, map_freshInputs _ _ _ fun k p hp => a.get?_input.2 (.inr hp),
      map_freshOutputs _ _ _ (outputSpecs_required kind) fun k p hp => a.get?_output.2 (.inr hp)]
    exact fresh

/-! ## A new shape -/

theorem spec_ext {specs specs' : List PinSpec} (types : specs.map PinSpec.type = specs'.map PinSpec.type)
    (labels : (specs.map fun s => (s.name, s.optional)) = specs'.map fun s => (s.name, s.optional)) :
    specs = specs' := by
  have length : specs.length = specs'.length := by simpa using congrArg List.length types
  refine List.ext_getElem length fun i hi hi' => ?_
  have type := congrArg (fun l => l[i]?) types
  have label := congrArg (fun l => l[i]?) labels
  simp only [List.getElem?_map, List.getElem?_eq_getElem hi, List.getElem?_eq_getElem hi', Option.map_some,
    Option.some.injEq, Prod.mk.injEq] at type label
  cases hs : specs[i]
  cases hs' : specs'[i]
  simp_all

theorem labels_recast (g : Graph) (kind : NodeId → Kind → Kind) (input output : PinId → PinType → PinType)
    (pin : PinId) :
    (((g.recast kind input output).inputSpecAt pin).name = (g.inputSpecAt pin).name
      ∧ ((g.recast kind input output).inputSpecAt pin).optional = (g.inputSpecAt pin).optional)
    ∧ ((g.recast kind input output).outputSpecAt pin).name = (g.outputSpecAt pin).name
      ∧ ((g.recast kind input output).outputSpecAt pin).optional = (g.outputSpecAt pin).optional := by
  simp only [inputSpecAt, outputSpecAt, recast, repainted, Table.get?_mapWithKey]
  constructor
  · cases g.inputPins.get? pin <;> simp
  · cases g.outputPins.get? pin <;> simp [PinSpec.required]

theorem outline_reshaped {g : Graph} (h : g.Listed) {id : NodeId} {n : Node}
    (hn : g.nodes.get? id = some n) {s : Shape} (follows : (g.shapeAt n).Follows policy.index s) :
    (g.outline n).Becomes policy ((g.reshaped id n s).outline { n with kind := s.kind }) := by
  constructor
  · have inputs : s.inputs.length = n.inputs.length := by simpa [shapeAt] using follows.inputs
    have outputs : s.outputs.length = n.outputs.length := by simpa [shapeAt] using follows.outputs
    rw [outline_shape, outline_shape, shapeAt_reshaped h hn inputs outputs]
    exact follows
  · simp [Outline.labels, outline, reshaped, labels_recast]
  · rfl

theorem outline_reshaped_of_ne {g : Graph} (h : g.Listed) {id : NodeId} {n : Node}
    (hn : g.nodes.get? id = some n) (s : Shape) {k : NodeId} (ne : k ≠ id) {m : Node}
    (hm : g.nodes.get? k = some m) : (g.reshaped id n s).outline m = g.outline m := by
  have shape : ((g.reshaped id n s).outline m).shape = (g.outline m).shape := by
    rw [outline_shape, outline_shape, shapeAt_reshaped_of_ne h hn s ne hm]
  have labels : ((g.reshaped id n s).outline m).labels = (g.outline m).labels := by
    simp [Outline.labels, outline, reshaped, labels_recast]
  have inputs := spec_ext (congrArg Shape.inputs shape) (congrArg Prod.fst labels)
  have outputs := spec_ext (congrArg Shape.outputs shape) (congrArg Prod.snd labels)
  rw [outline, outline] at *
  simp only [Outline.mk.injEq, true_and]
  exact ⟨inputs, outputs⟩

theorem Every.reshaped {P : Outline → Prop} (durable : Outline.Durable policy P) {g : Graph} (listed : g.Listed)
    (h : Every P g) {id : NodeId} {n : Node} (hn : g.nodes.get? id = some n) {s : Shape}
    (follows : (g.shapeAt n).Follows policy.index s) : Every P (g.reshaped id n s) := by
  intro k m hm
  by_cases here : k = id
  · subst here
    rw [reshaped_node_self hn] at hm
    cases hm
    exact durable.becomes _ _ (h k n hn) (outline_reshaped listed hn follows)
  · have old := (reshaped_node_of_ne s here).1 hm
    rw [outline_reshaped_of_ne listed hn s here old]
    exact h k m old

end Graph

end FrameGraph
