/-
  FrameGraph.Proofs.Document.Saving: what is saved can be loaded.

  A sound graph whose numbers have the sizes that a document has room for fits the schema of
  documents (`fits_document`), so its text reads back as what was stored of it. Its links are
  not refused, and the memories rebuilt from them are those that it had (`parse_print`): only
  the marks and values of an evaluation are gone, which change nothing about what the graph
  compiles to. Editing with such numbers leads to such graphs (`session_saved`). Coordinates
  that are not numbers come back with the usual bits, and nothing else changes (`parse_plain`).
-/

import FrameGraph.Proofs.Compile.Visit
import FrameGraph.Proofs.Document.Decoding
import FrameGraph.Proofs.Notation.Printed
import FrameGraph.Proofs.Store.Runs

namespace FrameGraph

open Ron (Fits Wanted wanted_cons wanted_nil)

-- Powers are the core ones, as where numbers are read.
local instance (priority := high) storedPower : Pow Nat Nat := instPowNat

/-! ## What documents have room for -/

/-- The number of the list member that a kind picks has a width. -/
def Kind.Storable (k : Kind) : Prop := ∀ i, k.index? = some i → i < 2 ^ 64

def Position.IsNumber (p : Position) : Prop := p.x.isNaN = false ∧ p.y.isNaN = false

def Position.plain (p : Position) : Position := ⟨p.x.plain, p.y.plain⟩

/-- Edits put in numbers only, with the widths that they are stored with. -/
def storable : Policy := ⟨Kind.Storable, Position.IsNumber, fun i => i < 2 ^ 64⟩

/-- Any place may be put in, with counts of the widths that they are stored with. -/
def countable : Policy := ⟨Kind.Storable, fun _ => True, fun i => i < 2 ^ 64⟩

namespace Outline

structure Countable (o : Outline) : Prop where
  sized : o.shape.Sized
  index : o.kind.Storable

structure Storable (o : Outline) : Prop where
  sized : o.shape.Sized
  index : o.kind.Storable
  position : o.position.IsNumber

/-- What comes back from a document as it was. -/
structure Legible (o : Outline) : Prop extends Countable o where
  position : o.position.plain = o.position

theorem Storable.legible {o : Outline} (h : o.Storable) : o.Legible where
  sized := h.sized
  index := h.index
  position := by
    rw [Position.plain, Binary32.plain_of_number h.position.1, Binary32.plain_of_number h.position.2]

theorem durable_countable : Durable countable Countable where
  sized _ h := h.sized
  fresh kind position made _ := ⟨sized_ofKind kind position, made⟩
  moved _ _ h _ := ⟨h.sized, h.index⟩
  becomes o o' h b := by
    refine ⟨b.sized h.sized, fun i picked => ?_⟩
    rcases b.shape.index i picked with kept | set
    · exact h.index i kept
    · exact set
  resized o count h takes := by
    have durable : Durable countable fun o => o.shape.Sized := durable_sized
    refine ⟨durable.resized o count h.sized takes, fun i picked => ?_⟩
    obtain ⟨kind, position, inputs, outputs⟩ := o
    obtain ⟨least, minimal, -⟩ := takes
    cases kind with
    | concat element current => cases picked
    | requireLock current => cases picked
    | _ => cases minimal

theorem durable_storable : Durable storable Storable where
  sized _ h := h.sized
  fresh kind position made placed := ⟨sized_ofKind kind position, made, placed⟩
  moved _ _ h placed := ⟨h.sized, h.index, placed⟩
  becomes o o' h b :=
    have ⟨sized, index⟩ := durable_countable.becomes o o' ⟨h.sized, h.index⟩ ⟨b.shape, b.labels, b.position⟩
    ⟨sized, index, b.position ▸ h.position⟩
  resized o count h takes :=
    have ⟨sized, index⟩ := durable_countable.resized o count ⟨h.sized, h.index⟩ takes
    ⟨sized, index, h.position⟩

end Outline

/-! ## Pins and kinds -/

namespace Encode

variable {n : Nat}

theorem fits_nodeId {i : NodeId} (small : i.val < 2 ^ 32) : Fits Schema.nodeId (n + 1) (nodeId i) :=
  .wrapped _ (.nat small)

theorem fits_pinId {i : PinId} (small : i.val < 2 ^ 32) : Fits Schema.pinId (n + 1) (pinId i) :=
  .wrapped _ (.nat small)

theorem fits_linkId {i : LinkId} (small : i.val < 2 ^ 32) : Fits Schema.linkId (n + 1) (linkId i) :=
  .wrapped _ (.nat small)

theorem fits_pinIds {pins : List PinId} (small : ∀ pin ∈ pins, pin.val < 2 ^ 32) :
    Fits (.list Schema.pinId) (n + 3) (.list (pins.map pinId)) := by
  refine .list fun v hv => ?_
  obtain ⟨pin, hp, rfl⟩ := List.mem_map.1 hv
  exact fits_pinId (small pin hp)

theorem fits_pinType (t : PinType) : Fits Schema.pinType (n + 2) (pinType t) :=
  (wanted_cons rfl rfl (.text _) (wanted_cons rfl rfl (.bool _) wanted_nil)).record _

theorem fits_provider (p : Provider) : Fits Schema.provider (n + 2) (.word (providerName p)) := by
  cases p <;> exact .word rfl rfl

/-- A kind with no more inputs than can be counted fits. -/
theorem fits_kind {k : Kind} (storable : k.Storable) (few : k.inputSpecs.length < 2 ^ 64) :
    Fits Schema.kind (n + 6) (kind k) := by
  cases k with
  | provider p => exact .variant rfl rfl (fits_provider p)
  | convert fromType toType =>
    exact .variant rfl rfl ((wanted_cons rfl rfl (fits_pinType _) (wanted_cons rfl rfl (fits_pinType _) wanted_nil)).record _)
  | concat element inputs =>
    have counted : inputs < 2 ^ 64 := by simpa [Kind.inputSpecs] using few
    exact .variant rfl rfl ((wanted_cons rfl rfl (fits_pinType _) (wanted_cons rfl rfl (.nat counted) wanted_nil)).record _)
  | select element index =>
    have counted := storable index rfl
    exact .variant rfl rfl ((wanted_cons rfl rfl (fits_pinType _) (wanted_cons rfl rfl (.nat counted) wanted_nil)).record _)
  | render isArray => exact .variant rfl rfl ((wanted_cons rfl rfl (.bool _) wanted_nil).record _)
  | requireLock inputs =>
    have counted : inputs < 2 ^ 64 := by simpa [Kind.inputSpecs] using few
    exact .variant rfl rfl ((wanted_cons rfl rfl (.nat counted) wanted_nil).record _)
  | property name type =>
    exact .variant rfl rfl ((wanted_cons rfl rfl (.text _) (wanted_cons rfl rfl (fits_pinType _) wanted_nil)).record _)
  | vertexAttribute name type =>
    exact .variant rfl rfl ((wanted_cons rfl rfl (.text _) (wanted_cons rfl rfl (fits_pinType _) wanted_nil)).record _)
  | sampler name => exact .variant rfl rfl ((wanted_cons rfl rfl (.text _) wanted_nil).record _)
  | add type => exact .variant rfl rfl ((wanted_cons rfl rfl (fits_pinType _) wanted_nil).record _)
  | _ => exact .variant rfl rfl (.unit _)

/-! ## Sound graphs -/

theorem val_injective : Function.Injective PinId.val := by
  intro a b same
  cases a
  cases b
  cases same
  rfl

theorem fits_table {κ α : Type} [DecidableEq κ] {key : κ → Ron.Value} {value : α → Ron.Value} {ks vs : Ron.Schema}
    {t : Table κ α} (h : ∀ k a, t.get? k = some a → Fits ks n (key k) ∧ Fits vs n (value a)) :
    Fits (.map ks vs) (n + 2) (table key value t) := by
  refine .map (fun e he => ?_) fun e he => ?_
  · obtain ⟨⟨k, a⟩, hk, rfl⟩ := List.mem_map.1 he
    exact (h k a (Table.get?_of_mem hk)).1
  · obtain ⟨⟨k, a⟩, hk, rfl⟩ := List.mem_map.1 he
    exact (h k a (Table.get?_of_mem hk)).2

variable {g : Graph} (sound : g.Sound) (small : g.nextId < 2 ^ 32)
include sound small

theorem node_small {k : NodeId} {m : Node} (h : g.nodes.get? k = some m) : k.val < 2 ^ 32 :=
  Nat.lt_trans (sound.node_lt (Table.mem_keys_of_get? h)) small

theorem input_small {k : PinId} {p : InputPin} (h : g.inputPins.get? k = some p) : k.val < 2 ^ 32 :=
  Nat.lt_trans (sound.input_lt (Table.mem_keys_of_get? h)) small

theorem output_small {k : PinId} {p : OutputPin} (h : g.outputPins.get? k = some p) : k.val < 2 ^ 32 :=
  Nat.lt_trans (sound.output_lt (Table.mem_keys_of_get? h)) small

/-- Every input has a number of its own. -/
theorem inputs_few {k : NodeId} {m : Node} (h : g.nodes.get? k = some m) : m.inputs.length < 2 ^ 64 := by
  have distinct : (m.inputs.map PinId.val).Nodup :=
    (List.nodup_append.1 (sound.once k m h)).1.map val_injective
  have numbers : m.inputs.map PinId.val ⊆ List.range g.nextId := by
    intro i hi
    obtain ⟨pin, listed, rfl⟩ := List.mem_map.1 hi
    exact List.mem_range.2 (sound.pins_lt sound.toListed h pin (List.mem_append_left _ listed))
  have few := distinct.length_le_of_subset numbers
  rw [List.length_map, List.length_range] at few
  omega

theorem fits_node {k : NodeId} {m : Node} (h : g.nodes.get? k = some m) (legible : (g.outline m).Legible) :
    Fits Schema.node (n + 8) (node m) := by
  have id := sound.nodeKey k m h ▸ node_small sound small h
  have few : m.kind.inputSpecs.length < 2 ^ 64 :=
    (Graph.sized_outline_iff.1 legible.sized).1 ▸ inputs_few sound small h
  have kind := fits_kind (n := n) legible.index few
  have position : Fits (.pair .single) (n + 6) (position m.position) :=
    .pair (.single (congrArg Position.x legible.position)) (.single (congrArg Position.y legible.position))
  have pins : ∀ pin ∈ m.pins, pin.val < 2 ^ 32 := fun pin listed =>
    Nat.lt_trans (sound.pins_lt sound.toListed h pin listed) small
  have inputs := fits_pinIds (n := n + 3) fun pin listed => pins pin (List.mem_append_left m.outputs listed)
  have outputs := fits_pinIds (n := n + 3) fun pin listed => pins pin (List.mem_append_right m.inputs listed)
  exact (wanted_cons rfl rfl (fits_nodeId id) (wanted_cons rfl rfl kind (wanted_cons rfl rfl position
    (wanted_cons rfl rfl inputs (wanted_cons rfl rfl outputs wanted_nil))))).record _

theorem fits_inputPin {k : PinId} {p : InputPin} (h : g.inputPins.get? k = some p) :
    Fits Schema.inputPin (n + 4) (inputPin p) := by
  have id := sound.inputKey k p h ▸ input_small sound small h
  obtain ⟨m, owner, -⟩ := sound.inputOwner k p h
  have node := node_small sound small owner
  exact (wanted_cons rfl rfl (fits_pinId id) (wanted_cons rfl rfl (fits_nodeId node) (wanted_cons rfl rfl (.text _)
    (wanted_cons rfl rfl (fits_pinType _) (wanted_cons rfl rfl (.bool _) wanted_nil))))).record _

theorem fits_outputPin {k : PinId} {p : OutputPin} (h : g.outputPins.get? k = some p) :
    Fits Schema.outputPin (n + 4) (outputPin p) := by
  have id := sound.outputKey k p h ▸ output_small sound small h
  obtain ⟨m, owner, -⟩ := sound.outputOwner k p h
  have node := node_small sound small owner
  exact (wanted_cons rfl rfl (fits_pinId id) (wanted_cons rfl rfl (fits_nodeId node) (wanted_cons rfl rfl (.text _)
    (wanted_cons rfl rfl (fits_pinType _) wanted_nil)))).record _

theorem fits_link {k : LinkId} {l : Link} (h : g.links.get? k = some l) : Fits Schema.link (n + 3) (link l) := by
  have id := sound.linkKey k l h ▸ Nat.lt_trans (sound.link_lt (Table.mem_keys_of_get? h)) small
  obtain ⟨⟨o, ho⟩, i, hi⟩ := sound.ends k l h
  have input := input_small sound small hi
  have output := output_small sound small ho
  exact (wanted_cons rfl rfl (fits_linkId id) (wanted_cons rfl rfl (fits_pinId input)
    (wanted_cons rfl rfl (fits_pinId output) wanted_nil))).record _

theorem fits_terminal : Fits (.option Schema.nodeId) (n + 2) (.ofOption (g.terminal.map nodeId)) := by
  cases chosen : g.terminal with
  | none => exact .absent
  | some t =>
    obtain ⟨m, hm⟩ := sound.terminalKnown t chosen
    exact .present (fits_nodeId (node_small sound small hm))

theorem fits_graph (legible : Graph.Every Outline.Legible g) : Fits Schema.graph (n + 12) (graph g) := by
  have nodes : Fits (.map Schema.nodeId Schema.node) (n + 10) (table nodeId node g.nodes) := fits_table fun k m h =>
    ⟨fits_nodeId (node_small sound small h), fits_node sound small h (legible k m h)⟩
  have inputs : Fits (.map Schema.pinId Schema.inputPin) (n + 10) (table pinId inputPin g.inputPins) :=
    fits_table fun k p h => ⟨fits_pinId (input_small sound small h), fits_inputPin sound small h⟩
  have outputs : Fits (.map Schema.pinId Schema.outputPin) (n + 10) (table pinId outputPin g.outputPins) :=
    fits_table fun k p h => ⟨fits_pinId (output_small sound small h), fits_outputPin sound small h⟩
  have links : Fits (.map Schema.linkId Schema.link) (n + 10) (table linkId link g.links) := fits_table fun k l h =>
    ⟨fits_linkId (Nat.lt_trans (sound.link_lt (Table.mem_keys_of_get? h)) small), fits_link sound small h⟩
  exact (wanted_cons rfl rfl (.wrapped _ (.text _)) (wanted_cons rfl rfl (.text _) (wanted_cons rfl rfl (.nat small)
    (wanted_cons rfl rfl (fits_terminal sound small) (wanted_cons rfl rfl nodes (wanted_cons rfl rfl inputs
      (wanted_cons rfl rfl outputs (wanted_cons rfl rfl links wanted_nil)))))))).record _

theorem fits_document (legible : Graph.Every Outline.Legible g) :
    Fits Schema.document Ron.Reader.depthLimit (document Graph.formatVersion g) := by
  have version : Graph.formatVersion < 2 ^ 32 := by decide
  exact (wanted_cons rfl rfl (.nat version) (wanted_cons rfl rfl (fits_graph sound small legible) wanted_nil)).record _

end Encode

/-! ## Saving and loading -/

namespace Graph

theorem stored_rewired {g : Graph} (h : g.Sound) : g.stored.rewired = g.resetEvaluation := by
  have linked := h.resetEvaluation.1.toLinked.rewired_eq
  rw [← linked]
  simp [stored, rewired, forgetConnections, resetEvaluation, Table.map, Table.mapWithKey_mapWithKey]

/-- What is printed is read as the graph without its marks and values. -/
theorem parse_legible {g : Graph} (sound : g.Sound) (small : g.nextId < 2 ^ 32) (legible : Every Outline.Legible g) :
    parse g.print = .ok g.resetEvaluation := by
  have read : Schema.document.read? g.print = some (Encode.document formatVersion g) :=
    (Encode.fits_document sound small legible).read?_print
  have loaded : g.stored.restore = .ok g.resetEvaluation := by
    rw [restore_eq_ok_iff, stored_rewired sound]
    exact ⟨⟨sound.resetEvaluation.1, sound.resetEvaluation.2 _ fun k n h => (legible k n h).sized⟩, rfl⟩
  refine parse_eq_ok_iff.2 ⟨formatVersion, g.stored, ?_, Nat.le_refl _, loaded⟩
  rw [document?, read, Option.bind_some, Decode.document_encoded]

theorem parse_print {g : Graph} (sound : g.Sound) (small : g.nextId < 2 ^ 32) (stored : Every Outline.Storable g) :
    parse g.print = .ok g.resetEvaluation :=
  parse_legible sound small fun k n h => (stored k n h).legible

/-! ## Coordinates that are not numbers -/

/-- The graph with its coordinates as they come back. -/
def plain (g : Graph) : Graph :=
  g.repainted (fun _ n => { n with position := n.position.plain }) (fun _ p => p) fun _ p => p

theorem keeps_plain : Keeps (fun _ n => { n with position := n.position.plain }) (fun _ p => p) fun _ p => p :=
  ⟨fun _ _ => ⟨rfl, rfl, rfl⟩, fun _ _ => ⟨rfl, rfl⟩, fun _ _ => ⟨rfl, rfl, rfl⟩, fun _ _ => ⟨rfl, rfl, rfl⟩⟩

theorem Sound.plain {g : Graph} (h : g.Sound) : g.plain.Sound :=
  h.repainted keeps_plain (fun _ _ => rfl) fun _ _ => rfl

theorem legible_plain {g : Graph} (h : Every Outline.Countable g) : Every Outline.Legible g.plain := by
  have countable : Every Outline.Countable g.plain :=
    h.repainted keeps_plain (fun _ _ => rfl) (fun _ _ _ ho _ => ⟨ho.sized, ho.index⟩) (fun _ _ => rfl) fun _ _ => rfl
  intro k n hn
  obtain ⟨m, -, rfl⟩ := repainted_node.1 hn
  refine ⟨countable k _ hn, ?_⟩
  show m.position.plain.plain = m.position.plain
  simp only [Position.plain, Binary32.plain_plain]

theorem render_position (p : Position) (depth : Nat) :
    (Encode.position p.plain).render depth = (Encode.position p).render depth := by
  simp only [Encode.position, Position.plain, Ron.render_pair, Ron.Value.render, Binary32.text_plain]

theorem render_nodes (t : Table NodeId Node) (depth : Nat) :
    (Encode.table Encode.nodeId Encode.node (t.map fun n => { n with position := n.position.plain })).render depth
      = (Encode.table Encode.nodeId Encode.node t).render depth := by
  have node : ∀ (n : Node) depth,
      (Encode.node { n with position := n.position.plain }).render depth = (Encode.node n).render depth := by
    intro n depth
    simp only [Encode.node, Ron.Value.plainRecord, Ron.Value.render, Ron.Value.renderFields, render_position,
      List.isEmpty_cons]
  simp only [Encode.table, Ron.Value.render, Ron.renderEntries_eq, Table.map, Table.mapWithKey, List.map_map,
    Function.comp_def, node, List.isEmpty_map]

/-- Which bits a coordinate has that is no number cannot be told from the text. -/
theorem print_plain (g : Graph) : g.plain.print = g.print := by
  have others : g.plain = { g with nodes := g.nodes.map fun n => { n with position := n.position.plain } } :=
    (g.place_eq _).symm
  simp only [print, Ron.Value.print, Encode.document, Encode.graph, others, Ron.Value.plainRecord, Ron.Value.render,
    Ron.Value.renderFields, render_nodes, List.isEmpty_cons]

/-- Whatever the coordinates are, what is printed is read as the graph with plain ones. -/
theorem parse_plain {g : Graph} (sound : g.Sound) (small : g.nextId < 2 ^ 32) (countable : Every Outline.Countable g) :
    parse g.print = .ok g.plain.resetEvaluation := by
  rw [← print_plain]
  exact parse_legible sound.plain small (legible_plain countable)

/-! ## Sessions -/

theorem pipeline_resetEvaluation (g : Graph) (b : Pipeline.Builder) :
    (b.evaluateGraph g.resetEvaluation).2.result = (b.evaluateGraph g).2.result := by
  obtain ⟨result, backend⟩ := g.evaluate_resetEvaluation b
  simp only [Pipeline.Builder.evaluateGraph, result, backend]
  cases (g.evaluate b).result <;> rfl

theorem program_resetEvaluation (g : Graph) (b : Program.Builder) :
    (b.evaluateGraph g.resetEvaluation).2.result = (b.evaluateGraph g).2.result := by
  obtain ⟨result, backend⟩ := g.evaluate_resetEvaluation b
  simp only [Program.Builder.evaluateGraph, result, backend]
  cases (g.evaluate b).result <;> rfl

/-- A loaded graph is the saved one without marks and values, and both back ends make the same
of it, an artifact or an error. -/
structure Returns (g loaded : Graph) : Prop where
  same : loaded = g.resetEvaluation
  pipeline : ∀ b : Pipeline.Builder, (b.evaluateGraph loaded).2.result = (b.evaluateGraph g).2.result
  program : ∀ b : Program.Builder, (b.evaluateGraph loaded).2.result = (b.evaluateGraph g).2.result

/-- However a new graph is edited and evaluated, with numbers for positions and fewer ids than
32 bits can tell apart, it is saved and loaded without loss. -/
theorem session_saved (id : Uuid) (name : String) {edits : List Edit} (within : ∀ e ∈ edits, e.Within storable) :
    ∃ g, Edit.run edits (.new id name) = .ok g
      ∧ (g.nextId < 2 ^ 32 → ∃ loaded, parse g.print = .ok loaded ∧ g.Returns loaded) := by
  obtain ⟨g, ran, sound, every⟩ := run_sound within (sound_new id name) every_new
  have stored : Every Outline.Storable g := every _ Outline.durable_storable every_new
  refine ⟨g, ran, fun small => ⟨_, parse_print sound small stored, ?_⟩⟩
  exact ⟨rfl, pipeline_resetEvaluation g, program_resetEvaluation g⟩

theorem session_saved_screen : (∀ e ∈ [Edit.addNode (.provider .target) .origin, .addNode .screen .origin,
        .connect ⟨1⟩ ⟨3⟩, .setTerminal ⟨2⟩], e.Within storable)
      ∧ ∃ g, Edit.run [.addNode (.provider .target) .origin, .addNode .screen .origin, .connect ⟨1⟩ ⟨3⟩,
          .setTerminal ⟨2⟩] (.new .zero untitled) = .ok g
        ∧ g.nextId < 2 ^ 32 ∧ ∃ loaded, parse g.print = .ok loaded ∧ g.Returns loaded := by
  have origin : Position.origin.IsNumber := ⟨rfl, rfl⟩
  have within : ∀ e ∈ [Edit.addNode (.provider .target) .origin, .addNode .screen .origin, .connect ⟨1⟩ ⟨3⟩,
      .setTerminal ⟨2⟩], e.Within storable := by
    simp only [List.forall_mem_cons, Edit.Within]
    refine ⟨⟨?_, origin⟩, ⟨?_, origin⟩, trivial, trivial, List.forall_mem_nil _⟩
    all_goals
      intro i none
      cases none
  obtain ⟨g, ran, saved⟩ := session_saved .zero untitled within
  have small : g.nextId < 2 ^ 32 := by
    have counter : (Edit.run [.addNode (.provider .target) .origin, .addNode .screen .origin, .connect ⟨1⟩ ⟨3⟩,
        .setTerminal ⟨2⟩] (.new .zero untitled)).map Graph.nextId = .ok 6 := rfl
    rw [ran] at counter
    rw [Except.ok.inj counter]
    decide
  exact ⟨within, g, ran, small, saved small⟩

end Graph

end FrameGraph
