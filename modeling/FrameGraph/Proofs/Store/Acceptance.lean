/-
  FrameGraph.Proofs.Store.Acceptance: the graphs that the loader accepts, and what it makes of them.

  `WellFormed` says what a stored graph has to be, table by table and without an order of
  checking: ids, then lists of pins, then the terminal, then links. A document is accepted if
  and only if its version is known and its graph is well formed (`parse_accepts`), and the
  graph is taken over as it is stored, except that each input remembers the output that the
  link into it comes from (`Restores`).
-/

import FrameGraph.Document.Store
import FrameGraph.Proofs.Store.Loading

namespace FrameGraph.Graph

variable {g r : Graph}

structure WellFormed (g : Graph) : Prop where
  nodeKey : ∀ k n, g.nodes.get? k = some n → n.id = k
  inputKey : ∀ k p, g.inputPins.get? k = some p → p.id = k
  outputKey : ∀ k p, g.outputPins.get? k = some p → p.id = k
  linkKey : ∀ k l, g.links.get? k = some l → l.id = k
  distinct : g.ids.Nodup
  below : ∀ i ∈ g.ids, i < g.nextId
  ownInputs : ∀ k n, g.nodes.get? k = some n → ∀ pin ∈ n.inputs, ∃ p, g.inputPins.get? pin = some p ∧ p.node = k
  ownOutputs : ∀ k n, g.nodes.get? k = some n → ∀ pin ∈ n.outputs, ∃ p, g.outputPins.get? pin = some p ∧ p.node = k
  listedOnce : (g.nodes.values.flatMap Node.pins).Nodup
  listedAll : ∀ pin ∈ g.inputPins.keys ++ g.outputPins.keys, ∃ k n, g.nodes.get? k = some n ∧ pin ∈ n.pins
  inputCount : ∀ k n, g.nodes.get? k = some n → n.inputs.length = n.kind.inputSpecs.length
  outputCount : ∀ k n, g.nodes.get? k = some n → n.outputs.length = n.kind.outputSpecs.length
  terminal : ∀ t, g.terminal = some t → ∃ n, g.nodes.get? t = some n
  joins : ∀ k l, g.links.get? k = some l → ∃ o i, g.outputPins.get? l.output = some o
    ∧ g.inputPins.get? l.input = some i ∧ o.type = i.type ∧ i.type.base ≠ Base.none
  single : ∀ k l k' l', g.links.get? k = some l → g.links.get? k' = some l' → l.input = l'.input → k = k'

/-- `r` is `g` with every input fed by the output that a link leads from, if there is a link. -/
def Restores (g r : Graph) : Prop :=
  ∃ feeds : PinId → Option PinId,
    (∀ pin output, feeds pin = some output ↔ ∃ k l, g.links.get? k = some l ∧ l.input = pin ∧ l.output = output)
      ∧ r = { g with inputPins := g.inputPins.mapWithKey fun pin p => { p with connection := feeds pin } }

/-! ## Well-formed graphs pass the checks -/

theorem restores_iff (single : Single g.links) : g.Restores r ↔ r = g.rewired := by
  have fed : ∀ pin output, fedBy g.links pin = some output ↔
      ∃ k l, g.links.get? k = some l ∧ l.input = pin ∧ l.output = output := fun _ _ => fedBy_eq_some_iff single
  constructor
  · intro restores
    obtain ⟨feeds, entering, rfl⟩ := restores
    have same : feeds = fedBy g.links := by
      funext pin
      exact Option.ext fun output => (entering pin output).trans (fed pin output).symm
    rw [same, rewired]
  · intro rewires
    exact ⟨fedBy g.links, fed, rewires⟩

theorem typed_iff {o : OutputPin} {i : InputPin} :
    o.type.compatible i.type = true ↔ o.type = i.type ∧ i.type.base ≠ Base.none := by
  rw [compatible_iff]
  refine and_congr_right fun same => ?_
  simp [PinType.isUntyped, same]

/-- The list of checks that a graph goes through, with what each of them asks. -/
theorem wellFormed_iff : g.WellFormed ↔ g.checkIds = .ok () ∧ g.checkPins = .ok () ∧ g.checkTerminal = .ok ()
    ∧ (∀ l ∈ g.links.values, g.Joins l) ∧ (g.links.values.map Link.input).Nodup := by
  rw [checkIds_eq_ok_iff, checkPins_eq_ok_iff, checkTerminal_eq_ok_iff]
  constructor
  · intro w
    refine ⟨⟨storedIds_agree_iff.2 ⟨w.nodeKey, w.inputKey, w.outputKey, w.linkKey⟩, w.distinct, w.below⟩,
      ⟨fun n hn => ?own, w.listedOnce, fun pin hpin => ?covered⟩, w.terminal, fun l hl => ?joins,
      (single_iff w.linkKey).2 w.single⟩
    case own =>
      obtain ⟨k, hn⟩ := Table.mem_values_iff.1 hn
      obtain rfl := w.nodeKey k n hn
      exact ⟨fun pin hpin => ownsInput_iff.2 (w.ownInputs _ n hn pin hpin),
        fun pin hpin => ownsOutput_iff.2 (w.ownOutputs _ n hn pin hpin), w.inputCount _ n hn, w.outputCount _ n hn⟩
    case covered =>
      obtain ⟨k, n, hn, listed⟩ := w.listedAll pin hpin
      exact ⟨n, Table.mem_values_iff.2 ⟨k, hn⟩, listed⟩
    case joins =>
      obtain ⟨k, hl⟩ := Table.mem_values_iff.1 hl
      obtain ⟨o, i, ho, hi, fits⟩ := w.joins k l hl
      exact ⟨o, i, ho, hi, typed_iff.2 fits⟩
  · intro passed
    obtain ⟨⟨stored, numbered⟩, ⟨own, once, covered⟩, terminal, joins, single⟩ := passed
    obtain ⟨nodeKey, inputKey, outputKey, linkKey⟩ := storedIds_agree_iff.1 stored
    have lists : ∀ k n, g.nodes.get? k = some n → g.ListsOwn n := fun k n hn =>
      own n (Table.mem_values_iff.2 ⟨k, hn⟩)
    exact {
      nodeKey, inputKey, outputKey, linkKey
      distinct := numbered.distinct
      below := numbered.below
      ownInputs := fun k n hn pin hpin => nodeKey k n hn ▸ ownsInput_iff.1 ((lists k n hn).inputs pin hpin)
      ownOutputs := fun k n hn pin hpin => nodeKey k n hn ▸ ownsOutput_iff.1 ((lists k n hn).outputs pin hpin)
      listedOnce := once
      listedAll := by
        intro pin hpin
        obtain ⟨n, hn, listed⟩ := covered pin hpin
        obtain ⟨k, hn⟩ := Table.mem_values_iff.1 hn
        exact ⟨k, n, hn, listed⟩
      inputCount := fun k n hn => (lists k n hn).inputCount
      outputCount := fun k n hn => (lists k n hn).outputCount
      terminal
      joins := by
        intro k l hl
        obtain ⟨o, i, ho, hi, fits⟩ := joins l (Table.mem_values_iff.2 ⟨k, hl⟩)
        exact ⟨o, i, ho, hi, typed_iff.1 fits⟩
      single := (single_iff linkKey).1 single }

theorem restore_accepts : g.restore = .ok r ↔ g.WellFormed ∧ g.Restores r := by
  have checked : g.restore = .ok r ↔ g.WellFormed ∧ r = g.rewired := by
    simp only [restore_checks, wellFormed_iff, and_assoc]
  rw [checked]
  exact and_congr_right fun w => (restores_iff w.single).symm

/-! ## Documents -/

/-- The version and the graph that a text holds, before any check. -/
def document? (text : String) : Option (Nat × Graph) := (Schema.document.read? text).bind Decode.document

theorem ofDocument_eq_ok_iff {version : Nat} :
    ofDocument version g = .ok r ↔ version ≤ formatVersion ∧ g.restore = .ok r := by
  unfold ofDocument
  by_cases newer : version > formatVersion
  · rw [if_pos newer]
    exact ⟨nofun, fun accepted => absurd accepted.1 (Nat.not_le.2 newer)⟩
  · rw [if_neg newer]
    have known := Nat.not_lt.1 newer
    cases g.restore with
    | error d => exact ⟨nofun, nofun⟩
    | ok r' => simp [Except.mapError, known]

theorem parse_eq_ok_iff {text : String} : parse text = .ok r ↔
    ∃ version g, document? text = some (version, g) ∧ version ≤ formatVersion ∧ g.restore = .ok r := by
  simp only [← ofDocument_eq_ok_iff]
  unfold parse document?
  cases (Schema.document.read? text).bind Decode.document with
  | none => simp
  | some document =>
    obtain ⟨version, g⟩ := document
    simp

/-- A text is accepted if and only if it holds a well-formed graph of a known version, and what
is loaded is that graph with the memories of its inputs restored. -/
theorem parse_accepts (text : String) :
    ((∃ r, parse text = .ok r) ↔
        ∃ version g, document? text = some (version, g) ∧ version ≤ formatVersion ∧ g.WellFormed)
      ∧ ∀ r, parse text = .ok r ↔
        ∃ version g, document? text = some (version, g) ∧ version ≤ formatVersion ∧ g.WellFormed ∧ g.Restores r := by
  have loads : ∀ r, parse text = .ok r ↔
      ∃ version g, document? text = some (version, g) ∧ version ≤ formatVersion ∧ g.WellFormed ∧ g.Restores r := by
    simp only [parse_eq_ok_iff, restore_accepts, implies_true]
  refine ⟨⟨fun accepted => ?_, fun accepted => ?_⟩, loads⟩
  · obtain ⟨r, loaded⟩ := accepted
    obtain ⟨version, g, document, known, w, -⟩ := (loads r).1 loaded
    exact ⟨version, g, document, known, w⟩
  · obtain ⟨version, g, document, known, w⟩ := accepted
    exact ⟨g.rewired, (loads _).2 ⟨version, g, document, known, w, (restores_iff w.single).2 rfl⟩⟩

end FrameGraph.Graph
