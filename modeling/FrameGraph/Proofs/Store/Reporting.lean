/-
  FrameGraph.Proofs.Store.Reporting: a setting names the links that it costs.

  A setter answers with links, so that whoever shows the graph can take them off the screen. These
  are exactly the links that are gone (`configure_reports`). Two ways lead there. A new type makes
  links stale on the one node that was set, and the stale links are what is removed
  (`reconfigure_eq`). Another number of inputs drops pins one after another, each with the link
  that enters it, and dropping one does not touch the link into another (`dropInputs_result`), so
  that the answer follows the pins; the inputs that stay keep their links, and new ones are those
  that the kind declares at their index (`Refits`).
-/

import FrameGraph.Proofs.Store.Joining
import Mathlib.Data.List.Nodup

namespace FrameGraph

/-! ## Settings and their answers -/

/-- What can be set on a node once it is there. -/
inductive NodeSetting where
  | convertFrom (type : PinType)
  | convertTo (type : PinType)
  | selectIndex (index : Nat)
  | inputCount (count : Nat)

namespace Graph

def configure (g : Graph) (id : NodeId) : NodeSetting → Except Fault (Outcome (Except GraphError (List LinkId)))
  | .convertFrom type => g.setConvertFrom id type
  | .convertTo type => g.setConvertTo id type
  | .selectIndex index => g.setSelectIndex id index
  | .inputCount count => .ok (g.setInputCount id count)

/-- `g'` is `g` without the links in `removed`, and apart from them only one node and its pins may
have changed. -/
structure Reports (g : Graph) (id : NodeId) (removed : List LinkId) (g' : Graph) : Prop where
  once : removed.Nodup
  gone : ∀ k, k ∈ removed ↔ k ∈ g.links.keys ∧ k ∉ g'.links.keys
  links : g'.links.entries = g.links.entries.filter fun e => decide (e.1 ∉ removed)
  forgets : ∀ k l, g.links.get? k = some l → k ∈ removed → g'.remembers l.input = none
  recalls : ∀ pin, (∀ k l, g.links.get? k = some l → l.input = pin → k ∉ removed) →
    g'.remembers pin = g.remembers pin
  nodes : g'.nodes.keys = g.nodes.keys ∧ ∀ k, k ≠ id → g'.nodes.get? k = g.nodes.get? k
  inputs : ∀ pin p, p.node ≠ id → (g'.inputPins.get? pin = some p
    ↔ ∃ old, g.inputPins.get? pin = some old ∧ p = { old with connection := g'.remembers pin })
  outputs : ∀ pin p, p.node ≠ id → (g'.outputPins.get? pin = some p ↔ g.outputPins.get? pin = some p)
  heading : g'.id = g.id ∧ g'.name = g.name ∧ g'.terminal = g.terminal

/-- The ids of the inputs that a node is to gain. -/
def gained (g : Graph) (n : Node) (count : Nat) : List PinId :=
  (List.range' g.nextId (count - n.inputs.length)).map PinId.mk

/-- `g'` is `g` after the node `n` was given some number of inputs, at the cost of the links in
`removed`. -/
structure Refits (g : Graph) (id : NodeId) (n : Node) (count : Nat) (removed : List LinkId) (g' : Graph) :
    Prop where
  answer : removed = (n.inputs.drop count).filterMap fun pin => (g.linkInto? pin).map Link.id
  entered : ∀ k, k ∈ removed ↔ ∃ l, g.links.get? k = some l ∧ l.input ∈ n.inputs.drop count
  node : g'.nodes.get? id = some { n with
    kind := n.kind.withInputCount count
    inputs := n.inputs.take count ++ g.gained n count }
  listed : (n.inputs.take count ++ g.gained n count).length = count
  declared : (n.kind.withInputCount count).inputSpecs.length = count
  kept : ∀ pin ∈ n.inputs.take count, g'.inputPins.get? pin = g.inputPins.get? pin
    ∧ ∀ k l, l.input = pin → (g'.links.get? k = some l ↔ g.links.get? k = some l)
  dropped : ∀ pin ∈ n.inputs.drop count, g'.inputPins.get? pin = none
  added : ∀ i, n.inputs.length ≤ i → i < count → ∃ pin spec,
    pin = ⟨g.nextId + (i - n.inputs.length)⟩ ∧ (n.inputs.take count ++ g.gained n count)[i]? = some pin
      ∧ (n.kind.withInputCount count).inputSpecs[i]? = some spec
      ∧ (spec.name = "Object " ++ toString (i + 1) ∨ spec.name = "Require " ++ toString (i + 1))
      ∧ g'.inputPins.get? pin = some ⟨pin, id, spec.name, spec.type, spec.optional, none⟩
  fresh : ∀ pin ∈ g.gained n count, pin.val ∉ g.ids
  counter : g'.nextId = g.nextId + (count - n.inputs.length)
  outputs : g'.outputPins = g.outputPins

/-! ## Links that are gone -/

/-- What the link tables say decides what is reported. -/
theorem reports_of_links {g g' : Graph} (h : g.Linked) (h' : g'.Linked) {id : NodeId} {removed : List LinkId}
    (once : removed.Nodup) (known : ∀ k ∈ removed, k ∈ g.links.keys) (links : g'.links = g.links.eraseAll removed)
    (nodes : g'.nodes.keys = g.nodes.keys ∧ ∀ k, k ≠ id → g'.nodes.get? k = g.nodes.get? k)
    (inputs : ∀ pin p, p.node ≠ id → (g'.inputPins.get? pin = some p
      ↔ ∃ old, g.inputPins.get? pin = some old ∧ p = { old with connection := g'.remembers pin }))
    (outputs : ∀ pin p, p.node ≠ id → (g'.outputPins.get? pin = some p ↔ g.outputPins.get? pin = some p))
    (heading : g'.id = g.id ∧ g'.name = g.name ∧ g'.terminal = g.terminal) : g.Reports id removed g' where
  once := once
  gone k := by rw [links, Table.mem_dead_iff known]
  links := by rw [links, Table.entries_eraseAll]
  forgets k l hl gone := by
    refine h'.remembers_none fun k' l' hl' enters => ?_
    rw [links, Table.get?_eraseAll_eq_some] at hl'
    obtain ⟨old, kept⟩ := hl'
    exact kept (h.single k' l' k l old hl enters ▸ gone)
  recalls pin stay := by
    refine h.remembers_congr h' fun k l enters => ?_
    rw [links, Table.get?_eraseAll_eq_some]
    exact ⟨And.left, fun old => ⟨old, stay k l old enters⟩⟩
  nodes := nodes
  inputs := inputs
  outputs := outputs
  heading := heading

/-! ## A new shape -/

/-- A setting that was taken: the node got a shape, and its stale links were removed. -/
theorem reconfigure_eq {g : Graph} (h : g.Sound) {id : NodeId} {setting : Shape → Option (Except Fault Shape)}
    {misfit : String → Misfit} {out : Outcome (Except GraphError (List LinkId))}
    (configured : g.reconfigure id setting misfit = .ok out) :
    (out.graph = g ∧ ∃ e, out.result = .error e) ∨ ∃ n s, g.nodes.get? id = some n
      ∧ setting (g.shapeAt n) = some (.ok s) ∧ out.graph = (g.reshaped id n s).cleaned [id]
      ∧ out.result = .ok ((g.reshaped id n s).stale [id]) := by
  unfold reconfigure at configured
  split at configured
  · cases configured
    exact .inl ⟨rfl, _, rfl⟩
  rename_i n hn
  obtain ⟨s, read, configured⟩ := bind_eq_ok_iff.1 configured
  cases (shape_eq h.toListed hn).symm.trans read
  split at configured
  · cases configured
    exact .inl ⟨rfl, _, rfl⟩
  rename_i changed applies
  obtain ⟨s', changes, configured⟩ := bind_eq_ok_iff.1 configured
  obtain ⟨g', shaped, configured⟩ := bind_eq_ok_iff.1 configured
  cases (setShape_eq h.toListed hn s').symm.trans shaped
  obtain ⟨valid, cleans, configured⟩ := bind_eq_ok_iff.1 configured
  cases configured
  have linked := (recast_reshaped h.toListed hn s').linked h.toLinked
  have known : ∀ k ∈ [id], ∃ m, (g.reshaped id n s').nodes.get? k = some m := by
    simp only [List.mem_singleton, forall_eq]
    exact ⟨_, reshaped_node_self hn s'⟩
  obtain ⟨events, cleaned⟩ := revalidate_eq linked known
  cases cleaned.symm.trans cleans
  exact .inr ⟨n, s', hn, applies.trans (congrArg some changes), rfl, rfl⟩

theorem nodup_stale {g : Graph} (h : g.Linked) (nodes : List NodeId) : (g.stale nodes).Nodup := by
  have keys : g.links.values.map Link.id = g.links.keys := by
    rw [Table.values, Table.keys, List.map_map]
    exact List.map_congr_left fun e he => h.linkKey e.1 e.2 (Table.get?_of_mem he)
  have once : (g.links.values.map Link.id).Nodup := keys ▸ g.links.nodup
  exact once.sublist ((List.filter_sublist.trans List.filter_sublist).map _)

theorem get?_input_cleaned {g : Graph} {nodes : List NodeId} {pin : PinId} {p : InputPin} :
    (g.cleaned nodes).inputPins.get? pin = some p ↔ ∃ old, g.inputPins.get? pin = some old
      ∧ p = { old with connection := (g.cleaned nodes).remembers pin } := by
  constructor
  · intro hp
    obtain ⟨old, stored, -⟩ := rewired_inputPins_get?.1 hp
    have hold : g.inputPins.get? pin = some old := stored
    exact ⟨old, hold, Option.some.inj (hp.symm.trans (input_cleaned hold nodes))⟩
  · intro stored
    obtain ⟨old, hold, rfl⟩ := stored
    exact input_cleaned hold nodes

/-- A new shape costs the links that are stale then. -/
theorem reshaped_reports {g : Graph} (h : g.Sound) {id : NodeId} {n : Node} (hn : g.nodes.get? id = some n)
    (s : Shape) : g.Reports id ((g.reshaped id n s).stale [id]) ((g.reshaped id n s).cleaned [id]) := by
  have recast := recast_reshaped h.toListed hn s
  have linked := recast.linked h.toLinked
  have known : ∀ k ∈ (g.reshaped id n s).stale [id], k ∈ g.links.keys := by
    intro k stale
    obtain ⟨l, hl, -⟩ := (mem_stale_iff linked).1 stale
    exact Table.mem_keys_of_get? hl
  have others : ∀ k, k ≠ id → (g.reshaped id n s).nodes.get? k = g.nodes.get? k :=
    fun k other => Option.ext fun m => reshaped_node_of_ne (n := n) s other
  have cleaned : ((g.reshaped id n s).cleaned [id]).Linked := linked.without _
  refine reports_of_links h.toLinked cleaned (nodup_stale linked _) known rfl ⟨recast.nodes.1, others⟩
    (fun pin p away => ?_) (fun pin p away => recast.output_away (by simpa using away)) ⟨rfl, rfl, rfl⟩
  refine get?_input_cleaned.trans (exists_congr fun old => and_congr_left fun same => recast.input_away ?_)
  rw [same] at away
  simpa using away

theorem reconfigure_reports {g : Graph} (h : g.Sound) {id : NodeId} {setting : Shape → Option (Except Fault Shape)}
    {misfit : String → Misfit} {out : Outcome (Except GraphError (List LinkId))} {removed : List LinkId}
    (configured : g.reconfigure id setting misfit = .ok out) (done : out.result = .ok removed) :
    g.Reports id removed out.graph := by
  rcases reconfigure_eq h configured with ⟨-, e, refused⟩ | ⟨n, s, hn, -, graph, result⟩
  · cases refused.symm.trans done
  · cases result.symm.trans done
    rw [graph]
    exact reshaped_reports h hn s

/-- A shape that only has another kind costs no link. -/
theorem reshaped_stale_nil {g : Graph} (h : g.Sound) {id : NodeId} {n : Node} (hn : g.nodes.get? id = some n)
    {s : Shape} (inputs : s.inputs = (g.shapeAt n).inputs) (outputs : s.outputs = (g.shapeAt n).outputs) :
    (g.reshaped id n s).stale [id] = [] := by
  have same_inputs : (g.reshaped id n s).inputPins = (g.reshaped id n (g.shapeAt n)).inputPins := by
    simp only [reshaped, recast, repainted, inputs]
  have same_outputs : (g.reshaped id n s).outputPins = (g.reshaped id n (g.shapeAt n)).outputPins := by
    simp only [reshaped, recast, repainted, outputs]
  rw [reshaped_shapeAt hn] at same_inputs same_outputs
  refine stale_nil ((recast_reshaped h.toListed hn s).linked h.toLinked) (fun k l o i hl ho hi => ?_) _
  rw [same_outputs] at ho
  rw [same_inputs] at hi
  exact h.typed k l o i hl ho hi

/-- The member that is picked has the type of all the others. -/
theorem setSelectIndex_removes_none {g : Graph} (h : g.Sound) {id : NodeId} {index : Nat}
    {out : Outcome (Except GraphError (List LinkId))} {removed : List LinkId}
    (configured : g.setSelectIndex id index = .ok out) (done : out.result = .ok removed) : removed = [] := by
  rcases reconfigure_eq h configured with ⟨-, e, refused⟩ | ⟨n, s, hn, picks, -, result⟩
  · cases refused.symm.trans done
  · cases result.symm.trans done
    unfold Shape.setIndex at picks
    split at picks
    · cases picks
      exact reshaped_stale_nil h hn rfl rfl
    · cases picks

/-! ## Another number of inputs -/

theorem Dropped.linkInto?_kept {g g' : Graph} {pins : List PinId} (d : Dropped g pins g') (h : g.Linked) {pin : PinId}
    (kept : pin ∉ pins) : g'.linkInto? pin = g.linkInto? pin := by
  refine Option.ext fun l => ?_
  rw [(d.linked h).linkInto?_eq_some, h.linkInto?_eq_some]
  refine exists_congr fun k => ?_
  rw [d.links]
  constructor
  · exact fun linked => ⟨linked.1.1, linked.2⟩
  · exact fun linked => ⟨⟨linked.1, linked.2 ▸ kept⟩, linked.2⟩

/-- The links into dropped inputs, in the order of these. -/
theorem dropInputs_result {pins : List PinId} (distinct : pins.Nodup) {g : Graph} (h : g.Linked) :
    (dropInputs pins g).result = pins.filterMap fun pin => (g.linkInto? pin).map Link.id := by
  induction pins generalizing g with
  | nil => rfl
  | cons pin pins ih =>
    rw [List.nodup_cons] at distinct
    have first := dropped_one h pin
    have rest := ih distinct.2 (first.linked h)
    -- the other inputs are still entered by the links of `g`
    have same : ∀ other ∈ pins, (((disconnectAll (fun _ => []) (g.replaced pin) g).1.eraseInputs [pin]).linkInto?
        other).map Link.id = (g.linkInto? other).map Link.id := by
      intro other listed
      rw [first.linkInto?_kept h fun here => distinct.1 (List.mem_singleton.1 here ▸ listed)]
    rw [List.filterMap_congr same] at rest
    have step : (dropInputs (pin :: pins) g).result = g.replaced pin
        ++ (dropInputs pins ((disconnectAll (fun _ => []) (g.replaced pin) g).1.eraseInputs [pin])).result := rfl
    rw [step, rest, List.filterMap_cons, replaced]
    cases (g.linkInto? pin).map Link.id <;> rfl

theorem dropInputs_links (pins : List PinId) {g : Graph} (h : g.Linked) :
    (dropInputs pins g).graph.links = g.links.eraseAll (dropInputs pins g).result := by
  induction pins generalizing g with
  | nil => rfl
  | cons pin pins ih =>
    have rest := ih ((dropped_one h pin).linked h)
    have first : ((disconnectAll (fun _ => []) (g.replaced pin) g).1.eraseInputs [pin]).links
        = g.links.eraseAll (g.replaced pin) := by
      rw [disconnectAll_graph _ _ h]
      rfl
    rw [first, ← Table.eraseAll_append] at rest
    exact rest

theorem addInputs_links (node : NodeId) (specs : List PinSpec) (g : Graph) :
    (addInputs node specs g).1.links = g.links := by
  induction specs generalizing g with
  | nil => rfl
  | cons spec specs ih => exact ih (g.addInput node spec).1

/-- A number of inputs that was taken: the node was cut or filled up to it. -/
theorem setInputCount_eq {g : Graph} (h : g.Sound) (id : NodeId) (count : Nat) :
    ((g.setInputCount id count).graph = g ∧ ∃ e, (g.setInputCount id count).result = .error e)
      ∨ ∃ n removed, g.nodes.get? id = some n ∧ Outline.Takes n.kind count
        ∧ Resized g id n count (g.setInputCount id count).graph
        ∧ removed = ((n.inputs.drop count).filterMap fun pin => (g.linkInto? pin).map Link.id)
        ∧ (g.setInputCount id count).graph.links = g.links.eraseAll removed
        ∧ (g.setInputCount id count).result = .ok removed := by
  cases hn : g.nodes.get? id with
  | none => exact .inl (by simp [setInputCount, hn])
  | some n =>
    cases minimal : n.kind.minInputs? with
    | none => exact .inl (by simp [setInputCount, hn, minimal])
    | some least =>
      by_cases few : count < least
      · exact .inl (by simp [setInputCount, hn, minimal, few])
      · have resized := setInputCount_resized h hn minimal few
        have distinct : (n.inputs.drop count).Nodup :=
          (List.nodup_append.1 (h.once id n hn)).1.sublist (List.drop_sublist ..)
        refine .inr ⟨n, _, rfl, ⟨least, minimal, Nat.not_lt.1 few⟩, resized,
          dropInputs_result distinct h.toLinked, ?_, ?_⟩
        all_goals simp only [setInputCount, hn, minimal, few, if_false]
        rw [addInputs_links, dropInputs_links _ h.toLinked]

theorem mem_entering_iff {g : Graph} (h : g.Linked) {pins : List PinId} {k : LinkId} :
    (k ∈ pins.filterMap fun pin => (g.linkInto? pin).map Link.id)
      ↔ ∃ l, g.links.get? k = some l ∧ l.input ∈ pins := by
  simp only [List.mem_filterMap, Option.map_eq_some_iff, h.linkInto?_eq_some]
  constructor
  · intro listed
    obtain ⟨pin, hpin, l, ⟨k', hl, rfl⟩, rfl⟩ := listed
    exact ⟨l, h.linkKey k' l hl ▸ hl, hpin⟩
  · intro linked
    obtain ⟨l, hl, hpin⟩ := linked
    exact ⟨l.input, hpin, l, ⟨k, hl, rfl⟩, h.linkKey k l hl⟩

theorem nodup_entering {g : Graph} (h : g.Linked) {pins : List PinId} (distinct : pins.Nodup) :
    (pins.filterMap fun pin => (g.linkInto? pin).map Link.id).Nodup := by
  refine distinct.filterMap fun pin pin' k enters enters' => ?_
  obtain ⟨l, into, rfl⟩ := Option.map_eq_some_iff.1 enters
  obtain ⟨l', into', same⟩ := Option.map_eq_some_iff.1 enters'
  obtain ⟨k, hl, rfl⟩ := h.linkInto?_eq_some.1 into
  obtain ⟨k', hl', rfl⟩ := h.linkInto?_eq_some.1 into'
  rw [h.linkKey k l hl, h.linkKey k' l' hl'] at same
  cases same
  cases hl.symm.trans hl'
  rfl

/-- What the kind declares at an index that is new. -/
theorem missingInputs_spec {kind : Kind} {current count i : Nat} (takes : Outline.Takes kind count)
    (low : current ≤ i) (high : i < count) : ∃ spec, (missingInputs kind current count)[i - current]? = some spec
      ∧ (kind.withInputCount count).inputSpecs[i]? = some spec
      ∧ (spec.name = "Object " ++ toString (i + 1) ∨ spec.name = "Require " ++ toString (i + 1)) := by
  obtain ⟨least, minimal, -⟩ := takes
  have place : (List.range' current (count - current))[i - current]? = some i := by
    rw [List.getElem?_range' (by omega)]
    exact congrArg some (by omega)
  have index : (List.range count)[i]? = some i := List.getElem?_range high
  cases kind with
  | concat element inputs =>
    refine ⟨Kind.concatInput element i, ?_, ?_, .inl rfl⟩
    · rw [Outline.missingInputs_concat, List.getElem?_map, place]
      rfl
    · rw [Kind.withInputCount, Kind.inputSpecs, List.getElem?_map, index]
      rfl
  | requireLock inputs =>
    refine ⟨Kind.lockInput i, ?_, ?_, .inr rfl⟩
    · rw [Outline.missingInputs_requireLock, List.getElem?_map, place]
      rfl
    · rw [Kind.withInputCount, Kind.inputSpecs, List.getElem?_map, index]
      rfl
  | _ => cases minimal

section Resized

variable {g g' : Graph} {id : NodeId} {n : Node} {count : Nat} {removed : List LinkId} (r : Resized g id n count g')
  (h : g.Sound) (hn : g.nodes.get? id = some n)
  (answer : removed = (n.inputs.drop count).filterMap fun pin => (g.linkInto? pin).map Link.id)
include r h hn answer

theorem Resized.reports (links : g'.links = g.links.eraseAll removed) : g.Reports id removed g' := by
  have distinct : (n.inputs.drop count).Nodup :=
    (List.nodup_append.1 (h.once id n hn)).1.sublist (List.drop_sublist ..)
  have once : removed.Nodup := answer ▸ nodup_entering h.toLinked distinct
  have known : ∀ k ∈ removed, k ∈ g.links.keys := by
    intro k gone
    rw [answer, mem_entering_iff h.toLinked] at gone
    obtain ⟨l, hl, -⟩ := gone
    exact Table.mem_keys_of_get? hl
  have others : ∀ k, k ≠ id → g'.nodes.get? k = g.nodes.get? k := by
    intro k other
    rw [r.nodes, Table.get?_modify, if_neg other]
  have remembered : ∀ {pin p}, g'.inputPins.get? pin = some p → p = { p with connection := g'.remembers pin } := by
    intro pin p hp
    rw [remembers, hp]
    rfl
  refine reports_of_links h.toLinked (r.linked h.toNumbered h.toLinked) once known links
    ⟨by rw [r.nodes, Table.keys_modify], others⟩ (fun pin p away => ?_) (fun pin p _ => by rw [r.outputPins])
    (by rw [r.graph]; exact ⟨rfl, rfl, rfl⟩)
  constructor
  · intro hp
    rcases r.get?_input.1 hp with ⟨old, -⟩ | new
    · exact ⟨p, old, remembered hp⟩
    · exact absurd (mem_freshInputs new).2.1 away
  · intro stored
    obtain ⟨old, hold, rfl⟩ := stored
    have kept : pin ∉ n.inputs.drop count := by
      intro gone
      obtain ⟨p, hp, owner⟩ := h.inputListed id n hn pin (List.mem_of_mem_drop gone)
      cases hold.symm.trans hp
      exact away owner
    have hold' : g'.inputPins.get? pin = some old := r.get?_input.2 (.inl ⟨hold, kept⟩)
    exact hold'.trans (congrArg some (remembered hold'))

theorem Resized.refits (takes : Outline.Takes n.kind count) : g.Refits id n count removed g' := by
  have missing := Outline.missingInputs_length takes n.inputs.length
  have named : (freshInputs id g.nextId (missingInputs n.kind n.inputs.length count)).map Prod.fst
      = g.gained n count := by
    rw [keys_freshInputs, missing, gained]
  have low := h.pins_lt h.toListed hn
  refine {
    answer
    entered := fun k => by rw [answer, mem_entering_iff h.toLinked]
    node := ?_
    listed := ?_
    declared := (Outline.withInputCount_lengths takes).1
    kept := fun pin taken => ?_
    dropped := fun pin gone => ?_
    added := fun i old new => ?_
    fresh := fun pin made known => ?_
    counter := by rw [r.nextId, missing]
    outputs := r.outputPins }
  · have resized := r.get?_node.2 ⟨n, hn, if_pos rfl⟩
    rwa [named] at resized
  · simp only [gained, List.length_append, List.length_take, List.length_map, List.length_range']
    omega
  · obtain ⟨p, hp, -⟩ := h.inputListed id n hn pin (List.mem_of_mem_take taken)
    have kept := h.taken_kept hn taken
    refine ⟨(r.get?_input.2 (.inl ⟨hp, kept⟩)).trans hp.symm, fun k l enters => ?_⟩
    rw [r.links, enters]
    exact and_iff_left kept
  · refine Option.eq_none_iff_forall_ne_some.2 fun p hp => ?_
    rcases r.get?_input.1 hp with ⟨-, kept⟩ | new
    · exact kept gone
    · have high := (mem_freshInputs new).2.2.2
      have below := low pin (List.mem_append_left _ (List.mem_of_mem_drop gone))
      omega
  · obtain ⟨spec, made, declares, name⟩ := missingInputs_spec takes old new
    refine ⟨_, spec, rfl, ?_, declares, name, ?_⟩
    · rw [List.take_of_length_le (by omega), List.getElem?_append_right old, gained, List.getElem?_map,
        List.getElem?_range' (by omega), Nat.one_mul]
      rfl
    · exact r.get?_input.2 (.inr (List.mem_of_getElem? (getElem?_freshInputs made)))
  · obtain ⟨i, hi, rfl⟩ := List.mem_map.1 made
    have below : i < g.nextId := h.below i known
    exact absurd below (Nat.not_lt.2 (List.mem_range'_1.1 hi).1)

end Resized

/-! ## Settings that were taken -/

/-- A setting that was taken answers with the links that it cost, each once, and changes no other
node. Picking another member of a list costs none, and another number of inputs costs those that
entered the inputs that are dropped. -/
theorem configure_reports {g : Graph} (h : g.Sound) {id : NodeId} {setting : NodeSetting}
    {out : Outcome (Except GraphError (List LinkId))} {removed : List LinkId}
    (configured : g.configure id setting = .ok out) (done : out.result = .ok removed) :
    g.Reports id removed out.graph ∧ (∀ index, setting = .selectIndex index → removed = [])
      ∧ ∀ count, setting = .inputCount count →
        ∃ n, g.nodes.get? id = some n ∧ g.Refits id n count removed out.graph := by
  cases setting with
  | convertFrom type => exact ⟨reconfigure_reports h configured done, nofun, nofun⟩
  | convertTo type => exact ⟨reconfigure_reports h configured done, nofun, nofun⟩
  | selectIndex index =>
    exact ⟨reconfigure_reports h configured done, fun _ _ => setSelectIndex_removes_none h configured done, nofun⟩
  | inputCount count =>
    cases configured
    rcases setInputCount_eq h id count with ⟨-, e, refused⟩ | ⟨n, _, hn, takes, resized, answer, links, result⟩
    · cases refused.symm.trans done
    · cases result.symm.trans done
      refine ⟨resized.reports h hn answer links, nofun, fun _ same => ?_⟩
      cases same
      exact ⟨n, hn, resized.refits h hn answer takes⟩

/-- A list of four, whose last two members were linked from the last one on. -/
def listedBackwards : Except Fault Graph :=
  Edit.run [.addNode (.provider .target) .origin, .addNode (.newConcat (.scalar Base.target)) .origin,
    .setInputCount ⟨2⟩ 4, .connect ⟨1⟩ ⟨7⟩, .connect ⟨1⟩ ⟨6⟩, .connect ⟨1⟩ ⟨3⟩] (.new .zero untitled)

/-- Cut back to two, it names the links in the order of its members, not in that of the links. -/
theorem configure_reports_cut : ∃ g out, listedBackwards = .ok g ∧ g.Sound ∧ g.links.keys = [⟨8⟩, ⟨9⟩, ⟨10⟩]
    ∧ g.configure ⟨2⟩ (.inputCount 2) = .ok out ∧ out.result = .ok [⟨9⟩, ⟨8⟩]
    ∧ g.Reports ⟨2⟩ [⟨9⟩, ⟨8⟩] out.graph
    ∧ ∃ n, g.nodes.get? ⟨2⟩ = some n ∧ g.Refits ⟨2⟩ n 2 [⟨9⟩, ⟨8⟩] out.graph := by
  obtain ⟨g, ran, sound, -⟩ := Start.runs (.new .zero untitled) _
  have facts : listedBackwards.map (fun g => (g.links.keys, (g.setInputCount ⟨2⟩ 2).result))
      = .ok ([⟨8⟩, ⟨9⟩, ⟨10⟩], .ok [⟨9⟩, ⟨8⟩]) := by decide
  rw [listedBackwards, ran] at facts
  simp only [Except.map, Except.ok.injEq, Prod.mk.injEq] at facts
  obtain ⟨links, done⟩ := facts
  obtain ⟨reports, -, refits⟩ := @configure_reports g sound ⟨2⟩ (.inputCount 2) _ _ rfl done
  exact ⟨g, _, ran, sound, links, rfl, done, reports, refits 2 rfl⟩

end Graph

end FrameGraph
