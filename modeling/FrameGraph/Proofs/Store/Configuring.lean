/-
  FrameGraph.Proofs.Store.Configuring: settings keep a graph sound.

  A setter is one change of shape, after which the links that no longer fit are removed
  (`reconfigure_sound`). Another number of inputs drops the last pins with the links that enter
  them (`Dropped`) or adds new ones at the end (`Resized`); links between other pins stay as
  they are.
-/

import FrameGraph.Graph.Configure
import FrameGraph.Proofs.Store.Connecting

namespace FrameGraph.Graph

variable {policy : Policy}

/-! ## Setters -/

theorem reconfigure_sound {g : Graph} (h : g.Sound) (sized : Every (fun o => o.shape.Sized) g) (id : NodeId)
    {setting : Shape → Option (Except Fault Shape)} (fits : Shape.Setting policy.index setting)
    (misfit : String → Misfit) :
    ∃ out, g.reconfigure id setting misfit = .ok out ∧ out.graph.Sound
      ∧ (∀ P, Outline.Durable policy P → Every P g → Every P out.graph)
      ∧ ∀ e, out.result = .error e → out.graph = g := by
  unfold reconfigure
  split
  · exact ⟨_, rfl, h, fun _ _ every => every, fun _ _ => rfl⟩
  rename_i n hn
  simp only [shape_eq h.toListed hn, bind, Except.bind]
  split
  · exact ⟨_, rfl, h, fun _ _ every => every, fun _ _ => rfl⟩
  rename_i changed hchanged
  obtain ⟨s, rfl, follows⟩ := fits _ _ (outline_shape g n ▸ sized id n hn) hchanged
  have retyped : Retyped policy [id] g (g.reshaped id n s) :=
    Reshape.retyped h.toListed ⟨n, s, hn, follows, rfl⟩
  obtain ⟨out, valid, sound, every⟩ := revalidate_sound [id] (retyped.numbered h.toNumbered)
    (retyped.listed h.toListed) (retyped.linked h.toLinked)
    (fun k hk => List.mem_singleton.1 hk ▸ retyped.known ⟨n, hn⟩)
    fun k l o i hl ho hi away => retyped.typed_away h.typed (retyped.links ▸ hl) ho hi (retyped.pinsAt _ ▸ away)
  simp only [setShape_eq h.toListed hn, valid]
  exact ⟨_, rfl, sound, fun P durable before => every P (retyped.every P durable before), fun e he => (by cases he)⟩

/-! ## Dropping inputs -/

/-- `g'` is `g` without some inputs and the links that enter them. -/
structure Dropped (g : Graph) (pins : List PinId) (g' : Graph) : Prop where
  graph : g' = { g with inputPins := g.inputPins.eraseAll pins, links := g'.links }
  links : ∀ k l, g'.links.get? k = some l ↔ g.links.get? k = some l ∧ l.input ∉ pins
  fewer : g'.links.keys.Sublist g.links.keys

theorem Dropped.linked {g g' : Graph} {pins : List PinId} (d : Dropped g pins g') (h : g.Linked) :
    g'.Linked where
  linkKey k l hl := h.linkKey k l ((d.links k l).1 hl).1
  ends k l hl := by
    obtain ⟨old, kept⟩ := (d.links k l).1 hl
    obtain ⟨⟨o, ho⟩, i, hi⟩ := h.ends k l old
    rw [d.graph]
    exact ⟨⟨o, ho⟩, i, Table.get?_eraseAll_eq_some.2 ⟨hi, kept⟩⟩
  single := single_of_fewer h.single fun k l hl => ((d.links k l).1 hl).1
  remembered pin p o hp := by
    rw [d.graph] at hp
    obtain ⟨old, kept⟩ := Table.get?_eraseAll_eq_some.1 hp
    rw [h.remembered pin p o old]
    constructor
    · intro linked
      obtain ⟨k, l, hl, rfl, rfl⟩ := linked
      exact ⟨k, l, (d.links k l).2 ⟨hl, kept⟩, rfl, rfl⟩
    · intro linked
      obtain ⟨k, l, hl, rfl, rfl⟩ := linked
      exact ⟨k, l, ((d.links k l).1 hl).1, rfl, rfl⟩

theorem Dropped.cons {g g' g'' : Graph} {pin : PinId} {pins : List PinId} (d : Dropped g [pin] g')
    (d' : Dropped g' pins g'') : Dropped g (pin :: pins) g'' := by
  refine ⟨?_, ?_, d'.fewer.trans d.fewer⟩
  · rw [d'.graph, d.graph]
    rfl
  · intro k l
    rw [d'.links, d.links]
    simp only [List.mem_cons, not_or, List.not_mem_nil, or_false, and_assoc]

/-- One input at a time. -/
theorem dropped_one {g : Graph} (h : g.Linked) (pin : PinId) :
    Dropped g [pin] ((disconnectAll (fun _ => []) (g.replaced pin) g).1.eraseInputs [pin]) := by
  have links : ∀ k l, (g.links.eraseAll (g.replaced pin)).get? k = some l
      ↔ g.links.get? k = some l ∧ l.input ∉ [pin] := by
    intro k l
    rw [Table.get?_eraseAll_eq_some]
    refine and_congr_right fun hl => not_congr ?_
    rw [mem_replaced_iff h, List.mem_singleton]
    constructor
    · intro linked
      obtain ⟨l', hl', enters⟩ := linked
      rw [hl] at hl'
      cases hl'
      exact enters
    · exact fun enters => ⟨l, hl, enters⟩
  rw [disconnectAll_graph _ _ h]
  refine ⟨?_, links, ?_⟩
  · have others : (g.inputPins.eraseAll [pin]).mapWithKey
        (fun k p => { p with connection := fedBy (g.links.eraseAll (g.replaced pin)) k })
          = g.inputPins.eraseAll [pin] := by
      refine Table.mapWithKey_id fun k p hp => ?_
      obtain ⟨old, kept⟩ := Table.get?_eraseAll_eq_some.1 (Table.get?_of_mem hp)
      rw [fedBy_unreplaced h fun same => kept (List.mem_singleton.2 same), ← h.connection_eq old]
    have erased := Table.eraseAll_mapWithKey
      (fun k (p : InputPin) => { p with connection := fedBy (g.links.eraseAll (g.replaced pin)) k })
      g.inputPins [pin]
    simp only [eraseInputs, rewired]
    rw [← others, ← erased]
    rfl
  · rw [eraseInputs, rewired, Table.keys_eraseAll]
    exact List.filter_sublist

theorem dropInputs_dropped (pins : List PinId) {g : Graph} (h : g.Linked) :
    Dropped g pins (dropInputs pins g).graph := by
  induction pins generalizing g with
  | nil => exact ⟨rfl, fun k l => by simp [dropInputs], List.Sublist.refl _⟩
  | cons pin pins ih =>
    have first := dropped_one h pin
    exact first.cons (ih (first.linked h))

/-! ## Another number of inputs -/

/-- `g'` is `g` with the inputs of one node cut or filled up to a number. -/
structure Resized (g : Graph) (id : NodeId) (n : Node) (count : Nat) (g' : Graph) : Prop where
  graph : g' = { g with
    nextId := g.nextId + (missingInputs n.kind n.inputs.length count).length
    nodes := g.nodes.modify id fun old => resizeNode old count
      ((freshInputs id g.nextId (missingInputs n.kind n.inputs.length count)).map Prod.fst)
    inputPins := g'.inputPins
    links := g'.links }
  inputPins : g'.inputPins.entries = (g.inputPins.eraseAll (n.inputs.drop count)).entries
    ++ freshInputs id g.nextId (missingInputs n.kind n.inputs.length count)
  links : ∀ k l, g'.links.get? k = some l ↔ g.links.get? k = some l ∧ l.input ∉ n.inputs.drop count
  fewer : g'.links.keys.Sublist g.links.keys

theorem setInputCount_resized {g : Graph} (h : g.Sound) {id : NodeId} {n : Node}
    (hn : g.nodes.get? id = some n) {count least : Nat} (minimal : n.kind.minInputs? = some least)
    (enough : ¬ count < least) : Resized g id n count (g.setInputCount id count).graph := by
  have dropped := dropInputs_dropped (n.inputs.drop count) h.toLinked
  obtain ⟨pins, entries, eq⟩ := addInputs_eq id (missingInputs n.kind n.inputs.length count)
    (g := (dropInputs (n.inputs.drop count) g).graph) (by
      rw [dropped.graph]
      intro k hk
      rw [Table.keys_eraseAll] at hk
      exact h.input_lt (List.mem_filter.1 hk).1)
  have nextId : (dropInputs (n.inputs.drop count) g).graph.nextId = g.nextId := by rw [dropped.graph]
  have nodes : (dropInputs (n.inputs.drop count) g).graph.nodes = g.nodes := by rw [dropped.graph]
  have inputPins : (dropInputs (n.inputs.drop count) g).graph.inputPins
      = g.inputPins.eraseAll (n.inputs.drop count) := by rw [dropped.graph]
  rw [nextId] at eq entries
  rw [inputPins] at entries
  simp only [setInputCount, hn, minimal, enough, if_false, eq]
  refine ⟨?_, entries, dropped.links, dropped.fewer⟩
  simp only [nodes, Graph.mk.injEq, true_and, and_true]
  exact ⟨by rw [dropped.graph], by rw [dropped.graph], by rw [dropped.graph], by rw [dropped.graph]⟩

/-- New inputs have numbers that none of the old pins has. -/
theorem nodup_resized {n : Node} (once : n.pins.Nodup) {start : Nat} (low : ∀ pin ∈ n.pins, pin.val < start)
    (count added : Nat) : (resizeNode n count ((List.range' start added).map PinId.mk)).pins.Nodup := by
  have high : ∀ pin ∈ (List.range' start added).map PinId.mk, start ≤ pin.val := by
    intro pin hpin
    obtain ⟨i, hi, rfl⟩ := List.mem_map.1 hpin
    exact (List.mem_range'_1.1 hi).1
  obtain ⟨inputs, outputs, apart⟩ := List.nodup_append.1 once
  simp only [Node.pins, resizeNode]
  rw [List.append_assoc, List.nodup_append, List.nodup_append]
  refine ⟨inputs.sublist (List.take_sublist ..), ⟨nodup_fresh start added, outputs, ?_⟩, ?_⟩
  · intro a ha b hb same
    have below := low b (List.mem_append_right _ hb)
    have above := high a ha
    rw [same] at above
    omega
  · intro a ha b hb same
    have here := List.mem_of_mem_take ha
    rcases List.mem_append.1 hb with hb | hb
    · have below := low a (List.mem_append_left _ here)
      have above := high b hb
      rw [same] at below
      omega
    · exact apart a here b hb same

/-- The first inputs are not among those that are dropped. -/
theorem Listed.taken_kept {g : Graph} (h : g.Listed) {id : NodeId} {n : Node} (hn : g.nodes.get? id = some n)
    {count : Nat} {pin : PinId} (taken : pin ∈ n.inputs.take count) : pin ∉ n.inputs.drop count := by
  have distinct := (List.nodup_append.1 (h.once id n hn)).1
  rw [← List.take_append_drop count n.inputs, List.nodup_append] at distinct
  exact fun gone => distinct.2.2 pin taken pin gone rfl

section Resized

variable {g g' : Graph} {id : NodeId} {n : Node} {count : Nat} (r : Resized g id n count g')
include r

theorem Resized.nodes : g'.nodes = g.nodes.modify id fun old => resizeNode old count
    ((freshInputs id g.nextId (missingInputs n.kind n.inputs.length count)).map Prod.fst) := by
  rw [r.graph]

theorem Resized.outputPins : g'.outputPins = g.outputPins := by rw [r.graph]

theorem Resized.terminal : g'.terminal = g.terminal := by rw [r.graph]

theorem Resized.get?_node {k : NodeId} {m : Node} :
    g'.nodes.get? k = some m ↔ ∃ old, g.nodes.get? k = some old ∧ (if k = id then resizeNode old count
      ((freshInputs id g.nextId (missingInputs n.kind n.inputs.length count)).map Prod.fst) else old) = m := by
  rw [r.nodes, Table.modify, Table.get?_mapWithKey_eq_some]

theorem Resized.get?_input {k : PinId} {p : InputPin} :
    g'.inputPins.get? k = some p ↔ (g.inputPins.get? k = some p ∧ k ∉ n.inputs.drop count)
      ∨ (k, p) ∈ freshInputs id g.nextId (missingInputs n.kind n.inputs.length count) := by
  rw [Table.get?_eq_some_iff, r.inputPins, List.mem_append, ← Table.get?_eq_some_iff,
    Table.get?_eraseAll_eq_some]

theorem Resized.nextId : g'.nextId = g.nextId + (missingInputs n.kind n.inputs.length count).length :=
  congrArg Graph.nextId r.graph

/-- What is left of the ids when inputs are dropped, before others are added. -/
theorem Resized.rest :
    ({ g with inputPins := g.inputPins.eraseAll (n.inputs.drop count), links := g'.links } : Graph).ids.Sublist
      g.ids := by
  simp only [Graph.ids, Table.keys_eraseAll]
  exact (((List.Sublist.refl _).append (List.filter_sublist.map _)).append (List.Sublist.refl _)).append
    (r.fewer.map _)

theorem Resized.ids : g'.ids.Perm (List.range' g.nextId (missingInputs n.kind n.inputs.length count).length
    ++ ({ g with inputPins := g.inputPins.eraseAll (n.inputs.drop count), links := g'.links } : Graph).ids) := by
  rw [List.perm_iff_count]
  intro i
  have inputs := congrArg (List.map PinId.val)
    (keys_freshInputs id (missingInputs n.kind n.inputs.length count) g.nextId)
  simp only [List.map_map, Function.comp_def, List.map_id'] at inputs
  have nodes : g'.nodes.keys = g.nodes.keys := by rw [r.nodes, Table.keys_modify]
  simp only [Graph.ids, nodes, r.outputPins]
  simp only [Table.keys, r.inputPins, List.map_append, List.map_map,
    Function.comp_def, inputs, List.count_append]
  omega

theorem Resized.numbered (h : g.Numbered) : g'.Numbered :=
  (h.fewer r.rest (Nat.le_refl _)).grown r.ids r.nextId

theorem Resized.linked (numbered : g.Numbered) (h : g.Linked) : g'.Linked where
  linkKey k l hl := h.linkKey k l ((r.links k l).1 hl).1
  ends k l hl := by
    obtain ⟨old, kept⟩ := (r.links k l).1 hl
    obtain ⟨⟨o, ho⟩, i, hi⟩ := h.ends k l old
    exact ⟨⟨o, r.outputPins ▸ ho⟩, i, r.get?_input.2 (.inl ⟨hi, kept⟩)⟩
  single := single_of_fewer h.single fun k l hl => ((r.links k l).1 hl).1
  remembered pin p o hp := by
    rcases r.get?_input.1 hp with ⟨old, kept⟩ | new
    · rw [h.remembered pin p o old]
      constructor
      · intro linked
        obtain ⟨k, l, hl, rfl, rfl⟩ := linked
        exact ⟨k, l, (r.links k l).2 ⟨hl, kept⟩, rfl, rfl⟩
      · intro linked
        obtain ⟨k, l, hl, rfl, rfl⟩ := linked
        exact ⟨k, l, ((r.links k l).1 hl).1, rfl, rfl⟩
    · obtain ⟨-, -, free, low⟩ := mem_freshInputs new
      rw [free]
      refine ⟨fun h => (by cases h), ?_⟩
      intro linked
      obtain ⟨k, l, hl, rfl, -⟩ := linked
      have high := numbered.entered_lt h ((r.links k l).1 hl).1
      omega

theorem Resized.typed (linked : g.Linked) (h : g.Typed) : g'.Typed := by
  intro k l o i hl ho hi
  obtain ⟨old, kept⟩ := (r.links k l).1 hl
  obtain ⟨-, i', hi'⟩ := linked.ends k l old
  cases (r.get?_input.2 (.inl ⟨hi', kept⟩)).symm.trans hi
  exact h k l o i old (r.outputPins ▸ ho) hi'

variable (hn : g.nodes.get? id = some n)
include hn

theorem Resized.listed (numbered : g.Numbered) (h : g.Listed) : g'.Listed where
  nodeKey k m hm := by
    obtain ⟨old, hold, rfl⟩ := r.get?_node.1 hm
    rw [← h.nodeKey k old hold]
    split <;> rfl
  inputKey k p hp := by
    rcases r.get?_input.1 hp with ⟨old, -⟩ | new
    · exact h.inputKey k p old
    · exact (mem_freshInputs new).1
  outputKey k p hp := h.outputKey k p (r.outputPins ▸ hp)
  once k m hm := by
    obtain ⟨old, hold, rfl⟩ := r.get?_node.1 hm
    have once := h.once k old hold
    split
    · have resized := nodup_resized once (numbered.pins_lt h hold) count
        (missingInputs n.kind n.inputs.length count).length
      rwa [← keys_freshInputs id] at resized
    · exact once
  inputOwner k p hp := by
    rcases r.get?_input.1 hp with ⟨old, kept⟩ | new
    · obtain ⟨m, hm, listed⟩ := h.inputOwner k p old
      refine ⟨_, r.get?_node.2 ⟨m, hm, rfl⟩, ?_⟩
      split
      · rename_i here
        rw [here, hn] at hm
        cases hm
        rw [← List.take_append_drop count n.inputs] at listed
        exact List.mem_append_left _ ((List.mem_append.1 listed).resolve_right kept)
      · exact listed
    · rw [(mem_freshInputs new).2.1]
      refine ⟨_, r.get?_node.2 ⟨n, hn, rfl⟩, ?_⟩
      rw [if_pos rfl]
      exact List.mem_append_right _ (List.mem_map.2 ⟨_, new, rfl⟩)
  outputOwner k p hp := by
    obtain ⟨m, hm, listed⟩ := h.outputOwner k p (r.outputPins ▸ hp)
    refine ⟨_, r.get?_node.2 ⟨m, hm, rfl⟩, ?_⟩
    split <;> exact listed
  inputListed k m hm pin hpin := by
    obtain ⟨old, hold, rfl⟩ := r.get?_node.1 hm
    split at hpin
    · rename_i here
      rw [here, hn] at hold
      cases hold
      rcases List.mem_append.1 hpin with hpin | hpin
      · obtain ⟨p, hp, owner⟩ := h.inputListed id n hn pin (List.mem_of_mem_take hpin)
        exact ⟨p, r.get?_input.2 (.inl ⟨hp, h.taken_kept hn hpin⟩), here ▸ owner⟩
      · obtain ⟨⟨k', p⟩, new, rfl⟩ := List.mem_map.1 hpin
        exact ⟨p, r.get?_input.2 (.inr new), here ▸ (mem_freshInputs new).2.1⟩
    · rename_i other
      obtain ⟨p, hp, owner⟩ := h.inputListed k old hold pin hpin
      have kept : pin ∉ n.inputs.drop count := fun gone =>
        other (h.input_unique hold hn hpin (List.mem_of_mem_drop gone))
      exact ⟨p, r.get?_input.2 (.inl ⟨hp, kept⟩), owner⟩
  outputListed k m hm pin hpin := by
    obtain ⟨old, hold, rfl⟩ := r.get?_node.1 hm
    have same : pin ∈ old.outputs := by
      split at hpin <;> exact hpin
    obtain ⟨p, hp, owner⟩ := h.outputListed k old hold pin same
    exact ⟨p, r.outputPins ▸ hp, owner⟩
  terminalKnown t ht := by
    obtain ⟨m, hm⟩ := h.terminalKnown t (r.terminal ▸ ht)
    exact ⟨_, r.get?_node.2 ⟨m, hm, rfl⟩⟩

theorem Resized.sound (h : g.Sound) : g'.Sound :=
  { r.numbered h.toNumbered, r.listed hn h.toNumbered h.toListed, r.linked h.toNumbered h.toLinked with
    typed := r.typed h.toLinked h.typed }

theorem Resized.every (listed : g.Listed) {P : Outline → Prop} (durable : Outline.Durable policy P)
    (h : Every P g) (takes : Outline.Takes n.kind count) : Every P g' := by
  have outputs : g'.outputSpecAt = g.outputSpecAt := by
    funext pin
    rw [outputSpecAt, outputSpecAt, r.outputPins]
  have kept : ∀ pin p, g.inputPins.get? pin = some p → pin ∉ n.inputs.drop count →
      g'.inputSpecAt pin = g.inputSpecAt pin := by
    intro pin p hp kept
    rw [inputSpecAt, inputSpecAt, hp, r.get?_input.2 (.inl ⟨hp, kept⟩)]
  intro k m hm
  obtain ⟨old, hold, rfl⟩ := r.get?_node.1 hm
  split
  · rename_i here
    rw [here, hn] at hold
    cases hold
    have taken : (n.inputs.take count).map g'.inputSpecAt = (n.inputs.map g.inputSpecAt).take count := by
      rw [← List.map_take]
      refine List.map_congr_left fun pin hpin => ?_
      obtain ⟨p, hp, -⟩ := listed.inputListed id n hn pin (List.mem_of_mem_take hpin)
      exact kept pin p hp (listed.taken_kept hn hpin)
    have made := map_freshInputs id (missingInputs n.kind n.inputs.length count) g.nextId
      fun k p hp => r.get?_input.2 (.inr hp)
    have resized := durable.resized _ count (h id n hn) takes
    simp only [outline, Outline.resized, resizeNode, List.map_append, taken, made, outputs,
      List.length_map] at resized ⊢
    exact resized
  · rename_i other
    have same : g'.outline old = g.outline old := by
      refine outline_congr (fun pin hpin => ?_) fun pin _ => congrFun outputs pin
      obtain ⟨p, hp, -⟩ := listed.inputListed k old hold pin hpin
      exact kept pin p hp fun gone => other (listed.input_unique hold hn hpin (List.mem_of_mem_drop gone))
    exact same ▸ h k old hold

end Resized

theorem setInputCount_sound {g : Graph} (h : g.Sound) (id : NodeId) (count : Nat) :
    (g.setInputCount id count).graph.Sound
      ∧ (∀ P, Outline.Durable policy P → Every P g → Every P (g.setInputCount id count).graph)
      ∧ ∀ e, (g.setInputCount id count).result = .error e → (g.setInputCount id count).graph = g := by
  cases hn : g.nodes.get? id with
  | none => simpa [setInputCount, hn] using h
  | some n =>
    cases minimal : n.kind.minInputs? with
    | none => simpa [setInputCount, hn, minimal] using h
    | some least =>
      by_cases few : count < least
      · simpa [setInputCount, hn, minimal, few] using h
      · have resized := setInputCount_resized h hn minimal few
        refine ⟨resized.sound hn h, fun P durable before => ?_, ?_⟩
        · exact resized.every hn h.toListed durable before ⟨least, minimal, Nat.not_lt.1 few⟩
        · intro e he
          simp [setInputCount, hn, minimal, few] at he

end FrameGraph.Graph
