/-
  FrameGraph.Proofs.Store.Connecting: connecting two pins keeps a graph sound, or leaves it as
  it was.

  Adapting gives a new shape first to the node that is entered and then to the node that is
  left, which may be the same (`adapt_reshapes`). A refused link writes both old shapes back, and that undoes
  every change (`unshaped_eq`). An accepted one can have made links stale only on the two nodes
  (`Retyped.typed_away`), so that removing the stale links there leaves no link untyped
  (`revalidate_sound`).
-/

import FrameGraph.Graph.Connect
import FrameGraph.Proofs.Store.Outlines

namespace FrameGraph.Graph

/-! ## Changes of shape -/

/-- One node got a shape that follows the one it had. -/
def Reshape (policy : Policy) (g : Graph) (id : NodeId) (g' : Graph) : Prop :=
  ∃ n s, g.nodes.get? id = some n ∧ (g.shapeAt n).Follows policy.index s ∧ g' = g.reshaped id n s

/-- `g'` is `g` with new kinds and types on some nodes and their pins. -/
structure Retyped (policy : Policy) (nodes : List NodeId) (g g' : Graph) : Prop where
  recast : ∃ kind input output, g' = g.recast kind input output
  inputs : ∀ pin, pin ∉ g.pinsAt nodes → g'.inputPins.get? pin = g.inputPins.get? pin
  outputs : ∀ pin, pin ∉ g.pinsAt nodes → g'.outputPins.get? pin = g.outputPins.get? pin
  every : ∀ P, Outline.Durable policy P → Every P g → Every P g'

variable {policy : Policy}

theorem pinsAt_recast (g : Graph) (kind : NodeId → Kind → Kind) (input output : PinId → PinType → PinType)
    (nodes : List NodeId) : (g.recast kind input output).pinsAt nodes = g.pinsAt nodes := by
  have pins : ∀ id, (((g.recast kind input output).nodes.get? id).map Node.pins)
      = (g.nodes.get? id).map Node.pins := by
    intro id
    simp only [recast, repainted, Table.get?_mapWithKey, Option.map_map]
    rfl
  simp only [pinsAt, pins]

theorem mem_pinsAt {g : Graph} {nodes : List NodeId} {id : NodeId} {n : Node} (hid : id ∈ nodes)
    (hn : g.nodes.get? id = some n) {pin : PinId} (hpin : pin ∈ n.pins) : pin ∈ g.pinsAt nodes :=
  List.mem_flatMap.2 ⟨id, hid, by simpa [hn] using hpin⟩

theorem pinsAt_subset {g : Graph} {nodes nodes' : List NodeId} (sub : ∀ id ∈ nodes, id ∈ nodes')
    {pin : PinId} (h : pin ∈ g.pinsAt nodes) : pin ∈ g.pinsAt nodes' := by
  obtain ⟨id, hid, hpin⟩ := List.mem_flatMap.1 h
  exact List.mem_flatMap.2 ⟨id, sub id hid, hpin⟩

theorem Reshape.retyped {g g' : Graph} {id : NodeId} (listed : g.Listed) (r : g.Reshape policy id g') :
    Retyped policy [id] g g' := by
  obtain ⟨n, s, hn, follows, rfl⟩ := r
  refine ⟨⟨_, _, _, rfl⟩, ?_, ?_, fun P durable h => h.reshaped durable listed hn follows⟩
  · intro pin away
    have unlisted : pin ∉ n.inputs := fun hpin =>
      away (mem_pinsAt List.mem_cons_self hn (List.mem_append_left _ hpin))
    simp only [reshaped, Graph.recast, repainted, Table.get?_mapWithKey, setTypes_of_not_mem unlisted]
    exact Option.map_id_apply
  · intro pin away
    have unlisted : pin ∉ n.outputs := fun hpin =>
      away (mem_pinsAt List.mem_cons_self hn (List.mem_append_right _ hpin))
    simp only [reshaped, Graph.recast, repainted, Table.get?_mapWithKey, setTypes_of_not_mem unlisted]
    exact Option.map_id_apply

theorem Retyped.trans {nodes nodes' : List NodeId} {g g' g'' : Graph} (r : Retyped policy nodes g g')
    (r' : Retyped policy nodes' g' g'') : Retyped policy (nodes ++ nodes') g g'' := by
  obtain ⟨kind, input, output, eq⟩ := r.recast
  obtain ⟨kind', input', output', eq'⟩ := r'.recast
  have same : g'.pinsAt nodes' = g.pinsAt nodes' := by rw [eq, pinsAt_recast]
  refine ⟨⟨_, _, _, by rw [eq', eq, recast_recast]⟩, ?_, ?_, fun P durable h =>
    r'.every P durable (r.every P durable h)⟩
  · intro pin away
    have away' : pin ∉ g'.pinsAt nodes' := fun h =>
      away (pinsAt_subset (fun _ => List.mem_append_right _) (same ▸ h))
    rw [r'.inputs pin away', r.inputs pin fun h => away (pinsAt_subset (fun _ => List.mem_append_left _) h)]
  · intro pin away
    have away' : pin ∉ g'.pinsAt nodes' := fun h =>
      away (pinsAt_subset (fun _ => List.mem_append_right _) (same ▸ h))
    rw [r'.outputs pin away', r.outputs pin fun h => away (pinsAt_subset (fun _ => List.mem_append_left _) h)]

section Retyped

variable {nodes : List NodeId} {g g' : Graph} (r : Retyped policy nodes g g')
include r

theorem Retyped.perm {nodes' : List NodeId} (same : ∀ id ∈ nodes, id ∈ nodes') : Retyped policy nodes' g g' :=
  ⟨r.recast, fun pin away => r.inputs pin fun h => away (pinsAt_subset same h),
    fun pin away => r.outputs pin fun h => away (pinsAt_subset same h), r.every⟩

theorem Retyped.numbered (h : g.Numbered) : g'.Numbered := by
  obtain ⟨_, _, _, rfl⟩ := r.recast
  exact h.repainted

theorem Retyped.listed (h : g.Listed) : g'.Listed := by
  obtain ⟨_, _, _, rfl⟩ := r.recast
  exact h.repainted (keeps_recast ..)

theorem Retyped.linked (h : g.Linked) : g'.Linked := by
  obtain ⟨_, _, _, rfl⟩ := r.recast
  exact h.repainted (keeps_recast ..)

theorem Retyped.links : g'.links = g.links := by
  obtain ⟨_, _, _, rfl⟩ := r.recast
  rfl

theorem Retyped.pinsAt (nodes' : List NodeId) : g'.pinsAt nodes' = g.pinsAt nodes' := by
  obtain ⟨_, _, _, rfl⟩ := r.recast
  exact pinsAt_recast ..

theorem Retyped.known {id : NodeId} (h : ∃ n, g.nodes.get? id = some n) : ∃ n, g'.nodes.get? id = some n := by
  obtain ⟨_, _, _, rfl⟩ := r.recast
  obtain ⟨n, hn⟩ := h
  exact ⟨_, repainted_node.2 ⟨n, hn, rfl⟩⟩

theorem Retyped.input_known {pin : PinId} {p : InputPin} (h : g.inputPins.get? pin = some p) :
    ∃ p', g'.inputPins.get? pin = some p' := by
  obtain ⟨_, _, _, rfl⟩ := r.recast
  exact ⟨_, repainted_input.2 ⟨p, h, rfl⟩⟩

theorem Retyped.output_known {pin : PinId} {p : OutputPin} (h : g.outputPins.get? pin = some p) :
    ∃ p', g'.outputPins.get? pin = some p' := by
  obtain ⟨_, _, _, rfl⟩ := r.recast
  exact ⟨_, repainted_output.2 ⟨p, h, rfl⟩⟩

/-- Links that touch no retyped node are typed as before. -/
theorem Retyped.typed_away (typed : g.Typed) {k : LinkId} {l : Link} {o : OutputPin} {i : InputPin}
    (hl : g.links.get? k = some l) (ho : g'.outputPins.get? l.output = some o)
    (hi : g'.inputPins.get? l.input = some i) (away : ∀ pin ∈ g.pinsAt nodes, l.touches pin = false) :
    o.type = i.type ∧ o.type.isUntyped = false := by
  have output_away : l.output ∉ g.pinsAt nodes := fun h => by simpa [Link.touches] using away _ h
  have input_away : l.input ∉ g.pinsAt nodes := fun h => by simpa [Link.touches] using away _ h
  rw [r.outputs _ output_away] at ho
  rw [r.inputs _ input_away] at hi
  exact typed k l o i hl ho hi

end Retyped

/-! ## Removing what became stale -/

theorem revalidate_sound {g : Graph} (nodes : List NodeId) (numbered : g.Numbered) (listed : g.Listed)
    (linked : g.Linked) (known : ∀ id ∈ nodes, ∃ n, g.nodes.get? id = some n)
    (away : ∀ k l o i, g.links.get? k = some l → g.outputPins.get? l.output = some o →
      g.inputPins.get? l.input = some i → (∀ pin ∈ g.pinsAt nodes, l.touches pin = false) →
      o.type = i.type ∧ o.type.isUntyped = false) :
    ∃ out, g.revalidate nodes = .ok out ∧ out.graph.Sound ∧ ∀ P, Every P g → Every P out.graph := by
  obtain ⟨events, eq⟩ := revalidate_eq linked known
  have ids : ({ g with links := g.links.eraseAll (g.stale nodes) } : Graph).ids.Sublist g.ids := by
    simp only [ids, Table.keys_eraseAll]
    exact (List.Sublist.refl _).append (List.filter_sublist.map _)
  have listed' : ({ g with links := g.links.eraseAll (g.stale nodes) } : Graph).Listed := { listed with }
  refine ⟨_, eq, ?_, fun P h => Every.rewired (h.congr rfl rfl rfl)⟩
  exact { (numbered.fewer ids (Nat.le_refl _)).rewired, listed'.rewired, linked.without _ with
    typed := typed_without_stale linked nodes away }

/-! ## Adapting -/

theorem pinIndex_ok {g : Graph} {owner : NodeId} {n : Node} (hn : g.nodes.get? owner = some n) {pin : PinId}
    (hpin : pin ∈ n.pins) : ∃ index, g.pinIndex owner pin = .ok index := by
  have found : (n.pins.findIdx? (· == pin)).isSome = true := by
    rw [List.findIdx?_isSome]
    exact List.any_eq_true.2 ⟨pin, hpin, beq_self_eq_true pin⟩
  obtain ⟨i, hi⟩ := Option.isSome_iff_exists.1 found
  exact ⟨_, by simp only [pinIndex, getNode, hn, hi, bind, Except.bind]; rfl⟩

/-- The index of an input is its place among the inputs. -/
theorem pinIndex_input {g : Graph} {owner : NodeId} {n : Node} (hn : g.nodes.get? owner = some n) {pin : PinId}
    (listed : pin ∈ n.inputs) : ∃ index, g.pinIndex owner pin = .ok index ∧ n.inputs[index]? = some pin := by
  have found : (n.inputs.findIdx? (· == pin)).isSome = true := by
    rw [List.findIdx?_isSome]
    exact List.any_eq_true.2 ⟨pin, listed, beq_self_eq_true pin⟩
  obtain ⟨index, place⟩ := Option.isSome_iff_exists.1 found
  obtain ⟨bound, same, -⟩ := List.findIdx?_eq_some_iff_getElem.1 place
  refine ⟨index, ?_, List.getElem?_eq_some_iff.2 ⟨bound, eq_of_beq same⟩⟩
  simp [pinIndex, getNode, hn, Node.pins, List.findIdx?_append, place, bound, bind, Except.bind, pure, Except.pure]

/-- A way to change shapes that works on every shape with the right numbers of pins. -/
def Adapting (policy : Policy) (f : Shape → Except Fault Shape) : Prop :=
  ∀ s, s.Sized → ∃ s', f s = .ok s' ∧ s.Follows policy.index s'

theorem updateShape_reshape {g : Graph} (listed : g.Listed) (sized : Every (fun o => o.shape.Sized) g)
    {id : NodeId} (known : ∃ n, g.nodes.get? id = some n) {f : Shape → Except Fault Shape}
    (adapting : Adapting policy f) : ∃ g', g.updateShape id f = .ok g' ∧ g.Reshape policy id g' := by
  obtain ⟨n, hn⟩ := known
  obtain ⟨s, hs, follows⟩ := adapting (g.shapeAt n) (outline_shape g n ▸ sized id n hn)
  exact ⟨_, updateShape_eq listed hn hs, n, s, hn, follows, rfl⟩

section Ends

variable {g : Graph} (listed : g.Listed) {output input : PinId} {source : OutputPin} {target : InputPin}
  (ho : g.outputPins.get? output = some source) (hi : g.inputPins.get? input = some target)
include listed ho hi

/-- Both ends adapt, one after the other, if each of them can. -/
theorem adapt_eq {n m : Node} (hm : g.nodes.get? target.node = some m) {index : Nat}
    (place : g.pinIndex target.node input = .ok index) {s t : Shape}
    (enters : (g.shapeAt m).meetSource index source.type = .ok s)
    (hn : (g.reshaped target.node m s).nodes.get? source.node = some n) (left : output ∈ n.outputs)
    {target' : InputPin} (hi' : (g.reshaped target.node m s).inputPins.get? input = some target')
    (leaves : ((g.reshaped target.node m s).shapeAt n).meetTarget target'.type = .ok t) :
    g.adapt output input = .ok ((g.reshaped target.node m s).reshaped source.node n t) := by
  have entered := updateShape_eq (f := fun s => s.meetSource index source.type) listed hm enters
  have adapted := updateShape_eq (f := fun s => s.meetTarget target'.type) (listed.reshaped target.node m s) hn leaves
  obtain ⟨index', place'⟩ := pinIndex_ok hn (List.mem_append_right _ left)
  simp only [adapt, getOutput, getInput, ho, hi, place, entered, place', hi', adapted, bind, Except.bind]

/-- The node that is entered adapts first, then the node that is left. -/
theorem adapt_reshapes (policy : Policy) (sized : Every (fun o => o.shape.Sized) g) :
    ∃ entered adapted, g.adapt output input = .ok adapted
      ∧ g.Reshape policy target.node entered ∧ entered.Reshape policy source.node adapted := by
  obtain ⟨n, hn, output_listed⟩ := listed.outputOwner output source ho
  obtain ⟨m, hm, input_listed⟩ := listed.inputOwner input target hi
  obtain ⟨index, index_eq⟩ := pinIndex_ok hm (List.mem_append_left _ input_listed)
  have meets : Adapting policy fun s => s.meetSource index source.type :=
    fun s hs => Shape.meetSource_follows hs _ _
  obtain ⟨entered, entered_eq, enters⟩ := updateShape_reshape listed sized ⟨m, hm⟩ meets
  have retyped := enters.retyped listed
  have listed' := retyped.listed listed
  obtain ⟨n', hn'⟩ := retyped.known ⟨n, hn⟩
  have output_listed' : output ∈ n'.pins := by
    obtain ⟨_, _, _, eq⟩ := retyped.recast
    rw [eq] at hn'
    obtain ⟨_, old, rfl⟩ := repainted_node.1 hn'
    cases hn.symm.trans old
    exact List.mem_append_right _ output_listed
  obtain ⟨index', index_eq'⟩ := pinIndex_ok hn' output_listed'
  obtain ⟨target', hi'⟩ := retyped.input_known hi
  have meets' : Adapting policy fun s => s.meetTarget target'.type :=
    fun s hs => Shape.meetTarget_follows hs _
  obtain ⟨adapted, adapted_eq, leaves⟩ := updateShape_reshape listed'
    (retyped.every _ Outline.durable_sized sized) ⟨n', hn'⟩ meets'
  refine ⟨entered, adapted, ?_, enters, leaves⟩
  simp only [adapt, getOutput, getInput, ho, hi, index_eq, entered_eq, index_eq', hi', adapted_eq, bind,
    Except.bind]

end Ends

/-! ## Undoing -/

/-- Writing both old shapes back gives the graph as it was. -/
theorem unshaped_eq {g entered adapted : Graph} (listed : g.Listed) {left right : NodeId} {n m : Node}
    (hn : g.nodes.get? left = some n) (hm : g.nodes.get? right = some m)
    (enters : g.Reshape policy right entered) (leaves : entered.Reshape policy left adapted) :
    ∃ half, adapted.setShape right (g.shapeAt m) = .ok half ∧ half.setShape left (g.shapeAt n) = .ok g := by
  obtain ⟨m₁, s, hm₁, -, rfl⟩ := enters
  cases hm.symm.trans hm₁
  obtain ⟨n₁, t, hn₁, follows, rfl⟩ := leaves
  obtain ⟨n₀, hn₀, rfl⟩ := reshaped_node.1 hn₁
  cases hn.symm.trans hn₀
  have hm₂ := reshaped_node_of_old left n t (reshaped_node_of_old right m s hm)
  have listed₂ := (listed.reshaped right m s).reshaped left n t
  have undo_right := setShape_eq listed₂ hm₂ (g.shapeAt m)
  have hn₃ := reshaped_node_of_old right m (g.shapeAt m) (reshaped_node_of_old left n t hn₁)
  have undo_left := setShape_eq (listed₂.reshaped right m (g.shapeAt m)) hn₃ (g.shapeAt n)
  refine ⟨_, undo_right, undo_left.trans (congrArg _ ?_)⟩
  simp only [reshaped, recast_recast, shapeAt]
  refine recast_eq_self ?_ ?_ ?_
  · intro k x hx
    unfold setKind
    by_cases at_left : k = left
    · subst at_left
      cases hn.symm.trans hx
      simp
    · by_cases at_right : k = right
      · subst at_right
        cases hm.symm.trans hx
        simp [at_left]
      · simp [at_left, at_right]
  · intro k p hp
    have stored : g.inputTypeAt k = p.type := by simp [inputTypeAt, hp]
    simp only [setTypes_map, stored]
    by_cases at_left : k ∈ n.inputs
    · simp [at_left]
    · by_cases at_right : k ∈ m.inputs
      · simp [at_left, at_right]
      · simp [at_left, at_right, setTypes_of_not_mem]
  · intro k p hp
    have stored : g.outputTypeAt k = p.type := by simp [outputTypeAt, hp]
    simp only [setTypes_map, stored]
    by_cases at_left : k ∈ n.outputs
    · simp [at_left]
    · by_cases at_right : k ∈ m.outputs
      · simp [at_left, at_right]
      · simp [at_left, at_right, setTypes_of_not_mem]

/-! ## Linking -/

theorem Numbered.linked_with {g : Graph} (h : g.Numbered) (output input : PinId) :
    ({ g with nextId := g.nextId + 1, links := g.linksWith output input } : Graph).Numbered := by
  let bare : Graph := { g with links := g.links.eraseAll (g.replaced input) }
  have fewer : bare.ids.Sublist g.ids := by
    simp only [bare, ids, Table.keys_eraseAll]
    exact (List.Sublist.refl _).append (List.filter_sublist.map _)
  have numbered : bare.Numbered := h.fewer fewer (Nat.le_refl _)
  refine numbered.grown (n := 1) ?_ rfl
  have fresh : (⟨g.nextId⟩ : LinkId) ∉ (g.links.eraseAll (g.replaced input)).keys := numbered.link_fresh
  simp only [ids, bare, linksWith, Table.keys_insert, fresh, if_false, List.map_append, List.map_cons,
    List.map_nil, List.range'_one]
  rw [← List.append_assoc]
  exact List.perm_append_comm

/-- A new link between retyped nodes, and the links that are stale now, all touch one of them. -/
theorem Retyped.link_sound {nodes : List NodeId} {g adapted : Graph} (r : Retyped policy nodes g adapted) (h : g.Sound)
    (known : ∀ id ∈ nodes, ∃ n, g.nodes.get? id = some n) {output input : PinId} (type : PinType)
    (ho : ∃ o, adapted.outputPins.get? output = some o) (hi : ∃ i, adapted.inputPins.get? input = some i)
    (entered : input ∈ g.pinsAt nodes) :
    ∃ out, (adapted.link output input type).graph.revalidate nodes = .ok out ∧ out.graph.Sound
      ∧ ∀ P, Outline.Durable policy P → Every P g → Every P out.graph := by
  have linked := r.linked h.toLinked
  have numbered := r.numbered h.toNumbered
  have listed : ({ adapted with
      nextId := adapted.nextId + 1
      links := adapted.linksWith output input } : Graph).Listed := { r.listed h.toListed with }
  rw [link_graph linked numbered.link_fresh]
  obtain ⟨out, valid, sound, every⟩ := revalidate_sound nodes (numbered.linked_with output input).rewired
    listed.rewired (linked_link linked numbered.link_fresh ho hi) (fun id hid => r.known (known id hid)) (by
      intro k l o i hl hlo hli away
      rcases (get?_linksWith numbered.link_fresh).1 hl with ⟨-, rfl⟩ | ⟨old, -⟩
      · have away_input := away input (r.pinsAt _ ▸ entered)
        simp [Link.touches] at away_input
      · obtain ⟨i', hi', rfl⟩ := rewired_inputPins_get?.1 hli
        have typed := r.typed_away h.typed (r.links ▸ old) hlo hi' (r.pinsAt _ ▸ away)
        exact typed)
  refine ⟨out, valid, sound, fun P durable before => every P ?_⟩
  exact Every.rewired ((r.every P durable before).congr rfl rfl rfl)

theorem connect_sound {g : Graph} (h : g.Sound) (sized : Every (fun o => o.shape.Sized) g)
    (output input : PinId) :
    ∃ out, g.connect output input = .ok out ∧ out.graph.Sound
      ∧ (∀ P, Outline.Durable policy P → Every P g → Every P out.graph)
      ∧ ∀ e, out.result = .error e → out.graph = g := by
  unfold connect
  split
  · exact ⟨_, rfl, h, fun _ _ every => every, fun _ _ => rfl⟩
  · exact ⟨_, rfl, h, fun _ _ every => every, fun _ _ => rfl⟩
  rename_i source target ho hi
  obtain ⟨n, hn, output_listed⟩ := h.outputOwner output source ho
  obtain ⟨m, hm, input_listed⟩ := h.inputOwner input target hi
  obtain ⟨entered, adapted, adapt_eq, enters, leaves⟩ := adapt_reshapes h.toListed ho hi policy sized
  have retyped₁ := enters.retyped h.toListed
  have retyped : Retyped policy [source.node, target.node] g adapted :=
    (retyped₁.trans (leaves.retyped (retyped₁.listed h.toListed))).perm fun id hid => by
      simpa [or_comm] using hid
  obtain ⟨o, ho'⟩ := retyped.output_known ho
  obtain ⟨i, hi'⟩ := retyped.input_known hi
  simp only [shape_eq h.toListed hn, shape_eq h.toListed hm, adapt_eq, getOutput, getInput, ho', hi', bind,
    Except.bind]
  split
  · have known : ∀ id ∈ [source.node, target.node], ∃ n, g.nodes.get? id = some n := by
      simp only [List.forall_mem_cons]
      exact ⟨⟨n, hn⟩, ⟨m, hm⟩, List.forall_mem_nil _⟩
    have entered_listed : input ∈ g.pinsAt [source.node, target.node] :=
      mem_pinsAt (by simp) hm (List.mem_append_left _ input_listed)
    obtain ⟨out, valid, sound, every⟩ := retyped.link_sound h known i.type ⟨o, ho'⟩ ⟨i, hi'⟩ entered_listed
    rw [valid]
    exact ⟨_, rfl, sound, every, fun e he => (by cases he)⟩
  · obtain ⟨half, undo_right, undo_left⟩ := unshaped_eq h.toListed hn hm enters leaves
    rw [undo_right]
    dsimp only
    rw [undo_left]
    exact ⟨_, rfl, h, fun _ _ every => every, fun _ _ => rfl⟩

end FrameGraph.Graph
