/-
  FrameGraph.Proofs.Store.Numbering: which ids an edit hands out.

  What an edit hands out is read off its answers: the node that it made and the pins that this
  node lists, the link that it made, or the inputs that a node has gained. These are the next ids
  of the counter, one for each object, and the counter goes on behind them; nothing in the graph
  has an id that was neither there before nor handed out now (`apply_drawn`). Edits that only take
  objects away, that are refused or that change objects in place leave the counter alone.
-/

import FrameGraph.Proofs.Store.Reporting

namespace FrameGraph

def Graph.inputsAt (g : Graph) (id : NodeId) : List PinId := ((g.nodes.get? id).map Node.inputs).getD []

/-- The ids of the objects that an edit makes, in the order in which they are made. -/
def Edit.issued : Edit → Graph → List Nat
  | addNode kind position, g =>
    let out := g.addNode kind position
    out.result.val :: (out.graph.pinsAt [out.result]).map PinId.val
  | connect output input, g =>
    match g.connect output input with
    | .ok ⟨_, _, .ok link⟩ => [link.val]
    | _ => []
  | setInputCount node count, g =>
    (((g.setInputCount node count).graph.inputsAt node).drop (g.inputsAt node).length).map PinId.val
  | _, _ => []

namespace Graph

/-! ## Taking ids off the counter -/

/-- `g'` came of `g` when the ids in `new` were taken off the counter. -/
structure Drawn (g : Graph) (new : List Nat) (g' : Graph) : Prop where
  next : new = List.range' g.nextId new.length
  counter : g'.nextId = g.nextId + new.length
  known : ∀ i ∈ g'.ids, i ∈ g.ids ∨ i ∈ new

theorem drawn_none {g g' : Graph} (counter : g'.nextId = g.nextId) (fewer : ∀ i ∈ g'.ids, i ∈ g.ids) :
    Drawn g [] g' :=
  ⟨rfl, counter, fun i hi => .inl (fewer i hi)⟩

theorem Drawn.trans {g g' g'' : Graph} {new new' : List Nat} (d : Drawn g new g') (d' : Drawn g' new' g'') :
    Drawn g (new ++ new') g'' where
  next := by
    rw [List.length_append, ← List.range'_append_1, ← d.counter, ← d.next, ← d'.next]
  counter := by rw [d'.counter, d.counter, List.length_append, Nat.add_assoc]
  known i hi := by
    rcases d'.known i hi with before | drawn
    · exact (d.known i before).imp_right (List.mem_append_left _)
    · exact .inr (List.mem_append_right _ drawn)

theorem drawn_repainted (g : Graph) (node : NodeId → Node → Node) (input : PinId → InputPin → InputPin)
    (output : PinId → OutputPin → OutputPin) : Drawn g [] (g.repainted node input output) :=
  drawn_none rfl fun i hi => by simpa [ids, repainted] using hi

/-! ## Links -/

theorem known_relinked {g : Graph} {links : Table LinkId Link} {new : List Nat} (counter : Nat)
    (known : ∀ k ∈ links.keys, k ∈ g.links.keys ∨ k.val ∈ new) :
    ∀ i ∈ ({ g with nextId := counter, links } : Graph).rewired.ids, i ∈ g.ids ∨ i ∈ new := by
  intro i hi
  rw [ids_rewired] at hi
  rcases List.mem_append.1 hi with old | linked
  · exact .inl (List.mem_append_left _ old)
  · obtain ⟨k, hk, rfl⟩ := List.mem_map.1 linked
    exact (known k hk).imp_left fun old => List.mem_append_right _ (List.mem_map.2 ⟨k, old, rfl⟩)

theorem drawn_fewer {g : Graph} {links : Table LinkId Link} (fewer : links.keys.Sublist g.links.keys) :
    Drawn g [] ({ g with links } : Graph).rewired :=
  ⟨rfl, rfl, known_relinked g.nextId fun _ hk => .inl (fewer.subset hk)⟩

theorem drawn_linked (g : Graph) (output input : PinId) : Drawn g [g.nextId] (g.linked output input) := by
  refine ⟨rfl, rfl, known_relinked _ fun k hk => ?_⟩
  rw [linksWith, Table.keys_insert, Table.keys_eraseAll] at hk
  split at hk
  · exact .inl (List.mem_filter.1 hk).1
  · rcases List.mem_append.1 hk with old | new
    · exact .inl (List.mem_filter.1 old).1
    · exact .inr (List.mem_singleton.1 new ▸ List.mem_singleton.2 rfl)

theorem drawn_cleaned (g : Graph) (nodes : List NodeId) : Drawn g [] (g.cleaned nodes) :=
  drawn_fewer (by rw [Table.keys_eraseAll]; exact List.filter_sublist)

theorem Recast.drawn {nodes : List NodeId} {g g' : Graph} (r : Recast nodes g g') : Drawn g [] g' := by
  obtain ⟨_, _, _, rfl, -⟩ := r
  exact drawn_repainted ..

theorem connect_drawn {g : Graph} (h : g.Sound) (sized : Every (fun o => o.shape.Sized) g) {output input : PinId}
    {out : Outcome (Except GraphError LinkId)} (connected : g.connect output input = .ok out) :
    Drawn g ((Edit.connect output input).issued g) out.graph := by
  obtain ⟨_, eq, -, -, refused⟩ := @connect_sound anything g h sized output input
  cases eq.symm.trans connected
  rw [Edit.issued, connected]
  cases out with
  | mk g' events result =>
  cases result with
  | error e =>
    cases refused e rfl
    exact drawn_none rfl fun _ hi => hi
  | ok l =>
    obtain ⟨source, target, ho, hi⟩ := connect_ends connected rfl
    obtain ⟨adapted, retyped, -, rfl, eq⟩ := connect_eq h ho hi connected rfl
    cases eq
    exact (retyped.drawn.trans (drawn_linked ..)).trans (drawn_cleaned ..)

/-! ## Settings -/

theorem reconfigure_drawn {g : Graph} (h : g.Sound) {id : NodeId} {setting : Shape → Option (Except Fault Shape)}
    {misfit : String → Misfit} {out : Outcome (Except GraphError (List LinkId))}
    (configured : g.reconfigure id setting misfit = .ok out) : Drawn g [] out.graph := by
  rcases reconfigure_eq h configured with ⟨same, -⟩ | ⟨n, s, hn, -, graph, -⟩
  · rw [same]
    exact drawn_none rfl fun _ hi => hi
  · rw [graph]
    exact (recast_reshaped h.toListed hn s).drawn.trans (drawn_cleaned _ [id])

/-! ## Nodes and their inputs -/

theorem drawn_ids {g g' : Graph} {count : Nat} {rest : List Nat} (counter : g'.nextId = g.nextId + count)
    (drawn : g'.ids.Perm (List.range' g.nextId count ++ rest)) (old : rest ⊆ g.ids) :
    Drawn g (List.range' g.nextId count) g' where
  next := by rw [List.length_range']
  counter := by rw [counter, List.length_range']
  known i hi := (List.mem_append.1 (drawn.subset hi)).symm.imp_left fun h => old h

theorem val_freshInputs (node : NodeId) (start : Nat) (specs : List PinSpec) :
    ((freshInputs node start specs).map Prod.fst).map PinId.val = List.range' start specs.length := by
  rw [keys_freshInputs, List.map_map]
  exact List.map_id _

theorem val_freshOutputs (node : NodeId) (start : Nat) (specs : List PinSpec) :
    ((freshOutputs node start specs).map Prod.fst).map PinId.val = List.range' start specs.length := by
  rw [keys_freshOutputs, List.map_map]
  exact List.map_id _

/-- The ids of a new node and its pins, in order. -/
theorem Added.issued {g g' : Graph} {kind : Kind} {position : Position} (a : g.Added kind position g') :
    g.nextId :: (g'.pinsAt [⟨g.nextId⟩]).map PinId.val
      = List.range' g.nextId (1 + kind.inputSpecs.length + kind.outputSpecs.length) := by
  have made := a.get?_node.2 (.inr rfl)
  simp only [pinsAt, List.flatMap_cons, List.flatMap_nil, made, Option.map_some, Option.getD_some, Node.pins,
    List.append_nil, List.map_append, val_freshInputs, val_freshOutputs]
  rw [List.range'_append_1, Nat.add_assoc, Nat.add_comm 1, List.range'_succ]

/-- The ids of the inputs that a node has gained, in order. -/
theorem Resized.issued {g g' : Graph} {id : NodeId} {n : Node} {count : Nat} (r : Resized g id n count g')
    (hn : g.nodes.get? id = some n) (takes : Outline.Takes n.kind count) :
    ((g'.inputsAt id).drop (g.inputsAt id).length).map PinId.val
      = List.range' g.nextId (missingInputs n.kind n.inputs.length count).length := by
  have resized := r.get?_node.2 ⟨n, hn, if_pos rfl⟩
  have length := Outline.missingInputs_length takes n.inputs.length
  simp only [inputsAt, resized, hn, Option.map_some, Option.getD_some, resizeNode]
  by_cases fewer : count ≤ n.inputs.length
  · have none : missingInputs n.kind n.inputs.length count = [] := by
      rw [← List.length_eq_zero_iff, length, Nat.sub_eq_zero_of_le fewer]
    have short : (n.inputs.take count).length ≤ n.inputs.length := by
      rw [List.length_take]
      exact Nat.min_le_right ..
    rw [none, freshInputs, List.map_nil, List.append_nil, List.drop_of_length_le short]
    rfl
  · rw [List.take_of_length_le (Nat.le_of_not_le fewer), List.drop_left, val_freshInputs]

theorem setInputCount_drawn {g : Graph} (h : g.Sound) (node : NodeId) (count : Nat) :
    Drawn g ((Edit.setInputCount node count).issued g) (g.setInputCount node count).graph := by
  rcases setInputCount_eq h node count with ⟨same, -⟩ | ⟨n, _, hn, takes, resized, -⟩
  · rw [Edit.issued, same, List.drop_length]
    exact drawn_none rfl fun _ hi => hi
  · rw [Edit.issued, resized.issued hn takes]
    exact drawn_ids resized.nextId resized.ids resized.rest.subset

theorem addNode_drawn {g : Graph} (h : g.Sound) (kind : Kind) (position : Position) :
    Drawn g ((Edit.addNode kind position).issued g) (g.addNode kind position).graph := by
  have a := added h.toNumbered kind position
  have named : (g.addNode kind position).result = ⟨g.nextId⟩ := rfl
  rw [Edit.issued, named, a.issued]
  exact drawn_ids a.nextId a.ids (List.Subset.refl _)

theorem removeNode_drawn {g : Graph} (h : g.Sound) (id : NodeId) : Drawn g [] (g.removeNode id).graph := by
  cases hn : g.nodes.get? id with
  | none =>
    simp only [removeNode, hn]
    exact drawn_none rfl fun _ hi => hi
  | some n =>
    rw [removeNode_graph h.toLinked hn]
    refine drawn_none rfl fun i hi => ?_
    rw [ids_rewired] at hi
    exact (ids_without g id n).subset hi

/-- Whatever an edit hands out comes off the counter, and nothing else does. -/
theorem apply_drawn {g : Graph} (h : g.Sound) (sized : Every (fun o => o.shape.Sized) g) {e : Edit} {g' : Graph}
    (applied : e.apply g = .ok g') : Drawn g (e.issued g) g' := by
  have same : Drawn g [] g := drawn_none rfl fun _ hi => hi
  have mapped : ∀ {α : Type} {x : Except Fault (Outcome α)}, x.map Outcome.graph = .ok g' →
      ∃ out, x = .ok out ∧ out.graph = g' := by
    intro α x eq
    cases x with
    | error f => cases eq
    | ok out => exact ⟨out, rfl, Except.ok.inj eq⟩
  cases e with
  | addNode kind position =>
    cases applied
    exact addNode_drawn h kind position
  | removeNode node =>
    cases applied
    exact removeNode_drawn h node
  | connect output input =>
    obtain ⟨out, connected, rfl⟩ := mapped applied
    exact connect_drawn h sized connected
  | disconnect link =>
    cases applied
    rw [disconnect_graph h.toLinked]
    exact drawn_fewer (by rw [Table.keys_erase]; exact List.filter_sublist)
  | setConvertFrom node type =>
    obtain ⟨out, configured, rfl⟩ := mapped applied
    exact reconfigure_drawn h configured
  | setConvertTo node type =>
    obtain ⟨out, configured, rfl⟩ := mapped applied
    exact reconfigure_drawn h configured
  | setSelectIndex node index =>
    obtain ⟨out, configured, rfl⟩ := mapped applied
    exact reconfigure_drawn h configured
  | setInputCount node count =>
    cases applied
    exact setInputCount_drawn h node count
  | setPosition node position =>
    cases applied
    unfold setPosition
    split
    · exact same
    · rw [Table.modify, place_eq]
      exact drawn_repainted ..
  | setTerminal node =>
    cases applied
    unfold setTerminal
    split
    · exact drawn_none rfl fun _ hi => hi
    · exact same
  | resetEvaluation =>
    cases applied
    show Drawn g [] g.resetEvaluation
    rw [Graph.resetEvaluation, Table.map, Table.map, repaint_eq]
    exact drawn_repainted ..
  | evaluate backend =>
    cases applied
    unfold Graph.evaluate
    split
    · exact same
    · simp only [withResults, repaint_eq]
      exact drawn_repainted ..

end Graph

end FrameGraph
