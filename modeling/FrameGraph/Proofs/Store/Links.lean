/-
  FrameGraph.Proofs.Store.Links: what taking links away and adding one does to a graph.

  On a linked graph each of these is a change of the link table, after which every input
  remembers what the table says: removing one link (`disconnect_graph`), several
  (`disconnectAll_graph`), the stale ones on some nodes (`revalidate_eq`), and putting a link
  in place of the one that fed its input (`link_graph`). After the stale links on the nodes
  whose pins changed are gone, all links are typed again (`typed_without_stale`).
-/

import FrameGraph.Graph.Connect
import FrameGraph.Proofs.Store.Sound

namespace FrameGraph.Graph

/-! ## What feeds an input -/

theorem Linked.connection_eq {g : Graph} (h : g.Linked) {k : PinId} {p : InputPin}
    (hp : g.inputPins.get? k = some p) : p.connection = fedBy g.links k := by
  apply Option.ext
  intro o
  rw [fedBy_eq_some_iff h.single, h.remembered k p o hp]

/-- Tables that agree on the links into a pin agree on what feeds it. -/
theorem fedBy_congr {links links' : Table LinkId Link} (single : Single links) (single' : Single links')
    {pin : PinId} (same : ∀ k l, l.input = pin → (links.get? k = some l ↔ links'.get? k = some l)) :
    fedBy links pin = fedBy links' pin := by
  apply Option.ext
  intro o
  rw [fedBy_eq_some_iff single, fedBy_eq_some_iff single']
  constructor
  · intro linked
    obtain ⟨k, l, hk, enters, out⟩ := linked
    exact ⟨k, l, (same k l enters).1 hk, enters, out⟩
  · intro linked
    obtain ⟨k, l, hk, enters, out⟩ := linked
    exact ⟨k, l, (same k l enters).2 hk, enters, out⟩

theorem single_of_fewer {links links' : Table LinkId Link} (single : Single links)
    (fewer : ∀ k l, links'.get? k = some l → links.get? k = some l) : Single links' :=
  fun k l k' l' hl hl' => single k l k' l' (fewer k l hl) (fewer k' l' hl')

theorem get?_of_eraseAll {links : Table LinkId Link} {dead : List LinkId} {k : LinkId} {l : Link}
    (h : (links.eraseAll dead).get? k = some l) : links.get? k = some l :=
  (Table.get?_eraseAll_eq_some.1 h).1

/-! ## Removing links -/

theorem disconnect_graph {g : Graph} (h : g.Linked) (id : LinkId) :
    (g.disconnect id).graph = ({ g with links := g.links.erase id } : Graph).rewired := by
  cases hl : g.links.get? id with
  | none =>
    rw [Table.erase_of_not_mem (Table.get?_eq_none_iff.1 hl)]
    simp only [disconnect, hl]
    exact h.rewired_eq.symm
  | some l =>
    simp only [disconnect, hl, detach, rewired, Graph.mk.injEq, true_and, and_true]
    apply Table.mapWithKey_congr
    intro k p hp
    have now := h.connection_eq (Table.get?_of_mem hp)
    have single : Single (g.links.erase id) :=
      single_of_fewer h.single fun k l hk => (Table.get?_erase_eq_some.1 hk).1
    by_cases entered : k = l.input
    · -- the only link into this pin is gone
      subst entered
      have before : fedBy g.links l.input = some l.output :=
        (fedBy_eq_some_iff h.single).2 ⟨id, l, hl, rfl, rfl⟩
      have after : fedBy (g.links.erase id) l.input = none := by
        apply Option.eq_none_iff_forall_ne_some.2
        intro o ho
        obtain ⟨k', l', hl', enters, -⟩ := (fedBy_eq_some_iff single).1 ho
        obtain ⟨old, ne⟩ := Table.get?_erase_eq_some.1 hl'
        exact ne (h.single k' l' id l old hl enters)
      simp [now, before, after]
    · have same : fedBy (g.links.erase id) k = fedBy g.links k := by
        apply fedBy_congr single h.single
        intro k' l' enters
        refine Table.get?_erase_eq_some.trans ⟨fun old => old.1, fun old => ⟨old, ?_⟩⟩
        intro same
        subst same
        rw [hl] at old
        exact entered (by rw [Option.some.inj old, enters])
      simp [entered, same, ← now]

theorem disconnectAll_graph (announce : LinkId → List Event) (dead : List LinkId) {g : Graph}
    (h : g.Linked) :
    (disconnectAll announce dead g).1 = ({ g with links := g.links.eraseAll dead } : Graph).rewired := by
  induction dead generalizing g with
  | nil => exact h.rewired_eq.symm
  | cons id dead ih =>
    have linked : ({ g with links := g.links.erase id } : Graph).rewired.Linked :=
      h.relinked fun k l hl => (Table.get?_erase_eq_some.1 hl).1
    simp only [disconnectAll]
    rw [disconnect_graph h, ih linked, Table.eraseAll_cons]
    exact rewired_absorbs g _ _

theorem Linked.without {g : Graph} (h : g.Linked) (dead : List LinkId) :
    ({ g with links := g.links.eraseAll dead } : Graph).rewired.Linked :=
  h.relinked fun _ _ => get?_of_eraseAll

/-! ## Stale links -/

/-- Whether the types at the ends of a link match. -/
def fits (g : Graph) (l : Link) : Bool :=
  match g.outputPins.get? l.output, g.inputPins.get? l.input with
  | some o, some i => o.type.compatible i.type
  | _, _ => false

def pinsAt (g : Graph) (nodes : List NodeId) : List PinId :=
  nodes.flatMap fun id => ((g.nodes.get? id).map Node.pins).getD []

def stale (g : Graph) (nodes : List NodeId) : List LinkId :=
  ((g.linksTouching (g.pinsAt nodes)).filter fun l => !g.fits l).map Link.id

theorem typesMatch_eq {g : Graph} (h : g.Linked) {k : LinkId} {l : Link} (hl : g.links.get? k = some l) :
    g.typesMatch l = .ok (g.fits l) := by
  obtain ⟨⟨o, ho⟩, i, hi⟩ := h.ends k l hl
  simp only [typesMatch, fits, getOutput, getInput, ho, hi]
  rfl

theorem mismatched_eq {g : Graph} (h : g.Linked) :
    ∀ {ls : List Link}, (∀ l ∈ ls, l ∈ g.links.values) →
      g.mismatched ls = .ok ((ls.filter fun l => !g.fits l).map Link.id)
  | [], _ => rfl
  | l :: ls, known => by
    obtain ⟨k, hl⟩ := Table.mem_values_iff.1 (known l List.mem_cons_self)
    have rest := mismatched_eq h fun l hl => known l (List.mem_cons_of_mem _ hl)
    simp only [mismatched, typesMatch_eq h hl, rest]
    cases hf : g.fits l <;> simp [hf, bind, Except.bind, pure, Except.pure]

theorem pinsOf_eq {g : Graph} :
    ∀ {nodes : List NodeId}, (∀ id ∈ nodes, ∃ n, g.nodes.get? id = some n) →
      g.pinsOf nodes = .ok (g.pinsAt nodes)
  | [], _ => rfl
  | id :: nodes, known => by
    obtain ⟨n, hn⟩ := known id List.mem_cons_self
    have rest := pinsOf_eq fun id hid => known id (List.mem_cons_of_mem _ hid)
    simp only [pinsOf, getNode, hn, rest]
    simp [pinsAt, hn, bind, Except.bind, pure, Except.pure]

theorem revalidate_eq {g : Graph} (h : g.Linked) {nodes : List NodeId}
    (known : ∀ id ∈ nodes, ∃ n, g.nodes.get? id = some n) :
    ∃ events, g.revalidate nodes = .ok
      ⟨({ g with links := g.links.eraseAll (g.stale nodes) } : Graph).rewired, events, g.stale nodes⟩ := by
  have stale_eq : g.mismatched (g.linksTouching (g.pinsAt nodes)) = .ok (g.stale nodes) :=
    mismatched_eq h fun l hl => (List.mem_filter.1 hl).1
  refine ⟨(disconnectAll (fun id => [.invalidated g.id id]) (g.stale nodes) g).2, ?_⟩
  simp only [revalidate, pinsOf_eq known, stale_eq, bind, Except.bind, pure, Except.pure]
  rw [disconnectAll_graph _ _ h]

theorem fits_iff {g : Graph} {l : Link} {o : OutputPin} {i : InputPin}
    (ho : g.outputPins.get? l.output = some o) (hi : g.inputPins.get? l.input = some i) :
    g.fits l = true ↔ o.type = i.type ∧ o.type.isUntyped = false := by
  simp only [fits, ho, hi, compatible_iff]

/-- Links away from the given nodes were typed all along; the others are when the stale ones
are gone. -/
theorem typed_without_stale {g : Graph} (h : g.Linked) (nodes : List NodeId)
    (away : ∀ k l o i, g.links.get? k = some l → g.outputPins.get? l.output = some o →
      g.inputPins.get? l.input = some i → (∀ pin ∈ g.pinsAt nodes, l.touches pin = false) →
      o.type = i.type ∧ o.type.isUntyped = false) :
    ({ g with links := g.links.eraseAll (g.stale nodes) } : Graph).rewired.Typed := by
  apply Typed.rewired
  intro k l o i hl ho hi
  obtain ⟨old, kept⟩ := Table.get?_eraseAll_eq_some.1 hl
  by_cases touched : (g.pinsAt nodes).any l.touches = true
  · rw [← fits_iff (g := g) ho hi]
    apply Classical.byContradiction
    intro unfit
    apply kept
    refine List.mem_map.2 ⟨l, List.mem_filter.2 ⟨List.mem_filter.2 ⟨?_, touched⟩, by simpa using unfit⟩, ?_⟩
    · exact Table.mem_values_iff.2 ⟨k, old⟩
    · exact h.linkKey k l old
  · refine away k l o i old ho hi fun pin hpin => ?_
    simpa using fun meets => touched (List.any_eq_true.2 ⟨pin, hpin, meets⟩)

/-! ## A link in place of another -/

/-- The link that enters a pin, if there is one. -/
def replaced (g : Graph) (input : PinId) : List LinkId := ((g.linkInto? input).map Link.id).toList

theorem Linked.linkInto?_eq_some {g : Graph} (h : g.Linked) {input : PinId} {l : Link} :
    g.linkInto? input = some l ↔ ∃ k, g.links.get? k = some l ∧ l.input = input := by
  constructor
  · intro found
    obtain ⟨k, hk, enters⟩ := Table.find?_values found
    exact ⟨k, hk, eq_of_beq enters⟩
  · intro linked
    obtain ⟨k, hk, enters⟩ := linked
    exact find?_entering h.single hk enters

theorem mem_replaced_iff {g : Graph} (h : g.Linked) {input : PinId} {k : LinkId} :
    k ∈ g.replaced input ↔ ∃ l, g.links.get? k = some l ∧ l.input = input := by
  simp only [replaced, Option.mem_toList, Option.map_eq_some_iff, h.linkInto?_eq_some]
  constructor
  · intro linked
    obtain ⟨l, ⟨k, hk, enters⟩, rfl⟩ := linked
    exact ⟨l, h.linkKey k l hk ▸ hk, enters⟩
  · intro linked
    obtain ⟨l, hk, enters⟩ := linked
    exact ⟨l, ⟨k, hk, enters⟩, h.linkKey k l hk⟩

/-- Other inputs are fed as before. -/
theorem fedBy_unreplaced {g : Graph} (h : g.Linked) {input k : PinId} (away : k ≠ input) :
    fedBy (g.links.eraseAll (g.replaced input)) k = fedBy g.links k := by
  refine fedBy_congr (single_of_fewer h.single fun _ _ => get?_of_eraseAll) h.single fun k' l enters => ?_
  rw [Table.get?_eraseAll_eq_some]
  refine and_iff_left_of_imp fun old replaced => away ?_
  obtain ⟨l', hl', enters'⟩ := (mem_replaced_iff h).1 replaced
  cases old.symm.trans hl'
  rw [← enters, enters']

/-- The link table once a new link is in place. -/
def linksWith (g : Graph) (output input : PinId) : Table LinkId Link :=
  (g.links.eraseAll (g.replaced input)).insert ⟨g.nextId⟩ ⟨⟨g.nextId⟩, input, output⟩

theorem get?_linksWith {g : Graph} (fresh : ⟨g.nextId⟩ ∉ g.links.keys) {output input : PinId}
    {k : LinkId} {l : Link} :
    (g.linksWith output input).get? k = some l ↔
      (k = ⟨g.nextId⟩ ∧ l = ⟨⟨g.nextId⟩, input, output⟩)
        ∨ (g.links.get? k = some l ∧ k ∉ g.replaced input) := by
  rw [linksWith, Table.get?_insert]
  by_cases new : k = ⟨g.nextId⟩
  · subst new
    simp [Table.get?_eq_none_iff.2 fresh, eq_comm]
  · simp [new, Table.get?_eraseAll_eq_some]

theorem single_linksWith {g : Graph} (h : g.Linked) (fresh : ⟨g.nextId⟩ ∉ g.links.keys)
    (output input : PinId) : Single (g.linksWith output input) := by
  have only_new : ∀ k l, g.links.get? k = some l → k ∉ g.replaced input → l.input ≠ input :=
    fun k l hl kept enters => kept ((mem_replaced_iff h).2 ⟨l, hl, enters⟩)
  intro k l k' l' hl hl' same
  rcases (get?_linksWith fresh).1 hl with ⟨rfl, rfl⟩ | ⟨old, kept⟩
  · rcases (get?_linksWith fresh).1 hl' with ⟨rfl, -⟩ | ⟨old', kept'⟩
    · rfl
    · exact absurd same.symm (only_new k' l' old' kept')
  · rcases (get?_linksWith fresh).1 hl' with ⟨rfl, rfl⟩ | ⟨old', -⟩
    · exact absurd same (only_new k l old kept)
    · exact h.single k l k' l' old old' same

theorem fedBy_linksWith {g : Graph} (h : g.Linked) (fresh : ⟨g.nextId⟩ ∉ g.links.keys) (output input k : PinId) :
    fedBy (g.linksWith output input) k = if k = input then some output else fedBy g.links k := by
  have single := single_linksWith h fresh output input
  split
  · rename_i entered
    exact (fedBy_eq_some_iff single).2 ⟨_, _, (get?_linksWith fresh).2 (.inl ⟨rfl, rfl⟩), entered.symm, rfl⟩
  · rename_i away
    rw [← fedBy_unreplaced h away]
    refine fedBy_congr single (single_of_fewer h.single fun _ _ => get?_of_eraseAll) fun k' l enters => ?_
    rw [Table.get?_eraseAll_eq_some, get?_linksWith fresh]
    refine ⟨fun either => either.resolve_left ?_, .inr⟩
    intro both
    obtain ⟨-, rfl⟩ := both
    exact away enters.symm

theorem link_graph {g : Graph} (h : g.Linked) (fresh : ⟨g.nextId⟩ ∉ g.links.keys)
    (output input : PinId) (type : PinType) :
    (g.link output input type).graph
      = ({ g with nextId := g.nextId + 1, links := g.linksWith output input } : Graph).rewired := by
  simp only [link]
  rw [disconnectAll_graph _ _ h]
  simp only [rewired, Table.modify, Table.mapWithKey_mapWithKey, Graph.mk.injEq, true_and]
  refine ⟨Table.mapWithKey_congr fun k p _ => ?_, rfl⟩
  rw [fedBy_linksWith h fresh]
  by_cases entered : k = input
  · simp [entered]
  · simp only [entered, if_false]
    rw [← fedBy_unreplaced h entered]
    rfl

theorem linked_link {g : Graph} (h : g.Linked) (fresh : ⟨g.nextId⟩ ∉ g.links.keys) {output input : PinId}
    (from_known : ∃ o, g.outputPins.get? output = some o) (to_known : ∃ i, g.inputPins.get? input = some i) :
    ({ g with nextId := g.nextId + 1, links := g.linksWith output input } : Graph).rewired.Linked := by
  refine linked_rewired ?_ ?_ (single_linksWith h fresh output input)
  · intro k l hl
    rcases (get?_linksWith fresh).1 hl with ⟨rfl, rfl⟩ | ⟨old, -⟩
    · rfl
    · exact h.linkKey k l old
  · intro k l hl
    rcases (get?_linksWith fresh).1 hl with ⟨rfl, rfl⟩ | ⟨old, -⟩
    · exact ⟨from_known, to_known⟩
    · exact h.ends k l old

end FrameGraph.Graph
