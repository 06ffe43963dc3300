/-
  FrameGraph.Proofs.Store.Joining: what an accepted link does to a graph, and what it leaves
  alone.

  The two nodes adapt, which changes kinds and pin types on them and nothing else (`Recast`).
  Then the links that enter the same input or no longer fit go, and the new link is appended
  (`entries_joined`). Nothing has to be known of the nodes but that the graph is sound: that the
  link was accepted says that adapting worked.
-/

import FrameGraph.Proofs.Store.Runs

namespace FrameGraph.Graph

/-! ## Kinds and types on some nodes -/

/-- `g'` is `g` with other kinds on some nodes and other types on their pins. -/
def Recast (nodes : List NodeId) (g g' : Graph) : Prop :=
  ∃ kind input output, g' = g.recast kind input output
    ∧ (∀ id, id ∉ nodes → ∀ k, kind id k = k)
    ∧ (∀ pin p, g.inputPins.get? pin = some p → p.node ∉ nodes → input pin p.type = p.type)
    ∧ ∀ pin p, g.outputPins.get? pin = some p → p.node ∉ nodes → output pin p.type = p.type

theorem recast_reshaped {g : Graph} (listed : g.Listed) {id : NodeId} {n : Node}
    (hn : g.nodes.get? id = some n) (s : Shape) : Recast [id] g (g.reshaped id n s) := by
  refine ⟨_, _, _, rfl, fun k away old => ?_, fun pin p hp away => ?_, fun pin p hp away => ?_⟩
  · exact if_neg (by simpa using away)
  · refine setTypes_of_not_mem (fun owned => away ?_) _ _
    obtain ⟨p', hp', owner⟩ := listed.inputListed id n hn pin owned
    cases hp.symm.trans hp'
    simp [owner]
  · refine setTypes_of_not_mem (fun owned => away ?_) _ _
    obtain ⟨p', hp', owner⟩ := listed.outputListed id n hn pin owned
    cases hp.symm.trans hp'
    simp [owner]

theorem Recast.trans {nodes nodes' : List NodeId} {g g' g'' : Graph} (r : Recast nodes g g')
    (r' : Recast nodes' g' g'') : Recast (nodes ++ nodes') g g'' := by
  obtain ⟨kind, input, output, rfl, kinds, inputs, outputs⟩ := r
  obtain ⟨kind', input', output', rfl, kinds', inputs', outputs'⟩ := r'
  refine ⟨_, _, _, recast_recast .., fun id away k => ?_, fun pin p hp away => ?_, fun pin p hp away => ?_⟩
  all_goals rw [List.mem_append, not_or] at away
  · rw [kinds id away.1, kinds' id away.2]
  · have unchanged := inputs pin p hp away.1
    have after := inputs' pin _ (repainted_input.2 ⟨p, hp, rfl⟩) away.2
    exact after.trans unchanged
  · have unchanged := outputs pin p hp away.1
    have after := outputs' pin _ (repainted_output.2 ⟨p, hp, rfl⟩) away.2
    exact after.trans unchanged

theorem Recast.perm {nodes nodes' : List NodeId} {g g' : Graph} (r : Recast nodes g g')
    (same : ∀ id ∈ nodes, id ∈ nodes') : Recast nodes' g g' := by
  obtain ⟨kind, input, output, eq, kinds, inputs, outputs⟩ := r
  exact ⟨kind, input, output, eq, fun id away => kinds id fun h => away (same id h),
    fun pin p hp away => inputs pin p hp fun h => away (same _ h),
    fun pin p hp away => outputs pin p hp fun h => away (same _ h)⟩

section Recast

variable {ends : List NodeId} {g g' : Graph} (r : Recast ends g g')
include r

theorem Recast.numbered (h : g.Numbered) : g'.Numbered := by
  obtain ⟨_, _, _, rfl, -⟩ := r
  exact h.repainted

theorem Recast.listed (h : g.Listed) : g'.Listed := by
  obtain ⟨_, _, _, rfl, -⟩ := r
  exact h.repainted (keeps_recast ..)

theorem Recast.linked (h : g.Linked) : g'.Linked := by
  obtain ⟨_, _, _, rfl, -⟩ := r
  exact h.repainted (keeps_recast ..)

theorem Recast.links : g'.links = g.links := by
  obtain ⟨_, _, _, rfl, -⟩ := r
  rfl

theorem Recast.heading : g'.nextId = g.nextId ∧ g'.id = g.id ∧ g'.name = g.name ∧ g'.terminal = g.terminal := by
  obtain ⟨_, _, _, rfl, -⟩ := r
  exact ⟨rfl, rfl, rfl, rfl⟩

theorem Recast.nodes : g'.nodes.keys = g.nodes.keys ∧ ∀ id n, g.nodes.get? id = some n →
    ∃ kind, g'.nodes.get? id = some { n with kind } ∧ (id ∉ ends → kind = n.kind) := by
  obtain ⟨kind, _, _, rfl, away, -⟩ := r
  refine ⟨Table.keys_mapWithKey .., fun id n hn => ?_⟩
  exact ⟨kind id n.kind, repainted_node.2 ⟨n, hn, rfl⟩, fun other => away id other _⟩

theorem Recast.inputs : g'.inputPins.keys = g.inputPins.keys ∧ ∀ pin p, g.inputPins.get? pin = some p →
    ∃ type, g'.inputPins.get? pin = some { p with type } ∧ (p.node ∉ ends → type = p.type) := by
  obtain ⟨_, input, _, rfl, -, away, -⟩ := r
  refine ⟨Table.keys_mapWithKey .., fun pin p hp => ?_⟩
  exact ⟨input pin p.type, repainted_input.2 ⟨p, hp, rfl⟩, away pin p hp⟩

theorem Recast.outputs : g'.outputPins.keys = g.outputPins.keys ∧ ∀ pin p, g.outputPins.get? pin = some p →
    ∃ type, g'.outputPins.get? pin = some { p with type } ∧ (p.node ∉ ends → type = p.type) := by
  obtain ⟨_, _, output, rfl, -, -, away⟩ := r
  refine ⟨Table.keys_mapWithKey .., fun pin p hp => ?_⟩
  exact ⟨output pin p.type, repainted_output.2 ⟨p, hp, rfl⟩, away pin p hp⟩

theorem Recast.input_away {pin : PinId} {p : InputPin} (away : p.node ∉ ends) :
    g'.inputPins.get? pin = some p ↔ g.inputPins.get? pin = some p := by
  obtain ⟨_, input, _, rfl, -, same, -⟩ := r
  rw [recast, repainted_input]
  constructor
  · intro stored
    obtain ⟨old, hold, rfl⟩ := stored
    rwa [same pin old hold away]
  · intro hp
    exact ⟨p, hp, by rw [same pin p hp away]⟩

theorem Recast.output_away {pin : PinId} {p : OutputPin} (away : p.node ∉ ends) :
    g'.outputPins.get? pin = some p ↔ g.outputPins.get? pin = some p := by
  obtain ⟨_, _, output, rfl, -, -, same⟩ := r
  rw [recast, repainted_output]
  constructor
  · intro stored
    obtain ⟨old, hold, rfl⟩ := stored
    rwa [same pin old hold away]
  · intro hp
    exact ⟨p, hp, by rw [same pin p hp away]⟩

end Recast

theorem updateShape_recast {g g' : Graph} (listed : g.Listed) {id : NodeId} {f : Shape → Except Fault Shape}
    (h : g.updateShape id f = .ok g') : Recast [id] g g' := by
  obtain ⟨s, read, h⟩ := bind_eq_ok_iff.1 h
  obtain ⟨s', made, h⟩ := bind_eq_ok_iff.1 h
  cases hn : g.nodes.get? id with
  | none =>
    simp only [shape, getNode, hn] at read
    cases read
  | some n =>
    cases (setShape_eq listed hn s').symm.trans h
    exact recast_reshaped listed hn s'

theorem getOutput_eq_ok {g : Graph} {pin : PinId} {p : OutputPin} :
    g.getOutput pin = .ok p ↔ g.outputPins.get? pin = some p := by
  unfold getOutput
  cases g.outputPins.get? pin <;> simp

theorem getInput_eq_ok {g : Graph} {pin : PinId} {p : InputPin} :
    g.getInput pin = .ok p ↔ g.inputPins.get? pin = some p := by
  unfold getInput
  cases g.inputPins.get? pin <;> simp

theorem adapt_recast {g adapted : Graph} (listed : g.Listed) {output input : PinId} {source : OutputPin}
    {target : InputPin} (ho : g.outputPins.get? output = some source)
    (hi : g.inputPins.get? input = some target) (h : g.adapt output input = .ok adapted) :
    Recast [source.node, target.node] g adapted := by
  obtain ⟨_, left, h⟩ := bind_eq_ok_iff.1 h
  cases ho.symm.trans (getOutput_eq_ok.1 left)
  obtain ⟨_, entered, h⟩ := bind_eq_ok_iff.1 h
  cases hi.symm.trans (getInput_eq_ok.1 entered)
  obtain ⟨index, -, h⟩ := bind_eq_ok_iff.1 h
  obtain ⟨entered, enters, h⟩ := bind_eq_ok_iff.1 h
  obtain ⟨index', -, h⟩ := bind_eq_ok_iff.1 h
  obtain ⟨target', -, leaves⟩ := bind_eq_ok_iff.1 h
  have first := updateShape_recast listed enters
  exact (first.trans (updateShape_recast (first.listed listed) leaves)).perm fun id hid => by simpa [or_comm] using hid

/-! ## Which links go -/

/-- A new link into `input` drives out the link that entered there, and those on the two nodes
whose ends, by the types in `g'`, no longer match. -/
def DrivenOut (g g' : Graph) (nodes : List NodeId) (input : PinId) (l : Link) : Prop :=
  l.input = input ∨ (∃ pin ∈ g.pinsAt nodes, l.touches pin = true) ∧ g'.fits l = false

instance (g g' : Graph) (nodes : List NodeId) (input : PinId) (l : Link) :
    Decidable (g.DrivenOut g' nodes input l) :=
  inferInstanceAs (Decidable (_ ∨ _))

theorem fits_rewired (g : Graph) (l : Link) : g.rewired.fits l = g.fits l := by
  simp only [fits, rewired, Table.get?_mapWithKey]
  cases g.outputPins.get? l.output <;> cases g.inputPins.get? l.input <;> rfl

theorem mem_stale_iff {g : Graph} (h : g.Linked) {nodes : List NodeId} {k : LinkId} :
    k ∈ g.stale nodes ↔ ∃ l, g.links.get? k = some l
      ∧ (∃ pin ∈ g.pinsAt nodes, l.touches pin = true) ∧ g.fits l = false := by
  simp only [stale, linksTouching, List.mem_map, List.mem_filter, List.any_eq_true, Bool.not_eq_true',
    Table.mem_values_iff]
  constructor
  · intro listed
    obtain ⟨l, ⟨⟨⟨k', hl⟩, touched⟩, unfit⟩, rfl⟩ := listed
    exact ⟨l, h.linkKey k' l hl ▸ hl, touched, unfit⟩
  · intro linked
    obtain ⟨l, hl, touched, unfit⟩ := linked
    exact ⟨l, ⟨⟨⟨k, hl⟩, touched⟩, unfit⟩, h.linkKey k l hl⟩

/-- Where every link is typed, none is stale. -/
theorem stale_nil {g : Graph} (linked : g.Linked) (typed : g.Typed) (nodes : List NodeId) : g.stale nodes = [] := by
  refine List.eq_nil_iff_forall_not_mem.2 fun k listed => ?_
  obtain ⟨l, hl, -, unfit⟩ := (mem_stale_iff linked).1 listed
  obtain ⟨⟨o, ho⟩, i, hi⟩ := linked.ends k l hl
  rw [(fits_iff ho hi).2 (typed k l o i hl ho hi)] at unfit
  cases unfit

/-- A graph with a new link in place of the one that entered the same input. -/
def linked (g : Graph) (output input : PinId) : Graph :=
  ({ g with nextId := g.nextId + 1, links := g.linksWith output input } : Graph).rewired

/-- A linked graph without its stale links. -/
def cleaned (g : Graph) (nodes : List NodeId) : Graph :=
  ({ g with links := g.links.eraseAll (g.stale nodes) } : Graph).rewired

theorem cleaned_eq_self {g : Graph} (linked : g.Linked) (typed : g.Typed) (nodes : List NodeId) :
    g.cleaned nodes = g := by
  rw [cleaned, stale_nil linked typed]
  exact linked.rewired_eq

theorem fits_linked (g : Graph) (output input : PinId) (l : Link) :
    (g.linked output input).fits l = g.fits l := fits_rewired ..

theorem fits_cleaned (g : Graph) (nodes : List NodeId) (l : Link) :
    (g.cleaned nodes).fits l = g.fits l := fits_rewired ..

/-- A new link comes last. -/
theorem entries_linked {g : Graph} (fresh : ⟨g.nextId⟩ ∉ g.links.keys) (output input : PinId) :
    (g.linked output input).links.entries = (g.links.entries.filter fun e => decide (e.1 ∉ g.replaced input))
      ++ [(⟨g.nextId⟩, ⟨⟨g.nextId⟩, input, output⟩)] := by
  have dead : (⟨g.nextId⟩ : LinkId) ∉ (g.links.eraseAll (g.replaced input)).keys := by
    rw [Table.keys_eraseAll]
    exact fun listed => fresh (List.mem_filter.1 listed).1
  rw [linked, rewired, linksWith, Table.entries_insert_of_new dead, Table.entries_eraseAll]

/-- The links after a new one was made, in order: it comes last and stays, if it fits. -/
theorem entries_joined {g : Graph} (h : g.Linked) (fresh : ⟨g.nextId⟩ ∉ g.links.keys) {output input : PinId}
    (from_known : ∃ o, g.outputPins.get? output = some o) (to_known : ∃ i, g.inputPins.get? input = some i)
    (nodes : List NodeId) (match_ends : g.fits ⟨⟨g.nextId⟩, input, output⟩ = true) :
    ((g.linked output input).cleaned nodes).links.entries
      = (g.links.entries.filter fun e => decide (¬ g.DrivenOut g nodes input e.2))
        ++ [(⟨g.nextId⟩, ⟨⟨g.nextId⟩, input, output⟩)] := by
  have linked : (g.linked output input).Linked := linked_link h fresh from_known to_known
  have stays : (⟨g.nextId⟩ : LinkId) ∉ (g.linked output input).stale nodes := by
    intro listed
    obtain ⟨l, hl, -, unfit⟩ := (mem_stale_iff linked).1 listed
    rcases (get?_linksWith fresh).1 hl with ⟨-, rfl⟩ | ⟨old, -⟩
    · rw [fits_linked, match_ends] at unfit
      cases unfit
    · exact fresh (Table.mem_keys_of_get? old)
  have rest : ∀ e ∈ g.links.entries,
      (decide (e.1 ∉ (g.linked output input).stale nodes) && decide (e.1 ∉ g.replaced input))
        = decide (¬ g.DrivenOut g nodes input e.2) := by
    intro e he
    obtain ⟨k, l⟩ := e
    have hl := Table.get?_of_mem he
    have replaced : k ∈ g.replaced input ↔ l.input = input := by
      rw [mem_replaced_iff h, hl]
      simp
    have stale (kept : k ∉ g.replaced input) : k ∈ (g.linked output input).stale nodes
        ↔ (∃ pin ∈ g.pinsAt nodes, l.touches pin = true) ∧ g.fits l = false := by
      have hl' : (g.linked output input).links.get? k = some l := (get?_linksWith fresh).2 (.inr ⟨hl, kept⟩)
      rw [mem_stale_iff linked, hl']
      simp only [Option.some.injEq, exists_eq_left', fits_linked]
      rfl
    by_cases enters : k ∈ g.replaced input
    · simp [DrivenOut, replaced.1 enters, enters]
    · simp [DrivenOut, stale enters, mt replaced.2 enters, enters]
  rw [cleaned]
  simp only [rewired, Table.entries_eraseAll]
  rw [entries_linked fresh, List.filter_append, List.filter_filter, List.filter_congr rest]
  simp [stays]

/-! ## An accepted link -/

theorem connect_ends {g : Graph} {output input : PinId} {out : Outcome (Except GraphError LinkId)} {l : LinkId}
    (connected : g.connect output input = .ok out) (made : out.result = .ok l) :
    ∃ source target, g.outputPins.get? output = some source ∧ g.inputPins.get? input = some target := by
  unfold connect at connected
  split at connected
  · cases connected
    cases made
  · cases connected
    cases made
  · rename_i source target ho hi
    exact ⟨source, target, ho, hi⟩

/-- Once both ends have adapted, the types that they then have decide what becomes of a link. -/
theorem connect_adapted {g : Graph} (h : g.Sound) {output input : PinId} {source : OutputPin} {target : InputPin}
    (ho : g.outputPins.get? output = some source) (hi : g.inputPins.get? input = some target)
    {adapted : Graph} (adapts : g.adapt output input = .ok adapted) {o : OutputPin} {i : InputPin}
    (ho' : adapted.outputPins.get? output = some o) (hi' : adapted.inputPins.get? input = some i) :
    (o.type.compatible i.type = true → ∃ events, g.connect output input
        = .ok ⟨(adapted.linked output input).cleaned [source.node, target.node], events, .ok ⟨adapted.nextId⟩⟩)
      ∧ (o.type.compatible i.type = false → ∀ out, g.connect output input = .ok out →
        out.result = .error (.typeMismatch output input o.type i.type)) := by
  obtain ⟨n, hn, -⟩ := h.outputOwner output source ho
  obtain ⟨m, hm, -⟩ := h.inputOwner input target hi
  simp only [connect, ho, hi, shape_eq h.toListed hn, shape_eq h.toListed hm, adapts, getOutput, getInput, ho', hi',
    bind, Except.bind]
  refine ⟨fun fit => ?_, fun unfit out connected => ?_⟩
  · have retyped := adapt_recast h.toListed ho hi adapts
    have linked := retyped.linked h.toLinked
    have fresh := (retyped.numbered h.toNumbered).link_fresh
    have known : ∀ id ∈ [source.node, target.node], ∃ n, (adapted.linked output input).nodes.get? id = some n := by
      obtain ⟨_, hn', -⟩ := retyped.nodes.2 _ n hn
      obtain ⟨_, hm', -⟩ := retyped.nodes.2 _ m hm
      simp only [List.forall_mem_cons]
      exact ⟨⟨_, hn'⟩, ⟨_, hm'⟩, List.forall_mem_nil _⟩
    obtain ⟨events, cleaned⟩ := revalidate_eq (linked_link linked fresh ⟨o, ho'⟩ ⟨i, hi'⟩) known
    have named : (adapted.link output input i.type).result = ⟨adapted.nextId⟩ :=
      congrArg LinkId.mk (congrArg Graph.nextId (disconnectAll_graph (fun _ => []) (adapted.replaced input) linked) :)
    rw [if_pos fit, link_graph linked fresh, cleaned, named]
    exact ⟨_, rfl⟩
  · rw [unfit] at connected
    simp only [Bool.false_eq_true, if_false] at connected
    obtain ⟨_, -, connected⟩ := bind_eq_ok_iff.1 connected
    obtain ⟨_, -, connected⟩ := bind_eq_ok_iff.1 connected
    cases connected
    rfl

/-- A link that was accepted: the two nodes adapted, the link was made and stale ones removed. -/
theorem connect_eq {g : Graph} (h : g.Sound) {output input : PinId} {source : OutputPin} {target : InputPin}
    (ho : g.outputPins.get? output = some source) (hi : g.inputPins.get? input = some target)
    {out : Outcome (Except GraphError LinkId)} {l : LinkId} (connected : g.connect output input = .ok out)
    (made : out.result = .ok l) :
    ∃ adapted, Recast [source.node, target.node] g adapted
      ∧ adapted.fits ⟨⟨adapted.nextId⟩, input, output⟩ = true ∧ l = ⟨adapted.nextId⟩
      ∧ out.graph = (adapted.linked output input).cleaned [source.node, target.node] := by
  have steps := connected
  simp only [connect, ho, hi] at steps
  obtain ⟨_, -, steps⟩ := bind_eq_ok_iff.1 steps
  obtain ⟨_, -, steps⟩ := bind_eq_ok_iff.1 steps
  obtain ⟨adapted, adapts, steps⟩ := bind_eq_ok_iff.1 steps
  obtain ⟨o, left, steps⟩ := bind_eq_ok_iff.1 steps
  obtain ⟨i, entered, -⟩ := bind_eq_ok_iff.1 steps
  have ho' := getOutput_eq_ok.1 left
  have hi' := getInput_eq_ok.1 entered
  obtain ⟨accepted, refused⟩ := connect_adapted h ho hi adapts ho' hi'
  cases fit : o.type.compatible i.type with
  | true =>
    obtain ⟨events, eq⟩ := accepted fit
    cases eq.symm.trans connected
    cases made
    exact ⟨adapted, adapt_recast h.toListed ho hi adapts, (fits_iff ho' hi').2 (compatible_iff.1 fit), rfl, rfl⟩
  | false =>
    rw [refused fit out connected] at made
    cases made

/-! ## What changes and what stays -/

/-- The output that an input remembers. -/
def remembers (g : Graph) (pin : PinId) : Option PinId := (g.inputPins.get? pin).bind InputPin.connection

/-- `g'` is what a link from `output` to `input`, named `l`, makes of `g`, where `ends` own the two. -/
structure Joined (g : Graph) (ends : List NodeId) (output input : PinId) (l : LinkId) (g' : Graph) : Prop where
  name : l = ⟨g.nextId⟩ ∧ g'.nextId = g.nextId + 1
  links : g'.links.entries = (g.links.entries.filter fun e => decide (¬ g.DrivenOut g' ends input e.2))
    ++ [(l, ⟨l, input, output⟩)]
  fits : g'.fits ⟨l, input, output⟩ = true
  entered : g'.remembers input = some output
  forgets : ∀ k l, g.links.get? k = some l → g.DrivenOut g' ends input l → l.input ≠ input →
    g'.remembers l.input = none
  recalls : ∀ pin, pin ≠ input → (∀ k l, g.links.get? k = some l → l.input = pin → ¬ g.DrivenOut g' ends input l) →
    g'.remembers pin = g.remembers pin
  nodes : g'.nodes.keys = g.nodes.keys ∧ ∀ id n, g.nodes.get? id = some n →
    ∃ kind, g'.nodes.get? id = some { n with kind } ∧ (id ∉ ends → kind = n.kind)
  inputs : g'.inputPins.keys = g.inputPins.keys ∧ ∀ pin p, g.inputPins.get? pin = some p →
    ∃ type, g'.inputPins.get? pin = some { p with type, connection := g'.remembers pin }
      ∧ (p.node ∉ ends → type = p.type)
  outputs : g'.outputPins.keys = g.outputPins.keys ∧ ∀ pin p, g.outputPins.get? pin = some p →
    ∃ type, g'.outputPins.get? pin = some { p with type } ∧ (p.node ∉ ends → type = p.type)
  heading : g'.id = g.id ∧ g'.name = g.name ∧ g'.terminal = g.terminal

theorem rewired_remembers {g : Graph} {pin : PinId} {p : InputPin} (hp : g.inputPins.get? pin = some p) :
    g.rewired.inputPins.get? pin = some { p with connection := g.rewired.remembers pin } := by
  have hp' : g.rewired.inputPins.get? pin = some { p with connection := fedBy g.links pin } :=
    rewired_inputPins_get?.2 ⟨p, hp, rfl⟩
  rw [remembers, hp']
  rfl

theorem input_cleaned {g : Graph} {pin : PinId} {p : InputPin} (hp : g.inputPins.get? pin = some p)
    (nodes : List NodeId) :
    (g.cleaned nodes).inputPins.get? pin = some { p with connection := (g.cleaned nodes).remembers pin } :=
  @rewired_remembers { g with links := g.links.eraseAll (g.stale nodes) } pin p hp

theorem keys_joined (g : Graph) (output input : PinId) (nodes : List NodeId) :
    ((g.linked output input).cleaned nodes).inputPins.keys = g.inputPins.keys := by
  simp only [cleaned, linked, rewired, Table.keys_mapWithKey]

theorem input_joined {g : Graph} {pin : PinId} {p : InputPin} (hp : g.inputPins.get? pin = some p)
    (output input : PinId) (nodes : List NodeId) :
    ((g.linked output input).cleaned nodes).inputPins.get? pin
      = some { p with connection := ((g.linked output input).cleaned nodes).remembers pin } := by
  have once : (g.linked output input).inputPins.get? pin = some _ := rewired_inputPins_get?.2 ⟨p, hp, rfl⟩
  exact input_cleaned once nodes

theorem Linked.remembers_iff {g : Graph} (h : g.Linked) {pin o : PinId} :
    g.remembers pin = some o ↔ ∃ k l, g.links.get? k = some l ∧ l.input = pin ∧ l.output = o := by
  rw [remembers, Option.bind_eq_some_iff]
  constructor
  · intro known
    obtain ⟨p, hp, connected⟩ := known
    exact (h.remembered pin p o hp).1 connected
  · intro linked
    obtain ⟨k, l, hl, rfl, rfl⟩ := linked
    obtain ⟨p, hp⟩ := (h.ends k l hl).2
    exact ⟨p, hp, (h.remembered _ p _ hp).2 ⟨k, l, hl, rfl, rfl⟩⟩

/-- Graphs with the same links into a pin remember the same of it. -/
theorem Linked.remembers_congr {g g' : Graph} (h : g.Linked) (h' : g'.Linked) {pin : PinId}
    (same : ∀ k l, l.input = pin → (g'.links.get? k = some l ↔ g.links.get? k = some l)) :
    g'.remembers pin = g.remembers pin := by
  refine Option.ext fun o => ?_
  rw [h.remembers_iff, h'.remembers_iff]
  constructor
  · intro linked
    obtain ⟨k, l, hl, enters, leaves⟩ := linked
    exact ⟨k, l, (same k l enters).1 hl, enters, leaves⟩
  · intro linked
    obtain ⟨k, l, hl, enters, leaves⟩ := linked
    exact ⟨k, l, (same k l enters).2 hl, enters, leaves⟩

theorem Linked.remembers_none {g : Graph} (h : g.Linked) {pin : PinId}
    (free : ∀ k l, g.links.get? k = some l → l.input ≠ pin) : g.remembers pin = none := by
  refine Option.eq_none_iff_forall_ne_some.2 fun o remembered => ?_
  obtain ⟨k, l, hl, enters, -⟩ := h.remembers_iff.1 remembered
  exact free k l hl enters

section Memories

variable {g g' : Graph} (h : g.Linked) (h' : g'.Linked) {input output : PinId} {new : LinkId} {gone : Link → Prop}
  (links : ∀ k l, g'.links.get? k = some l ↔ g.links.get? k = some l ∧ ¬ gone l ∨ k = new ∧ l = ⟨new, input, output⟩)
include h' links

theorem remembers_new : g'.remembers input = some output :=
  h'.remembers_iff.2 ⟨new, _, (links _ _).2 (.inr ⟨rfl, rfl⟩), rfl, rfl⟩

include h

theorem remembers_gone {k : LinkId} {l : Link} (hl : g.links.get? k = some l) (leaves : gone l)
    (away : l.input ≠ input) : g'.remembers l.input = none := by
  refine h'.remembers_none fun k' l' hl' enters => ?_
  rcases (links k' l').1 hl' with ⟨old, stays⟩ | ⟨-, rfl⟩
  · cases h.single k l k' l' hl old enters.symm
    cases hl.symm.trans old
    exact stays leaves
  · exact away enters.symm

theorem remembers_kept {pin : PinId} (away : pin ≠ input)
    (stay : ∀ k l, g.links.get? k = some l → l.input = pin → ¬ gone l) : g'.remembers pin = g.remembers pin := by
  refine h.remembers_congr h' fun k l enters => (links k l).trans ?_
  constructor
  · intro either
    rcases either with ⟨old, -⟩ | ⟨-, rfl⟩
    · exact old
    · exact absurd enters.symm away
  · intro old
    exact .inl ⟨old, stay k l old enters⟩

end Memories

theorem Recast.joined {g adapted : Graph} {ends : List NodeId} (r : Recast ends g adapted) (h : g.Sound)
    {output input : PinId} (from_known : ∃ o, adapted.outputPins.get? output = some o)
    (to_known : ∃ i, adapted.inputPins.get? input = some i)
    (match_ends : adapted.fits ⟨⟨adapted.nextId⟩, input, output⟩ = true) :
    g.Joined ends output input ⟨adapted.nextId⟩ ((adapted.linked output input).cleaned ends) := by
  have linked := r.linked h.toLinked
  have fresh := (r.numbered h.toNumbered).link_fresh
  have entries := entries_joined linked fresh from_known to_known ends match_ends
  have linked' : ((adapted.linked output input).cleaned ends).Linked :=
    (linked_link linked fresh from_known to_known).without _
  have driven : ∀ l, adapted.DrivenOut adapted ends input l
      ↔ g.DrivenOut ((adapted.linked output input).cleaned ends) ends input l := by
    obtain ⟨_, _, _, rfl, -⟩ := r
    intro l
    rw [DrivenOut, DrivenOut, pinsAt_recast, fits_cleaned, fits_linked]
  simp only [driven, r.links] at entries
  have found : ∀ k l, ((adapted.linked output input).cleaned ends).links.get? k = some l
      ↔ g.links.get? k = some l ∧ ¬ g.DrivenOut ((adapted.linked output input).cleaned ends) ends input l
        ∨ k = ⟨adapted.nextId⟩ ∧ l = ⟨⟨adapted.nextId⟩, input, output⟩ := by
    intro k l
    rw [Table.get?_eq_some_iff, entries, Table.get?_eq_some_iff, List.mem_append, List.mem_filter,
      decide_eq_true_iff, List.mem_singleton, Prod.mk.injEq]
  refine {
    name := ⟨congrArg LinkId.mk r.heading.1, congrArg (· + 1) r.heading.1⟩
    links := entries
    fits := by rw [fits_cleaned, fits_linked, match_ends]
    entered := remembers_new linked' found
    forgets := fun k l => remembers_gone h.toLinked linked' found
    recalls := fun pin => remembers_kept h.toLinked linked' found
    nodes := r.nodes
    inputs := ⟨(keys_joined ..).trans r.inputs.1, fun pin p hp => ?_⟩
    outputs := r.outputs
    heading := r.heading.2 }
  obtain ⟨type, hp', away⟩ := r.inputs.2 pin p hp
  exact ⟨type, input_joined hp' output input ends, away⟩

/-- What an accepted link changes, and that nothing else changes. -/
theorem connect_joins {g : Graph} (h : g.Sound) {output input : PinId}
    {out : Outcome (Except GraphError LinkId)} {l : LinkId} (connected : g.connect output input = .ok out)
    (made : out.result = .ok l) :
    ∃ source target, g.outputPins.get? output = some source ∧ g.inputPins.get? input = some target
      ∧ g.Joined [source.node, target.node] output input l out.graph := by
  obtain ⟨source, target, ho, hi⟩ := connect_ends connected made
  obtain ⟨adapted, retyped, match_ends, rfl, eq⟩ := connect_eq h ho hi connected made
  obtain ⟨_, ho', -⟩ := retyped.outputs.2 output source ho
  obtain ⟨_, hi', -⟩ := retyped.inputs.2 input target hi
  rw [eq]
  exact ⟨source, target, ho, hi, retyped.joined h ⟨_, ho'⟩ ⟨_, hi'⟩ match_ends⟩

/-- Two targets in a list, next to a camera. -/
def listedTargets : Except Fault Graph :=
  Edit.run [.addNode (.provider .target) .origin, .addNode (.provider .target) .origin,
    .addNode (.provider .camera) .origin, .addNode (.newConcat (.scalar Base.target)) .origin,
    .connect ⟨1⟩ ⟨7⟩, .connect ⟨3⟩ ⟨8⟩] (.new .zero untitled)

/-- The camera takes the place of the first target and turns the list into one of cameras, which
drives out the second. -/
theorem connect_joins_cameras : ∃ g out, listedTargets = .ok g ∧ g.Sound ∧ g.links.keys = [⟨10⟩, ⟨11⟩]
    ∧ g.connect ⟨5⟩ ⟨7⟩ = .ok out ∧ out.result = .ok ⟨12⟩ ∧ out.graph.links.keys = [⟨12⟩]
    ∧ ∃ source target, g.outputPins.get? ⟨5⟩ = some source ∧ g.inputPins.get? ⟨7⟩ = some target
      ∧ g.Joined [source.node, target.node] ⟨5⟩ ⟨7⟩ ⟨12⟩ out.graph := by
  obtain ⟨g, ran, sound, -⟩ := Start.runs (.new .zero untitled) _
  have before : listedTargets.map (fun g => g.links.keys) = .ok [⟨10⟩, ⟨11⟩] := by decide
  have after : (listedTargets.bind fun g => g.connect ⟨5⟩ ⟨7⟩).map
      (fun out => (out.result, out.graph.links.keys)) = .ok (.ok ⟨12⟩, [⟨12⟩]) := by decide
  rw [listedTargets, ran] at before after
  cases connected : g.connect ⟨5⟩ ⟨7⟩ with
  | error f =>
    simp only [Except.bind, connected] at after
    cases after
  | ok out =>
    simp only [Except.bind, Except.map, connected, Except.ok.injEq, Prod.mk.injEq] at before after
    exact ⟨g, out, ran, sound, before, connected, after.1, after.2, connect_joins sound connected after.1⟩

end FrameGraph.Graph
