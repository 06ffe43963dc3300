/-
  FrameGraph.Proofs.Store.Matching: linking pins whose types match already.

  Both ends of a link to be are asked to adapt even if there is nothing to adapt to, and each kind
  decides by a test of its own. As long as kinds and pins agree, none of these tests fires when the
  type that is met is that of the pin itself (`meetSource_matching`, `meetTarget_matching`), so that
  the two nodes stay as they are (`adapt_matching`). The new link then takes the place of the one
  that fed the input, no other link goes, and if the input was free, removing the new link gives the
  graph back, except for the counter (`session_matches`).
-/

import FrameGraph.Proofs.Store.Agreement
import FrameGraph.Proofs.Store.Joining

namespace FrameGraph

/-! ## Meeting one's own type -/

namespace Shape

variable {s : Shape} {t : PinType}

theorem meetSource_matching (step : s.InStep) (tidy : s.kind.Tidy) {index : Nat}
    (slot : s.inputs[index]? = some t) : s.meetSource index t = .ok s := by
  obtain ⟨kind, inputs, outputs⟩ := s
  obtain rfl : inputs = kind.inputSpecs.map PinSpec.type := step.inputs
  have declared := List.mem_of_getElem? slot
  cases kind with
  | convert fromType toType =>
    obtain rfl : t = fromType := by simpa [Kind.inputSpecs, PinSpec.required] using declared
    simp [meetSource]
  | concat element inputs =>
    obtain ⟨-, -, rfl⟩ : ∃ i, i < inputs ∧ t = element := by
      simpa [Kind.inputSpecs, Kind.concatInput, PinSpec.required, eq_comm] using declared
    simp [meetSource]
  | select element i =>
    obtain rfl : t = element.toArray := by simpa [Kind.inputSpecs, PinSpec.required] using declared
    have same : element.toArray.element = element := by
      cases element
      cases tidy
      rfl
    simp [meetSource, same]
  | render isArray =>
    -- only the eye and the target can switch the mode, and they are in the mode of the pass
    have places : index = 0 ∨ index = 1 ∨ index = 2 ∨ index = 3 := by
      have bound := (List.getElem?_eq_some_iff.1 slot).1
      simp only [Kind.inputSpecs, List.map_cons, List.map_nil, List.length_cons, List.length_nil] at bound
      omega
    rcases places with rfl | rfl | rfl | rfl
    all_goals
      simp only [Kind.inputSpecs, List.map_cons, List.getElem?_cons_succ, List.getElem?_cons_zero,
        Option.some.injEq] at slot
      subst slot
      simp [meetSource, renderBase?, renderEye, renderTarget, PinSpec.required]
  | add type =>
    obtain rfl : t = type := by simpa [Kind.inputSpecs, PinSpec.required] using declared
    simp [meetSource, meetOperand]
  | _ => rfl

theorem meetTarget_matching (step : s.InStep) (slot : t ∈ s.outputs) : s.meetTarget t = .ok s := by
  obtain ⟨kind, inputs, outputs⟩ := s
  obtain rfl : outputs = kind.outputSpecs.map PinSpec.type := step.outputs
  cases kind with
  | convert fromType toType =>
    obtain rfl : t = toType := by simpa [Kind.outputSpecs, PinSpec.required] using slot
    simp [meetTarget]
  | add type =>
    obtain rfl : t = type := by simpa [Kind.outputSpecs, PinSpec.required] using slot
    simp [meetTarget, meetOperand]
  | _ => rfl

end Shape

namespace Graph

variable {g : Graph} {output input : PinId}

/-! ## Shapes of nodes that agree -/

theorem Every.inStep (agree : Every Outline.Agrees g) {id : NodeId} {n : Node} (hn : g.nodes.get? id = some n) :
    (g.shapeAt n).InStep :=
  outline_shape g n ▸ (agree id n hn).inStep

theorem Every.tidy (agree : Every Outline.Agrees g) {id : NodeId} {n : Node} (hn : g.nodes.get? id = some n) :
    n.kind.Tidy :=
  (agree id n hn).tidy

theorem slot_shapeAt {n : Node} {index : Nat} {pin : PinId} {p : InputPin} (place : n.inputs[index]? = some pin)
    (hp : g.inputPins.get? pin = some p) : (g.shapeAt n).inputs[index]? = some p.type := by
  simp [shapeAt, place, inputTypeAt, hp]

theorem mem_outputs_shapeAt {n : Node} {pin : PinId} {p : OutputPin} (listed : pin ∈ n.outputs)
    (hp : g.outputPins.get? pin = some p) : p.type ∈ (g.shapeAt n).outputs :=
  List.mem_map.2 ⟨pin, listed, by simp [outputTypeAt, hp]⟩

/-- Two nodes have nothing to adapt if the types at the ends of the link are the same. -/
theorem adapt_matching (h : g.Listed) (agree : Every Outline.Agrees g) {source : OutputPin} {target : InputPin}
    (ho : g.outputPins.get? output = some source) (hi : g.inputPins.get? input = some target)
    (same : source.type = target.type) : g.adapt output input = .ok g := by
  obtain ⟨n, hn, left⟩ := h.outputOwner output source ho
  obtain ⟨m, hm, entered⟩ := h.inputOwner input target hi
  obtain ⟨index, place, listed⟩ := pinIndex_input hm entered
  have stays := reshaped_shapeAt hm
  have enters : (g.shapeAt m).meetSource index source.type = .ok (g.shapeAt m) :=
    Shape.meetSource_matching (agree.inStep hm) (agree.tidy hm) (same ▸ slot_shapeAt listed hi)
  have leaves : (g.shapeAt n).meetTarget target.type = .ok (g.shapeAt n) :=
    Shape.meetTarget_matching (agree.inStep hn) (same ▸ mem_outputs_shapeAt left ho)
  have adapted := adapt_eq h ho hi hm place enters (n := n) (t := g.shapeAt n) (by rw [stays]; exact hn) left
    (by rw [stays]; exact hi) (by rw [stays]; exact leaves)
  rw [adapted, stays, reshaped_shapeAt hn]

/-! ## The link table and nothing else -/

theorem typed_linked (typed : g.Typed) (fresh : (⟨g.nextId⟩ : LinkId) ∉ g.links.keys)
    (match_ends : g.fits ⟨⟨g.nextId⟩, input, output⟩ = true) : (g.linked output input).Typed := by
  refine Typed.rewired fun k l o i hl ho hi => ?_
  rcases (get?_linksWith fresh).1 hl with ⟨-, rfl⟩ | ⟨old, -⟩
  · exact (fits_iff ho hi).1 match_ends
  · exact typed k l o i old ho hi

section Linked

variable (h : g.Linked) (fresh : (⟨g.nextId⟩ : LinkId) ∉ g.links.keys)
include h fresh

theorem inputPins_linked (output input : PinId) : (g.linked output input).inputPins
    = g.inputPins.modify input fun p => { p with connection := some output } := by
  simp only [linked, rewired, Table.modify]
  refine Table.mapWithKey_congr fun k p hp => ?_
  rw [fedBy_linksWith h fresh]
  split
  · rfl
  · rw [← h.connection_eq (Table.get?_of_mem hp)]

/-- The link that a free input got can be taken away again. -/
theorem disconnect_linked (from_known : ∃ o, g.outputPins.get? output = some o) {target : InputPin}
    (hi : g.inputPins.get? input = some target) (free : target.connection = none) :
    ((g.linked output input).disconnect ⟨g.nextId⟩).graph = { g with nextId := g.nextId + 1 } := by
  have unfed : g.replaced input = [] := by
    refine List.eq_nil_iff_forall_not_mem.2 fun k replaced => ?_
    obtain ⟨l, hl, enters⟩ := (mem_replaced_iff h).1 replaced
    have remembered := (h.remembered input target l.output hi).2 ⟨k, l, hl, enters, rfl⟩
    rw [free] at remembered
    cases remembered
  have before : (g.linksWith output input).erase ⟨g.nextId⟩ = g.links := by
    rw [linksWith, unfed]
    exact Table.erase_insert fresh _
  have counted : ({ g with nextId := g.nextId + 1 } : Graph).Linked := ⟨h.linkKey, h.ends, h.single, h.remembered⟩
  have removed := disconnect_graph (linked_link h fresh from_known ⟨target, hi⟩) ⟨g.nextId⟩
  refine removed.trans ?_
  have links : (({ g with nextId := g.nextId + 1, links := g.linksWith output input } : Graph).rewired.links.erase
      ⟨g.nextId⟩) = g.links := before
  rw [links]
  exact (rewired_absorbs { g with nextId := g.nextId + 1 } _ _).trans counted.rewired_eq

theorem links_linked (output input : PinId) : (g.linked output input).links.entries
    = (g.links.entries.filter fun e => decide (e.2.input ≠ input)) ++ [(⟨g.nextId⟩, ⟨⟨g.nextId⟩, input, output⟩)] := by
  have rest : ∀ e ∈ g.links.entries, decide (e.1 ∉ g.replaced input) = decide (e.2.input ≠ input) := by
    intro e he
    have replaced : e.1 ∈ g.replaced input ↔ e.2.input = input := by
      rw [mem_replaced_iff h, Table.get?_of_mem he]
      simp
    simp [replaced]
  rw [entries_linked fresh, List.filter_congr rest]

end Linked

/-! ## Pins that match -/

/-- However a new graph was edited with fresh kinds, pins of one type can be joined. The link takes
the place of the one that fed the input, and if there was none, it can be taken away again without
a trace but for the number that it had. -/
theorem session_matches {id : Uuid} {name : String} {edits : List Edit} (fresh : ∀ e ∈ edits, e.Within freshKinds)
    (ran : Edit.run edits (.new id name) = .ok g) {source : OutputPin} {target : InputPin}
    (ho : g.outputPins.get? output = some source) (hi : g.inputPins.get? input = some target)
    (same : source.type = target.type) (typed : source.type.isUntyped = false) :
    ∃ out, g.connect output input = .ok out ∧ out.result = .ok ⟨g.nextId⟩
      ∧ out.graph = { g with
          nextId := g.nextId + 1
          inputPins := g.inputPins.modify input fun p => { p with connection := some output }
          links := out.graph.links }
      ∧ out.graph.links.entries = (g.links.entries.filter fun e => decide (e.2.input ≠ input))
          ++ [(⟨g.nextId⟩, ⟨⟨g.nextId⟩, input, output⟩)]
      ∧ (target.connection = none → (out.graph.disconnect ⟨g.nextId⟩).graph = { g with nextId := g.nextId + 1 }) := by
  obtain ⟨g', ran', sound, every⟩ := run_sound fresh (sound_new id name) every_new
  cases ran.symm.trans ran'
  have agree := every _ Outline.durable_agrees every_new
  have linked := sound.toLinked
  have new := sound.link_fresh
  have match_ends : g.fits ⟨⟨g.nextId⟩, input, output⟩ = true := (fits_iff ho hi).2 ⟨same, typed⟩
  have adapts := adapt_matching sound.toListed agree ho hi same
  obtain ⟨events, eq⟩ := (connect_adapted sound ho hi adapts ho hi).1 (compatible_iff.2 ⟨same, typed⟩)
  have after : (g.linked output input).Linked := linked_link linked new ⟨_, ho⟩ ⟨_, hi⟩
  rw [cleaned_eq_self after (typed_linked sound.typed new match_ends)] at eq
  refine ⟨_, eq, rfl, ?_, links_linked linked new output input, disconnect_linked linked new ⟨_, ho⟩ hi⟩
  rw [← inputPins_linked linked new]
  rfl

/-- A target in a list that has room for another one. -/
def oneListedTarget : List Edit :=
  [.addNode (.provider .target) .origin, .addNode (.newConcat .untyped) .origin, .connect ⟨1⟩ ⟨3⟩]

/-- The same target can be put into the list once more and taken out again. -/
theorem session_matches_target : ∃ g source target, (∀ e ∈ oneListedTarget, e.Within freshKinds)
    ∧ Edit.run oneListedTarget (.new .zero untitled) = .ok g
    ∧ g.outputPins.get? ⟨1⟩ = some source ∧ g.inputPins.get? ⟨4⟩ = some target
    ∧ source.type = target.type ∧ source.type.isUntyped = false ∧ target.connection = none
    ∧ ∃ out, g.connect ⟨1⟩ ⟨4⟩ = .ok out ∧ out.result = .ok ⟨7⟩ ∧ out.graph.links.keys = [⟨6⟩, ⟨7⟩]
      ∧ (out.graph.disconnect ⟨7⟩).graph = { g with nextId := 8 } := by
  have fresh : ∀ e ∈ oneListedTarget, e.Within freshKinds := by
    simp only [oneListedTarget, List.forall_mem_cons, Edit.Within]
    exact ⟨⟨.provider _, trivial⟩, ⟨.concat _, trivial⟩, trivial, by simp⟩
  obtain ⟨g, ran, -⟩ := Start.runs (.new .zero untitled) oneListedTarget
  have facts : (Edit.run oneListedTarget (.new .zero untitled)).map
      (fun g => (g.outputPins.get? ⟨1⟩, g.inputPins.get? ⟨4⟩, g.nextId, g.links.entries))
      = .ok (some ⟨⟨1⟩, ⟨0⟩, "Target", .scalar Base.target, none⟩,
        some ⟨⟨4⟩, ⟨2⟩, "Object 2", .scalar Base.target, false, none⟩, 7, [(⟨6⟩, ⟨⟨6⟩, ⟨3⟩, ⟨1⟩⟩)]) := by decide
  rw [ran] at facts
  simp only [Except.map, Except.ok.injEq, Prod.mk.injEq] at facts
  obtain ⟨ho, hi, counter, links⟩ := facts
  obtain ⟨out, connected, made, -, entries, undone⟩ := session_matches fresh ran ho hi rfl rfl
  rw [counter] at made entries undone
  rw [links] at entries
  have keys : out.graph.links.keys = [⟨6⟩, ⟨7⟩] := congrArg (List.map Prod.fst) entries
  exact ⟨g, _, _, fresh, ran, ho, hi, rfl, rfl, rfl, out, connected, made, keys, undone rfl⟩

end Graph

end FrameGraph
