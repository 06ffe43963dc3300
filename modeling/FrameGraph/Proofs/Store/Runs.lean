/-
  FrameGraph.Proofs.Store.Runs: editing sessions.

  A session starts with a new graph or a loaded one and applies public edits, each of which may
  be refused. No edit runs into a fault and each keeps the graph sound (`apply_sound`), so every
  graph that a session leads to is sound (`session_sound`). Facts about what nodes look like are
  carried along (`run_sound`), as long as the edits put in only what the policy admits.
-/

import FrameGraph.Compile.Pass
import FrameGraph.Proofs.Store.Acceptance
import FrameGraph.Proofs.Store.Configuring

namespace FrameGraph

/-! ## Edits -/

inductive Edit : Type 1 where
  | addNode (kind : Kind) (position : Position)
  | removeNode (node : NodeId)
  | connect (output input : PinId)
  | disconnect (link : LinkId)
  | setConvertFrom (node : NodeId) (type : PinType)
  | setConvertTo (node : NodeId) (type : PinType)
  | setSelectIndex (node : NodeId) (index : Nat)
  | setInputCount (node : NodeId) (count : Nat)
  | setPosition (node : NodeId) (position : Position)
  | setTerminal (node : NodeId)
  | resetEvaluation
  | evaluate {ε : Type} [Evaluator ε] (backend : ε)

namespace Edit

/-- The graph after an edit, whether or not it was refused. -/
def apply : Edit → Graph → Except Fault Graph
  | addNode kind position, g => .ok (g.addNode kind position).graph
  | removeNode node, g => .ok (g.removeNode node).graph
  | connect output input, g => (g.connect output input).map Outcome.graph
  | disconnect link, g => .ok (g.disconnect link).graph
  | setConvertFrom node type, g => (g.setConvertFrom node type).map Outcome.graph
  | setConvertTo node type, g => (g.setConvertTo node type).map Outcome.graph
  | setSelectIndex node index, g => (g.setSelectIndex node index).map Outcome.graph
  | setInputCount node count, g => .ok (g.setInputCount node count).graph
  | setPosition node position, g => .ok (g.setPosition node position).graph
  | setTerminal node, g => .ok (g.setTerminal node).graph
  | resetEvaluation, g => .ok g.resetEvaluation
  | evaluate backend, g => .ok (g.evaluate backend).graph

def run (edits : List Edit) (start : Graph) : Except Fault Graph :=
  edits.foldlM (fun g e => e.apply g) start

/-- The edit puts in only what a policy admits. -/
def Within (policy : Policy) : Edit → Prop
  | addNode kind position => policy.kind kind ∧ policy.position position
  | setSelectIndex _ index => policy.index index
  | setPosition _ position => policy.position position
  | _ => True

end Edit

/-- Where a session may start. -/
inductive Start : Graph → Prop where
  | new (id : Uuid) (name : String) : Start (.new id name)
  | loaded (text : String) {g : Graph} : Graph.parse text = .ok g → Start g

namespace Graph

variable {policy : Policy}

/-! ## Marks, places and links -/

theorem repaint_eq (g : Graph) (node : NodeId → Node → Node) (output : PinId → OutputPin → OutputPin) :
    { g with nodes := g.nodes.mapWithKey node, outputPins := g.outputPins.mapWithKey output }
      = g.repainted node (fun _ p => p) output := by
  rw [repainted, Table.mapWithKey_id fun _ _ _ => rfl]

theorem place_eq (g : Graph) (node : NodeId → Node → Node) :
    { g with nodes := g.nodes.mapWithKey node } = g.repainted node (fun _ p => p) fun _ p => p := by
  rw [repainted, Table.mapWithKey_id fun _ _ _ => rfl, Table.mapWithKey_id fun _ _ _ => rfl]

/-- Marks and values may change at will. -/
theorem remarked {g : Graph} (h : g.Sound) (mark : NodeId → Node → Bool)
    (value : PinId → OutputPin → Option Handle) :
    let g' : Graph := { g with
      nodes := g.nodes.mapWithKey fun k n => { n with evaluated := mark k n }
      outputPins := g.outputPins.mapWithKey fun k p => { p with value := value k p } }
    g'.Sound ∧ ∀ P, Every P g → Every P g' := by
  have keeps : Keeps (fun k n => { n with evaluated := mark k n }) (fun _ p => p)
      fun k p => { p with value := value k p } :=
    ⟨fun _ _ => ⟨rfl, rfl, rfl⟩, fun _ _ => ⟨rfl, rfl⟩, fun _ _ => ⟨rfl, rfl, rfl⟩, fun _ _ => ⟨rfl, rfl, rfl⟩⟩
  simp only [repaint_eq]
  refine ⟨h.repainted keeps (fun _ _ => rfl) fun _ _ => rfl, fun P every => ?_⟩
  exact every.repainted keeps (fun _ _ => rfl) (fun _ _ o ho same => same ▸ ho) (fun _ _ => rfl) fun _ _ => rfl

theorem Sound.withResults {ε : Type} {g : Graph} (h : g.Sound) (p : Progress ε) :
    (g.withResults p).Sound ∧ ∀ P, Every P g → Every P (g.withResults p) :=
  remarked h (fun k _ => decide (k ∈ p.compiled)) fun k _ => p.values.lookup k

theorem Sound.evaluate {ε : Type} [Evaluator ε] {g : Graph} (h : g.Sound) (backend : ε) :
    (g.evaluate backend).graph.Sound ∧ ∀ P, Every P g → Every P (g.evaluate backend).graph := by
  unfold Graph.evaluate
  split
  · exact ⟨h, fun _ every => every⟩
  · exact h.withResults _

theorem Sound.resetEvaluation {g : Graph} (h : g.Sound) :
    g.resetEvaluation.Sound ∧ ∀ P, Every P g → Every P g.resetEvaluation :=
  remarked h (fun _ _ => false) fun _ _ => none

theorem Sound.setPosition {g : Graph} (h : g.Sound) (id : NodeId) {position : Position}
    (admitted : policy.position position) : (g.setPosition id position).graph.Sound
      ∧ ∀ P, Outline.Durable policy P → Every P g → Every P (g.setPosition id position).graph := by
  have keeps : Keeps (fun k n => if k = id then { n with position } else n) (fun _ p => p) fun _ p => p := by
    refine ⟨fun k n => ?_, fun _ _ => ⟨rfl, rfl⟩, fun _ _ => ⟨rfl, rfl, rfl⟩, fun _ _ => ⟨rfl, rfl, rfl⟩⟩
    split <;> exact ⟨rfl, rfl, rfl⟩
  unfold Graph.setPosition
  split
  · exact ⟨h, fun _ _ every => every⟩
  · simp only [Table.modify, place_eq]
    refine ⟨h.repainted keeps (fun _ _ => rfl) fun _ _ => rfl, fun P durable every => ?_⟩
    refine every.repainted keeps (fun k n => ?_) (fun k n o ho same => ?_) (fun _ _ => rfl) fun _ _ => rfl
    · split <;> rfl
    · split
      · exact durable.moved o position ho admitted
      · exact same ▸ ho

theorem Sound.setTerminal {g : Graph} (h : g.Sound) (id : NodeId) :
    (g.setTerminal id).graph.Sound ∧ ∀ P, Every P g → Every P (g.setTerminal id).graph := by
  unfold Graph.setTerminal
  split
  · rename_i known
    refine ⟨{ h with terminalKnown := ?_ }, fun P every => every.congr rfl rfl rfl⟩
    intro _ none
    cases none
    exact Table.mem_keys_iff.1 (Table.contains_iff.1 known)
  · exact ⟨h, fun _ every => every⟩

theorem Sound.disconnect {g : Graph} (h : g.Sound) (id : LinkId) :
    (g.disconnect id).graph.Sound ∧ ∀ P, Every P g → Every P (g.disconnect id).graph := by
  rw [disconnect_graph h.toLinked]
  have fewer : ∀ k l, (g.links.erase id).get? k = some l → g.links.get? k = some l :=
    fun k l hl => (Table.get?_erase_eq_some.1 hl).1
  have ids : ({ g with links := g.links.erase id } : Graph).ids.Sublist g.ids := by
    simp only [Graph.ids, Table.keys_erase]
    exact (List.Sublist.refl _).append (List.filter_sublist.map _)
  have listed : ({ g with links := g.links.erase id } : Graph).Listed := { h.toListed with }
  have typed : ({ g with links := g.links.erase id } : Graph).Typed :=
    fun k l o i hl ho hi => h.typed k l o i (fewer k l hl) ho hi
  refine ⟨?_, fun P every => Every.rewired (every.congr rfl rfl rfl)⟩
  exact { (h.toNumbered.fewer ids (Nat.le_refl _)).rewired, listed.rewired, h.toLinked.relinked fewer with
    typed := typed.rewired }

/-! ## One edit -/

theorem apply_sound {g : Graph} (h : g.Sound) (sized : Every (fun o => o.shape.Sized) g) {e : Edit}
    (within : e.Within policy) : ∃ g', e.apply g = .ok g' ∧ g'.Sound
      ∧ ∀ P, Outline.Durable policy P → Every P g → Every P g' := by
  have mapped : ∀ {α : Type} {x : Except Fault (Outcome α)} {Q : Graph → Prop},
      (∃ out, x = .ok out ∧ Q out.graph) → ∃ g', x.map Outcome.graph = .ok g' ∧ Q g' := by
    intro α x Q answers
    obtain ⟨out, rfl, hq⟩ := answers
    exact ⟨out.graph, rfl, hq⟩
  cases e with
  | addNode kind position =>
    have a := added h.toNumbered kind position
    exact ⟨_, rfl, a.sound h, fun P durable every =>
      every.added a h.toListed (durable.fresh kind position within.1 within.2)⟩
  | removeNode node => exact ⟨_, rfl, h.removeNode node, fun P _ every => every.removeNode h node⟩
  | connect output input =>
    obtain ⟨out, eq, sound, every, -⟩ := connect_sound h sized output input
    exact mapped ⟨out, eq, sound, every⟩
  | disconnect link => exact ⟨_, rfl, (h.disconnect link).1, fun P _ => (h.disconnect link).2 P⟩
  | setConvertFrom node type =>
    obtain ⟨out, eq, sound, every, -⟩ := reconfigure_sound h sized node (Shape.setFrom_setting type) .notConvert
    exact mapped ⟨out, eq, sound, every⟩
  | setConvertTo node type =>
    obtain ⟨out, eq, sound, every, -⟩ := reconfigure_sound h sized node (Shape.setTo_setting type) .notConvert
    exact mapped ⟨out, eq, sound, every⟩
  | setSelectIndex node index =>
    have admitted : policy.index index := within
    obtain ⟨out, eq, sound, every, -⟩ := reconfigure_sound h sized node (Shape.setIndex_setting admitted) .notSelect
    exact mapped ⟨out, eq, sound, every⟩
  | setInputCount node count =>
    obtain ⟨sound, every, -⟩ := setInputCount_sound h node count
    exact ⟨_, rfl, sound, every⟩
  | setPosition node position => exact ⟨_, rfl, h.setPosition node within⟩
  | setTerminal node => exact ⟨_, rfl, (h.setTerminal node).1, fun P _ => (h.setTerminal node).2 P⟩
  | resetEvaluation => exact ⟨_, rfl, h.resetEvaluation.1, fun P _ => h.resetEvaluation.2 P⟩
  | evaluate backend => exact ⟨_, rfl, (h.evaluate backend).1, fun P _ => (h.evaluate backend).2 P⟩

/-! ## Sessions -/

theorem run_sound {edits : List Edit} (within : ∀ e ∈ edits, e.Within policy) {start : Graph}
    (h : start.Sound) (sized : Every (fun o => o.shape.Sized) start) :
    ∃ g, Edit.run edits start = .ok g ∧ g.Sound
      ∧ ∀ P, Outline.Durable policy P → Every P start → Every P g := by
  induction edits generalizing start with
  | nil => exact ⟨start, rfl, h, fun _ _ every => every⟩
  | cons e edits ih =>
    obtain ⟨next, applied, sound, every⟩ := apply_sound h sized (within e List.mem_cons_self)
    obtain ⟨g, rest, sound', every'⟩ := ih (fun e he => within e (List.mem_cons_of_mem _ he)) sound
      (every _ Outline.durable_sized sized)
    refine ⟨g, ?_, sound', fun P durable before => every' P durable (every P durable before)⟩
    rw [Edit.run, List.foldlM_cons, applied]
    exact rest

theorem Start.sound {g : Graph} (h : Start g) : g.Sound ∧ Every (fun o => o.shape.Sized) g := by
  cases h with
  | new id name => exact ⟨sound_new id name, every_new⟩
  | loaded text parsed =>
    obtain ⟨version, stored, -, -, restored⟩ := parse_eq_ok_iff.1 parsed
    obtain ⟨loaded, rfl⟩ := restore_eq_ok_iff.1 restored
    exact loaded

/-- Anything may be put in. -/
def anything : Policy := ⟨fun _ => True, fun _ => True, fun _ => True⟩

theorem within_anything (e : Edit) : e.Within anything := by
  cases e <;> simp [Edit.Within, anything]

theorem Start.runs {start : Graph} (h : Start start) (edits : List Edit) :
    ∃ g, Edit.run edits start = .ok g ∧ g.Sound ∧ Every (fun o => o.shape.Sized) g := by
  obtain ⟨sound, sized⟩ := Start.sound h
  obtain ⟨g, ran, sound', every⟩ := run_sound (fun e _ => within_anything e) sound sized
  exact ⟨g, ran, sound', every _ Outline.durable_sized sized⟩

theorem Start.after {start g : Graph} (h : Start start) {edits : List Edit} (ran : Edit.run edits start = .ok g) :
    g.Sound ∧ Every (fun o => o.shape.Sized) g := by
  obtain ⟨g', ran', after⟩ := Start.runs h edits
  cases ran.symm.trans ran'
  exact after

/-- Whatever edits are made, none runs into a fault and the graph stays sound. -/
theorem session_sound {start : Graph} (h : Start start) (edits : List Edit) :
    ∃ g, Edit.run edits start = .ok g ∧ g.Sound := by
  obtain ⟨g, ran, sound, -⟩ := Start.runs h edits
  exact ⟨g, ran, sound⟩

theorem session_sound_camera : Start (.new .zero untitled) ∧ ∃ g,
    Edit.run [.addNode (.provider .camera) .origin, .addNode (.newConvert .untyped .untyped) .origin,
      .connect ⟨1⟩ ⟨3⟩, .connect ⟨4⟩ ⟨3⟩, .setTerminal ⟨2⟩, .removeNode ⟨0⟩] (.new .zero untitled) = .ok g
        ∧ g.Sound :=
  ⟨.new _ _, session_sound (.new _ _) _⟩

end Graph

end FrameGraph
