/-
  FrameGraph.Proofs.Compile.Faithful: compiled once is as good as computed anew.

  A pass is faithful so far if each node that it has compiled has a meaning, the same below
  every path that avoids the compiled nodes, and the values of its outputs stand for that
  meaning (`Faithful`). Visiting keeps this and never compiles a node of the path, so a value
  found again is what the reference computes again; and a visit stops exactly where the
  reference does, with the same mistake (`visit_faithful`). Hence a whole evaluation, against
  either back end, realizes the meaning of the terminal (`evaluation_realizes`).
-/

import FrameGraph.Proofs.Compile.Rules
import FrameGraph.Proofs.Compile.Visit
import FrameGraph.Proofs.Store.Loading

namespace FrameGraph.Graph

open Evaluator (conversion?)

variable {ε : Type} {g : Graph} {registry : Registry}

/-! ## Wires -/

theorem Listed.mem_inputsOf (listed : g.Listed) {n : Node} {input : InputPin} (h : input ∈ g.inputsOf n) :
    g.inputPins.get? input.id = some input ∧ input.id ∈ n.inputs := by
  obtain ⟨pin, member, found⟩ := List.mem_filterMap.1 h
  rw [listed.inputKey pin input found]
  exact ⟨found, member⟩

theorem Listed.inputsOf_length (listed : g.Listed) {id : NodeId} {n : Node} (hn : g.nodes.get? id = some n) :
    (g.inputsOf n).length = n.inputs.length := by
  rw [inputsOf, List.filterMap_length_eq_length]
  intro pin member
  obtain ⟨p, hp, -⟩ := listed.inputListed id n hn pin member
  rw [hp]
  rfl

theorem Listed.outputsOf_length (listed : g.Listed) {id : NodeId} {n : Node} (hn : g.nodes.get? id = some n) :
    (g.outputsOf n).length = n.outputs.length := by
  rw [outputsOf, List.filterMap_length_eq_length]
  intro pin member
  obtain ⟨p, hp, -⟩ := listed.outputListed id n hn pin member
  rw [hp]
  rfl

/-- An input that remembers an output has a source. -/
theorem Sound.source?_eq (sound : g.Sound) {pin : PinId} {input : InputPin} (hi : g.inputPins.get? pin = some input)
    {output : PinId} (fed : input.connection = some output) :
    ∃ o, g.outputPins.get? output = some o ∧ g.source? input = some o := by
  obtain ⟨k, l, hl, -, rfl⟩ := (sound.remembered pin input output hi).1 fed
  obtain ⟨⟨o, ho⟩, -⟩ := sound.ends k l hl
  exact ⟨o, ho, by simp [source?, fed, ho]⟩

theorem Sound.unlinked (sound : g.Sound) {pin : PinId} {input : InputPin} (hi : g.inputPins.get? pin = some input)
    (unfed : g.source? input = none) : input.connection = none := by
  cases fed : input.connection with
  | none => rfl
  | some output =>
    obtain ⟨o, -, found⟩ := sound.source?_eq hi fed
    rw [unfed] at found
    cases found

theorem Listed.connection_eq (listed : g.Listed) {input : InputPin} {o : OutputPin} (source : g.source? input = some o) :
    input.connection = some o.id ∧ g.outputPins.get? o.id = some o := by
  obtain ⟨output, fed, ho⟩ := Option.bind_eq_some_iff.1 source
  rw [listed.outputKey output o ho]
  exact ⟨fed, ho⟩

theorem Sound.feeder?_eq (sound : g.Sound) {pin : PinId} {input : InputPin} (hi : g.inputPins.get? pin = some input)
    (node : NodeId) : g.feeder? node pin = match g.source? input with
      | some o => .ok (some o.node)
      | none => if input.optional then .ok none else .error (.error (.missingRequiredInput node input.name)) := by
  have known : g.getInput pin = .ok input := by simp [getInput, hi]
  unfold feeder?
  rw [known]
  dsimp only
  cases fed : input.connection with
  | none =>
    have unfed : g.source? input = none := by simp [source?, fed]
    rw [unfed]
  | some output =>
    obtain ⟨o, ho, source⟩ := sound.source?_eq hi fed
    simp [source, getOutput, ho]

section Feeders

variable (sound : g.Sound) {pin : PinId} {input : InputPin} (hi : g.inputPins.get? pin = some input) {node : NodeId}
include sound hi

theorem Sound.unfed {stop : Stop} (h : g.feeder? node pin = .error stop) :
    g.source? input = none ∧ input.optional = false ∧ stop = .error (.missingRequiredInput node input.name) := by
  rw [sound.feeder?_eq hi] at h
  split at h
  · cases h
  · rename_i source
    split at h
    · cases h
    · rename_i required
      cases h
      exact ⟨source, by simpa using required, rfl⟩

theorem Sound.free (h : g.feeder? node pin = .ok none) : g.source? input = none ∧ input.optional = true := by
  rw [sound.feeder?_eq hi] at h
  split at h
  · cases h
  · rename_i source
    split at h
    · rename_i optional
      exact ⟨source, optional⟩
    · cases h

theorem Sound.fed {feeder : NodeId} (h : g.feeder? node pin = .ok (some feeder)) :
    ∃ o n, g.source? input = some o ∧ o.node = feeder ∧ g.nodes.get? feeder = some n := by
  rw [sound.feeder?_eq hi] at h
  split at h
  · rename_i o source
    cases h
    obtain ⟨-, ho⟩ := sound.connection_eq source
    obtain ⟨n, hn, -⟩ := sound.outputOwner o.id o ho
    exact ⟨o, n, source, rfl, hn⟩
  · split at h <;> cases h

end Feeders

theorem mapM_filterMap {κ α β : Type} {look : κ → Option α} {f : κ → Except Fault β} {h : α → β} :
    ∀ {keys : List κ}, (∀ k ∈ keys, ∃ a, look k = some a ∧ f k = .ok (h a)) →
      keys.mapM f = .ok ((keys.filterMap look).map h)
  | [], _ => rfl
  | k :: keys, each => by
    obtain ⟨a, found, eq⟩ := each k List.mem_cons_self
    rw [List.mapM_cons, eq, List.filterMap_cons_some found,
      mapM_filterMap fun k hk => each k (List.mem_cons_of_mem _ hk)]
    rfl

/-- What a node sees of an input while the pass has some values. -/
def seen (values : List (PinId × Handle)) (input : InputPin) : InputSlot :=
  ⟨input.name, input.type, input.connection.bind fun output => values.lookup output⟩

theorem Sound.inputSlot_eq (sound : g.Sound) (values : List (PinId × Handle)) {pin : PinId} {input : InputPin}
    (hi : g.inputPins.get? pin = some input) : g.inputSlot values pin = .ok (seen values input) := by
  have known : g.getInput pin = .ok input := by simp [getInput, hi]
  unfold inputSlot seen
  rw [known]
  cases fed : input.connection with
  | none => simp [fed, bind, Except.bind, pure, Except.pure]
  | some output =>
    obtain ⟨o, ho, -⟩ := sound.source?_eq hi fed
    simp [fed, getOutput, ho, bind, Except.bind, pure, Except.pure]

theorem Sound.context_eq (sound : g.Sound) (values : List (PinId × Handle)) {id : NodeId} {n : Node}
    (hn : g.nodes.get? id = some n) : g.context values id n
      = .ok ⟨id, (g.inputsOf n).map (seen values), (g.outputsOf n).map OutputPin.type⟩ := by
  have inputs : n.inputs.mapM (g.inputSlot values) = .ok ((g.inputsOf n).map (seen values)) := by
    refine mapM_filterMap fun pin member => ?_
    obtain ⟨input, hi, -⟩ := sound.inputListed id n hn pin member
    exact ⟨input, hi, sound.inputSlot_eq values hi⟩
  have outputs : (n.outputs.mapM fun pin => do return (← g.getOutput pin).type)
      = .ok ((g.outputsOf n).map OutputPin.type) := by
    refine mapM_filterMap fun pin member => ?_
    obtain ⟨o, ho, -⟩ := sound.outputListed id n hn pin member
    exact ⟨o, ho, by simp [getOutput, ho, bind, Except.bind, pure, Except.pure]⟩
  unfold context
  rw [inputs, outputs]
  rfl

/-! ## Values of pins -/

theorem lookup_of_mem {α β : Type} [BEq α] [LawfulBEq α] {a : α} {b : β} : ∀ {l : List (α × β)},
    (l.map Prod.fst).Nodup → (a, b) ∈ l → l.lookup a = some b
  | (k, v) :: l, distinct, member => by
    simp only [List.map_cons, List.nodup_cons] at distinct
    rcases List.mem_cons.1 member with eq | rest
    · cases eq
      exact List.lookup_cons_self
    · have ne : (a == k) = false := by
        rw [beq_eq_false_iff_ne]
        exact fun eq => distinct.1 (eq ▸ List.mem_map.2 ⟨(a, b), rest, rfl⟩)
      rw [List.lookup_cons, ne]
      exact lookup_of_mem distinct.2 rest

/-- Values that are entered for different pins are found again. -/
theorem lookup_entered {pins : List PinId} (distinct : pins.Nodup) {values : List Handle}
    (len : pins.length = values.length) {pin : PinId} {v : Handle} (entered : (pin, v) ∈ pins.zip values) (rest : List (PinId × Handle)) :
    ((pins.zip values).reverse ++ rest).lookup pin = some v := by
  have keys : ((pins.zip values).reverse.map Prod.fst).Nodup := by
    rw [List.map_reverse, List.nodup_reverse]
    rwa [List.map_fst_zip (Nat.le_of_eq len)]
  rw [List.lookup_append, lookup_of_mem keys (List.mem_reverse.2 entered)]
  rfl

theorem lookup_not_entered {pins : List PinId} {values : List Handle} {pin : PinId} (other : pin ∉ pins)
    (rest : List (PinId × Handle)) :
    ((pins.zip values).reverse ++ rest).lookup pin = rest.lookup pin := by
  have none : (pins.zip values).reverse.lookup pin = none := by
    rw [List.lookup_eq_none_iff]
    intro e he
    have member : e.1 ∈ pins := (List.of_mem_zip (List.mem_reverse.1 he)).1
    simp only [bne_iff_ne, ne_eq]
    exact fun eq => other (eq ▸ member)
  rw [List.lookup_append, none]
  rfl

theorem zip_left {α β γ : Type} {related : β → γ → Prop} {bs : List β} {cs : List γ}
    (h : List.Forall₂ related bs cs) {as : List α} (len : as.length = bs.length) :
    List.Forall₂ (fun a c => ∃ b, (a, b) ∈ as.zip bs ∧ related b c) as cs := by
  induction h generalizing as with
  | nil =>
    obtain rfl := List.length_eq_zero_iff.1 len
    exact .nil
  | cons same others ih =>
    obtain ⟨a, as, rfl⟩ := List.exists_cons_of_length_eq_add_one len
    refine .cons ⟨_, List.mem_cons_self, same⟩ ((ih (Nat.succ.inj len)).imp fun _ _ found => ?_)
    obtain ⟨b, member, same⟩ := found
    exact ⟨b, List.mem_cons_of_mem _ member, same⟩

theorem lookup_zip {α β : Type} [BEq α] [LawfulBEq α] {related : α → β → Prop} {as : List α} {bs : List β}
    (h : List.Forall₂ related as bs) {a : α} (member : a ∈ as) :
    ∃ b, (as.zip bs).lookup a = some b ∧ related a b := by
  induction h with
  | nil => cases member
  | @cons x b as bs same others ih =>
    by_cases eq : a = x
    · subst eq
      exact ⟨b, List.lookup_cons_self, same⟩
    · have other : (a == x) = false := by rwa [beq_eq_false_iff_ne]
      obtain ⟨c, found, same⟩ := ih ((List.mem_cons.1 member).resolve_left eq)
      exact ⟨c, by rw [List.zip_cons_cons, List.lookup_cons, other]; exact found, same⟩

/-! ## The invariant -/

variable [Evaluator ε] {p q : Progress ε}

def Avoids (path compiled : List NodeId) : Prop := ∀ id ∈ path, id ∉ compiled

/-- An input is fed by a compiled node, or may stay empty. -/
def Settled (g : Graph) (p : Progress ε) (input : InputPin) : Prop :=
  match g.source? input with
  | some output => output.node ∈ p.compiled
  | none => input.optional = true

/-- The values of a node's outputs stand for the node's meaning, as it is below any path that
avoids what is compiled. -/
structure Compiled (g : Graph) (registry : Registry) (p : Progress ε) (id : NodeId) (n : Node)
    (trees : List Tree) : Prop where
  registered : g.nodes.get? id = some n
  inputs : ∀ input ∈ g.inputsOf n, g.Settled p input
  meaning : ∀ path, Avoids path p.compiled → g.compute registry path id = .ok trees
  values : List.Forall₂ (fun pin tree => ∃ v, p.values.lookup pin = some v ∧ Denotes p.backend v tree)
    n.outputs trees

structure Faithful (g : Graph) (registry : Registry) (p : Progress ε) : Prop where
  conversions : Offers p.backend registry
  compiled : ∀ id ∈ p.compiled, ∃ n trees, g.Compiled registry p id n trees

/-- The pass may go on recording. -/
theorem Faithful.recording (h : g.Faithful registry p) {b : ε} (grown : Extends p.backend b)
    (events : List Event) : g.Faithful registry { p with backend := b, events := events } where
  conversions := h.conversions.stays grown
  compiled id member := by
    obtain ⟨n, trees, known⟩ := h.compiled id member
    refine ⟨n, trees, known.registered, known.inputs, known.meaning, known.values.imp fun pin tree found => ?_⟩
    obtain ⟨v, stored, d⟩ := found
    exact ⟨v, stored, d.mono grown⟩

/-- Inputs that are settled have trees, the same below every path that avoids what is
compiled, and the node sees values that stand for them. -/
theorem Faithful.slots (sound : g.Sound) (h : g.Faithful registry p) (node : NodeId) :
    ∀ {inputs : List InputPin}, (∀ input ∈ inputs, g.inputPins.get? input.id = some input) →
      (∀ input ∈ inputs, g.Settled p input) →
      ∃ slots, (∀ path, Avoids path p.compiled → g.computeInputs registry path node inputs = .ok slots)
        ∧ List.Forall₂ (Stands p.backend) (inputs.map (seen p.values)) slots
  | [], _, _ => ⟨[], fun _ _ => computeInputs_nil, .nil⟩
  | input :: inputs, registered, settled => by
    obtain ⟨slots, computed, stand⟩ := Faithful.slots sound h node
      (fun i hi => registered i (List.mem_cons_of_mem _ hi)) fun i hi => settled i (List.mem_cons_of_mem _ hi)
    have hi := registered input List.mem_cons_self
    have ready := settled input List.mem_cons_self
    unfold Settled at ready
    cases source : g.source? input with
    | none =>
      rw [source] at ready
      refine ⟨⟨input.name, input.type, none⟩ :: slots, fun path avoids => ?_, .cons ⟨rfl, rfl, ?_⟩ stand⟩
      · rw [computeInputs_free source ready, computed path avoids]
        rfl
      · simp [seen, sound.unlinked hi source]
    | some output =>
      rw [source] at ready
      obtain ⟨n, trees, known⟩ := h.compiled output.node ready
      obtain ⟨fed, ho⟩ := sound.connection_eq source
      obtain ⟨owner, hn, listed⟩ := sound.outputOwner output.id output ho
      rw [known.registered] at hn
      cases hn
      obtain ⟨tree, found, v, stored, d⟩ := lookup_zip known.values listed
      have picked : g.treeOf output trees = some tree := by simp [treeOf, known.registered, found]
      refine ⟨⟨input.name, input.type, some tree⟩ :: slots, fun path avoids => ?_, .cons ⟨rfl, rfl, ?_⟩ stand⟩
      · rw [computeInputs_fed source, known.meaning path avoids, computed path avoids, ← picked]
        rfl
      · have value : (seen p.values input).value = some v := by simp [seen, fed, stored]
        rw [value]
        exact .some d

/-! ## One node -/

theorem Avoids.fewer {path compiled compiled' : List NodeId} (h : Avoids path compiled')
    (kept : ∀ id ∈ compiled, id ∈ compiled') : Avoids path compiled :=
  fun id met done => h id met (kept id done)

theorem Avoids.cons {path compiled : List NodeId} {id : NodeId} (h : Avoids path compiled)
    (fresh : id ∉ compiled) : Avoids (id :: path) compiled := by
  intro m met
  rcases List.mem_cons.1 met with rfl | met
  · exact fresh
  · exact h m met

theorem Avoids.tail {path compiled : List NodeId} {id : NodeId} (h : Avoids (id :: path) compiled) :
    Avoids path compiled :=
  fun m met => h m (List.mem_cons_of_mem _ met)

theorem Avoids.compiling {path compiled : List NodeId} {id : NodeId} (h : Avoids path compiled)
    (new : id ∉ path) : Avoids path (id :: compiled) := by
  intro m met done
  rcases List.mem_cons.1 done with rfl | done
  · exact new met
  · exact h m met done

omit [Evaluator ε] in
theorem Settled.fed {input : InputPin} {o : OutputPin} (source : g.source? input = some o)
    (done : o.node ∈ p.compiled) : g.Settled p input := by
  unfold Settled
  rwa [source]

omit [Evaluator ε] in
theorem Settled.free {input : InputPin} (source : g.source? input = none) (optional : input.optional = true) :
    g.Settled p input := by
  unfold Settled
  rwa [source]

omit [Evaluator ε] in
theorem Settled.more {input : InputPin} (h : g.Settled p input) (kept : ∀ id ∈ p.compiled, id ∈ q.compiled) :
    g.Settled q input := by
  unfold Settled at *
  split
  · rename_i o source
    rw [source] at h
    exact kept _ h
  · rename_i source
    rw [source] at h
    exact h

/-- What a step below a path leaves: a faithful pass, and the path still to be compiled. -/
structure Advances (g : Graph) (registry : Registry) (path : List NodeId) (p q : Progress ε) : Prop where
  faithful : g.Faithful registry q
  kept : ∀ id ∈ p.compiled, id ∈ q.compiled
  avoids : Avoids path q.compiled

theorem Advances.trans {path : List NodeId} {r : Progress ε} (h : g.Advances registry path p q)
    (h' : g.Advances registry path q r) : g.Advances registry path p r :=
  ⟨h'.faithful, fun id done => h'.kept id (h.kept id done), h'.avoids⟩

/-- A step does what the reference does, and if it succeeds then something is known of what it
leaves. -/
structure Tracks (g : Graph) (registry : Registry) (path : List NodeId) (p : Progress ε)
    (out : Except Stop Unit × Progress ε) (done : Progress ε → Prop) {α : Type} (r : Except CompileError α) :
    Prop extends Advances g registry path p out.2 where
  alike : Alike (fun _ _ => done out.2) out.1 r

section Compiling

variable {path : List NodeId} {id : NodeId} {n : Node}

theorem Faithful.entered (sound : g.Sound) (h : g.Faithful registry q) (hn : g.nodes.get? id = some n)
    (fresh : id ∉ q.compiled) {values : List Handle} {trees : List Tree}
    (settled : ∀ input ∈ g.inputsOf n, g.Settled q input)
    (meaning : ∀ path, Avoids path q.compiled → id ∉ path → g.compute registry path id = .ok trees)
    (len : n.outputs.length = values.length) (each : All q.backend values trees) :
    g.Faithful registry { q with
      compiled := id :: q.compiled
      values := (n.outputs.zip values).reverse ++ q.values } where
  conversions := h.conversions
  compiled m member := by
    have kept : ∀ m ∈ q.compiled, m ∈ id :: q.compiled := fun m => List.mem_cons_of_mem id
    rcases List.mem_cons.1 member with rfl | member
    · refine ⟨n, trees, hn, fun i hi => (settled i hi).more kept, fun path avoids => ?_, ?_⟩
      · exact meaning path (avoids.fewer kept) fun met => avoids m met List.mem_cons_self
      · have distinct : n.outputs.Nodup := (List.nodup_append.1 (sound.once m n hn)).2.1
        refine (zip_left each len).imp fun pin tree found => ?_
        obtain ⟨v, entered, d⟩ := found
        exact ⟨v, lookup_entered distinct len entered _, d⟩
    · obtain ⟨n', trees', known⟩ := h.compiled m member
      refine ⟨n', trees', known.registered, fun i hi => (known.inputs i hi).more kept,
        fun path avoids => known.meaning path (avoids.fewer kept), ?_⟩
      have others : ∀ pin ∈ n'.outputs, pin ∉ n.outputs := by
        intro pin mine theirs
        obtain ⟨o, ho, owner⟩ := sound.outputListed m n' known.registered pin mine
        obtain ⟨o', ho', owner'⟩ := sound.outputListed id n hn pin theirs
        rw [ho] at ho'
        cases ho'
        exact fresh (owner' ▸ owner ▸ member)
      refine ((List.forall₂_and_left _ _).2 ⟨others, known.values⟩).imp fun pin tree found => ?_
      obtain ⟨other, v, stored, d⟩ := found
      exact ⟨v, (lookup_not_entered other _).trans stored, d⟩

variable [LawfulEvaluator ε]

/-- A node whose inputs are settled compiles as the reference computes it. -/
theorem Faithful.compileNode (sound : g.Sound) (sized : Every (fun o => o.shape.Sized) g)
    (h : g.Faithful registry q) (hn : g.nodes.get? id = some n) (fresh : id ∉ q.compiled) (new : id ∉ path)
    (avoids : Avoids path q.compiled) (settled : ∀ input ∈ g.inputsOf n, g.Settled q input) :
    g.Tracks registry path q (g.compileNode id n q) (fun p => id ∈ p.compiled) (g.compute registry path id) := by
  obtain ⟨slots, computed, stand⟩ :=
    h.slots sound id (fun i hi => (sound.mem_inputsOf hi).1) settled
  obtain ⟨inputCount, outputCount⟩ := sized_outline_iff.1 (sized id n hn)
  have meaning : ∀ path, Avoids path q.compiled → id ∉ path → g.compute registry path id
      = Reference.rule registry id n.kind slots ((g.outputsOf n).map OutputPin.type) := by
    intro path avoids new
    rw [compute_new hn new, computed (id :: path) (avoids.cons fresh)]
    rfl
  have slotCount : slots.length = n.kind.inputSpecs.length := by
    rw [← stand.length_eq, List.length_map, sound.inputsOf_length hn, inputCount]
  have typeCount : ((g.outputsOf n).map OutputPin.type).length = n.kind.outputSpecs.length := by
    rw [List.length_map, sound.outputsOf_length hn, outputCount]
  have mirrors := evaluate_mirrors (k := n.kind)
    (c := ⟨id, (g.inputsOf n).map (seen q.values), (g.outputsOf n).map OutputPin.type⟩) h.conversions stand slotCount
    typeCount
  have counts : Reference.Counts n.kind.outputSpecs.length (Reference.rule registry id n.kind slots _) :=
    Reference.rule_counts slotCount typeCount
  rw [meaning path avoids new]
  obtain ⟨grown, alike⟩ := mirrors
  unfold Graph.compileNode
  rw [sound.context_eq q.values hn]
  dsimp only at grown alike ⊢
  cases run : (n.kind.evaluate ⟨id, (g.inputsOf n).map (seen q.values), (g.outputsOf n).map OutputPin.type⟩).run
      q.backend with
  | mk answer b =>
    rw [run] at grown alike
    dsimp only at grown alike ⊢
    have next := h.recording grown (q.events ++ [.compiling id n.kind.label])
    generalize answered : Reference.rule registry id n.kind slots ((g.outputsOf n).map OutputPin.type) = r at *
    cases alike with
    | failed e => exact ⟨⟨next, fun _ member => member, avoids⟩, .failed e⟩
    | answered each =>
      rename_i values trees
      have len : n.outputs.length = values.length := by
        rw [each.length_eq, counts trees rfl, outputCount]
      dsimp only
      rw [if_pos len.symm]
      exact ⟨⟨next.entered sound hn fresh settled meaning len each, fun _ => List.mem_cons_of_mem _,
        avoids.compiling new⟩, .answered List.mem_cons_self⟩

/-! ## All nodes below one -/

omit [LawfulEvaluator ε] in
theorem Tracks.stay {p : Progress ε} {α : Type} {done : Progress ε → Prop} (h : g.Faithful registry p)
    (avoids : Avoids path p.compiled) {answer : Except Stop Unit} {r : Except CompileError α}
    (alike : Alike (fun _ _ => done p) answer r) : g.Tracks registry path p (answer, p) done r :=
  ⟨⟨h, fun _ member => member, avoids⟩, alike⟩

/-- A visit to a node does what the reference does. -/
def NodeTracks (g : Graph) (registry : Registry) (path : List NodeId) (id : NodeId) (p : Progress ε) : Prop :=
  g.Tracks registry path p (g.visit path id p) (fun q => id ∈ q.compiled) (g.compute registry path id)

/-- A visit to what feeds some pins of a node does what the reference does. -/
def InputsTrack (g : Graph) (registry : Registry) (path : List NodeId) (node : NodeId) (pins : List PinId)
    (p : Progress ε) : Prop :=
  g.Tracks registry path p (g.visitInputs path node pins p)
    (fun q => ∀ input ∈ pins.filterMap g.inputPins.get?, g.Settled q input)
    (g.computeInputs registry path node (pins.filterMap g.inputPins.get?))

/-- A new node tracks the reference if its inputs do. -/
theorem node_tracks (sound : g.Sound) (sized : Every (fun o => o.shape.Sized) g) (hn : g.nodes.get? id = some n)
    (fresh : id ∉ p.compiled) (new : id ∉ path) (inputs : g.InputsTrack registry (id :: path) id n.inputs p) :
    g.NodeTracks registry path id p := by
  obtain ⟨⟨faithful, kept, avoids⟩, alike⟩ := inputs
  unfold NodeTracks
  cases visited : g.visitInputs (id :: path) id n.inputs p with
  | mk answer q =>
    rw [visited] at faithful kept avoids alike
    have below : g.Advances registry path p q := ⟨faithful, kept, avoids.tail⟩
    cases answer with
    | error stop =>
      obtain ⟨e, rfl, failed⟩ := alike.of_error
      rw [visit_stopped hn fresh new visited, compute_new hn new, inputsOf, failed]
      exact ⟨below, .failed e⟩
    | ok done =>
      obtain ⟨slots, computed, ready⟩ := alike.of_ok
      rw [visit_settled hn fresh new visited]
      have compiled := faithful.compileNode sound sized hn (avoids id List.mem_cons_self) new avoids.tail ready
      exact ⟨below.trans compiled.toAdvances, compiled.alike⟩

omit [LawfulEvaluator ε] in
/-- A fed pin and those after it track the reference if the feeder does and, once it is compiled,
the others do. -/
theorem inputs_track_fed (sound : g.Sound) {pin : PinId} {pins : List PinId} {input : InputPin} {feeder : NodeId}
    (hi : g.inputPins.get? pin = some input) (fed : g.feeder? id pin = .ok (some feeder))
    (feeds : g.NodeTracks registry path feeder p)
    (rest : ∀ q, g.visit path feeder p = (.ok (), q) → g.Faithful registry q → Avoids path q.compiled →
      g.InputsTrack registry path id pins q) :
    g.InputsTrack registry path id (pin :: pins) p := by
  obtain ⟨o, n, source, rfl, hn⟩ := sound.fed hi fed
  obtain ⟨advances, alike⟩ := feeds
  unfold InputsTrack
  cases visited : g.visit path o.node p with
  | mk answer q =>
    rw [visited] at advances alike
    cases answer with
    | error stop =>
      obtain ⟨e, rfl, failed⟩ := alike.of_error
      rw [visitInputs_stopped fed visited, List.filterMap_cons_some hi, computeInputs_fed source, failed]
      exact ⟨advances, .failed e⟩
    | ok done =>
      obtain ⟨trees, computed, compiled⟩ := alike.of_ok
      have others := rest q visited advances.faithful advances.avoids
      rw [visitInputs_fed fed visited, List.filterMap_cons_some hi, computeInputs_fed source, computed]
      -- The feeder is still compiled after the pass went on to the other pins.
      have first : g.Settled _ input := .fed source (others.kept _ compiled)
      exact ⟨advances.trans others.toAdvances,
        others.alike.map fun _ _ ready => List.forall_mem_cons.2 ⟨first, ready⟩⟩

theorem visit_faithful (sound : g.Sound) (sized : Every (fun o => o.shape.Sized) g) (path : List NodeId)
    (id : NodeId) (p : Progress ε) (h : g.Faithful registry p) (avoids : Avoids path p.compiled)
    (registered : ∃ n, g.nodes.get? id = some n) : g.NodeTracks registry path id p := by
  have registeredInputs : ∀ {id n}, g.nodes.get? id = some n →
      ∀ pin ∈ n.inputs, ∃ input, g.inputPins.get? pin = some input := by
    intro id n hn pin member
    obtain ⟨input, hi, -⟩ := sound.inputListed id n hn pin member
    exact ⟨input, hi⟩
  refine visit.induct g
    (fun path id p => g.Faithful registry p → Avoids path p.compiled → (∃ n, g.nodes.get? id = some n) →
      g.NodeTracks registry path id p)
    (fun path node pins p => g.Faithful registry p → Avoids path p.compiled →
      (∀ pin ∈ pins, ∃ input, g.inputPins.get? pin = some input) → g.InputsTrack registry path node pins p)
    ?unregistered ?compiled ?cycle ?stopped ?settled ?noPins ?unfed ?free ?feederStopped ?feederSettled
    path id p h avoids registered
  case unregistered =>
    intro path id p unregistered _ _ registered
    obtain ⟨n, hn⟩ := registered
    rw [unregistered] at hn
    cases hn
  case compiled =>
    intro path id p n hn compiled h avoids _
    unfold NodeTracks
    rw [visit_compiled hn compiled]
    obtain ⟨_, trees, known⟩ := h.compiled id compiled
    rw [known.meaning path avoids]
    exact .stay h avoids (.answered compiled)
  case cycle =>
    intro path id p n hn fresh met h avoids _
    unfold NodeTracks
    rw [visit_cycle hn fresh met, compute_cycle hn met]
    exact .stay h avoids (.failed _)
  case stopped =>
    intro path id p n hn fresh new stop q stopped ih h avoids _
    exact node_tracks sound sized hn fresh new (ih h (avoids.cons fresh) (registeredInputs hn))
  case settled =>
    intro path id p n hn fresh new q settled ih h avoids _
    exact node_tracks sound sized hn fresh new (ih h (avoids.cons fresh) (registeredInputs hn))
  case noPins =>
    intro path id p h avoids _
    unfold InputsTrack
    rw [visitInputs_nil, List.filterMap_nil, computeInputs_nil]
    exact .stay h avoids (.answered fun _ none => by cases none)
  case unfed =>
    intro path id p pin pins stop unfed h avoids registered
    obtain ⟨input, hi⟩ := registered pin List.mem_cons_self
    obtain ⟨source, required, rfl⟩ := sound.unfed hi unfed
    unfold InputsTrack
    rw [visitInputs_unfed unfed, List.filterMap_cons_some hi, computeInputs_missing source required]
    exact .stay h avoids (.failed _)
  case free =>
    intro path id p pin pins free ih h avoids registered
    obtain ⟨input, hi⟩ := registered pin List.mem_cons_self
    obtain ⟨source, optional⟩ := sound.free hi free
    obtain ⟨advances, alike⟩ := ih h avoids fun pin member => registered pin (List.mem_cons_of_mem _ member)
    unfold InputsTrack
    rw [visitInputs_free free, List.filterMap_cons_some hi, computeInputs_free source optional]
    exact ⟨advances, alike.map fun _ _ ready => List.forall_mem_cons.2 ⟨.free source optional, ready⟩⟩
  case feederStopped =>
    intro path id p pin pins feeder fed stop q stopped ih h avoids registered
    obtain ⟨input, hi⟩ := registered pin List.mem_cons_self
    obtain ⟨o, n, -, rfl, hn⟩ := sound.fed hi fed
    refine inputs_track_fed sound hi fed (ih h avoids ⟨n, hn⟩) fun q' ok => ?_
    rw [stopped] at ok
    cases ok
  case feederSettled =>
    intro path id p pin pins feeder fed q settled ih rest h avoids registered
    obtain ⟨input, hi⟩ := registered pin List.mem_cons_self
    obtain ⟨o, n, -, rfl, hn⟩ := sound.fed hi fed
    refine inputs_track_fed sound hi fed (ih h avoids ⟨n, hn⟩) fun q' ok faithful avoids => ?_
    rw [settled] at ok
    cases ok
    exact rest faithful avoids fun pin member => registered pin (List.mem_cons_of_mem _ member)

end Compiling

end FrameGraph.Graph
