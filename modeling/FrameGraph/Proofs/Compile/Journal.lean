/-
  FrameGraph.Proofs.Compile.Journal: a pass as a list of compilations.

  A visit that succeeds has compiled some nodes one after another, each of them new and with all
  inputs settled (`Journal`). These are nodes upstream of the visited one (`visit_journal`), no
  node is among them twice (`Journal.once`), and when it is a node's turn, everything upstream of
  it has been compiled (`Journal.upstream_before`). So what a whole pass did can be told from one
  compilation to the next, by induction on its journal.
-/

import FrameGraph.Proofs.Compile.Meaning
import FrameGraph.Proofs.Compile.Parallel

namespace FrameGraph

/-- A node that was compiled, and the back end before and after. -/
structure Compilation (ε : Type) where
  node : NodeId
  before : ε
  after : ε

/-- The node whose compilation an event reports. -/
def Event.compiling? : Event → Option NodeId
  | compiling id _ => some id
  | _ => none

namespace Graph

variable {ε : Type} [Evaluator ε] {g : Graph} {p q r : Progress ε} {id : NodeId} {n : Node}

/-! ## One compilation -/

structure Compiles (g : Graph) (p : Progress ε) (id : NodeId) (n : Node) (q : Progress ε) : Prop where
  registered : g.nodes.get? id = some n
  fresh : id ∉ p.compiled
  settled : ∀ input ∈ g.inputsOf n, g.Settled p input
  compiled : g.compileNode id n p = (.ok (), q)

/-- A node compiles by its rule, and its values are entered. -/
theorem compileNode_eq_ok (h : g.compileNode id n p = (.ok (), q)) : ∃ c values b, g.context p.values id n = .ok c
    ∧ (n.kind.evaluate c).run p.backend = (.ok values, b) ∧ values.length = n.outputs.length
    ∧ q = ⟨b, id :: p.compiled, (n.outputs.zip values).reverse ++ p.values,
      p.events ++ [.compiling id n.kind.label]⟩ := by
  unfold compileNode at h
  cases context : g.context p.values id n with
  | error f =>
    rw [context] at h
    cases h
  | ok c =>
    rw [context] at h
    cases ran : (n.kind.evaluate c).run p.backend with
    | mk answer b =>
      dsimp only at h
      rw [ran] at h
      cases answer with
      | error stop => cases h
      | ok values =>
        by_cases count : values.length = n.outputs.length
        · simp only [if_pos count] at h
          cases h
          exact ⟨c, values, b, rfl, ran, count, rfl⟩
        · simp only [if_neg count] at h
          cases h

theorem Compiles.compiled_eq (h : g.Compiles p id n q) : q.compiled = id :: p.compiled := by
  obtain ⟨c, values, b, -, -, -, rfl⟩ := compileNode_eq_ok h.compiled
  rfl

/-- A compilation sends requests, and nothing else reaches the back end. -/
theorem Compiles.sends (h : g.Compiles p id n q) : ∃ rs, q.backend = (Request.sendAll p.backend rs).1 := by
  obtain ⟨c, values, b, -, ran, -, rfl⟩ := compileNode_eq_ok h.compiled
  obtain ⟨rs, sent⟩ := evaluate_sends n.kind c p.backend
  rw [ran] at sent
  exact ⟨rs, sent⟩

theorem Compiles.grows [LawfulEvaluator ε] (h : g.Compiles p id n q) : Extends p.backend q.backend := by
  obtain ⟨rs, sent⟩ := h.sends
  rw [sent]
  exact Request.sendAll_extends p.backend rs

/-! ## Journals -/

/-- Compilations that lead from one state of a pass to a later one. -/
inductive Journal (g : Graph) : Progress ε → List (Compilation ε) → Progress ε → Prop
  | nil (p : Progress ε) : Journal g p [] p
  | cons {p q r : Progress ε} {id : NodeId} {n : Node} {js : List (Compilation ε)} :
    g.Compiles p id n q → Journal g q js r → Journal g p (⟨id, p.backend, q.backend⟩ :: js) r

namespace Journal

variable {js ks : List (Compilation ε)}

theorem append (h : g.Journal p js q) (h' : g.Journal q ks r) : g.Journal p (js ++ ks) r := by
  induction h with
  | nil p => exact h'
  | cons step rest ih => exact .cons step (ih h')

theorem compiled_eq (h : g.Journal p js q) : q.compiled = (js.map Compilation.node).reverse ++ p.compiled := by
  induction h with
  | nil p => rfl
  | cons step rest ih =>
    rw [ih, step.compiled_eq, List.map_cons, List.reverse_cons, List.append_assoc]
    rfl

/-- A pass reports the compilations of its journal and no other. -/
theorem events (h : g.Journal p js q) : q.events.filterMap Event.compiling?
    = p.events.filterMap Event.compiling? ++ js.map Compilation.node := by
  induction h with
  | nil p => rw [List.map_nil, List.append_nil]
  | cons step rest ih =>
    obtain ⟨c, values, b, -, -, -, rfl⟩ := compileNode_eq_ok step.compiled
    rw [ih, List.filterMap_append, List.append_assoc]
    rfl

theorem sends (h : g.Journal p js q) : ∃ rs, q.backend = (Request.sendAll p.backend rs).1 := by
  induction h with
  | nil p => exact ⟨[], rfl⟩
  | cons step rest ih =>
    obtain ⟨rs, sent⟩ := step.sends
    obtain ⟨more, later⟩ := ih
    refine ⟨rs ++ more, ?_⟩
    rw [later, sent, Request.sendAll_append]

theorem grows [LawfulEvaluator ε] (h : g.Journal p js q) : Extends p.backend q.backend := by
  obtain ⟨rs, sent⟩ := h.sends
  rw [sent]
  exact Request.sendAll_extends p.backend rs

theorem kept (h : g.Journal p js q) {m : NodeId} (done : m ∈ p.compiled) : m ∈ q.compiled := by
  rw [h.compiled_eq]
  exact List.mem_append_right _ done

/-- No node is compiled twice. -/
theorem once (h : g.Journal p js q) : (js.map Compilation.node).Nodup ∧ ∀ c ∈ js, c.node ∉ p.compiled := by
  induction h with
  | nil p => exact ⟨.nil, fun _ none => by cases none⟩
  | @cons p q r id n js step rest ih =>
    obtain ⟨nodup, later⟩ := ih
    rw [step.compiled_eq] at later
    constructor
    · rw [List.map_cons, List.nodup_cons]
      refine ⟨fun again => ?_, nodup⟩
      obtain ⟨c, member, same⟩ := List.mem_map.1 again
      exact later c member (by rw [same]; exact List.mem_cons_self)
    · intro c member
      rcases List.mem_cons.1 member with rfl | member
      · exact step.fresh
      · exact fun done => later c member (List.mem_cons_of_mem _ done)

/-- A compilation of a journal, with what came before it and what came after. -/
theorem split {d : Compilation ε} (h : g.Journal p (js ++ d :: ks) r) : ∃ m n m', g.Journal p js m
    ∧ g.Compiles m d.node n m' ∧ d.before = m.backend ∧ d.after = m'.backend ∧ g.Journal m' ks r := by
  induction js generalizing p with
  | nil =>
    cases h with
    | cons step rest => exact ⟨p, _, _, .nil p, step, rfl, rfl, rest⟩
  | cons j js ih =>
    cases h with
    | cons step rest =>
      obtain ⟨m, n, m', first, compiles, before, after, last⟩ := ih rest
      exact ⟨m, n, m', .cons step first, compiles, before, after, last⟩

end Journal

/-! ## Everything upstream comes first -/

/-- What feeds a compiled node is compiled. -/
def Closed (g : Graph) (p : Progress ε) : Prop :=
  ∀ id ∈ p.compiled, ∀ n, g.nodes.get? id = some n → ∀ input ∈ g.inputsOf n, g.Settled p input

omit [Evaluator ε] in
theorem Closed.upstream (h : g.Closed p) (done : id ∈ p.compiled) {m : NodeId} (up : g.Upstream id m) :
    m ∈ p.compiled := by
  induction up with
  | terminal => exact done
  | @feeder m n input output up hn member source compiled =>
    have settled := h m compiled n hn input member
    rwa [Settled, source] at settled

theorem Compiles.closed (step : g.Compiles p id n q) (h : g.Closed p) : g.Closed q := by
  have kept : ∀ m ∈ p.compiled, m ∈ q.compiled := by
    intro m done
    rw [step.compiled_eq]
    exact List.mem_cons_of_mem _ done
  intro m done n' hn' input member
  rw [step.compiled_eq] at done
  rcases List.mem_cons.1 done with rfl | done
  · rw [step.registered] at hn'
    cases hn'
    exact (step.settled input member).more kept
  · exact (h m done n' hn' input member).more kept

theorem Journal.closed {js : List (Compilation ε)} (h : g.Journal p js q) (start : g.Closed p) : g.Closed q := by
  induction h with
  | nil p => exact start
  | cons step rest ih => exact ih (step.closed start)

/-- When it is a node's turn, everything that feeds it has been compiled. -/
theorem Compiles.feeders (step : g.Compiles p id n q) (h : g.Closed p) {input : InputPin} {output : OutputPin}
    (member : input ∈ g.inputsOf n) (source : g.source? input = some output) {m : NodeId}
    (up : g.Upstream output.node m) : m ∈ p.compiled := by
  have settled := step.settled input member
  rw [Settled, source] at settled
  exact h.upstream settled up

omit [Evaluator ε] in
theorem Upstream.trans {a b c : NodeId} (h : g.Upstream a b) (h' : g.Upstream b c) : g.Upstream a c := by
  induction h' with
  | terminal => exact h
  | feeder up hn member source ih => exact .feeder ih hn member source

/-! ## The journal of a visit -/

/-- A visit that succeeded compiled nodes upstream of the visited one, none of them on the path. -/
def VisitRecorded (g : Graph) (path : List NodeId) (id : NodeId) (p q : Progress ε) : Prop :=
  ∃ js, g.Journal p js q ∧ (∀ c ∈ js, g.Upstream id c.node) ∧ Avoids path q.compiled ∧ id ∈ q.compiled

/-- The same of the feeders of some pins, which are settled afterwards. -/
def InputsRecorded (g : Graph) (path : List NodeId) (id : NodeId) (pins : List PinId) (p q : Progress ε) : Prop :=
  ∃ js, g.Journal p js q ∧ (∀ c ∈ js, g.Upstream id c.node) ∧ Avoids path q.compiled
    ∧ ∀ pin ∈ pins, ∀ input, g.inputPins.get? pin = some input → g.Settled q input

theorem VisitRecorded.avoids {path : List NodeId} (h : g.VisitRecorded path id p q) : Avoids path q.compiled := by
  obtain ⟨js, -, -, avoids, -⟩ := h
  exact avoids

theorem Journal.settled {js : List (Compilation ε)} (h : g.Journal p js q) {input : InputPin}
    (ready : g.Settled p input) : g.Settled q input :=
  ready.more fun _ done => h.kept done

section Visits

variable {path : List NodeId}

/-- Once the inputs of a new node are recorded, so is the node. -/
theorem InputsRecorded.compiled (sound : g.Sound) (hn : g.nodes.get? id = some n) (new : id ∉ path)
    (inputs : g.InputsRecorded (id :: path) id n.inputs p q) (done : g.compileNode id n q = (.ok (), r)) :
    g.VisitRecorded path id p r := by
  obtain ⟨js, journal, up, avoids, settled⟩ := inputs
  -- The node is on the path of its inputs' visits, which therefore have not compiled it.
  have step : g.Compiles q id n r := by
    refine ⟨hn, avoids id List.mem_cons_self, fun input member => ?_, done⟩
    obtain ⟨hi, listed⟩ := sound.mem_inputsOf member
    exact settled input.id listed input hi
  refine ⟨js ++ [⟨id, q.backend, r.backend⟩], journal.append (.cons step (.nil r)), ?_, ?_, ?_⟩
  · intro c member
    rcases List.mem_append.1 member with before | last
    · exact up c before
    · rw [List.mem_singleton.1 last]
      exact .terminal
  · rw [step.compiled_eq]
    exact avoids.tail.compiling new
  · rw [step.compiled_eq]
    exact List.mem_cons_self

/-- A fed pin and those after it are recorded if the feeder is and then the others are. -/
theorem VisitRecorded.followed {pin : PinId} {pins : List PinId} {input : InputPin}
    {output : OutputPin} (hn : g.nodes.get? id = some n) (listed : pin ∈ n.inputs)
    (hi : g.inputPins.get? pin = some input) (source : g.source? input = some output)
    (feeder : g.VisitRecorded path output.node p q) (others : g.InputsRecorded path id pins q r) :
    g.InputsRecorded path id (pin :: pins) p r := by
  obtain ⟨js, first, up, -, compiled⟩ := feeder
  obtain ⟨ks, rest, up', avoids, settled⟩ := others
  have feeds : g.Upstream id output.node :=
    .feeder .terminal hn (List.mem_filterMap.2 ⟨pin, listed, hi⟩) source
  refine ⟨js ++ ks, first.append rest, ?_, avoids, ?_⟩
  · intro c member
    rcases List.mem_append.1 member with before | after
    · exact feeds.trans (up c before)
    · exact up' c after
  · intro k member i found
    rcases List.mem_cons.1 member with rfl | member
    · rw [hi] at found
      cases found
      exact rest.settled (.fed source compiled)
    · exact settled k member i found

/-- A visit that succeeds leaves a journal, and so does one of the feeders of some pins. -/
theorem visits_journal (sound : g.Sound) :
    (∀ path id (p : Progress ε), Avoids path p.compiled → ∀ q, g.visit path id p = (.ok (), q) →
      g.VisitRecorded path id p q)
    ∧ ∀ path id pins (p : Progress ε), Avoids path p.compiled →
      (∃ n, g.nodes.get? id = some n ∧ ∀ pin ∈ pins, pin ∈ n.inputs) →
      ∀ q, g.visitInputs path id pins p = (.ok (), q) → g.InputsRecorded path id pins p q := by
  refine visit.mutual_induct g _ _
    ?unregistered ?compiled ?cycle ?stopped ?settled ?noPins ?unfed ?free ?feederStopped ?feederSettled
  case unregistered =>
    intro path id p unregistered _ q done
    rw [visit_unregistered unregistered] at done
    cases done
  case compiled =>
    intro path id p n hn compiled avoids q done
    rw [visit_compiled hn compiled] at done
    cases done
    exact ⟨[], .nil p, (fun _ none => by cases none), avoids, compiled⟩
  case cycle =>
    intro path id p n hn fresh met _ q done
    rw [visit_cycle hn fresh met] at done
    cases done
  case stopped =>
    intro path id p n hn fresh new stop q' stopped _ _ q done
    rw [visit_stopped hn fresh new stopped] at done
    cases done
  case settled =>
    intro path id p n hn fresh new q' settled ih avoids q done
    rw [visit_settled hn fresh new settled] at done
    exact (ih (avoids.cons fresh) ⟨n, hn, fun _ listed => listed⟩ q' settled).compiled sound hn new done
  case noPins =>
    intro path id p avoids _ q done
    rw [visitInputs_nil] at done
    cases done
    exact ⟨[], .nil p, (fun _ none => by cases none), avoids, fun _ none => by cases none⟩
  case unfed =>
    intro path id p pin pins stop unfed _ _ q done
    rw [visitInputs_unfed unfed] at done
    cases done
  case free =>
    intro path id p pin pins free ih avoids lists q done
    obtain ⟨n, hn, listed⟩ := lists
    rw [visitInputs_free free] at done
    obtain ⟨js, journal, up, avoids, settled⟩ :=
      ih avoids ⟨n, hn, fun k member => listed k (List.mem_cons_of_mem _ member)⟩ q done
    refine ⟨js, journal, up, avoids, fun k member input hi => ?_⟩
    rcases List.mem_cons.1 member with rfl | member
    · obtain ⟨source, optional⟩ := sound.free hi free
      exact .free source optional
    · exact settled k member input hi
  case feederStopped =>
    intro path id p pin pins feeder fed stop q' stopped _ _ _ q done
    rw [visitInputs_stopped fed stopped] at done
    cases done
  case feederSettled =>
    intro path id p pin pins feeder fed q' settled ih rest avoids lists q done
    obtain ⟨n, hn, listed⟩ := lists
    obtain ⟨input, hi, -⟩ := sound.inputListed id n hn pin (listed pin List.mem_cons_self)
    obtain ⟨o, -, source, rfl, -⟩ := sound.fed hi fed
    rw [visitInputs_fed fed settled] at done
    have visited := ih avoids q' settled
    exact visited.followed hn (listed pin List.mem_cons_self) hi source
      (rest visited.avoids ⟨n, hn, fun k member => listed k (List.mem_cons_of_mem _ member)⟩ q done)

theorem visit_journal (sound : g.Sound) (path : List NodeId) (id : NodeId) (p : Progress ε)
    (avoids : Avoids path p.compiled) {q : Progress ε} (done : g.visit path id p = (.ok (), q)) :
    g.VisitRecorded path id p q :=
  (visits_journal sound).1 path id p avoids q done

end Visits

/-! ## The journal of a pass -/

/-- The journal of a whole pass: the nodes upstream of the terminal, each of them once. -/
structure PassRecorded (g : Graph) (b : ε) (terminal : NodeId) (js : List (Compilation ε)) : Prop where
  ran : ∃ p, g.Journal ⟨b, [], [], [.evaluating g.id terminal]⟩ js p ∧ (g.evaluate b).graph = g.withResults p
    ∧ (g.evaluate b).backend = p.backend
  reported : (g.evaluate b).events.filterMap Event.compiling? = js.map Compilation.node
  once : (js.map Compilation.node).Nodup
  upstream : ∀ id, id ∈ js.map Compilation.node ↔ g.Upstream terminal id

/-- An evaluation that succeeds leaves a journal. -/
theorem evaluate_journal (sound : g.Sound) {terminal : NodeId} (chosen : g.terminal = some terminal) {b : ε}
    (done : (g.evaluate b).result = .ok ()) : ∃ js, g.PassRecorded b terminal js := by
  obtain ⟨graph, backend, result⟩ := evaluate_chosen chosen b
  rw [result] at done
  cases visited : g.visit [] terminal ⟨b, [], [], [.evaluating g.id terminal]⟩ with
  | mk answer p =>
    rw [visited] at graph backend done
    obtain rfl : answer = .ok () := done
    have start : Closed g (⟨b, [], [], [.evaluating g.id terminal]⟩ : Progress ε) := fun _ none => by cases none
    obtain ⟨js, journal, up, -, compiled⟩ :=
      visit_journal sound [] terminal _ (fun _ none => by cases none) visited
    have listed : ∀ id, id ∈ p.compiled ↔ id ∈ js.map Compilation.node := by
      intro id
      rw [journal.compiled_eq, List.append_nil, List.mem_reverse]
    have reported : (g.evaluate b).events.filterMap Event.compiling? = js.map Compilation.node := by
      simp only [evaluate, chosen, visited, List.filterMap_append, journal.events]
      exact List.append_nil _
    refine ⟨js, ⟨p, journal, graph, backend⟩, reported, journal.once.1,
      fun id => ⟨fun member => ?_, fun above => ?_⟩⟩
    · obtain ⟨c, recorded, rfl⟩ := List.mem_map.1 member
      exact up c recorded
    · exact (listed id).1 ((journal.closed start).upstream compiled above)

end Graph

end FrameGraph
