/-
  FrameGraph.Proofs.Document.Lifetime: no id is handed out twice in the life of a graph.

  A graph lives through edits, and through being saved and loaded again. An object that was
  removed leaves no trace in the graph, and a loader can only check the ids that are still
  there; so what keeps its id from coming back is the counter. Each step takes what it hands out
  off the counter (`perform_drawn`), a document stores the counter, and a graph that starts with
  nothing has at every moment handed out just the numbers below it (`life_unrepeated`).
-/

import FrameGraph.Proofs.Document.Saving
import FrameGraph.Proofs.Store.Numbering
import Mathlib.Data.List.Chain

namespace FrameGraph

/-! ## Lives -/

/-- A graph is edited, or it is printed and read back. -/
inductive Step : Type 1 where
  | edit (e : Edit)
  | reload

/-- The ids that a step handed out, and the graph after it. -/
structure Moment where
  issued : List Nat
  graph : Graph

/-- What is read of a graph's own print. Reading may be refused, and then it is still the old one. -/
def Graph.reload (g : Graph) : Graph := (Graph.parse g.print).toOption.getD g

namespace Step

def perform : Step → Graph → Except Fault Moment
  | edit e, g => (e.apply g).map (⟨e.issued g, ·⟩)
  | reload, g => .ok ⟨[], g.reload⟩

def life : List Step → Graph → Except Fault (List Moment)
  | [], _ => .ok []
  | step :: steps, g => do
    let moment ← step.perform g
    return moment :: (← life steps moment.graph)

/-- Numbers of list members have a width; whatever else a step puts in is admitted. -/
def Within : Step → Prop
  | edit e => e.Within countable
  | reload => True

end Step

/-- The counter never falls, no id was handed out twice, and whatever is in the graph at some
moment was handed out by then. -/
structure Unrepeated (past : List Moment) : Prop where
  rises : (past.map fun m => m.graph.nextId).Pairwise (· ≤ ·)
  distinct : (past.flatMap Moment.issued).Nodup
  known : ∀ before m after, past = before ++ m :: after →
    ∀ i ∈ m.graph.ids, i ∈ (before ++ [m]).flatMap Moment.issued

namespace Graph

/-! ## One step -/

theorem perform_sound {g : Graph} (h : g.Sound) (sized : Every (fun o => o.shape.Sized) g) (step : Step) :
    ∃ m, step.perform g = .ok m ∧ m.graph.Sound ∧ Every (fun o => o.shape.Sized) m.graph := by
  cases step with
  | edit e =>
    obtain ⟨g', applied, sound, every⟩ := apply_sound h sized (within_anything e)
    exact ⟨⟨e.issued g, g'⟩, by rw [Step.perform, applied]; rfl, sound, every _ Outline.durable_sized sized⟩
  | reload =>
    refine ⟨_, rfl, ?_⟩
    rw [reload]
    cases parsed : parse g.print with
    | ok loaded => exact Start.sound (.loaded _ parsed)
    | error e => exact ⟨h, sized⟩

/-- A graph that a document has room for comes back with its ids and its counter. -/
theorem reload_eq {g : Graph} (h : g.Sound) (countable : Every Outline.Countable g) (small : g.nextId < 2 ^ 32) :
    g.reload = g.plain.resetEvaluation := by
  rw [reload, parse_plain h small countable]
  rfl

theorem perform_drawn {g : Graph} (h : g.Sound) (countable : Every Outline.Countable g) (small : g.nextId < 2 ^ 32)
    {step : Step} (within : step.Within) {m : Moment} (performed : step.perform g = .ok m) :
    Drawn g m.issued m.graph ∧ m.graph.Sound ∧ Every Outline.Countable m.graph := by
  have sized := countable.sized Outline.durable_countable
  cases step with
  | edit e =>
    obtain ⟨g', applied, sound, every⟩ := apply_sound h sized within
    rw [Step.perform, applied] at performed
    cases performed
    exact ⟨apply_drawn h sized applied, sound, every _ Outline.durable_countable countable⟩
  | reload =>
    cases performed
    rw [reload_eq h countable small]
    have drawn : Drawn g [] g.plain := drawn_repainted ..
    have every : Every Outline.Countable g.plain := fun k n hn => (legible_plain countable k n hn).toCountable
    have reset := h.plain.resetEvaluation
    have cleared : Drawn g.plain [] g.plain.resetEvaluation :=
      apply_drawn h.plain (every.sized Outline.durable_countable) (e := .resetEvaluation) rfl
    exact ⟨drawn.trans cleared, reset.1, reset.2 _ every⟩

/-! ## Whole lives -/

theorem life_cons {step : Step} {steps : List Step} {g g' : Graph} {issued : List Nat} {past : List Moment}
    (performed : step.perform g = .ok ⟨issued, g'⟩) (lived : Step.life steps g' = .ok past) :
    Step.life (step :: steps) g = .ok (⟨issued, g'⟩ :: past) := by
  rw [Step.life, performed]
  show (Step.life steps g' >>= fun past => pure (⟨issued, g'⟩ :: past)) = _
  rw [lived]
  rfl

theorem life_ok (steps : List Step) {g : Graph} (h : g.Sound) (sized : Every (fun o => o.shape.Sized) g) :
    ∃ past, Step.life steps g = .ok past := by
  induction steps generalizing g with
  | nil => exact ⟨[], rfl⟩
  | cons step steps ih =>
    obtain ⟨m, performed, sound, sized'⟩ := perform_sound h sized step
    obtain ⟨past, lived⟩ := ih sound sized'
    exact ⟨m :: past, life_cons performed lived⟩

/-- One moment after another. -/
def Follows (m m' : Moment) : Prop := Drawn m.graph m'.issued m'.graph

theorem life_chain {steps : List Step} (within : ∀ s ∈ steps, s.Within) {start : Moment} (h : start.graph.Sound)
    (countable : Every Outline.Countable start.graph) {past : List Moment}
    (lived : Step.life steps start.graph = .ok past)
    (small : ∀ m ∈ start :: past, m.graph.nextId < 2 ^ 32) : (start :: past).IsChain Follows := by
  induction steps generalizing start past with
  | nil =>
    cases lived
    exact .singleton _
  | cons step steps ih =>
    obtain ⟨m, performed, lived⟩ := bind_eq_ok_iff.1 lived
    obtain ⟨rest, others, made⟩ := bind_eq_ok_iff.1 lived
    cases made
    obtain ⟨follows, sound, countable'⟩ :=
      perform_drawn h countable (small _ List.mem_cons_self) (within _ List.mem_cons_self) performed
    have later := ih (fun s hs => within s (List.mem_cons_of_mem _ hs)) sound countable' others
      fun m hm => small m (List.mem_cons_of_mem _ hm)
    exact .cons_cons follows later

/-- What was handed out from one moment to a later one. -/
theorem chain_drawn {start last : Moment} {before : List Moment}
    (chain : (start :: (before ++ [last])).IsChain Follows) :
    Drawn start.graph ((before ++ [last]).flatMap Moment.issued) last.graph := by
  induction before generalizing start with
  | nil =>
    have follows : Drawn start.graph last.issued last.graph := (List.isChain_cons_cons.1 chain).1
    simpa using follows
  | cons m before ih =>
    obtain ⟨follows, rest⟩ := List.isChain_cons_cons.1 chain
    exact Drawn.trans follows (ih rest)

/-- Ids are never handed out twice, however a new graph is edited, evaluated, saved and loaded,
as long as the counter does not overflow. -/
theorem life_unrepeated (id : Uuid) (name : String) {steps : List Step} (within : ∀ s ∈ steps, s.Within) :
    ∃ past, Step.life steps (.new id name) = .ok past
      ∧ ((∀ m ∈ past, m.graph.nextId < 2 ^ 32) → Unrepeated past) := by
  obtain ⟨past, lived⟩ := life_ok steps (sound_new id name) every_new
  refine ⟨past, lived, fun small => ?_⟩
  let start : Moment := ⟨[], .new id name⟩
  have counter : start.graph.nextId < 2 ^ 32 := Nat.two_pow_pos 32
  have chain : (start :: past).IsChain Follows :=
    life_chain within (sound_new id name) every_new lived (List.forall_mem_cons.2 ⟨counter, small⟩)
  have handed : ∀ before m after, past = before ++ m :: after →
      Drawn start.graph ((before ++ [m]).flatMap Moment.issued) m.graph := by
    intro before m after split
    have whole : start :: past = start :: (before ++ [m]) ++ after := by simp [split]
    rw [whole] at chain
    exact chain_drawn chain.left_of_append
  constructor
  · have rising : (past.map fun m => m.graph.nextId).IsChain (· ≤ ·) := by
      refine List.isChain_map_of_isChain _ (fun m m' follows => ?_) (List.isChain_cons.1 chain).2
      rw [Drawn.counter follows]
      exact Nat.le_add_right ..
    exact rising.pairwise
  · rcases List.eq_nil_or_concat' past with rfl | ⟨before, last, rfl⟩
    · exact List.nodup_nil
    · rw [(handed before last [] (by simp)).next]
      exact List.nodup_range'
  · intro before m after split i hi
    exact ((handed before m after split).known i hi).resolve_left (by simp [start, ids, new, Table.keys, Table.empty])

def removedTarget : List Edit := [.addNode (.provider .target) .origin, .removeNode ⟨0⟩]

def shownTarget : List Edit := [.addNode .screen .origin, .addNode (.provider .target) .origin, .connect ⟨6⟩ ⟨3⟩]

/-- A target is made and removed, the empty graph is reloaded, and another target is shown. -/
def replacedTarget : List Step := removedTarget.map .edit ++ .reload :: shownTarget.map .edit

/-- After the reload nothing in the graph tells that 0 and 1 were in use. -/
theorem life_unrepeated_target : (∀ s ∈ replacedTarget, s.Within) ∧ ∃ past,
    Step.life replacedTarget (.new .zero untitled) = .ok past
      ∧ past.map Moment.issued = [[0, 1], [], [], [2, 3, 4], [5, 6], [7]]
      ∧ (∀ m ∈ past, m.graph.nextId < 2 ^ 32) ∧ Unrepeated past := by
  have within : ∀ s ∈ replacedTarget, s.Within := by
    simp only [replacedTarget, removedTarget, shownTarget, List.map_cons, List.map_nil, List.cons_append,
      List.nil_append, List.forall_mem_cons, Step.Within, Edit.Within, countable, Kind.Storable]
    simp [Kind.index?]
  obtain ⟨past, lived, unrepeated⟩ := life_unrepeated .zero untitled within
  -- The graph that is printed is found by running the edits before; its text need not be computed.
  let made := ((new .zero untitled).addNode (.provider .target) .origin).graph
  let emptied := (made.removeNode ⟨0⟩).graph
  have removed : ∀ e ∈ removedTarget, e.Within countable := fun e he =>
    within (.edit e) (List.mem_append_left _ (List.mem_map.2 ⟨e, he, rfl⟩))
  obtain ⟨sound, countable⟩ : emptied.Sound ∧ Every Outline.Countable emptied := by
    obtain ⟨g, ran, sound, every⟩ := run_sound removed (sound_new .zero untitled) every_new
    have same : Edit.run removedTarget (new .zero untitled) = .ok emptied := rfl
    cases same.symm.trans ran
    exact ⟨sound, every _ Outline.durable_countable every_new⟩
  have reloaded : emptied.reload = emptied.plain.resetEvaluation := reload_eq sound countable (by decide)
  have later : (Step.life (shownTarget.map .edit) emptied.plain.resetEvaluation).map
      (fun past => past.map fun m => (m.issued, m.graph.nextId)) = .ok [([2, 3, 4], 5), ([5, 6], 7), ([7], 8)] := by
    decide
  cases shown : Step.life (shownTarget.map .edit) emptied.plain.resetEvaluation with
  | error f =>
    rw [shown] at later
    cases later
  | ok rest =>
    rw [shown] at later
    have numbers : rest.map (fun m => (m.issued, m.graph.nextId)) = [([2, 3, 4], 5), ([5, 6], 7), ([7], 8)] :=
      Except.ok.inj later
    have issued : rest.map Moment.issued = [[2, 3, 4], [5, 6], [7]] := by
      simpa [Function.comp_def] using congrArg (List.map Prod.fst) numbers
    have below : ∀ m ∈ rest, m.graph.nextId < 2 ^ 32 := by
      have all : ∀ e ∈ rest.map (fun m => (m.issued, m.graph.nextId)), e.2 < 2 ^ 32 := by
        rw [numbers]
        decide
      exact fun m hm => all _ (List.mem_map.2 ⟨m, hm, rfl⟩)
    rw [← reloaded] at shown
    have third : Step.life (.reload :: shownTarget.map .edit) emptied = .ok (⟨[], emptied.reload⟩ :: rest) :=
      life_cons rfl shown
    have whole : Step.life replacedTarget (new .zero untitled)
        = .ok (⟨[0, 1], made⟩ :: ⟨[], emptied⟩ :: ⟨[], emptied.reload⟩ :: rest) :=
      life_cons rfl (life_cons rfl third)
    cases lived.symm.trans whole
    have small : ∀ m ∈ ⟨[0, 1], made⟩ :: ⟨[], emptied⟩ :: ⟨[], emptied.reload⟩ :: rest, m.graph.nextId < 2 ^ 32 := by
      simp only [List.forall_mem_cons]
      exact ⟨by decide, by decide, by rw [reloaded]; decide, below⟩
    exact ⟨within, _, whole, by rw [← issued]; rfl, small, unrepeated small⟩

end Graph

end FrameGraph
