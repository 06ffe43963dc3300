/-
  FrameGraph.Proofs.Compile.References: the table of a pipeline builder refers backward.

  A node is given values of the table, and what it records is made of these, of their members
  and of what it has recorded itself. So it is a discipline to leave a table whose entries refer
  to earlier ones only (`custody_lawful`), also when a rule stops halfway. A pass hands on nothing
  but values of the table (`visit_advanced`); hence it refers backward after any number of
  evaluations, whatever the graphs and however the passes ended (`continues_evaluating`).
-/

import FrameGraph.Pipeline.Builder
import FrameGraph.Proofs.Compile.Custody

namespace FrameGraph

open Evaluator (arrayMembers?)
open Pipeline (Builder)

namespace Pipeline

/-- The handles that an entry refers to. -/
def Entry.handles : Entry → List Handle
  | operation op => op.operands
  | group _ members => members

namespace Builder

variable {b b' b'' : Builder} {value : Handle}

/-! ## Tables that refer backward -/

/-- The handle leads to an entry. -/
def Has (b : Builder) (value : Handle) : Prop := value.index < b.entries.size

def Backward (b : Builder) : Prop :=
  ∀ (i : Nat) (e : Entry), b.entries[i]? = some e → ∀ h ∈ e.handles, h.index < i

theorem backward_of_empty (empty : b.entries = #[]) : b.Backward := by
  intro i e found
  rw [empty] at found
  cases found

/-- `b'` is `b` after some recording, and refers backward. -/
structure Continues (b b' : Builder) : Prop where
  backward : b'.Backward
  longer : b.entries.size ≤ b'.entries.size
  conversions : b'.conversions = b.conversions
  taken : b'.taken = b.taken

theorem Continues.refl (backward : b.Backward) : Continues b b := ⟨backward, Nat.le_refl _, rfl, rfl⟩

theorem Continues.trans (h : Continues b b') (h' : Continues b' b'') : Continues b b'' :=
  ⟨h'.backward, Nat.le_trans h.longer h'.longer, h'.conversions.trans h.conversions, h'.taken.trans h.taken⟩

theorem Continues.offers {registry : Registry} (h : Continues b b') (offers : Offers b registry) :
    Offers b' registry := by
  intro source target
  show b'.conversions.get? (source, target) = _
  rw [h.conversions]
  exact offers source target

theorem Has.stays (has : b.Has value) (h : Continues b b') : b'.Has value :=
  Nat.lt_of_lt_of_le has h.longer

/-- Members of a group stand before it. -/
theorem Backward.earlier (backward : b.Backward) {ms : List Handle} (found : arrayMembers? b value = some ms) :
    ∀ m ∈ ms, m.index < value.index := by
  obtain ⟨e, place, members⟩ := Option.bind_eq_some_iff.1 found
  cases e with
  | operation op => cases members
  | group name _ =>
    cases members
    exact backward value.index _ place

theorem Backward.members (backward : b.Backward) {ms : List Handle} (found : arrayMembers? b value = some ms) :
    ∀ m ∈ ms, b.Has m := by
  intro m member
  obtain ⟨e, place, -⟩ := Option.bind_eq_some_iff.1 found
  exact Nat.lt_trans (backward.earlier found m member) (Array.getElem?_eq_some_iff.1 place).1

theorem Backward.push (backward : b.Backward) {e : Entry} (known : ∀ h ∈ e.handles, b.Has h) :
    Continues b (b.push e).1 ∧ (b.push e).1.Has (b.push e).2 := by
  have size : (b.push e).1.entries.size = b.entries.size + 1 := Array.size_push ..
  refine ⟨⟨fun i e' found => ?_, by omega, rfl, rfl⟩, ?_⟩
  · simp only [Builder.push, Array.getElem?_push] at found
    split at found
    · rename_i new
      cases found
      exact new ▸ known
    · exact backward i e' found
  · show b.entries.size < _
    omega

/-- Going on with a table that refers backward, for any pass. -/
def custody (registry : Registry) : Custody Builder where
  good b := b.Backward ∧ Offers b registry
  leads := Continues
  vouches := Has
  admits _ := True
  yields _ := True

theorem custody_lawful (registry : Registry) : (custody registry).Lawful where
  refl good := .refl good.1
  trans := .trans
  good good leads := ⟨leads.backward, leads.offers good.2⟩
  stays := .stays
  members good _ found := good.1.members found
  record {_ op} good _ known :=
    have ⟨continues, has⟩ := good.1.push (e := .operation op) known
    ⟨continues, fun _ => has⟩
  group name good known := good.1.push (e := .group name _) known
  conversion {b source target k} good offered v type has := by
    rw [good.2] at offered
    cases known : registry source target with
    | none =>
      rw [known] at offered
      cases offered
    | some _ =>
      rw [known] at offered
      cases offered
      exact ⟨trivial, trivial, List.forall_mem_singleton.2 has⟩
  yields _ _ := trivial

end Builder

end Pipeline

open Pipeline.Builder (Continues custody custody_lawful)

/-! ## Passes -/

namespace Graph

variable {g : Graph} {registry : Registry} {p q r : Progress Builder}

/-- The values of a pass are in the table of its back end. -/
structure Tabled (registry : Registry) (p : Progress Builder) : Prop where
  backward : p.backend.Backward
  offers : Offers p.backend registry
  values : ∀ e ∈ p.values, p.backend.Has e.2

/-- The pass went on from `p` to `q`. -/
def Advanced (registry : Registry) (p q : Progress Builder) : Prop :=
  Tabled registry p → Continues p.backend q.backend ∧ Tabled registry q

theorem tabled_iff : Tabled registry p ↔ Orderly (custody registry) p :=
  ⟨fun h => ⟨⟨h.backward, h.offers⟩, h.values⟩, fun h => ⟨h.good.1, h.good.2, h.values⟩⟩

theorem Advanced.refl (p : Progress Builder) : Advanced registry p p :=
  fun tabled => ⟨.refl tabled.backward, tabled⟩

theorem Advanced.trans (h : Advanced registry p q) (h' : Advanced registry q r) : Advanced registry p r := by
  intro tabled
  obtain ⟨continues, tabled⟩ := h tabled
  obtain ⟨continues', tabled⟩ := h' tabled
  exact ⟨continues.trans continues', tabled⟩

theorem compileNode_advanced (id : NodeId) (n : Node) (p : Progress Builder) :
    Advanced registry p (g.compileNode id n p).2 := by
  intro tabled
  obtain ⟨continues, orderly, -⟩ :=
    compileNode_kept (custody_lawful registry) (tabled_iff.1 tabled) fun _ _ => trivial
  exact ⟨continues, tabled_iff.2 orderly⟩

/-- However a visit ends, the table goes on referring backward. -/
theorem visit_advanced (path : List NodeId) (id : NodeId) (p : Progress Builder) :
    Advanced registry p (g.visit path id p).2 :=
  visit_keeps .refl .trans (fun id n p _ => compileNode_advanced id n p) path id p

/-- An evaluation continues the table that it is given, also when it fails. -/
theorem evaluate_continues {b : Builder} (backward : b.Backward) (offers : Offers b registry) :
    Continues b (g.evaluate b).backend := by
  cases chosen : g.terminal with
  | none =>
    rw [evaluate_unchosen chosen]
    exact .refl backward
  | some terminal =>
    obtain ⟨-, backend, -⟩ := evaluate_chosen chosen b
    rw [backend]
    have start : Tabled registry (⟨b, [], [], [.evaluating g.id terminal]⟩ : Progress Builder) :=
      ⟨backward, offers, fun e none => absurd none List.not_mem_nil⟩
    exact (visit_advanced [] terminal _ start).1

end Graph

/-! ## Evaluations one after another -/

namespace Pipeline.Builder

/-- The builder after evaluating some graphs against it, successfully or not. -/
def evaluating (b : Builder) (gs : List Graph) : Builder := gs.foldl (fun b g => (g.evaluate b).backend) b

theorem continues_evaluating {b : Builder} {registry : Registry} (backward : b.Backward) (offers : Offers b registry)
    (gs : List Graph) : Continues b (b.evaluating gs) := by
  induction gs generalizing b with
  | nil => exact .refl backward
  | cons g gs ih =>
    have first := g.evaluate_continues backward offers
    exact first.trans (ih first.backward (first.offers offers))

end Pipeline.Builder

end FrameGraph
